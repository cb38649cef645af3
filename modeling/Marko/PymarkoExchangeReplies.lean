import Marko.PymarkoExchangeSteps

/-! A requester that waits without timeout gets the replies of all callbacks one after another,
in the order of its requests. -/
namespace Pymarko

open Datagram Interaction

section Blocks

/-! Where an element of a concatenation of blocks comes from, when no block is empty. -/

variable {α β : Type} {block : α → List β} {xs : List α}

theorem length_le_length_flatMap (hne : ∀ x ∈ xs, block x ≠ []) :
    xs.length ≤ (xs.flatMap block).length := by
  induction xs with
  | nil => exact Nat.le_refl 0
  | cons x xs ih =>
    have hrest := ih fun y hy => hne y (List.mem_cons_of_mem x hy)
    have hx : 0 < (block x).length := List.length_pos_iff.mpr (hne x List.mem_cons_self)
    rw [List.flatMap_cons, List.length_append, List.length_cons]
    omega

/-- The element at position `k` is from one of the first `k + 1` blocks. -/
theorem exists_block_of_getElem? {k : ℕ} {r : β} (hne : ∀ x ∈ xs, block x ≠ [])
    (hr : (xs.flatMap block)[k]? = some r) : ∃ j ≤ k, ∃ x, xs[j]? = some x ∧ r ∈ block x := by
  induction xs generalizing k with
  | nil => cases hr
  | cons x xs ih =>
    rw [List.flatMap_cons] at hr
    by_cases hk : k < (block x).length
    · rw [List.getElem?_append_left hk] at hr
      exact ⟨0, Nat.zero_le k, x, rfl, List.mem_of_getElem? hr⟩
    · -- past the first block, which has at least one element
      have hx : 0 < (block x).length := List.length_pos_iff.mpr (hne x List.mem_cons_self)
      rw [List.getElem?_append_right (Nat.le_of_not_lt hk)] at hr
      obtain ⟨j, hj, y, hy, hmem⟩ := ih (fun z hz => hne z (List.mem_cons_of_mem x hz)) hr
      exact ⟨j + 1, by omega, y, hy, hmem⟩

/-- It is from block `k` itself when the blocks before have one element each. -/
theorem mem_block_of_getElem? {k : ℕ} {r : β} (hne : ∀ x ∈ xs, block x ≠ [])
    (hone : ∀ x ∈ xs.take k, (block x).length = 1) (hr : (xs.flatMap block)[k]? = some r) :
    ∃ x, xs[k]? = some x ∧ r ∈ block x := by
  induction xs generalizing k with
  | nil => cases hr
  | cons x xs ih =>
    rw [List.flatMap_cons] at hr
    cases k with
    | zero =>
      have hx : 0 < (block x).length := List.length_pos_iff.mpr (hne x List.mem_cons_self)
      rw [List.getElem?_append_left hx] at hr
      exact ⟨x, rfl, List.mem_of_getElem? hr⟩
    | succ k =>
      have hx : (block x).length = 1 := hone x List.mem_cons_self
      rw [List.getElem?_append_right (by omega), hx, Nat.add_sub_cancel] at hr
      exact ih (fun z hz => hne z (List.mem_cons_of_mem x hz))
        (fun z hz => hone z (List.mem_cons_of_mem x hz)) hr

end Blocks

namespace Exchange

variable {K : Type} (F : Exchange K)

def data? : Work → Option Bytes
  | .request data => some data
  | .serve => none

def result? : Outcome → Option (Except PyError (Option Bytes))
  | .returned r => some r
  | .served _ => none

def requests (N : NetState K) : List Bytes := (N.started F.requester).filterMap data?

def results (N : NetState K) : List (Except PyError (Option Bytes)) :=
  (N.returned F.requester).filterMap fun v => result? v.result

/-! Where the requests and the replies are. -/

def held : Phase K → List (Except PyError (Option Bytes))
  | .returning _ r => [r]
  | _ => []

def unsent : Phase K → List Bytes
  | .asking data => [data]
  | _ => []

def owed : Phase K → List Bytes
  | .calling data _ rest => rest.filterMap fun cb => F.answer cb data
  | .replying data _ reply rest => reply :: rest.filterMap fun cb => F.answer cb data
  | _ => []

/-- The requests that the server has not taken from its queue. -/
def unserved (N : NetState K) (φ : Address → Phase K) : List Bytes :=
  (N.queue F.server).map Packet.payload ++
    (N.flight (F.requester, F.server)).map Packet.payload ++ unsent (φ F.requester)

/-- The replies that the requester has not taken from its queue, those of the requests not yet
served included. -/
def backlog (N : NetState K) (φ : Address → Phase K) : List Bytes :=
  (N.queue F.requester).map Packet.payload ++
    (N.flight (F.server, F.requester)).map Packet.payload ++ F.owed (φ F.server) ++
      (F.unserved N φ).flatMap F.repliesTo

def running : Phase K → ℕ
  | .asking _ => 1
  | .waiting _ => 1
  | .returning _ _ => 1
  | _ => 0

/-- The replies form one sequence in the order of the requests; the requester has taken a first
part of it, one reply for each call that has received. -/
structure Ordered (N : NetState K) (φ : Address → Phase K) : Prop where
  replies : ∃ got, F.results N ++ held (φ F.requester) = got.map (fun r => .ok (some r)) ∧
    (F.requests N).flatMap F.repliesTo = got ++ F.backlog N φ
  calls : (F.requests N).length = (F.results N).length + running (φ F.requester)
  proper : ∀ data ∈ F.requests N, F.Proper data

variable {F} {P : Policy Address} {N N' : NetState K} {φ φ' : Address → Phase K}

theorem ordered_empty : F.Ordered .empty fun _ => .idle where
  replies := ⟨[], rfl, rfl⟩
  calls := rfl
  proper _ h := absurd h List.not_mem_nil

/-- A step that is not the requester's and loses no reply. -/
theorem Ordered.frame (h : F.Ordered N φ) (hstarted : N'.started F.requester =
    N.started F.requester) (hreturned : N'.returned F.requester = N.returned F.requester)
    (hphase : φ' F.requester = φ F.requester) (hbacklog : F.backlog N' φ' = F.backlog N φ) :
    F.Ordered N' φ' := by
  have hrequests : F.requests N' = F.requests N := by rw [requests, requests, hstarted]
  have hresults : F.results N' = F.results N := by rw [results, results, hreturned]
  constructor
  · rw [hrequests, hresults, hphase, hbacklog]
    exact h.replies
  · rw [hrequests, hresults, hphase]
    exact h.calls
  · rw [hrequests]
    exact h.proper

theorem owed_afterCall (data : Bytes) (addr : Address) (cb : K) (rest : List K) :
    F.owed (F.afterCall data addr cb rest) = F.owed (.calling data addr (cb :: rest)) := by
  unfold afterCall
  cases hanswer : F.answer cb data <;> simp only [owed, List.filterMap_cons, hanswer]

theorem requests_ask (data : Bytes) :
    F.requests (N.start F.requester (.request data)) = F.requests N ++ [data] := by
  simp [requests, data?]

theorem Ordered.step (h : F.Ordered N φ) (hstep : F.Step P N φ N' φ') : F.Ordered N' φ' := by
  have hne := F.ne
  have hne' := F.ne.symm
  have hordered := h
  obtain ⟨⟨got, hresults, hreplies⟩, hcalls, hall⟩ := h
  cases hstep with
  | ask data hphase hproper =>
    -- a new request adds its replies at the end of the sequence
    refine ⟨⟨got, ?_, ?_⟩, ?_, ?_⟩
    · simpa [results, held, hphase] using hresults
    · simp [requests, backlog, unserved, unsent, owed, data?, hphase, hne] at hreplies ⊢
      simp [hreplies]
    · simpa [requests, results, running, data?, hphase] using hcalls
    · rw [requests_ask]
      exact List.forall_mem_append.mpr ⟨hall, List.forall_mem_singleton.mpr hproper⟩
  | send data hphase =>
    refine ⟨⟨got, ?_, ?_⟩, ?_, hall⟩
    · simpa [results, held, hphase] using hresults
    · simpa [requests, backlog, unserved, unsent, hphase, hne, hne'] using hreplies
    · simpa [requests, results, running, hphase] using hcalls
  | receive data p rest hphase hqueue =>
    -- the call receives the next reply of the sequence
    refine ⟨⟨got ++ [p.payload], ?_, ?_⟩, ?_, hall⟩
    · simpa [results, held, hphase] using hresults
    · simpa [requests, backlog, unserved, unsent, hphase, hqueue, hne] using hreplies
    · simpa [requests, results, running, hphase] using hcalls
  | returned data r hphase =>
    refine ⟨⟨got, ?_, ?_⟩, ?_, hall⟩
    · simpa [results, held, result?, hphase] using hresults
    · simpa [requests, backlog, unserved, unsent, hphase, hne] using hreplies
    · simpa [requests, results, running, result?, hphase] using hcalls
  | listen hphase =>
    refine hordered.frame ?_ rfl ?_ ?_
    · exact Function.update_of_ne hne' _ _
    · exact Function.update_of_ne hne' _ _
    · simp [backlog, unserved, owed, hphase, hne']
  | handle p rest hphase hqueue =>
    -- the request's replies move from the unserved part to what the loop owes
    refine hordered.frame rfl rfl ?_ ?_
    · exact Function.update_of_ne hne' _ _
    · simp [backlog, unserved, owed, repliesTo, hphase, hqueue, hne']
  | quiet htime hphase =>
    refine hordered.frame rfl rfl ?_ ?_
    · exact Function.update_of_ne hne' _ _
    · simp [backlog, unserved, owed, hphase, hne']
  | call data cb rest hphase =>
    refine hordered.frame rfl rfl ?_ ?_
    · exact Function.update_of_ne hne' _ _
    · simp [backlog, unserved, owed_afterCall, hphase, hne']
  -- the reply moves from what the loop owes to the wire
  | reply data reply rest hphase =>
    refine hordered.frame rfl rfl ?_ ?_
    · exact Function.update_of_ne hne' _ _
    · simp [backlog, unserved, owed, hphase, hne, hne']
  | called data hphase =>
    refine hordered.frame rfl ?_ ?_ ?_
    · exact Function.update_of_ne hne' _ _
    · exact Function.update_of_ne hne' _ _
    · simp [backlog, unserved, owed, hphase, hne']
  | closed r hphase =>
    refine hordered.frame rfl ?_ ?_ ?_
    · exact Function.update_of_ne hne' _ _
    · exact Function.update_of_ne hne' _ _
    · simp [backlog, unserved, owed, hphase, hne']
  | arriveAtServer p rest hflight =>
    refine hordered.frame rfl rfl rfl ?_
    simp [backlog, unserved, hflight, hne, hne']
  | arriveAtRequester p rest hflight =>
    refine hordered.frame rfl rfl rfl ?_
    simp [backlog, unserved, hflight, hne, hne']

theorem Ordered.results_eq (h : F.Ordered N φ) : F.results N =
    (((F.requests N).flatMap F.repliesTo).take (F.results N).length).map
      fun r => .ok (some r) := by
  obtain ⟨got, hresults, hreplies⟩ := h.replies
  have hlen : (F.results N).length ≤ got.length := by
    have hboth := congrArg List.length hresults
    rw [List.length_append, List.length_map] at hboth
    omega
  calc F.results N = (F.results N ++ held (φ F.requester)).take (F.results N).length :=
        List.take_left.symm
    _ = (got.take (F.results N).length).map fun r => .ok (some r) := by
        rw [hresults, List.map_take]
    _ = _ := by rw [hreplies, List.take_append_of_le_length hlen]

/-- The `k`-th result answers one of the first requests up to the `k`-th, and the `k`-th itself
when those before drew one reply each. -/
theorem Ordered.result_answers (h : F.Ordered N φ) {k : ℕ} {r : Except PyError (Option Bytes)}
    (hr : (F.results N)[k]? = some r) : ∃ reply, r = .ok (some reply) ∧
      (∃ j ≤ k, ∃ data, (F.requests N)[j]? = some data ∧ reply ∈ F.repliesTo data) ∧
      ((∀ data ∈ (F.requests N).take k, (F.repliesTo data).length = 1) →
        ∃ data, (F.requests N)[k]? = some data ∧ reply ∈ F.repliesTo data) := by
  have hne : ∀ data ∈ F.requests N, F.repliesTo data ≠ [] :=
    fun data hdata => (h.proper data hdata).2.2.2
  rw [h.results_eq, List.getElem?_map, Option.map_eq_some_iff] at hr
  obtain ⟨reply, hreply, rfl⟩ := hr
  have hget : ((F.requests N).flatMap F.repliesTo)[k]? = some reply := by
    rw [List.getElem?_take] at hreply
    exact (Option.ite_none_right_eq_some.mp hreply).2
  refine ⟨reply, rfl, exists_block_of_getElem? hne hget, ?_⟩
  exact fun hone => mem_block_of_getElem? hne hone hget

theorem Ordered.waiting_backlog (h : F.Ordered N φ) {data : Bytes}
    (hphase : φ F.requester = .waiting data) : F.backlog N φ ≠ [] := by
  intro hnil
  obtain ⟨got, hresults, hreplies⟩ := h.replies
  have hcalls := h.calls
  have hle : (F.requests N).length ≤ ((F.requests N).flatMap F.repliesTo).length :=
    length_le_length_flatMap fun data hdata => (h.proper data hdata).2.2.2
  -- the call that waits is a request more than there are results, and it has a reply
  have hheld : held (φ F.requester) = [] := by
    rw [hphase]
    rfl
  have hlen := congrArg List.length hresults
  rw [hheld, List.append_nil, List.length_map] at hlen
  rw [hreplies, hnil, List.append_nil] at hle
  rw [hphase, running] at hcalls
  omega

end Exchange

end Pymarko
