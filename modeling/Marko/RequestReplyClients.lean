import Marko.RequestReplyPairing

/-! Clients that wait for their answers do not get each other's, although no datagram says
to which call it belongs. -/
namespace Marko

open Datagram CallPipeline

namespace Service

variable {A : Type} [DecidableEq A] {S : Service A} {P : Policy A} {N : NetState A}
  {φ : A → Phase A} {i : A}

/-- Every call that returned got its own answer, the callback was invoked at most once for
each call, and no client has a datagram that another client's request led to. -/
structure Uncrossed (S : Service A) (N : NetState A) : Prop where
  returned : ∀ i, S.clients i = true → ∀ ret ∈ N.returned i,
    ∃ m, ret.job = .ask m ∧ ret.result = .reply (S.callback m)
  invoked_once : ((N.invoked S.server).map Invocation.cause).Nodup
  invoked_for : ∀ v ∈ N.invoked S.server,
    S.clients v.cause.1 = true ∧ (N.started v.cause.1)[v.cause.2]? = some (.ask v.msg)
  queue : ∀ i, S.clients i = true → ∀ p ∈ N.queue i, p.cause.1 = i ∧
    ∃ m, (N.started i)[p.cause.2]? = some (.ask m) ∧ p.payload = S.callback m

theorem nodup_causes {K : Type} (invoked : List (Invocation K A))
    (h : ∀ i, ((invoked.filter fun v => v.cause.1 = i).map fun v => v.cause.2).Pairwise (· < ·)) :
    (invoked.map Invocation.cause).Nodup := by
  induction invoked with
  | nil => exact List.nodup_nil
  | cons v invoked ih =>
    rw [List.map_cons, List.nodup_cons]
    constructor
    · intro hv
      -- the numbers of one party increase, so a second `v.cause` would be above itself
      obtain ⟨w, hw, hcause⟩ := List.mem_map.mp hv
      have hpair := h v.cause.1
      simp only [List.filter_cons, decide_true, if_true, List.map_cons, List.pairwise_cons] at hpair
      have hmem : w ∈ invoked.filter fun u => u.cause.1 = v.cause.1 :=
        List.mem_filter.mpr ⟨hw, by simp [hcause]⟩
      have hlt := hpair.1 w.cause.2 (List.mem_map_of_mem hmem)
      rw [hcause] at hlt
      exact Nat.lt_irrefl _ hlt
    · apply ih
      intro i
      refine List.Pairwise.sublist ?_ (h i)
      exact ((List.sublist_cons_self v invoked).filter _).map _

theorem Paired.invoked_once (h : S.Paired P N φ) :
    ((N.invoked S.server).map Invocation.cause).Nodup := by
  apply nodup_causes
  intro i
  by_cases hi : S.clients i = true
  · have hserved := (h.ordered i hi).servable
    simp only [Calls.servable, calls, List.map_map] at hserved
    exact (List.pairwise_append.mp hserved).1
  · -- no invocation has a cause that is not a client
    have hnone : (N.invoked S.server).filter (fun v => v.cause.1 = i) = [] := by
      rw [List.filter_eq_nil_iff]
      intro v hv hvi
      exact hi (of_decide_eq_true hvi ▸ h.invoked v hv)
    rw [hnone]
    exact List.Pairwise.nil

/-- A call of a client that never times out returns the answer to its own request. -/
theorem Paired.returned_own (h : S.Paired P N φ) (hi : S.clients i = true)
    (htime : P.timeouts i = false) {ret : Return A Work Outcome} (hret : ret ∈ N.returned i) :
    ∃ m, ret.job = .ask m ∧ ret.result = .reply (S.callback m) := by
  obtain ⟨hlog, -⟩ := h.patient i hi htime
  obtain ⟨k, hk⟩ := List.mem_iff_getElem?.mp hret
  obtain ⟨m, r, hjob, hr, hle⟩ := h.replied i hi k ret hk
  have hne : r ≠ [] := fun hnil => hlog ret hret (hnil ▸ hr)
  have hlate := h.le_add_timeouts hi hk hr hne
  have hnone : timeouts ((N.returned i).take k) = 0 :=
    List.countP_eq_zero.mpr fun x hx => by simpa using hlog x (List.mem_of_mem_take hx)
  -- not late at all, since no call before it timed out
  have hcause : ret.cause.2 = k := by
    have := hle hne
    omega
  obtain ⟨m', hm', rfl⟩ := h.reply_eq hi hk hr hne
  rw [hcause, hk, Option.map_some, hjob] at hm'
  obtain rfl := Work.ask.inj (Option.some.inj hm')
  exact ⟨m, hjob, hr⟩

theorem Paired.uncrossed (h : S.Paired P N φ)
    (hpatient : ∀ i, S.clients i = true → P.timeouts i = false) : S.Uncrossed N where
  returned i hi ret hret := h.returned_own hi (hpatient i hi) hret
  invoked_once := h.invoked_once
  invoked_for v hv := by
    have hclient := h.invoked v hv
    refine ⟨hclient, ?_⟩
    have hmem : (v.cause.2, Work.ask v.msg) ∈ (S.calls v.cause.1 N φ).served := by
      simp only [calls, List.mem_map, List.mem_filter]
      exact ⟨v, ⟨hv, decide_eq_true rfl⟩, rfl⟩
    exact (h.ordered _ hclient).served _ hmem
  queue i hi p hp := by
    have hroute := h.addressed.queue i p hp
    refine ⟨(hroute.to_client hi).2.1, ?_⟩
    have hmem : (p.cause.2, p.payload) ∈ (S.calls i N φ).replies := by
      apply List.mem_append_left
      apply List.mem_append_left
      exact List.mem_map_of_mem hp
    obtain ⟨job, hjob, hpayload⟩ := (h.ordered i hi).reply _ hmem
    cases job with
    | ask m => exact ⟨m, hjob, hpayload⟩
    | serve => exact absurd hpayload (hroute.reply_ne_nil hi)

/-- However datagrams are delayed, lost or reordered, clients without a receive timeout never
get each other's answers, in any reachable state. -/
theorem clients_do_not_cross [Zero A] {D : SocketDefs}
    (hpatient : ∀ i, S.clients i = true → P.timeouts i = false)
    {c : Config A Unit Message Work Outcome} (hc : (network (S.deployment D) P).Reachable c) :
    S.Uncrossed c.net := by
  obtain ⟨φ, h⟩ := paired_of_reachable (fun _ => hpatient) hc
  exact h.uncrossed hpatient

/-- Two clients, a server at address 1 that answers one byte with the same byte, and a network
that does everything but duplicate, alter and invent. -/
def twoClients : Service ℕ :=
  { echo with
    clients := fun i => i = 2 ∨ i = 3
    server_not_client := rfl }

def unorderedNetwork : Policy ℕ := { reorder := true, lossy := true, timeouts := fun _ => false }

/-- Both clients ask, the younger request overtakes the older one, and its answer is lost. -/
def overtaking : List (Label ℕ Unit Work Outcome) :=
  [.party 2 (.start (.ask [7])), .party 2 (.sent [7] 1), .party 3 (.start (.ask [9])),
    .party 3 (.sent [9] 1), .transit (.arrive 3 1 0), .transit (.arrive 2 1 0),
    .party 1 (.start .serve), .party 1 (.received ⟨3, [9], 3, 0⟩), .party 1 (.invoked () [9]),
    .party 1 (.sent [9] 3), .party 1 (.finished .serve (.served true)),
    .transit (.lose 1 3 0), .party 1 (.start .serve), .party 1 (.received ⟨2, [7], 2, 0⟩),
    .party 1 (.invoked () [7]), .party 1 (.sent [7] 2), .transit (.arrive 1 2 0),
    .party 2 (.received ⟨1, [7], 2, 0⟩), .party 2 (.finished (.ask [7]) (.reply [7]))]

theorem overtaking_does_not_cross : ∃ c,
    (network (twoClients.deployment .failure) unorderedNetwork).Reachable c ∧
    c.net.returned 2 = [⟨.ask [7], .reply [7], 2, 0⟩] ∧ twoClients.Uncrossed c.net := by
  have hrun : ∃ c, (network (twoClients.deployment .failure) unorderedNetwork).Reachable c ∧
      c.net.returned 2 = [⟨.ask [7], .reply [7], 2, 0⟩] := ⟨_, ⟨overtaking, rfl⟩, rfl⟩
  obtain ⟨c, hc, hreturned⟩ := hrun
  exact ⟨c, hc, hreturned, clients_do_not_cross (fun _ _ => rfl) hc⟩

end Service

end Marko
