import Marko.MeshStations

/-! What a subscriber of a mesh gets from each publisher, on any network. -/
namespace Interop

open Datagram Interaction Pymarko

variable {K : Type}

/-- The datagrams that one call of `publish` sends to `i`: one for each time that `i` is on the
list, as long as a Python publisher is not handed more than fits into a packet. -/
def Station.wire (i : Address) : Station K → Bytes → List Bytes
  | .cppPublisher p, data => List.replicate (p.clientaddrs.count i) data
  | .publisher socket clientaddr, data =>
      if data.length ≤ socket.maxPacketSize then List.replicate (clientaddr.count i) data
      else if clientaddr.head? = some i then socket.pieces data else []
  | _, _ => []

theorem payloadsTo_clients (i : Address) (clientaddr : List Address) (data : Bytes) :
    payloadsTo i (clientaddr.map fun addr => (data, addr)) =
      List.replicate (clientaddr.count i) data := by
  induction clientaddr with
  | nil => rfl
  | cons addr rest ih =>
    rw [payloadsTo] at ih ⊢
    by_cases haddr : addr = i
    · simp [haddr, ih, List.replicate_succ]
    · simp [haddr, ih]

theorem payloadsTo_pieces (i addr : Address) (pieces : List Bytes) :
    payloadsTo i (pieces.map fun m => (m, addr)) = if addr = i then pieces else [] := by
  induction pieces with
  | nil => simp [payloadsTo]
  | cons m pieces ih =>
    rw [payloadsTo] at ih ⊢
    by_cases haddr : addr = i <;> simp_all

theorem Station.payloadsTo_plan (s : Station K) (i : Address) (data : Bytes) :
    payloadsTo i (s.plan (.publish data)) = s.wire i data := by
  cases s with
  | cppPublisher p => exact payloadsTo_clients i p.clientaddrs data
  | publisher socket clientaddr =>
    rw [plan, wire]
    split_ifs with hlen hhead
    · exact payloadsTo_clients i clientaddr data
    · obtain ⟨rest, rfl⟩ := List.head?_eq_some_iff.mp hhead
      rw [List.take_succ_cons, List.take_zero, List.flatMap_singleton, payloadsTo_pieces,
        if_pos rfl]
    · cases clientaddr with
      | nil => rfl
      | cons addr rest =>
        have haddr : addr ≠ i := fun h => hhead (congrArg some h)
        rw [List.take_succ_cons, List.take_zero, List.flatMap_singleton, payloadsTo_pieces,
          if_neg haddr]
  | cppSubscriber s => rfl
  | subscriber cb datasize => rfl

abbrev NetState (K : Type) := Net Address K Work Result

def message? : Work → Option Bytes
  | .publish data => some data
  | .receive => none

def published (N : NetState K) (src : Address) : List Bytes :=
  (N.started src).filterMap message?

namespace Mesh

variable (M : Mesh K)

/-- What the calls of `publish` at `src` so far put on the wire to `i`. -/
def wire (N : NetState K) (src i : Address) : List Bytes :=
  (published N src).flatMap fun data => (M.station src).elim [] fun s => s.wire i data

theorem payloadsTo_started (N : NetState K) (src i : Address) :
    payloadsTo i ((N.started src).flatMap (M.plan src)) = M.wire N src i := by
  unfold wire published
  generalize N.started src = jobs
  induction jobs with
  | nil => rfl
  | cons job jobs ih =>
    rw [List.flatMap_cons, payloadsTo_append, ih, plan]
    cases job with
    | publish data =>
      have hmessage : message? (.publish data) = some data := rfl
      rw [List.filterMap_cons_some hmessage, List.flatMap_cons]
      congr 1
      cases M.station src with
      | none => rfl
      | some s => exact s.payloadsTo_plan i data
    | receive =>
      have hmessage : message? .receive = none := rfl
      rw [List.filterMap_cons_none hmessage]
      cases M.station src with
      | none => rfl
      | some s => cases s <;> rfl

variable [DecidableEq K] {M} {D : Marko.SocketDefs} {P : Policy Address}
  {c : Config Address K (Option Bytes) Work Result}

/-- A C++ and a Python publisher of one C++ subscriber that takes two bytes. -/
def twoPublishers : Mesh ℕ where
  station i :=
    if i = ("host", 1) then some (.cppPublisher ⟨[("host", 3)]⟩)
    else if i = ("host", 2) then some (.publisher ⟨3, Nat.succ_pos 2⟩ [("host", 3)])
    else if i = ("host", 3) then some (.cppSubscriber ⟨[20], 2⟩)
    else none
  callback _ _ _ := none

def reorderingNetwork : Policy Address :=
  { reorder := true, lossy := false, timeouts := fun _ => false }

/-- The first publisher's second datagram overtakes its first. -/
def overtaking : List (Label Address ℕ Work Result) :=
  [.party ("host", 1) (.start (.publish [5, 6])), .party ("host", 1) (.sent [5, 6] ("host", 3)),
    .party ("host", 1) (.finished (.publish [5, 6]) (.ok ())),
    .party ("host", 1) (.start (.publish [7])), .party ("host", 1) (.sent [7] ("host", 3)),
    .party ("host", 1) (.finished (.publish [7]) (.ok ())),
    .transit (.arrive ("host", 1) ("host", 3) 1), .transit (.arrive ("host", 1) ("host", 3) 0),
    .party ("host", 3) (.start .receive),
    .party ("host", 3) (.received ⟨("host", 1), [7], ("host", 1), 1⟩),
    .party ("host", 3) (.invoked 20 [7, 0]), .party ("host", 3) (.finished .receive (.ok ())),
    .party ("host", 2) (.start (.publish [8])), .party ("host", 2) (.sent [8] ("host", 3)),
    .party ("host", 2) (.finished (.publish [8]) (.ok ())),
    .transit (.arrive ("host", 2) ("host", 3) 0), .party ("host", 3) (.start .receive),
    .party ("host", 3) (.received ⟨("host", 1), [5, 6], ("host", 1), 0⟩),
    .party ("host", 3) (.invoked 20 [5, 6]), .party ("host", 3) (.finished .receive (.ok ())),
    .party ("host", 3) (.start .receive),
    .party ("host", 3) (.received ⟨("host", 2), [8], ("host", 2), 0⟩),
    .party ("host", 3) (.invoked 20 [8, 0]), .party ("host", 3) (.finished .receive (.ok ()))]

theorem overtaking_run : ∃ c,
    (network (twoPublishers.deployment .failure) reorderingNetwork).Reachable c ∧
    c.net.calls ("host", 3) = [(20, [7, 0]), (20, [5, 6]), (20, [8, 0])] ∧
    twoPublishers.wire c.net ("host", 1) ("host", 3) = [[5, 6], [7]] ∧
    twoPublishers.wire c.net ("host", 2) ("host", 3) = [[8]] ∧
    twoPublishers.wire c.net ("host", 3) ("host", 3) = [] ∧
    c.net.queue ("host", 3) = [] ∧
    (∀ src ∈ [("host", 1), ("host", 2), ("host", 3)],
      c.act src = .idle ∧ c.net.flight (src, ("host", 3)) = []) := by
  refine ⟨_, ⟨overtaking, rfl⟩, rfl, rfl, rfl, rfl, rfl, ?_⟩
  simp only [List.forall_mem_cons]
  exact ⟨⟨rfl, rfl⟩, ⟨rfl, rfl⟩, ⟨rfl, rfl⟩, fun _ h => absurd h List.not_mem_nil⟩

/-- Once all is quiet on a network that loses nothing, every callback of a subscriber whose buffer
has room was invoked exactly once for each non-empty datagram that the publishers put on the wire
to it, also when datagrams overtook each other. -/
theorem callbacks_complete (hloss : P.lossy = false)
    (hc : (network (M.deployment D) P).Reachable c) {i : Address} {s : Station K}
    (hi : M.station i = some s) {srcs : List Address} (hnodup : srcs.Nodup)
    (hall : ∀ src, (M.station src).isSome → src ∈ srcs)
    (hidle : ∀ src ∈ srcs, c.act src = .idle) (hqueue : c.net.queue i = [])
    (hflight : ∀ src ∈ srcs, c.net.flight (src, i) = []) :
    (c.net.calls i).Perm (srcs.flatMap fun src => (M.wire c.net src i).flatMap s.view) := by
  have hothers : ∀ src, src ∉ srcs → ∀ job, (M.fanOut D).plan src job = [] := by
    intro src hsrc job
    change M.plan src job = []
    rw [plan]
    cases hs : M.station src with
    | none => rfl
    | some s => exact absurd (hall src (by rw [hs]; rfl)) hsrc
  have hmem : i ∈ srcs := hall i (by rw [hi]; rfl)
  have hperm := (M.fanOut D).complete hloss hc hnodup hothers (hidle i hmem) hqueue
    fun src hsrc => ⟨hidle src hsrc, hflight src hsrc⟩
  have hview : (M.fanOut D).view i = s.view := view_of_station hi
  rw [hview] at hperm
  simp only [← payloadsTo_started]
  exact hperm

theorem callbacks_complete_overtaking :
    ∃ c, (network (twoPublishers.deployment .failure) reorderingNetwork).Reachable c ∧
      (c.net.calls ("host", 3)).Perm [(20, [5, 6]), (20, [7, 0]), (20, [8, 0])] := by
  obtain ⟨c, hc, -, hfirst, hsecond, hthird, hqueue, hquiet⟩ := overtaking_run
  have hall : ∀ src, (twoPublishers.station src).isSome →
      src ∈ [("host", 1), ("host", 2), ("host", 3)] := by
    intro src hsrc
    unfold twoPublishers at hsrc
    dsimp only at hsrc
    split_ifs at hsrc with h1 h2 h3
    · exact h1 ▸ List.mem_cons_self
    · exact h2 ▸ List.mem_cons_of_mem _ List.mem_cons_self
    · exact h3 ▸ List.mem_cons_of_mem _ (List.mem_cons_of_mem _ List.mem_cons_self)
    · cases hsrc
  have hperm := callbacks_complete rfl hc (i := ("host", 3)) (s := .cppSubscriber ⟨[20], 2⟩) rfl
    (by decide) hall (fun src hsrc => (hquiet src hsrc).1) hqueue
    fun src hsrc => (hquiet src hsrc).2
  simp only [List.flatMap_cons, hfirst, hsecond, hthird] at hperm
  exact ⟨c, hc, hperm⟩

end Mesh

end Interop
