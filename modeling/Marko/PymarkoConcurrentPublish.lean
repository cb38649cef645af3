import Marko.MutatedIteration
import Marko.PymarkoSubscriptions

/-! One `publish` of a `PublisherThread` while its listener changes the list of clients. The
`for` loop reads the list by index, one element for each iteration, and the listener's change
may come between any two iterations. The kernel accepts every send. -/
namespace Pymarko

open Datagram Interaction AppendErase

/-- The call of `publish` in progress: the shared list, the position of the loop in it, what
was sent, and how the call ended once it has. -/
structure Publishing where
  clientaddr : List Address
  index : ℕ
  sent : List (Bytes × Address)
  result : Option (Except PyError Unit)

inductive PublishStep where
  | iterate
  | listen (payload : Bytes) (src : Address)
  deriving DecidableEq, Repr

namespace Publishing

variable (socket : UDPSocket) (data : Bytes)

def round (addr : Address) : Py Unit Unit Unit := do
  let _ ← socket.sendto data addr
  pure ()

/-- An iteration behind the last element ends the call, as does an exception. A client
subscribes only while it is absent. -/
def step : PublishStep → Publishing → Option Publishing
  | .iterate, s =>
    if s.result ≠ none then none
    else
      match s.clientaddr[s.index]? with
      | none => some { s with result := some (.ok ()) }
      | some addr =>
        some { s with
          index := s.index + 1
          sent := s.sent ++ sends ((round socket data addr).run.trace UDPSocket.openKernel ())
          result :=
            match ((round socket data addr).run.exec UDPSocket.openKernel ()).1 with
            | .ok _ => none
            | .error e => some (.error e) }
  -- the thread's loop reads at most 100 bytes
  | .listen payload src, s =>
    if s.result = none ∧ Fresh s.clientaddr (change (.datagram payload src)) then
      some { s with clientaddr := PublisherThread.heard s.clientaddr (payload.take 100) src }
    else none

def start (clients : List Address) : Publishing := ⟨clients, 0, [], none⟩

def machine (clients : List Address) : Machine PublishStep Publishing :=
  ⟨start clients, step socket data⟩

theorem publish_cons (addr : Address) (rest : List Address) :
    (Publisher.publish socket (addr :: rest) data : Py Unit Unit Unit).run =
      (round socket data addr).run >>= fun r =>
        match r with
        | .ok _ => (Publisher.publish socket rest data : Py Unit Unit Unit).run
        | .error e => .done (.error e) :=
  Publisher.run_publish_cons socket addr rest data

/-- Without a listener in between, the iterations are the loop of `publish`. -/
theorem run_iterate (clients : List Address) (rest : List Address) (s : Publishing)
    (hrest : s.clientaddr.drop s.index = rest) (hs : s.result = none) :
    ∃ n s', (machine socket data clients).run (List.replicate n .iterate) s = some s' ∧
      s'.sent = s.sent ++
        sends ((Publisher.publish socket rest data : Py Unit Unit Unit).run.trace
          UDPSocket.openKernel ()) ∧
      s'.result = some ((Publisher.publish socket rest data : Py Unit Unit Unit).run.exec
        UDPSocket.openKernel ()).1 := by
  -- on the addresses that are left; the loop reads them by index
  induction rest generalizing s with
  | nil =>
    have hnone : s.clientaddr[s.index]? = none := by
      rw [← List.head?_drop, hrest]
      rfl
    -- one more iteration finds the end of the list
    refine ⟨1, { s with result := some (.ok ()) }, ?_, (List.append_nil _).symm, rfl⟩
    simp [machine, Machine.run, step, hs, hnone]
  | cons addr rest ih =>
    have hsome : s.clientaddr[s.index]? = some addr := by
      rw [← List.head?_drop, hrest]
      rfl
    have htail : s.clientaddr.drop (s.index + 1) = rest := by
      rw [← List.tail_drop, hrest]
      rfl
    rw [publish_cons]
    simp only [Program.exec_bind, Program.trace_bind]
    cases hround : ((round socket data addr).run.exec UDPSocket.openKernel ()).1 with
    -- an exception ends the call, and the remaining addresses are left out
    | error e =>
      refine ⟨1, { s with
        index := s.index + 1
        sent := s.sent ++ sends ((round socket data addr).run.trace UDPSocket.openKernel ())
        result := some (.error e) }, ?_, ?_, rfl⟩
      · simp [machine, Machine.run, step, hs, hsome, hround]
      · simp
    | ok u =>
      obtain ⟨n, s', hrun, hsent, hresult⟩ := ih { s with
        index := s.index + 1
        sent := s.sent ++ sends ((round socket data addr).run.trace UDPSocket.openKernel ()) }
        htail hs
      refine ⟨n + 1, s', ?_, ?_, hresult⟩
      · simp [machine, Machine.run, step, hs, hsome, hround, List.replicate_succ] at hrun ⊢
        exact hrun
      · rw [hsent, sends_append, List.append_assoc]

def view (s : Publishing) : Walk Address := ⟨s.clientaddr, s.index, s.sent.map Prod.snd⟩

def move : PublishStep → Publishing → Option (Move Address)
  | .iterate, s => s.clientaddr[s.index]?.map fun _ => .visit
  | .listen payload src, _ => some (.edit (change (.datagram payload src)))

/-- The listener removes an entry that the loop has passed while `a` is next, so that the
loop finds the entry after `a` at its index. -/
def Shifts (a : Address) : PublishStep → Publishing → Prop
  | .listen payload src, s =>
    text payload = some "shutdown" ∧ src ∈ s.clientaddr.take s.index ∧
      s.clientaddr[s.index]? = some a
  | .iterate, _ => False

theorem change_eq_remove_iff {payload : Bytes} {src b : Address} :
    change (.datagram payload src) = .remove b ↔ text payload = some "shutdown" ∧ src = b := by
  simp only [change]
  split_ifs with hsub hshut
  · simp [hsub]
  · simp [hshut]
  · simp [hshut]

theorem shifts_iff (a : Address) (l : PublishStep) (s : Publishing) :
    ¬ Shifts a l s ↔ ∀ m, move l s = some m → ¬ Walk.Skips a m s.view := by
  cases l with
  | iterate =>
    apply iff_of_true id
    intro m hm
    obtain ⟨x, -, rfl⟩ := Option.map_eq_some_iff.mp hm
    exact id
  | listen payload src =>
    simp only [move, Option.some.injEq, forall_eq']
    apply not_congr
    -- only a removal can skip, and a removal is a shutdown of its own source
    cases hc : change (.datagram payload src) with
    | remove b =>
      obtain ⟨htext, rfl⟩ := change_eq_remove_iff.mp hc
      exact and_iff_right htext
    | add b =>
      apply iff_of_false _ id
      intro h
      rw [change_eq_remove_iff.mpr ⟨h.1, rfl⟩] at hc
      cases hc
    | keep =>
      apply iff_of_false _ id
      intro h
      rw [change_eq_remove_iff.mpr ⟨h.1, rfl⟩] at hc
      cases hc

section Fits

variable {socket data}

theorem round_fits (hlen : data.length ≤ socket.maxPacketSize) (addr : Address) :
    ((round socket data addr).run.exec UDPSocket.openKernel ()).1 = .ok () ∧
      sends ((round socket data addr).run.trace UDPSocket.openKernel ()) = [(data, addr)] := by
  obtain ⟨s', hexec, htrace⟩ := socket.sendto_statement
    (h := UDPSocket.openKernel) (fun _ _ _ _ => rfl) addr hlen ()
  exact ⟨congrArg Prod.fst hexec, congrArg sends htrace⟩

theorem step_fits (hlen : data.length ≤ socket.maxPacketSize) {l : PublishStep} {s s' : Publishing}
    (hstep : step socket data l s = some s') :
    s.result = none ∧
      ((∃ addr, move l s = some .visit ∧ s.clientaddr[s.index]? = some addr ∧
          s' = { s with index := s.index + 1, sent := s.sent ++ [(data, addr)] }) ∨
        (move l s = none ∧ s.clientaddr.length ≤ s.index ∧
          s' = { s with result := some (.ok ()) }) ∨
        ∃ c, move l s = some (.edit c) ∧ Fresh s.clientaddr c ∧
          s' = { s with clientaddr := apply s.clientaddr c }) := by
  cases l with
  | iterate =>
    by_cases hs : s.result = none
    · refine ⟨hs, ?_⟩
      cases haddr : s.clientaddr[s.index]? with
      | none =>
        simp only [step, hs, haddr, ne_eq, not_true_eq_false, if_false, Option.some.injEq] at hstep
        have hmove : move .iterate s = none := by simp only [move, haddr, Option.map_none]
        exact Or.inr (Or.inl ⟨hmove, List.getElem?_eq_none_iff.mp haddr, hstep.symm⟩)
      | some addr =>
        obtain ⟨hexec, hsends⟩ := round_fits hlen addr
        simp only [step, hs, haddr, hexec, hsends, ne_eq, not_true_eq_false, if_false,
          Option.some.injEq] at hstep
        have hmove : move .iterate s = some .visit := by simp only [move, haddr, Option.map_some]
        refine Or.inl ⟨addr, hmove, rfl, ?_⟩
        rw [← hstep, hs]
    · simp only [step, ne_eq, hs, not_false_eq_true, if_true] at hstep
      cases hstep
  | listen payload src =>
    simp only [step] at hstep
    split_ifs at hstep with hgate
    refine ⟨hgate.1, Or.inr (Or.inr ⟨_, rfl, hgate.2, ?_⟩)⟩
    rw [← heard_eq]
    exact (Option.some.inj hstep).symm

theorem walks (hlen : data.length ≤ socket.maxPacketSize) (clients : List Address) :
    Walk.Walks (machine socket data clients) view move := by
  intro l s s' hstep
  obtain ⟨-, ⟨addr, hmove, haddr, rfl⟩ | ⟨hmove, -, rfl⟩ | ⟨c, hmove, hfresh, rfl⟩⟩ :=
    step_fits hlen hstep
  -- an iteration that sends is a visit, the last one no move, a listener round an edit
  · rw [hmove]
    simp [Walk.step, view, haddr]
  · rw [hmove]
    rfl
  · rw [hmove]
    exact if_pos hfresh

structure Tidy (data : Bytes) (s : Publishing) : Prop where
  whole : ∀ m ∈ s.sent, m.1 = data
  ended : s.result ≠ none → s.clientaddr.length ≤ s.index

theorem tidy_step (hlen : data.length ≤ socket.maxPacketSize) (l : PublishStep) (s s' : Publishing)
    (hs : Tidy data s) (hstep : step socket data l s = some s') : Tidy data s' := by
  obtain ⟨hnone, ⟨addr, -, -, rfl⟩ | ⟨-, hend, rfl⟩ | ⟨c, -, -, rfl⟩⟩ := step_fits hlen hstep
  · refine ⟨?_, fun h => absurd hnone h⟩
    intro m hm
    rcases List.mem_append.mp hm with hm | hm
    · exact hs.whole m hm
    · rw [List.mem_singleton.mp hm]
  · exact ⟨hs.whole, fun _ => hend⟩
  · exact ⟨hs.whole, fun h => absurd hnone h⟩

theorem count_sent {s : Publishing} (hs : Tidy data s) (a : Address) :
    s.sent.count (data, a) = s.view.visits a := by
  -- all that was sent is the data, so only the addresses tell the sends apart
  unfold view Walk.visits List.count
  rw [List.countP_map]
  apply List.countP_congr
  intro m hm
  have hwhole : m.1 = data := hs.whole m hm
  simp [Prod.ext_iff, hwhole]

end Fits

section Oversize

variable {socket data}

theorem round_oversize (hlen : socket.maxPacketSize < data.length) (addr : Address) :
    ∀ m ∈ sends ((round socket data addr).run.trace UDPSocket.openKernel ()), m.1 ≠ data := by
  obtain ⟨hraised, hsends⟩ := socket.sendto_oversize (h := UDPSocket.openKernel)
    (fun _ _ _ _ => rfl) addr hlen ()
  have htrace : sends ((round socket data addr).run.trace UDPSocket.openKernel ()) =
      sends (((socket.sendto data addr : Py Unit Unit ℕ).run).trace UDPSocket.openKernel ()) := by
    unfold round
    rw [ExceptT.run_bind, Program.trace_bind, hraised]
    exact congrArg sends (List.append_nil _)
  intro m hm
  rw [htrace, hsends] at hm
  obtain ⟨i, -, rfl⟩ := List.mem_map.mp hm
  intro hwhole
  -- a fragment is a slice of at most `maxPacketSize` bytes
  have hshort : data.length ≤ socket.maxPacketSize := by
    rw [← hwhole]
    unfold UDPSocket.slice
    rw [List.length_take]
    omega
  omega

theorem unsent_step (hlen : socket.maxPacketSize < data.length) (l : PublishStep)
    (s s' : Publishing) (hs : ∀ m ∈ s.sent, m.1 ≠ data) (hstep : step socket data l s = some s') :
    ∀ m ∈ s'.sent, m.1 ≠ data := by
  cases l with
  | iterate =>
    simp only [step] at hstep
    split_ifs at hstep
    cases haddr : s.clientaddr[s.index]? with
    | none =>
      simp only [haddr, Option.some.injEq] at hstep
      rw [← hstep]
      exact hs
    | some addr =>
      simp only [haddr, Option.some.injEq] at hstep
      rw [← hstep]
      intro m hm
      rcases List.mem_append.mp hm with hm | hm
      · exact hs m hm
      · exact round_oversize hlen addr m hm
  | listen payload src =>
    simp only [step] at hstep
    split_ifs at hstep
    rw [← Option.some.inj hstep]
    exact hs

end Oversize

/-- In a complete call, an address that is on the list from the beginning to the end is sent
the data exactly once if and only if the data fits into one packet and the listener never
removes an entry that the loop has passed while the address is next. -/
theorem published_once_iff (socket : UDPSocket) (data : Bytes) (clients : List Address)
    (hnodup : clients.Nodup) (steps : List PublishStep) (s : Publishing)
    (hrun : (machine socket data clients).run steps (start clients) = some s)
    (hend : s.result ≠ none) (a : Address)
    (hstays : (machine socket data clients).Always (fun s => a ∈ s.clientaddr) steps
      (start clients)) :
    s.sent.count (data, a) = 1 ↔ data.length ≤ socket.maxPacketSize ∧
      (machine socket data clients).Throughout (fun l s => ¬ Shifts a l s) steps
        (start clients) := by
  -- data that is too long never leaves whole; otherwise the call is a walk
  rcases Nat.lt_or_ge socket.maxPacketSize data.length with hlong | hlen
  · have hunsent : ∀ m ∈ s.sent, m.1 ≠ data := by
      apply Machine.run_invariant (I := fun s => ∀ m ∈ s.sent, m.1 ≠ data)
        (unsent_step hlong) steps (start clients) s _ hrun
      intro m hm
      cases hm
    have hzero : s.sent.count (data, a) = 0 := by
      apply List.count_eq_zero_of_not_mem
      exact fun hm => hunsent _ hm rfl
    apply iff_of_false
    · omega
    · intro h
      have hfits := h.1
      omega
  · have htidy : Tidy data s := by
      apply Machine.run_invariant (tidy_step hlen) steps (start clients) s _ hrun
      refine ⟨?_, fun h => absurd rfl h⟩
      intro m hm
      cases hm
    have hregular : Walk.Regular a (start clients).view := ⟨hnodup, rfl⟩
    have hshifts : (fun l s => ¬ Shifts a l s) =
        fun l s => ∀ m, move l s = some m → ¬ Walk.Skips a m s.view := by
      ext l s
      exact shifts_iff a l s
    rw [count_sent htidy, hshifts, and_iff_right hlen]
    exact (walks hlen clients).visited_once_iff hregular hstays hrun (htidy.ended hend)

theorem step_shutdown (socket : UDPSocket) (data : Bytes) {s : Publishing}
    (hs : s.result = none) (addr : Address) :
    step socket data (.listen (encode "shutdown") addr) s =
      some { s with clientaddr := apply s.clientaddr (.remove addr) } := by
  have hchange : change (.datagram (encode "shutdown") addr) = .remove addr :=
    change_eq_remove_iff.mpr ⟨text_eq_some_iff.mpr rfl, rfl⟩
  have hgate : s.result = none ∧
      Fresh s.clientaddr (change (.datagram (encode "shutdown") addr)) := by
    rw [hchange]
    exact ⟨hs, trivial⟩
  rw [step, if_pos hgate, heard_eq, hchange]

/-- A publish to two clients, of which the first one leaves at some moment. -/
def twoClients : Machine PublishStep Publishing :=
  machine ⟨4, by decide⟩ [7] [("a", 1), ("b", 2)]

/-- It leaves when the loop has sent to both. -/
theorem published_once_before_shutdown :
    ∃ s, twoClients.run [.iterate, .iterate, .listen (encode "shutdown") ("a", 1), .iterate]
      twoClients.init = some s ∧ s.sent.count ([7], ("b", 2)) = 1 := by
  have hfirst : twoClients.step .iterate twoClients.init =
      some ⟨[("a", 1), ("b", 2)], 1, [([7], ("a", 1))], none⟩ := rfl
  have hsecond : twoClients.step .iterate ⟨[("a", 1), ("b", 2)], 1, [([7], ("a", 1))], none⟩ =
      some ⟨[("a", 1), ("b", 2)], 2, [([7], ("a", 1)), ([7], ("b", 2))], none⟩ := rfl
  have hleave : twoClients.step (.listen (encode "shutdown") ("a", 1))
      ⟨[("a", 1), ("b", 2)], 2, [([7], ("a", 1)), ([7], ("b", 2))], none⟩ =
      some ⟨[("b", 2)], 2, [([7], ("a", 1)), ([7], ("b", 2))], none⟩ :=
    step_shutdown ⟨4, by decide⟩ [7] (s := ⟨[("a", 1), ("b", 2)], 2, _, none⟩) rfl ("a", 1)
  have hlast : twoClients.step .iterate
      ⟨[("b", 2)], 2, [([7], ("a", 1)), ([7], ("b", 2))], none⟩ =
      some ⟨[("b", 2)], 2, [([7], ("a", 1)), ([7], ("b", 2))], some (.ok ())⟩ := rfl
  have hrun : twoClients.run
      [.iterate, .iterate, .listen (encode "shutdown") ("a", 1), .iterate] twoClients.init =
      some ⟨[("b", 2)], 2, [([7], ("a", 1)), ([7], ("b", 2))], some (.ok ())⟩ := by
    simp only [Machine.run, hfirst, hsecond, hleave, hlast, Option.bind_some]
  refine ⟨_, hrun, ?_⟩
  apply (published_once_iff ⟨4, by decide⟩ [7] [("a", 1), ("b", 2)] (by decide) _ _ hrun
    (by decide) ("b", 2) ?_).mpr
  · refine ⟨by decide, ?_⟩
    show twoClients.Throughout _ _ twoClients.init
    rw [Machine.throughout_cons hfirst, Machine.throughout_cons hsecond,
      Machine.throughout_cons hleave, Machine.throughout_cons hlast]
    refine ⟨id, id, ?_, id, trivial⟩
    rintro ⟨-, -, hnext⟩
    exact absurd hnext (by decide)
  · show twoClients.Always _ _ twoClients.init
    rw [Machine.always_cons hfirst, Machine.always_cons hsecond, Machine.always_cons hleave,
      Machine.always_cons hlast, Machine.always_nil]
    exact ⟨by decide, by decide, by decide, by decide, by decide⟩

/-- It leaves right after it was sent to: the second one moves to its place on the list, and
the loop goes on behind it. -/
theorem shutdown_skips_next :
    ∃ s, twoClients.run [.iterate, .listen (encode "shutdown") ("a", 1), .iterate]
        twoClients.init = some s ∧ s.result = some (.ok ()) ∧
      twoClients.Always (fun s => ("b", 2) ∈ s.clientaddr)
        [.iterate, .listen (encode "shutdown") ("a", 1), .iterate] twoClients.init ∧
      s.sent.count ([7], ("b", 2)) = 0 := by
  have hfirst : twoClients.step .iterate twoClients.init =
      some ⟨[("a", 1), ("b", 2)], 1, [([7], ("a", 1))], none⟩ := rfl
  have hleave : twoClients.step (.listen (encode "shutdown") ("a", 1))
      ⟨[("a", 1), ("b", 2)], 1, [([7], ("a", 1))], none⟩ =
      some ⟨[("b", 2)], 1, [([7], ("a", 1))], none⟩ :=
    step_shutdown ⟨4, by decide⟩ [7] (s := ⟨[("a", 1), ("b", 2)], 1, _, none⟩) rfl ("a", 1)
  have hlast : twoClients.step .iterate ⟨[("b", 2)], 1, [([7], ("a", 1))], none⟩ =
      some ⟨[("b", 2)], 1, [([7], ("a", 1))], some (.ok ())⟩ := rfl
  have hrun : twoClients.run [.iterate, .listen (encode "shutdown") ("a", 1), .iterate]
      twoClients.init = some ⟨[("b", 2)], 1, [([7], ("a", 1))], some (.ok ())⟩ := by
    simp only [Machine.run, hfirst, hleave, hlast, Option.bind_some]
  refine ⟨_, hrun, rfl, ?_, by decide⟩
  rw [Machine.always_cons hfirst, Machine.always_cons hleave, Machine.always_cons hlast,
    Machine.always_nil]
  exact ⟨by decide, by decide, by decide, by decide⟩

end Publishing

end Pymarko
