import Marko.PublishSystem

/-! Every subscriber's callbacks see the published messages in order and exactly once, as
long as the network keeps order and loses nothing. -/
namespace Marko

open Datagram Interaction

namespace Feed

variable {A K : Type} (F : Feed A K)

abbrev NetState (A K : Type) := Net A K Work Unit

def Placed (i : A) : Phase A K → Prop
  | .idle => True
  | .sending m rest => i = F.publisher ∧ m.length = F.dataSize ∧ rest <:+ F.subscribers
  | .listening => i ∈ F.subscribers
  | .calling _ rest => i ∈ F.subscribers ∧ rest <:+ F.callbacks i
  | .quiet => i ∈ F.subscribers

/-- The publisher's datagrams, of the subscribers' size, are all that there is. -/
structure Routed (N : NetState A K) (φ : A → Phase A K) : Prop where
  flight : ∀ src dst, ∀ p ∈ N.flight (src, dst),
    src = F.publisher ∧ dst ∈ F.subscribers ∧ p.payload.length = F.dataSize
  queue : ∀ dst, ∀ p ∈ N.queue dst, dst ∈ F.subscribers ∧ p.payload.length = F.dataSize
  phase : ∀ i, F.Placed i (φ i)

variable {F}

theorem ne_publisher {i : A} (hi : i ∈ F.subscribers) : i ≠ F.publisher := by
  rintro rfl
  exact F.publisher_notMem hi

theorem routed_empty : F.Routed .empty fun _ => .idle where
  flight _ _ _ h := absurd h List.not_mem_nil
  queue _ _ h := absurd h List.not_mem_nil
  phase _ := trivial

theorem handle_exact {i : A} {p : Packet A} (hsize : p.payload.length = F.dataSize) :
    F.handle i p = .calling p.payload (F.callbacks i) := by
  have hne : p.payload ≠ [] := List.length_pos_iff.mp (hsize ▸ F.dataSize_pos)
  rw [handle, if_neg hne, fillBuffer_exact hsize]

theorem idle_of_activity {D : SocketDefs} {i : A} [Zero A] {x : Phase A K}
    (h : F.activity D i x = .idle) : x = .idle := by
  cases x <;> first | rfl | contradiction

variable [DecidableEq A]

variable (F) in
inductive Step (N : NetState A K) (φ : A → Phase A K) : NetState A K → (A → Phase A K) → Prop where
  | publish (m : Message) (hphase : φ F.publisher = .idle) (hsize : m.length = F.dataSize) :
      Step N φ (N.start F.publisher (.publish m))
        (Function.update φ F.publisher (.sending m F.subscribers))
  | send (m : Message) (dst : A) (rest : List A)
      (hphase : φ F.publisher = .sending m (dst :: rest)) :
      Step N φ (N.post F.publisher m dst) (Function.update φ F.publisher (.sending m rest))
  | published (m : Message) (hphase : φ F.publisher = .sending m []) :
      Step N φ (N.conclude F.publisher (.publish m) ()) (Function.update φ F.publisher .idle)
  | receive (i : A) (hi : i ∈ F.subscribers) (hphase : φ i = .idle) :
      Step N φ (N.start i .receive) (Function.update φ i .listening)
  | handle (i : A) (p : Packet A) (rest : List (Packet A)) (hi : i ∈ F.subscribers)
      (hphase : φ i = .listening) (hqueue : N.queue i = p :: rest) :
      Step N φ (N.take i p) (Function.update φ i (.calling p.payload (F.callbacks i)))
  | timesOut (i : A) (hi : i ∈ F.subscribers) (hphase : φ i = .listening) :
      Step N φ N (Function.update φ i .quiet)
  | call (i : A) (m : Message) (cb : K) (rest : List K) (hi : i ∈ F.subscribers)
      (hphase : φ i = .calling m (cb :: rest)) :
      Step N φ (N.note i cb m) (Function.update φ i (.calling m rest))
  | called (i : A) (m : Message) (hi : i ∈ F.subscribers) (hphase : φ i = .calling m []) :
      Step N φ (N.conclude i .receive ()) (Function.update φ i .idle)
  | quiet (i : A) (hi : i ∈ F.subscribers) (hphase : φ i = .quiet) :
      Step N φ (N.conclude i .receive ()) (Function.update φ i .idle)
  | arrive (i : A) (p : Packet A) (rest : List (Packet A)) (hi : i ∈ F.subscribers)
      (hflight : N.flight (F.publisher, i) = p :: rest) :
      Step N φ (N.arrive F.publisher i 0 p) φ

variable {N N' : NetState A K} {φ φ' : A → Phase A K}

omit [DecidableEq A] in
theorem Routed.placed (h : F.Routed N φ) {i : A} {x : Phase A K} (hphase : φ i = x) :
    F.Placed i x :=
  hphase ▸ h.phase i

theorem Routed.step (h : F.Routed N φ) (hstep : F.Step N φ N' φ') : F.Routed N' φ' := by
  cases hstep with
  | publish m hphase hsize =>
    exact ⟨h.flight, h.queue, forall_update h.phase ⟨rfl, hsize, List.suffix_refl _⟩⟩
  | send m dst rest hphase =>
    obtain ⟨-, hsize, hsuffix⟩ := h.placed hphase
    refine ⟨?_, h.queue, forall_update h.phase ⟨rfl, hsize, ?_⟩⟩
    · intro s d p hp
      rcases Net.mem_post_flight.mp hp with hp | ⟨hsd, rfl⟩
      · exact h.flight s d p hp
      · -- the new datagram goes to a client that was still to come
        obtain ⟨rfl, rfl⟩ := Prod.mk.inj hsd
        exact ⟨rfl, hsuffix.subset List.mem_cons_self, hsize⟩
    · exact (List.suffix_cons dst rest).trans hsuffix
  | published m hphase => exact ⟨h.flight, h.queue, forall_update h.phase trivial⟩
  | receive i hi hphase => exact ⟨h.flight, h.queue, forall_update h.phase hi⟩
  | handle i p rest hi hphase hqueue =>
    refine ⟨h.flight, ?_, forall_update h.phase ⟨hi, List.suffix_refl _⟩⟩
    exact fun d q hq => h.queue d q (Net.mem_of_mem_take_queue hq)
  | timesOut i hi hphase => exact ⟨h.flight, h.queue, forall_update h.phase hi⟩
  | call i m cb rest hi hphase =>
    have hplace : F.Placed i (.calling m (cb :: rest)) := h.placed hphase
    have hsuffix : rest <:+ F.callbacks i := (List.suffix_cons cb rest).trans hplace.2
    exact ⟨h.flight, h.queue, forall_update h.phase ⟨hi, hsuffix⟩⟩
  | called i m hi hphase => exact ⟨h.flight, h.queue, forall_update h.phase trivial⟩
  | quiet i hi hphase => exact ⟨h.flight, h.queue, forall_update h.phase trivial⟩
  | arrive i p rest hi hflight =>
    refine ⟨?_, ?_, h.phase⟩
    · exact fun s d q hq => h.flight s d q ((Net.lose_flight_sublist _).subset hq)
    · intro d q hq
      rcases Net.mem_arrive_queue.mp hq with hq | ⟨rfl, rfl⟩
      · exact h.queue d q hq
      · exact (h.flight F.publisher d q (hflight ▸ List.mem_cons_self)).2

theorem step_of_phases [DecidableEq K] [Zero A] {D : SocketDefs} {P : Policy A}
    {φ φ' : A → (F.phases D).Phase} (hfifo : P.reorder = false) (hloss : P.lossy = false)
    (h : F.Routed N φ) (hstep : (F.phases D).Step P N φ N' φ') : F.Step N φ N' φ' := by
  cases hstep with
  | party i e x N' hmove hnet =>
    have hplace := h.phase i
    change F.Move i e (φ i) x at hmove
    generalize hx : φ i = y at hmove hplace
    cases hmove with
    | publish hi hsize =>
      subst hi
      cases hnet
      exact .publish _ hx hsize
    | send =>
      obtain rfl : i = F.publisher := hplace.1
      cases hnet
      exact .send _ _ _ hx
    | sendFails =>
      -- a network without loss takes every datagram
      rw [Net.effect_sendFails_lossless hloss] at hnet
      contradiction
    | published =>
      obtain rfl : i = F.publisher := hplace.1
      cases hnet
      exact .published _ hx
    | receive hi =>
      cases hnet
      exact .receive i hi hx
    | handle p =>
      obtain ⟨rest, hqueue, rfl⟩ := Net.effect_received hnet
      -- the queue holds published messages only, so the buffer is exactly full
      rw [handle_exact (h.queue i p (hqueue ▸ List.mem_cons_self)).2]
      exact .handle i p rest hplace hx hqueue
    | timesOut =>
      obtain ⟨-, rfl⟩ := Net.effect_timedOut hnet
      exact .timesOut i hplace hx
    | call =>
      cases hnet
      exact .call i _ _ _ hplace.1 hx
    | called =>
      cases hnet
      exact .called i _ hplace.1 hx
    | quiet =>
      cases hnet
      exact .quiet i hplace hx
  | transit t N' hnet =>
    obtain ⟨src, dst, p, rest, hflight, rfl⟩ := Net.transit_ordered hfifo hloss hnet
    obtain ⟨rfl, hdst, -⟩ := h.flight src dst p (hflight ▸ List.mem_cons_self)
    exact .arrive dst p rest hdst hflight

/-! Where the published messages are, as seen by one subscriber. -/

variable (F)

def message? : Work → Option Message
  | .publish m => some m
  | .receive => none

def published (N : NetState A K) : List Message := (N.started F.publisher).filterMap message?

/-- The message that the publisher's loop has still to send to `i`. -/
def pending (i : A) : Phase A K → List Message
  | .sending m rest => if i ∈ rest then [m] else []
  | _ => []

/-- The published messages that subscriber `i` has not taken from its queue. -/
def backlog (i : A) (N : NetState A K) (φ : A → Phase A K) : List Message :=
  (N.queue i).map Packet.payload ++ (N.flight (F.publisher, i)).map Packet.payload ++
    pending i (φ F.publisher)

def owed : Phase A K → List (K × Message)
  | .calling m rest => rest.map fun cb => (cb, m)
  | _ => []

def invocations (i : A) (N : NetState A K) : List (K × Message) :=
  (N.invoked i).map fun v => (v.cb, v.msg)

def rounds (i : A) (ms : List Message) : List (K × Message) :=
  ms.flatMap fun m => (F.callbacks i).map fun cb => (cb, m)

/-- Some first part of the published messages was taken from the queue, and the callbacks were
called for it. -/
def Delivered (i : A) (N : NetState A K) (φ : A → Phase A K) : Prop :=
  ∃ taken, F.published N = taken ++ F.backlog i N φ ∧
    invocations i N ++ owed (φ i) = F.rounds i taken

variable {F}

/-- A step of one subscriber within its own program: what it has called and has still to
call stays the same together. -/
theorem Delivered.local {i j : A} {x : Phase A K} (h : F.Delivered i N φ) (hj : j ≠ F.publisher)
    (hstarted : N'.started F.publisher = N.started F.publisher) (hflight : N'.flight = N.flight)
    (hqueue : N'.queue = N.queue)
    (hcalled : invocations j N' ++ owed x = invocations j N ++ owed (φ j))
    (hother : i ≠ j → N'.invoked i = N.invoked i) :
    F.Delivered i N' (Function.update φ j x) := by
  obtain ⟨taken, hpub, hrounds⟩ := h
  refine ⟨taken, ?_, ?_⟩
  · rw [published, hstarted, backlog, hqueue, hflight, Function.update_of_ne hj.symm]
    exact hpub
  · by_cases hij : i = j
    · subst hij
      rw [Function.update_self, hcalled, hrounds]
    · rw [Function.update_of_ne hij, invocations, hother hij]
      exact hrounds

theorem Delivered.step {i : A} (hi : i ∈ F.subscribers) (hroute : F.Routed N φ)
    (h : F.Delivered i N φ) (hstep : F.Step N φ N' φ') : F.Delivered i N' φ' := by
  have hip := ne_publisher hi
  have hpi := hip.symm
  have hdelivered := h
  obtain ⟨taken, hpub, hcalled⟩ := h
  -- `taken` grows only when subscriber `i` takes a datagram
  cases hstep with
  | publish m hphase hsize =>
    refine ⟨taken, ?_, ?_⟩
    · rw [backlog, hphase] at hpub
      simp [published, backlog] at hpub ⊢
      simp [hpub, pending, message?, hi]
    · simpa [invocations, hip] using hcalled
  | send m dst rest hphase =>
    -- the loop sends to each subscriber once, so `dst` is not among the rest
    obtain ⟨-, -, hsuffix⟩ := hroute.placed hphase
    have hdst : dst ∉ rest := (List.nodup_cons.mp (hsuffix.sublist.nodup F.nodup)).1
    refine ⟨taken, ?_, ?_⟩
    · rw [backlog, hphase] at hpub
      by_cases hid : i = dst
      · subst hid
        simpa [published, backlog, pending, hdst] using hpub
      · simpa [published, backlog, pending, hid] using hpub
    · simpa [invocations, hip] using hcalled
  | published m hphase =>
    refine ⟨taken, ?_, ?_⟩
    · rw [backlog, hphase] at hpub
      simpa [published, backlog, pending] using hpub
    · simpa [invocations, hip] using hcalled
  | receive j hj hphase =>
    refine hdelivered.local (ne_publisher hj) ?_ rfl rfl ?_ (fun _ => rfl)
    · simp [(ne_publisher hj).symm]
    · simp [invocations, owed, hphase]
  | handle j p rest hj hphase hqueue =>
    have hjp := ne_publisher hj
    by_cases hij : i = j
    · subst hij
      refine ⟨taken ++ [p.payload], ?_, ?_⟩
      · simpa [published, backlog, hpi, hqueue] using hpub
      · rw [hphase] at hcalled
        simpa [invocations, owed, rounds] using hcalled
    · refine ⟨taken, ?_, ?_⟩
      · simpa [published, backlog, hjp.symm, hij] using hpub
      · simpa [invocations, hij] using hcalled
  | timesOut j hj hphase =>
    refine hdelivered.local (ne_publisher hj) rfl rfl rfl ?_ (fun _ => rfl)
    simp [owed, hphase]
  | call j m cb rest hj hphase =>
    refine hdelivered.local (ne_publisher hj) rfl rfl rfl ?_ ?_
    · simp [invocations, owed, hphase]
    · exact fun hij => Function.update_of_ne hij _ _
  | called j m hj hphase =>
    refine hdelivered.local (ne_publisher hj) rfl rfl rfl ?_ (fun _ => rfl)
    simp [invocations, owed, hphase]
  | quiet j hj hphase =>
    refine hdelivered.local (ne_publisher hj) rfl rfl rfl ?_ (fun _ => rfl)
    simp [invocations, owed, hphase]
  | arrive j p rest hj hflight =>
    refine ⟨taken, ?_, hcalled⟩
    by_cases hij : i = j
    · subst hij
      simpa [published, backlog, hflight] using hpub
    · simpa [published, backlog, hij] using hpub

theorem delivered_empty {i : A} : F.Delivered i .empty fun _ => .idle := ⟨[], rfl, rfl⟩

/-- In every reachable state, what a subscriber has called, together with what its running
`once` has still to call, is every callback once and in order on a first part of the
published messages; and on all of them once the publisher is done and nothing is left. -/
theorem callbacks_follow_published [DecidableEq K] [Zero A] {D : SocketDefs} {P : Policy A}
    (hfifo : P.reorder = false) (hloss : P.lossy = false) {c : Config A K Unit Work Unit}
    (hc : (network (F.deployment D) P).Reachable c) {i : A} (hi : i ∈ F.subscribers) :
    ∃ k rest, k ≤ (F.published c.net).length ∧
      invocations i c.net ++ rest = F.rounds i ((F.published c.net).take k) ∧
      (c.act i = .idle → rest = []) ∧
      (rest = [] ∨ ∃ m cbs, rest = cbs.map (fun cb => (cb, m)) ∧ cbs <:+ F.callbacks i ∧
        c.act i = .busy .receive
          (Program.each (S := sig A K Unit) (fun callback => .callback callback m) cbs)) ∧
      (c.act F.publisher = .idle → c.net.flight (F.publisher, i) = [] → c.net.queue i = [] →
        k = (F.published c.net).length) := by
  obtain ⟨φ, ⟨hroute, hdelivered⟩, hact⟩ := (F.phases D).invariant P
    (I := fun N φ => F.Routed N φ ∧ F.Delivered i N φ) ⟨routed_empty, delivered_empty⟩
    (fun N φ N' φ' h hstep => by
      have hstep := step_of_phases hfifo hloss h.1 hstep
      exact ⟨h.1.step hstep, h.2.step hi h.1 hstep⟩) hc
  replace hact (j : A) : c.act j = F.activity D j (φ j) := congrFun hact j
  obtain ⟨taken, hpub, hcalled⟩ := hdelivered
  have htake : (F.published c.net).take taken.length = taken := by
    rw [hpub, List.take_left]
  have hlen : taken.length ≤ (F.published c.net).length := by
    rw [hpub, List.length_append]
    exact Nat.le_add_right _ _
  refine ⟨taken.length, owed (φ i), hlen, ?_, ?_, ?_, ?_⟩
  · rw [htake, hcalled]
  · intro hidle
    rw [hact] at hidle
    rw [idle_of_activity hidle]
    rfl
  · -- inside the loop of `once`, what is owed is a suffix of the registered callbacks
    have hplace := hroute.phase i
    rw [hact i]
    generalize (φ i : Phase A K) = x at hplace ⊢
    cases x with
    | calling m cbs => exact .inr ⟨m, cbs, rfl, hplace.2, rfl⟩
    | _ => exact .inl rfl
  · intro hidle hflight hqueue
    rw [hact] at hidle
    have hphase := idle_of_activity hidle
    have hbacklog : F.backlog i c.net φ = [] := by
      unfold backlog
      rw [hflight, hqueue, hphase]
      rfl
    rw [hpub, hbacklog, List.append_nil]

/-- A publisher at address 1 and subscribers at 2 and 3, with two callbacks and one. -/
def twoSubscribers : Feed ℕ ℕ where
  publisher := 1
  subscribers := [2, 3]
  callbacks i := if i = 2 then [20, 21] else [30]
  dataSize := 1
  nodup := by decide
  publisher_notMem := by decide
  dataSize_pos := Nat.one_pos

def orderedNetwork : Policy ℕ :=
  { reorder := false, lossy := false, timeouts := fun i => i = 3 }

/-- Subscriber 2 is in its callback loop while the publisher is still in its send loop. -/
def interleaved : List (Label ℕ ℕ Work Unit) :=
  [.party 1 (.start (.publish [5])), .party 3 (.start .receive), .party 1 (.sent [5] 2),
    .transit (.arrive 1 2 0), .party 2 (.start .receive), .party 3 .timedOut,
    .party 2 (.received ⟨1, [5], 1, 0⟩), .party 2 (.invoked 20 [5]), .party 1 (.sent [5] 3)]

theorem interleaved_run : ∃ c,
    (network (twoSubscribers.deployment .failure) orderedNetwork).Reachable c ∧
    invocations 2 c.net = [(20, [5])] ∧ twoSubscribers.published c.net = [[5]] :=
  ⟨_, ⟨interleaved, rfl⟩, rfl, rfl⟩

theorem callbacks_follow_published_interleaved : ∃ c k rest,
    (network (twoSubscribers.deployment .failure) orderedNetwork).Reachable c ∧
      invocations 2 c.net = [(20, [5])] ∧
      [(20, [5])] ++ rest = twoSubscribers.rounds 2 ([[5]].take k) := by
  obtain ⟨c, hc, hcalled, hpub⟩ := interleaved_run
  have hsub : 2 ∈ twoSubscribers.subscribers := by decide
  obtain ⟨k, rest, -, hrounds, -⟩ := callbacks_follow_published rfl rfl hc hsub
  rw [hcalled, hpub] at hrounds
  exact ⟨c, k, rest, hc, hcalled, hrounds⟩

end Feed

end Marko
