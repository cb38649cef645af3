import Marko.PymarkoFeed

/-! The callbacks of a subscriber see the published payloads in order and without repetition,
each cut to `datasize` bytes, as long as the network keeps order and loses nothing. -/
namespace Pymarko

open Datagram Interaction

namespace Feed

variable {K : Type} (F : Feed K)

abbrev NetState (K : Type) := Net Address K Work Result

def Placed (i : Address) : Phase K → Prop
  | .idle => True
  | .sending _ _ => i = F.publisher
  -- on a network that accepts every datagram only the missing buffer raises
  | .raised _ _ => False
  | .listening => i = F.subscriber
  | .calling _ _ rest => i = F.subscriber ∧ rest <:+ F.callbacks
  | .quiet => i = F.subscriber

structure Routed (N : NetState K) (φ : Address → Phase K) : Prop where
  flight : ∀ src dst, ∀ p ∈ N.flight (src, dst), src = F.publisher ∧ dst = F.subscriber
  phase : ∀ i, F.Placed i (φ i)

inductive Step (N : NetState K) (φ : Address → Phase K) :
    NetState K → (Address → Phase K) → Prop where
  | publish (data : Bytes) (hphase : φ F.publisher = .idle) :
      Step N φ (N.start F.publisher (.publish data))
        (Function.update φ F.publisher (.sending data (F.socket.pieces data)))
  | send (data piece : Bytes) (rest : List Bytes)
      (hphase : φ F.publisher = .sending data (piece :: rest)) :
      Step N φ (N.post F.publisher piece F.subscriber)
        (Function.update φ F.publisher (.sending data rest))
  | published (data : Bytes) (hphase : φ F.publisher = .sending data []) :
      Step N φ (N.conclude F.publisher (.publish data) (F.socket.outcome data))
        (Function.update φ F.publisher .idle)
  | listen (hphase : φ F.subscriber = .idle) :
      Step N φ (N.start F.subscriber .listen) (Function.update φ F.subscriber .listening)
  | handle (p : Packet Address) (rest : List (Packet Address))
      (hphase : φ F.subscriber = .listening) (hqueue : N.queue F.subscriber = p :: rest) :
      Step N φ (N.take F.subscriber p) (Function.update φ F.subscriber (F.handle p))
  | timesOut (hphase : φ F.subscriber = .listening) :
      Step N φ N (Function.update φ F.subscriber .quiet)
  | call (data : Bytes) (addr : Address) (cb : K) (rest : List K)
      (hphase : φ F.subscriber = .calling data addr (cb :: rest)) :
      Step N φ (N.note F.subscriber cb data)
        (Function.update φ F.subscriber (.calling data addr rest))
  | called (data : Bytes) (addr : Address) (hphase : φ F.subscriber = .calling data addr []) :
      Step N φ (N.conclude F.subscriber .listen (.ok ())) (Function.update φ F.subscriber .idle)
  | quiet (hphase : φ F.subscriber = .quiet) :
      Step N φ (N.conclude F.subscriber .listen (.ok ())) (Function.update φ F.subscriber .idle)
  | arrive (p : Packet Address) (rest : List (Packet Address))
      (hflight : N.flight (F.publisher, F.subscriber) = p :: rest) :
      Step N φ (N.arrive F.publisher F.subscriber 0 p) φ

variable {F} {N N' : NetState K} {φ φ' : Address → Phase K}

theorem routed_empty : F.Routed .empty fun _ => .idle where
  flight _ _ _ h := absurd h List.not_mem_nil
  phase _ := trivial

theorem placed_handle (p : Packet Address) : F.Placed F.subscriber (F.handle p) := by
  unfold handle
  split
  · exact rfl
  · exact ⟨rfl, List.suffix_refl _⟩

theorem Routed.step (h : F.Routed N φ) (hstep : F.Step N φ N' φ') : F.Routed N' φ' := by
  cases hstep with
  | publish data hphase => exact ⟨h.flight, forall_update h.phase rfl⟩
  | send data piece rest hphase =>
    refine ⟨?_, forall_update h.phase rfl⟩
    intro src dst p hp
    -- the loop of `publish` sends to the one registered address
    rcases Net.mem_post_flight.mp hp with hp | ⟨hsd, -⟩
    · exact h.flight src dst p hp
    · exact Prod.mk.inj hsd
  | published data hphase => exact ⟨h.flight, forall_update h.phase trivial⟩
  | listen hphase => exact ⟨h.flight, forall_update h.phase rfl⟩
  | handle p rest hphase hqueue => exact ⟨h.flight, forall_update h.phase (placed_handle p)⟩
  | timesOut hphase => exact ⟨h.flight, forall_update h.phase rfl⟩
  | call data addr cb rest hphase =>
    have hplace : F.Placed F.subscriber (.calling data addr (cb :: rest)) := hphase ▸ h.phase _
    have hsuffix : rest <:+ F.callbacks := (List.suffix_cons cb rest).trans hplace.2
    exact ⟨h.flight, forall_update h.phase ⟨rfl, hsuffix⟩⟩
  | called data addr hphase => exact ⟨h.flight, forall_update h.phase trivial⟩
  | quiet hphase => exact ⟨h.flight, forall_update h.phase trivial⟩
  | arrive p rest hflight =>
    refine ⟨?_, h.phase⟩
    intro src dst q hq
    exact h.flight src dst q ((Net.lose_flight_sublist _).subset hq)

theorem step_of_phases [DecidableEq K] {P : Policy Address} {φ φ' : Address → F.phases.Phase}
    (hfifo : P.reorder = false) (hloss : P.lossy = false) (h : F.Routed N φ)
    (hstep : F.phases.Step P N φ N' φ') : F.Step N φ N' φ' := by
  cases hstep with
  | party i e x N' hmove hnet =>
    have hplace := h.phase i
    -- who moves is read off the phase: `Routed` puts each phase at its own party
    change F.Move i e (φ i) x at hmove
    generalize hx : φ i = y at hmove hplace
    cases hmove with
    | publish data =>
      cases hnet
      exact .publish data hx
    | send =>
      obtain rfl : i = F.publisher := hplace
      cases hnet
      exact .send _ _ _ hx
    | sendFails e =>
      -- a network without loss takes every datagram
      rw [Net.effect_sendFails_lossless hloss] at hnet
      contradiction
    | published =>
      obtain rfl : i = F.publisher := hplace
      cases hnet
      exact .published _ hx
    | raised => exact absurd hplace not_false
    | listen =>
      cases hnet
      exact .listen hx
    | handle p =>
      obtain rfl : i = F.subscriber := hplace
      obtain ⟨rest, hqueue, rfl⟩ := Net.effect_received hnet
      exact .handle p rest hx hqueue
    | timesOut =>
      obtain rfl : i = F.subscriber := hplace
      obtain ⟨-, rfl⟩ := Net.effect_timedOut hnet
      exact .timesOut hx
    | call =>
      obtain rfl : i = F.subscriber := hplace.1
      cases hnet
      exact .call _ _ _ _ hx
    | called =>
      obtain rfl : i = F.subscriber := hplace.1
      cases hnet
      exact .called _ _ hx
    | quiet =>
      obtain rfl : i = F.subscriber := hplace
      cases hnet
      exact .quiet hx
  | transit t N' hnet =>
    -- without loss and reordering the only transit is the arrival of the oldest datagram
    obtain ⟨src, dst, p, rest, hflight, rfl⟩ := Net.transit_ordered hfifo hloss hnet
    obtain ⟨rfl, rfl⟩ := h.flight src dst p (hflight ▸ List.mem_cons_self)
    exact .arrive p rest hflight

/-! Where the datagrams of the published payloads are. -/

variable (F)

def data? : Work → Option Bytes
  | .publish data => some data
  | .listen => none

def published (N : NetState K) : List Bytes := (N.started F.publisher).filterMap data?

/-- The datagrams that these calls put on the wire, those still to be sent included. -/
def datagrams (N : NetState K) : List Bytes := (F.published N).flatMap F.socket.pieces

def pending : Phase K → List Bytes
  | .sending _ rest => rest
  | _ => []

/-- The datagrams that the subscriber has not taken from its queue. -/
def backlog (N : NetState K) (φ : Address → Phase K) : List Bytes :=
  (N.queue F.subscriber).map Packet.payload ++
    (N.flight (F.publisher, F.subscriber)).map Packet.payload ++ pending (φ F.publisher)

def owed : Phase K → List (K × Bytes)
  | .calling data _ rest => rest.map fun cb => (cb, data)
  | _ => []

def invocations (N : NetState K) : List (K × Bytes) :=
  (N.invoked F.subscriber).map fun v => (v.cb, v.msg)

/-- Every callback once on what a receive returns of each datagram; nothing on nothing. -/
def rounds (ds : List Bytes) : List (K × Bytes) :=
  ds.flatMap fun d =>
    if d.take F.datasize = [] then [] else F.callbacks.map fun cb => (cb, d.take F.datasize)

/-- Some first part of the datagrams was taken from the queue, and the callbacks were called
for it. -/
def Delivered (N : NetState K) (φ : Address → Phase K) : Prop :=
  ∃ taken, F.datagrams N = taken ++ F.backlog N φ ∧
    F.invocations N ++ owed (φ F.subscriber) = F.rounds taken

variable {F}

theorem rounds_concat (ds : List Bytes) (p : Packet Address) :
    F.rounds (ds ++ [p.payload]) = F.rounds ds ++ owed (F.handle p) := by
  unfold rounds handle
  rw [List.flatMap_append, List.flatMap_singleton]
  by_cases hnil : p.payload.take F.datasize = []
  · rw [if_pos hnil, if_pos hnil, owed]
    exact fun _ _ _ => nofun
  · rw [if_neg hnil, if_neg hnil, owed]

theorem datagrams_publish (data : Bytes) :
    F.datagrams (N.start F.publisher (.publish data)) =
      F.datagrams N ++ F.socket.pieces data := by
  simp [datagrams, published, data?]

theorem delivered_empty : F.Delivered .empty fun _ => .idle := ⟨[], rfl, rfl⟩

/-- A step of the subscriber within its own round: what it has called and has still to call
stays the same together. -/
theorem Delivered.local {x : Phase K} (h : F.Delivered N φ)
    (hstarted : N'.started F.publisher = N.started F.publisher) (hflight : N'.flight = N.flight)
    (hqueue : N'.queue = N.queue)
    (hcalled : F.invocations N' ++ owed x = F.invocations N ++ owed (φ F.subscriber)) :
    F.Delivered N' (Function.update φ F.subscriber x) := by
  obtain ⟨taken, hsent, hrounds⟩ := h
  refine ⟨taken, ?_, ?_⟩
  · rw [datagrams, published, hstarted, backlog, hqueue, hflight,
      Function.update_of_ne F.ne.symm]
    exact hsent
  · rw [Function.update_self, hcalled]
    exact hrounds

theorem Delivered.step (h : F.Delivered N φ) (hstep : F.Step N φ N' φ') :
    F.Delivered N' φ' := by
  have hne := F.ne
  have hne' := F.ne.symm
  have hdelivered := h
  obtain ⟨taken, hsent, hcalled⟩ := h
  -- `taken` grows only when the subscriber takes a datagram from its queue
  cases hstep with
  | publish data hphase =>
    refine ⟨taken, ?_, ?_⟩
    · rw [datagrams_publish, hsent]
      simp [backlog, pending, hphase]
    · simpa [invocations, hne] using hcalled
  | send data piece rest hphase =>
    refine ⟨taken, ?_, ?_⟩
    · simpa [datagrams, published, backlog, pending, hphase] using hsent
    · simpa [invocations, hne] using hcalled
  | published data hphase =>
    refine ⟨taken, ?_, ?_⟩
    · simpa [datagrams, published, backlog, pending, hphase] using hsent
    · simpa [invocations, hne] using hcalled
  | listen hphase =>
    refine hdelivered.local ?_ rfl rfl ?_
    · exact Function.update_of_ne hne' _ _
    · simp [invocations, owed, hphase]
  | handle p rest hphase hqueue =>
    refine ⟨taken ++ [p.payload], ?_, ?_⟩
    · simpa [datagrams, published, backlog, hne', hqueue] using hsent
    · -- before the receive nothing was owed, afterwards the whole round is
      rw [rounds_concat, ← hcalled]
      simp [invocations, owed, hphase]
  | timesOut hphase =>
    refine hdelivered.local rfl rfl rfl ?_
    simp [owed, hphase]
  | call data addr cb rest hphase =>
    refine hdelivered.local rfl rfl rfl ?_
    simp [invocations, owed, hphase]
  | called data addr hphase =>
    refine hdelivered.local rfl rfl rfl ?_
    simp [invocations, owed, hphase]
  | quiet hphase =>
    refine hdelivered.local rfl rfl rfl ?_
    simp [invocations, owed, hphase]
  | arrive p rest hflight =>
    refine ⟨taken, ?_, hcalled⟩
    simpa [datagrams, published, backlog, hflight] using hsent

theorem idle_of_activity {x : Phase K} (h : F.activity x = .idle) : x = .idle := by
  cases x <;> first | rfl | contradiction

/-- In every reachable state the callbacks were called, in order and without repetition, for a
first part of the datagrams, whatever the sizes of the payloads; what is missing of it is left
to the round that is running. -/
theorem callbacks_follow_datagrams [DecidableEq K] {P : Policy Address}
    (hfifo : P.reorder = false) (hloss : P.lossy = false)
    {c : Config Address K (Option Bytes) Work Result}
    (hc : (network F.deployment P).Reachable c) :
    ∃ taken backlog rest, F.datagrams c.net = taken ++ backlog ∧
      F.invocations c.net ++ rest = F.rounds taken ∧
      (rest = [] ∨ ∃ data addr cbs, rest = cbs.map (fun cb => (cb, data)) ∧
        cbs <:+ F.callbacks ∧ c.act F.subscriber =
          .busy .listen (forM cbs (Subscriber.notify data addr) : Py K _ Unit).run) ∧
      (c.act F.publisher = .idle → c.net.flight (F.publisher, F.subscriber) = [] →
        c.net.queue F.subscriber = [] → backlog = []) := by
  obtain ⟨φ, ⟨hroute, taken, hsent, hcalled⟩, hact⟩ := F.phases.invariant P
    (I := fun N φ => F.Routed N φ ∧ F.Delivered N φ) ⟨routed_empty, delivered_empty⟩
    (fun N φ N' φ' h hstep => by
      have hstep := step_of_phases hfifo hloss h.1 hstep
      exact ⟨h.1.step hstep, h.2.step hstep⟩) hc
  replace hact (j : Address) : c.act j = F.activity (φ j) := congrFun hact j
  -- what the round owes is what its loop has still to call
  refine ⟨taken, F.backlog c.net φ, owed (φ F.subscriber), hsent, hcalled, ?_, ?_⟩
  · -- only inside the loop over the callbacks is anything owed
    have hplace := hroute.phase F.subscriber
    rw [hact F.subscriber]
    generalize (φ F.subscriber : Phase K) = x at hplace ⊢
    cases x with
    | calling data addr cbs => exact .inr ⟨data, addr, cbs, rfl, hplace.2, rfl⟩
    | _ => exact .inl rfl
  · intro hidle hflight hqueue
    rw [hact] at hidle
    have hphase : φ F.publisher = Phase.idle := idle_of_activity hidle
    unfold Feed.backlog
    rw [hflight, hqueue, hphase]
    rfl

theorem datagrams_eq_published (hfits : ∀ data ∈ F.published N,
    data.length ≤ F.socket.maxPacketSize) : F.datagrams N = F.published N := by
  -- a payload that fits is a single datagram
  have hone : ∀ data ∈ F.published N, F.socket.pieces data = [data] := by
    intro data hdata
    exact if_neg (Nat.not_lt.mpr (hfits data hdata))
  calc F.datagrams N = (F.published N).flatMap fun data => [data] := List.flatMap_congr hone
    _ = F.published N := List.flatMap_singleton' _

theorem rounds_whole {ds : List Bytes} (hwhole : ∀ d ∈ ds, d ≠ [] ∧ d.length ≤ F.datasize) :
    F.rounds ds = ds.flatMap fun d => F.callbacks.map fun cb => (cb, d) := by
  apply List.flatMap_congr
  intro d hd
  obtain ⟨hne, hlen⟩ := hwhole d hd
  rw [List.take_of_length_le hlen, if_neg hne]

/-- As long as no payload exceeds a packet, the callbacks see the payloads themselves: the
first `datasize` bytes of each, and each whole payload when none is longer. -/
theorem payloads_arrive_in_order [DecidableEq K] {P : Policy Address}
    (hfifo : P.reorder = false) (hloss : P.lossy = false)
    {c : Config Address K (Option Bytes) Work Result}
    (hc : (network F.deployment P).Reachable c)
    (hfits : ∀ data ∈ F.published c.net, data.length ≤ F.socket.maxPacketSize) :
    ∃ k rest, k ≤ (F.published c.net).length ∧
      F.invocations c.net ++ rest = F.rounds ((F.published c.net).take k) ∧
      ((∀ data ∈ F.published c.net, data ≠ [] ∧ data.length ≤ F.datasize) →
        F.invocations c.net ++ rest =
          ((F.published c.net).take k).flatMap fun data => F.callbacks.map fun cb => (cb, data)) ∧
      (rest = [] ∨ ∃ data addr cbs, rest = cbs.map (fun cb => (cb, data)) ∧
        cbs <:+ F.callbacks ∧ c.act F.subscriber =
          .busy .listen (forM cbs (Subscriber.notify data addr) : Py K _ Unit).run) ∧
      (c.act F.publisher = .idle → c.net.flight (F.publisher, F.subscriber) = [] →
        c.net.queue F.subscriber = [] → k = (F.published c.net).length) := by
  obtain ⟨taken, backlog, rest, hsent, hcalled, hrest, hbacklog⟩ :=
    callbacks_follow_datagrams hfifo hloss hc
  rw [datagrams_eq_published hfits] at hsent
  have htake : (F.published c.net).take taken.length = taken := by
    rw [hsent, List.take_left]
  have hlen : (F.published c.net).length = taken.length + backlog.length := by
    rw [hsent, List.length_append]
  refine ⟨taken.length, rest, ?_, ?_, ?_, hrest, ?_⟩
  · omega
  · rw [htake, hcalled]
  · intro hwhole
    rw [htake, hcalled]
    apply rounds_whole
    intro data hdata
    apply hwhole
    rw [hsent]
    exact List.mem_append_left backlog hdata
  · intro hidle hflight hqueue
    rw [hlen, hbacklog hidle hflight hqueue, List.length_nil, Nat.add_zero]

/-- Packets of three bytes, of which the subscriber takes two. -/
def narrow : Feed ℕ where
  publisher := ("host", 1)
  subscriber := ("host", 2)
  ne := by decide
  socket := ⟨3, by decide⟩
  callbacks := [20, 21]
  datasize := 2
  answer _ _ := none

def orderedNetwork : Policy Address :=
  { reorder := false, lossy := false, timeouts := fun _ => true }

/-- The second payload is sent while the callbacks are called for the first. -/
def overlapping : List (Label Address ℕ Work Result) :=
  [.party ("host", 2) (.start .listen), .party ("host", 1) (.start (.publish [5, 6])),
    .party ("host", 1) (.sent [5, 6] ("host", 2)),
    .transit (.arrive ("host", 1) ("host", 2) 0),
    .party ("host", 1) (.finished (.publish [5, 6]) (.ok ())),
    .party ("host", 2) (.received ⟨("host", 1), [5, 6], ("host", 1), 0⟩),
    .party ("host", 2) (.invoked 20 [5, 6]), .party ("host", 1) (.start (.publish [7])),
    .party ("host", 1) (.sent [7] ("host", 2))]

theorem overlapping_run : ∃ c, (network narrow.deployment orderedNetwork).Reachable c ∧
    narrow.invocations c.net = [(20, [5, 6])] ∧ narrow.published c.net = [[5, 6], [7]] :=
  ⟨_, ⟨overlapping, rfl⟩, rfl, rfl⟩

theorem payloads_arrive_in_order_overlapping : ∃ c k rest,
    (network narrow.deployment orderedNetwork).Reachable c ∧
      narrow.published c.net = [[5, 6], [7]] ∧
      ([(20, [5, 6])] : List (ℕ × Bytes)) ++ rest =
        ([[5, 6], [7]].take k).flatMap fun data => [20, 21].map fun cb => (cb, data) := by
  obtain ⟨c, hc, hcalled, hpub⟩ := overlapping_run
  have hfits : ∀ data ∈ narrow.published c.net, data.length ≤ narrow.socket.maxPacketSize := by
    rw [hpub]
    decide
  have hwhole : ∀ data ∈ narrow.published c.net,
      data ≠ [] ∧ data.length ≤ narrow.datasize := by
    rw [hpub]
    decide
  obtain ⟨k, rest, -, -, hrounds, -⟩ := payloads_arrive_in_order rfl rfl hc hfits
  have hboth := hrounds hwhole
  rw [hcalled, hpub] at hboth
  exact ⟨c, k, rest, hc, hpub, hboth⟩

/-- A payload of three bytes is one packet, but the subscriber hands on its first two. -/
def cut : List (Label Address ℕ Work Result) :=
  [.party ("host", 1) (.start (.publish [5, 6, 7])),
    .party ("host", 1) (.sent [5, 6, 7] ("host", 2)),
    .transit (.arrive ("host", 1) ("host", 2) 0), .party ("host", 2) (.start .listen),
    .party ("host", 2) (.received ⟨("host", 1), [5, 6, 7], ("host", 1), 0⟩),
    .party ("host", 2) (.invoked 20 [5, 6])]

theorem longer_payload_is_cut : ∃ c, (network narrow.deployment orderedNetwork).Reachable c ∧
    narrow.published c.net = [[5, 6, 7]] ∧
    ¬ ∀ v ∈ narrow.invocations c.net, v.2 ∈ narrow.published c.net := by
  have hrun : ∃ c, (network narrow.deployment orderedNetwork).Reachable c ∧
      narrow.published c.net = [[5, 6, 7]] ∧ narrow.invocations c.net = [(20, [5, 6])] :=
    ⟨_, ⟨cut, rfl⟩, rfl, rfl⟩
  obtain ⟨c, hc, hpub, hcalled⟩ := hrun
  refine ⟨c, hc, hpub, ?_⟩
  rw [hpub, hcalled]
  decide

end Feed

end Pymarko
