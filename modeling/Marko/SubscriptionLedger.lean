import Mathlib.Data.List.Flatten
import Marko.MeshDelivery
import Marko.SubscriptionSystem

/-! Who is on the list of a publisher and what its subscribers are told, in every run. -/
namespace Pymarko.Broadcast

open Datagram Interaction SubscriptionLog

variable {K : Type} (B : Broadcast K)

abbrev NetState (K : Type) := Net Address K Work Outcome

abbrev State (K : Type) := Config Address K (Option Bytes) Work Outcome × Board Address Bytes

/-- What a job says to the publisher. -/
def spoken : Work → List Word
  | .send data => (socket.pieces data).map word
  | .del => [.shutdown]
  | _ => []

def message? : Work → Option Bytes
  | .publish data => some data
  | _ => none

/-- What `a` said to the publisher so far. -/
def words (N : NetState K) (a : Address) : List Word := (N.started a).flatMap spoken

def published (N : NetState K) : List Bytes := (N.started B.publisher).filterMap message?

/-- The datagrams from `src` that `dst` has not taken, in its queue and on the way. -/
def underway (N : NetState K) (src dst : Address) : List Bytes :=
  payloadsFrom src (N.queue dst) ++ (N.flight (src, dst)).map Packet.payload

/-! What the log says of the publisher's events. -/

theorem publications_logOf (es : List (Event Address K Work Outcome)) :
    publications (logOf es) = (jobs es).filterMap message? := by
  unfold publications logOf jobs
  rw [List.filterMap_filterMap, List.filterMap_filterMap]
  congr 1
  funext e
  cases e with
  | start job => cases job <;> rfl
  | finished job result => cases job <;> cases result <;> rfl
  | _ => rfl

theorem wordsFrom_logOf (a : Address) (es : List (Event Address K Work Outcome)) :
    wordsFrom a (logOf es) = (payloadsFrom a (taken es)).map word := by
  induction es with
  | nil => rfl
  | cons e es ih =>
    cases e with
    | received p =>
      have htaken : taken (.received p :: es) = p :: taken es := rfl
      have hlog : logOf (.received p :: es) = .heard p.src (word p.payload) :: logOf es := rfl
      rw [htaken, hlog, payloadsFrom_cons]
      by_cases hp : p.src = a
      · rw [if_pos hp, hp, wordsFrom_heard_self, ih]
        rfl
      · rw [if_neg hp, wordsFrom_heard_of_ne hp, ih]
        rfl
    | start job => cases job <;> exact ih
    | finished job result => cases job <;> cases result <;> exact ih
    | _ => exact ih

theorem payloadsTo_wire (dst : Address) (m : Bytes × Address) :
    payloadsTo dst (wire m) = if m.2 = dst then socket.pieces m.1 else [] :=
  Interop.payloadsTo_pieces dst m.2 _

theorem payloadsTo_wires (dst : Address) (ms : List (Bytes × Address)) :
    payloadsTo dst (ms.flatMap wire) =
      ((ms.filter fun m => m.2 = dst).map Prod.fst).flatMap socket.pieces := by
  induction ms with
  | nil => rfl
  | cons m ms ih =>
    rw [List.flatMap_cons, payloadsTo_append, ih, payloadsTo_wire]
    by_cases hm : m.2 = dst
    · simp [hm]
    · simp [hm]

/-- A subscriber sends to nobody but the publisher. -/
theorem payloadsTo_plan {a : Address} (ha : a ≠ B.publisher) (js : List Work) :
    (payloadsTo B.publisher (js.flatMap (B.plan a))).map word = js.flatMap spoken ∧
      ∀ b, b ≠ B.publisher → payloadsTo b (js.flatMap (B.plan a)) = [] := by
  have hjob (job : Work) : (payloadsTo B.publisher (B.plan a job)).map word = spoken job ∧
      ∀ b, b ≠ B.publisher → payloadsTo b (B.plan a job) = [] := by
    cases job with
    | iterate clientaddr data index =>
      rw [plan, if_neg ha]
      exact ⟨rfl, fun _ _ => rfl⟩
    | send data =>
      rw [plan, payloadsTo_wire, if_pos rfl]
      refine ⟨rfl, fun b hb => ?_⟩
      rw [payloadsTo_wire, if_neg (Ne.symm hb)]
    | del =>
      -- the word is short enough for one packet
      have hpieces : socket.pieces (encode "shutdown") = [encode "shutdown"] :=
        if_neg (by decide)
      rw [plan, payloadsTo_wire, if_pos rfl, hpieces, List.map_singleton, word_shutdown]
      refine ⟨rfl, fun b hb => ?_⟩
      rw [payloadsTo_wire, if_neg (Ne.symm hb)]
    | publish data => exact ⟨rfl, fun _ _ => rfl⟩
    | listen clientaddr => exact ⟨rfl, fun _ _ => rfl⟩
    | receive => exact ⟨rfl, fun _ _ => rfl⟩
  induction js with
  | nil => exact ⟨rfl, fun _ _ => rfl⟩
  | cons job js ih =>
    obtain ⟨hspoken, hnone⟩ := hjob job
    obtain ⟨hwords, hnothing⟩ := ih
    simp only [List.flatMap_cons, payloadsTo_append, List.map_append, hwords, hspoken]
    refine ⟨trivial, fun b hb => ?_⟩
    rw [hnone b hb, hnothing b hb]
    rfl

theorem ne_publisher {B : Broadcast K} {a : Address} (ha : (B.subscriber a).isSome) :
    a ≠ B.publisher := by
  rintro rfl
  rw [B.apart] at ha
  cases ha

variable [DecidableEq K] {B} {P : Policy Address} {ls : List (Label Address K Work Outcome)}
  {s : State K}

section Run

variable (hrun : (B.system P).run ls (B.system P).init = some s)
include hrun

theorem published_of_run : publications (logOf (events B.publisher ls)) = B.published s.1.net := by
  rw [publications_logOf, published, started_eq_jobs (Memory.network_run hrun)]

theorem shared_of_run (hidle : s.1.act B.publisher = .idle) :
    s.2 = Board.empty.after (logOf (events B.publisher ls)) := by
  have hat := (recorded_of_run hrun).shared
  rw [hidle] at hat
  generalize Board.empty.after (logOf (events B.publisher ls)) = b at hat
  cases hat
  rfl

theorem count_of_run (hidle : s.1.act B.publisher = .idle) (a : Address) :
    s.2.list.count a = wordsCount 0 (wordsFrom a (logOf (events B.publisher ls))) := by
  -- two ways to compare addresses
  have hbeq : (instBEqProd : BEq Address) = instBEqOfDecidableEq := lawful_beq_subsingleton _ _
  rw [shared_of_run hrun hidle, hbeq]
  exact count_after a .empty _

/-- What the publisher heard of a subscriber is kept of what that subscriber said. -/
theorem heard_of_run {a : Address} (ha : (B.subscriber a).isSome) :
    ∃ pending, (s.1.act a = .idle → pending = []) ∧
      Kept P.reorder P.lossy (wordsFrom a (logOf (events B.publisher ls)) ++
        (underway s.1.net a B.publisher).map word ++ pending) (words s.1.net a) := by
  obtain ⟨pending, hpending, hkept⟩ :=
    B.fanOut.traffic_of_run (Memory.network_run hrun) a B.publisher
  refine ⟨pending.map word, fun hidle => by rw [hpending hidle]; rfl, ?_⟩
  have hwords := hkept.map word
  have hplan : (payloadsTo B.publisher ((s.1.net.started a).flatMap (B.fanOut.plan a))).map word =
      words s.1.net a := (B.payloadsTo_plan (ne_publisher ha) _).1
  rw [hplan] at hwords
  rw [wordsFrom_logOf, underway]
  simpa only [List.map_append, List.append_assoc] using hwords

/-- A subscriber's callbacks were invoked on what it took, which is kept of the datagrams for the
messages that it is told of. -/
theorem told_of_run {a : Address} {cb : List K} {datasize : ℕ}
    (ha : B.subscriber a = some (cb, datasize)) :
    ∃ ms owed pending, s.1.net.calls a ++ owed = ms.flatMap (Subscriber.asks cb datasize) ∧
      (s.1.act a = .idle → owed = []) ∧ (s.1.act B.publisher = .idle → pending = []) ∧
      Kept P.reorder P.lossy (ms ++ underway s.1.net B.publisher a ++ pending)
        ((Board.empty.told a (logOf (events B.publisher ls))).flatMap socket.pieces) := by
  have hnet := Memory.network_run hrun
  have hne : a ≠ B.publisher := ne_publisher (by rw [ha]; rfl)
  obtain ⟨owed, hcalled, howed⟩ := B.fanOut.calls_of_run hnet a
  obtain ⟨pending, hpending, hkept⟩ := B.fanOut.traffic_of_run hnet B.publisher a
  have hview : B.fanOut.view a = Subscriber.asks cb datasize := by
    funext d
    show B.view a d = _
    rw [view, ha, Option.elim_some]
  -- all that it took came from the publisher
  have hsource (p : Packet Address) (hp : p ∈ taken (events a ls)) : p.src = B.publisher := by
    by_contra hsrc
    have hmem := B.fanOut.source_of_taken hnet hp
    have hnone : payloadsTo a ((s.1.net.started p.src).flatMap (B.fanOut.plan p.src)) = [] :=
      (B.payloadsTo_plan hsrc _).2 a hne
    rw [hnone] at hmem
    exact List.not_mem_nil hmem
  have htaken : (taken (events a ls)).map Packet.payload =
      payloadsFrom B.publisher (taken (events a ls)) := by
    rw [payloadsFrom, List.filter_eq_self.mpr fun p hp => decide_eq_true (hsource p hp)]
  -- and the publisher sends what its log says
  have htold : payloadsTo a ((s.1.net.started B.publisher).flatMap (B.fanOut.plan B.publisher)) =
      (Board.empty.told a (logOf (events B.publisher ls))).flatMap socket.pieces := by
    have hplanned := (recorded_of_run hrun).planned
    rw [started_eq_jobs hnet]
    exact (congrArg (payloadsTo a) hplanned).trans (payloadsTo_wires a _)
  refine ⟨payloadsFrom B.publisher (taken (events a ls)), owed, pending, ?_, howed, hpending, ?_⟩
  · rw [hcalled, hview, ← htaken, List.flatMap_map]
  · rw [htold] at hkept
    rw [underway, ← List.append_assoc]
    exact hkept

end Run

/-- What a log of the publisher says of a state. -/
structure Ledger (B : Broadcast K) (P : Policy Address) (s : State K)
    (log : List (Entry Address Bytes)) : Prop where
  published : publications log = B.published s.1.net
  shared : s.1.act B.publisher = .idle → s.2 = Board.empty.after log
  heard : ∀ a, (B.subscriber a).isSome → ∃ pending, (s.1.act a = .idle → pending = []) ∧
    Kept P.reorder P.lossy
      (wordsFrom a log ++ (underway s.1.net a B.publisher).map word ++ pending)
      (words s.1.net a)
  told : ∀ a cb datasize, B.subscriber a = some (cb, datasize) → ∃ ms owed pending,
    s.1.net.calls a ++ owed = ms.flatMap (Subscriber.asks cb datasize) ∧
      (s.1.act a = .idle → owed = []) ∧ (s.1.act B.publisher = .idle → pending = []) ∧
      Kept P.reorder P.lossy (ms ++ underway s.1.net B.publisher a ++ pending)
        ((Board.empty.told a log).flatMap socket.pieces)

def oneSubscriber : Broadcast ℕ where
  publisher := ("pub", 1)
  subscriber a := if a = ("sub", 2) then some ([7], 100) else none
  callback _ _ _ := none
  apart := rfl

def lossless (reorder : Bool) : Policy Address :=
  { reorder := reorder, lossy := false, timeouts := fun _ => false }

/-- The subscriber subscribes and shuts down. -/
def briefly : List (Label Address ℕ Work Outcome) :=
  [.party ("sub", 2) (.start (.send (encode "subscribe"))),
    .party ("sub", 2) (.sent (encode "subscribe") ("pub", 1)),
    .party ("sub", 2) (.finished (.send (encode "subscribe")) (.ok none)),
    .party ("sub", 2) (.start .del), .party ("sub", 2) (.sent (encode "shutdown") ("pub", 1)),
    .party ("sub", 2) (.finished .del (.ok none))]

/-- The request to shut down overtakes the one to subscribe, which the publisher hears between two
iterations of a call. -/
def shutdownFirst : List (Label Address ℕ Work Outcome) :=
  briefly ++
  [.transit (.arrive ("sub", 2) ("pub", 1) 1), .transit (.arrive ("sub", 2) ("pub", 1) 0),
    .party ("pub", 1) (.start (.listen [])),
    .party ("pub", 1) (.received ⟨("sub", 2), encode "shutdown", ("sub", 2), 1⟩),
    .party ("pub", 1) (.finished (.listen []) (.ok (some []))),
    .party ("pub", 1) (.start (.publish [5])),
    .party ("pub", 1) (.finished (.publish [5]) (.ok none)),
    .party ("pub", 1) (.start (.listen [])),
    .party ("pub", 1) (.received ⟨("sub", 2), encode "subscribe", ("sub", 2), 0⟩),
    .party ("pub", 1) (.finished (.listen []) (.ok (some [("sub", 2)]))),
    .party ("pub", 1) (.start (.iterate [("sub", 2)] [5] 0)),
    .party ("pub", 1) (.sent [5] ("sub", 2)),
    .party ("pub", 1) (.finished (.iterate [("sub", 2)] [5] 0) (.ok none)),
    .party ("pub", 1) (.start (.iterate [("sub", 2)] [5] 1)),
    .party ("pub", 1) (.finished (.iterate [("sub", 2)] [5] 1) (.ok none)),
    .transit (.arrive ("pub", 1) ("sub", 2) 0), .party ("sub", 2) (.start .receive),
    .party ("sub", 2) (.received ⟨("pub", 1), [5], ("pub", 1), 3⟩),
    .party ("sub", 2) (.invoked 7 [5]), .party ("sub", 2) (.finished .receive (.ok none))]

theorem shutdownFirst_run : ∃ s,
    (oneSubscriber.system (lossless true)).run shutdownFirst
      (oneSubscriber.system (lossless true)).init = some s ∧
    s.2.list = [("sub", 2)] ∧ s.1.net.calls ("sub", 2) = [(7, [5])] ∧
    words s.1.net ("sub", 2) = [.subscribe, .shutdown] ∧
    oneSubscriber.published s.1.net = [[5]] ∧
    s.1.act ("sub", 2) = .idle ∧ underway s.1.net ("sub", 2) ("pub", 1) = [] ∧
    s.1.act ("pub", 1) = .idle :=
  ⟨_, rfl, rfl, rfl, rfl, rfl, rfl, rfl, rfl⟩

/-- On any network, whatever the others say and wherever the rounds of the listener fall: a
subscriber takes no more copies of what one call of `publish` sends than it ever subscribed; in
the order of the calls, when the network keeps the order. -/
theorem copies_bounded (hs : (B.system P).Reachable s) {a : Address} {cb : List K} {datasize : ℕ}
    (ha : B.subscriber a = some (cb, datasize)) :
    ∃ (ms : List Bytes) (owed : List (K × Bytes)),
      s.1.net.calls a ++ owed = ms.flatMap (Subscriber.asks cb datasize) ∧
        (s.1.act a = .idle → owed = []) ∧
        Kept P.reorder true ms (((B.published s.1.net).flatMap
          (List.replicate ((words s.1.net a).count .subscribe))).flatMap socket.pieces) := by
  obtain ⟨ls, hrun⟩ := hs
  obtain ⟨pending, -, hheard⟩ := heard_of_run hrun (by rw [ha]; rfl)
  obtain ⟨ms, owed, rest, hcalls, howed, -, htook⟩ := told_of_run hrun ha
  refine ⟨ms, owed, hcalls, howed, ?_⟩
  -- no more was heard than was said
  have hcoming : coming a (logOf (events B.publisher ls)) ≤
      (words s.1.net a).count .subscribe := by
    have hle := hheard.subperm.count_le Word.subscribe
    rw [List.append_assoc, List.count_append] at hle
    exact Nat.le_trans (Nat.le_add_right _ _) hle
  have htold := told_of_coming hcoming
  rw [published_of_run hrun] at htold
  have hcopies := htold.flatMap socket.pieces
  have hms : ms.Sublist (ms ++ underway s.1.net B.publisher a ++ rest) := by
    rw [List.append_assoc]
    exact List.sublist_append_left _ _
  exact ((Kept.of_sublist rfl hms).trans htook.weaken).trans (Kept.of_sublist rfl hcopies)

/-- The subscriber subscribed once, and takes the message once. -/
theorem copies_bounded_shutdownFirst : ∃ s,
    (oneSubscriber.system (lossless true)).Reachable s ∧
      ∃ (ms : List Bytes) (owed : List (ℕ × Bytes)),
        ([(7, [5])] : List (ℕ × Bytes)) ++ owed = ms.flatMap (Subscriber.asks [7] 100) ∧
          ms.Subperm [[5]] := by
  obtain ⟨s, hrun, -, hcalls, hwords, hpublished, -⟩ := shutdownFirst_run
  have hsub : oneSubscriber.subscriber ("sub", 2) = some ([7], 100) := rfl
  obtain ⟨ms, owed, hasked, -, hms⟩ := copies_bounded ⟨shutdownFirst, hrun⟩ hsub
  rw [hcalls] at hasked
  rw [hwords, hpublished] at hms
  exact ⟨s, ⟨shutdownFirst, hrun⟩, ms, owed, hasked, hms⟩

/-- Nobody shuts down, and `a` does not subscribe. -/
def Steady (a : Address) (es : List (Event Address K Work Outcome)) : Prop :=
  ∀ p ∈ taken es, word p.payload ≠ .shutdown ∧ (word p.payload = .subscribe → p.src ≠ a)

omit [DecidableEq K] in
theorem Steady.log {a : Address} {es : List (Event Address K Work Outcome)} (h : Steady a es)
    (hraised : .raised ∉ logOf es) : ∀ entry ∈ logOf es, entry.Steady a := by
  intro entry hmem
  cases entry with
  | heard src w =>
    obtain ⟨e, he, hentry⟩ := List.mem_filterMap.mp hmem
    cases e with
    | received p =>
      obtain ⟨rfl, rfl⟩ := Entry.heard.inj (Option.some.inj hentry)
      exact h p (List.mem_filterMap.mpr ⟨.received p, he, rfl⟩)
    | start job => cases job <;> cases hentry
    | finished job result => cases job <;> cases result <;> cases hentry
    | sent msg dst => cases hentry
    | sendFails err => cases hentry
    | timedOut => cases hentry
    | invoked cb msg => cases hentry
  | published d => trivial
  | iterated => trivial
  | raised => exact (hraised hmem).elim

/-- While a call is in progress, the publisher hears something else. -/
def publishing : List (Label Address ℕ Work Outcome) :=
  [.party ("sub", 2) (.start (.send [1])), .party ("sub", 2) (.sent [1] ("pub", 1)),
    .party ("sub", 2) (.finished (.send [1]) (.ok none)),
    .party ("pub", 1) (.start (.publish [5])),
    .party ("pub", 1) (.finished (.publish [5]) (.ok none)),
    .transit (.arrive ("sub", 2) ("pub", 1) 0),
    .party ("pub", 1) (.start (.listen [("sub", 2)])),
    .party ("pub", 1) (.received ⟨("sub", 2), [1], ("sub", 2), 1⟩),
    .party ("pub", 1) (.finished (.listen [("sub", 2)]) (.ok (some [("sub", 2)]))),
    .party ("pub", 1) (.start (.iterate [("sub", 2)] [5] 0)),
    .party ("pub", 1) (.sent [5] ("sub", 2)),
    .party ("pub", 1) (.finished (.iterate [("sub", 2)] [5] 0) (.ok none)),
    .party ("pub", 1) (.start (.iterate [("sub", 2)] [5] 1)),
    .party ("pub", 1) (.finished (.iterate [("sub", 2)] [5] 1) (.ok none)),
    .transit (.arrive ("pub", 1) ("sub", 2) 0), .party ("sub", 2) (.start .receive),
    .party ("sub", 2) (.received ⟨("pub", 1), [5], ("pub", 1), 3⟩),
    .party ("sub", 2) (.invoked 7 [5]), .party ("sub", 2) (.finished .receive (.ok none))]

/-- Once the publisher has heard all that a subscriber said, on a network that loses nothing: the
subscriber is on the list as often as its words in turn put it there; also when they overtook each
other, it is there at least as often as it subscribed more than it shut down, and never more often
than it subscribed. -/
theorem subscriptions_counted (hloss : P.lossy = false) (hs : (B.system P).Reachable s)
    {a : Address} (ha : (B.subscriber a).isSome) (hidle : s.1.act a = .idle)
    (hunderway : underway s.1.net a B.publisher = []) (hpub : s.1.act B.publisher = .idle) :
    (P.reorder = false → s.2.list.count a = wordsCount 0 (words s.1.net a)) ∧
      (words s.1.net a).count .subscribe ≤
        s.2.list.count a + (words s.1.net a).count .shutdown ∧
      s.2.list.count a ≤ (words s.1.net a).count .subscribe := by
  obtain ⟨ls, hrun⟩ := hs
  obtain ⟨pending, hpending, hkept⟩ := heard_of_run hrun ha
  rw [hunderway, hpending hidle, List.map_nil, List.append_nil, List.append_nil, hloss] at hkept
  have hcount := count_of_run hrun hpub a
  obtain ⟨hlow, hhigh⟩ := wordsCount_bounds 0 (wordsFrom a (logOf (events B.publisher ls)))
  have hperm := hkept.perm
  rw [← hcount, hperm.count_eq, hperm.count_eq] at hlow
  rw [← hcount, hperm.count_eq] at hhigh
  refine ⟨?_, ?_, ?_⟩
  · intro hreorder
    rw [hreorder] at hkept
    have heq : wordsFrom a (logOf (events B.publisher ls)) = words s.1.net a := hkept
    rw [hcount, heq]
  · simpa only [Nat.zero_add] using hlow
  · simpa only [Nat.zero_add] using hhigh

/-- Who has shut down may stay on the list. -/
theorem subscriptions_counted_shutdownFirst : ∃ s,
    (oneSubscriber.system (lossless true)).Reachable s ∧ s.2.list = [("sub", 2)] ∧
      words s.1.net ("sub", 2) = [.subscribe, .shutdown] ∧
      1 ≤ s.2.list.count ("sub", 2) + 1 ∧ s.2.list.count ("sub", 2) ≤ 1 := by
  obtain ⟨s, hrun, hlist, -, hwords, -, hidle, hunderway, hpub⟩ := shutdownFirst_run
  obtain ⟨-, hlow, hhigh⟩ :=
    subscriptions_counted rfl ⟨shutdownFirst, hrun⟩ (a := ("sub", 2)) rfl hidle hunderway hpub
  rw [hwords] at hlow hhigh
  exact ⟨s, ⟨shutdownFirst, hrun⟩, hlist, hwords, hlow, hhigh⟩

end Pymarko.Broadcast
