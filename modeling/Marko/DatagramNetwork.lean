import Mathlib.Logic.Function.Basic
import Mathlib.Data.List.Basic
import Marko.InteractionMachine
import Marko.DatagramCalls

/-! A network of parties that each run one program after another over one datagram
socket. The environment decides every interleaving, which datagrams are lost or overtake
others, and which receives time out. The parties are their local addresses `A`. -/
namespace Datagram

open Interaction (Machine)

variable {A K V J R : Type}

/-- A datagram under way. `cause` names the start of a job, by party and number, that led
to it; no party can see it. -/
structure Packet (A : Type) where
  src : A
  payload : Bytes
  cause : A × ℕ
  deriving DecidableEq, Repr

/-- What the network and the sockets may do besides delivering in order. -/
structure Policy (A : Type) where
  reorder : Bool
  lossy : Bool
  timeouts : A → Bool

structure Invocation (K : Type) (A : Type) where
  cause : A × ℕ
  cb : K
  msg : Bytes
  deriving DecidableEq, Repr

structure Return (A J R : Type) where
  job : J
  result : R
  cause : A × ℕ
  deriving DecidableEq, Repr

/-- Which jobs a party takes and the program it runs for each, and what its callbacks
return. -/
structure Deployment (A K V J R : Type) where
  body : A → J → Option (Prog A K V R)
  callback : A → K → Bytes → V

inductive Activity (A K V J R : Type) where
  | idle
  | busy (job : J) (rest : Prog A K V R)

inductive Event (A K J R : Type) where
  | start (job : J)
  | sent (msg : Bytes) (dst : A)
  | sendFails (e : Errno)
  | received (p : Packet A)
  | timedOut
  | invoked (cb : K) (msg : Bytes)
  | finished (job : J) (result : R)

/-- What the network does in one step with the datagrams from `src` to `dst`. -/
inductive Transit (A : Type) where
  | arrive (src dst : A) (n : ℕ)
  | lose (src dst : A) (n : ℕ)

inductive Label (A K J R : Type) where
  | party (i : A) (e : Event A K J R)
  | transit (t : Transit A)

/-- The datagrams under way for each pair of parties, the receive queues, and what each
party has done so far. `cause` is the cause of whatever a party sends or calls next. -/
@[ext] structure Net (A K J R : Type) where
  flight : A × A → List (Packet A)
  queue : A → List (Packet A)
  cause : A → A × ℕ
  started : A → List J
  invoked : A → List (Invocation K A)
  returned : A → List (Return A J R)

structure Config (A K V J R : Type) where
  net : Net A K J R
  act : A → Activity A K V J R

namespace Net

def empty : Net A K J R where
  flight _ := []
  queue _ := []
  cause i := (i, 0)
  started _ := []
  invoked _ := []
  returned _ := []

variable [DecidableEq A] (N : Net A K J R)

def start (i : A) (job : J) : Net A K J R :=
  { N with
    -- the job's own number is the cause until a datagram is taken
    cause := Function.update N.cause i (i, (N.started i).length)
    started := Function.update N.started i (N.started i ++ [job]) }

def post (i : A) (msg : Bytes) (dst : A) : Net A K J R :=
  { N with
    flight := Function.update N.flight (i, dst)
      (N.flight (i, dst) ++ [⟨i, msg, N.cause i⟩]) }

def take (i : A) (p : Packet A) : Net A K J R :=
  { N with
    queue := Function.update N.queue i (N.queue i).tail
    cause := Function.update N.cause i p.cause }

def note (i : A) (cb : K) (msg : Bytes) : Net A K J R :=
  { N with
    invoked := Function.update N.invoked i (N.invoked i ++ [⟨N.cause i, cb, msg⟩]) }

def conclude (i : A) (job : J) (result : R) : Net A K J R :=
  { N with
    returned := Function.update N.returned i (N.returned i ++ [⟨job, result, N.cause i⟩]) }

def lose (src dst : A) (n : ℕ) : Net A K J R :=
  { N with
    flight := Function.update N.flight (src, dst) ((N.flight (src, dst)).eraseIdx n) }

def arrive (src dst : A) (n : ℕ) (p : Packet A) : Net A K J R :=
  { N.lose src dst n with queue := Function.update N.queue dst (N.queue dst ++ [p]) }

/-- The effect of a party's event on the network, when the network allows the event. -/
def effect (P : Policy A) (i : A) : Event A K J R → Option (Net A K J R)
  | .start job => some (N.start i job)
  | .sent msg dst => some (N.post i msg dst)
  -- a send that fails is a datagram lost at once
  | .sendFails _ => if P.lossy then some N else none
  -- the oldest queued datagram, whatever its source
  | .received p => if (N.queue i).head? = some p then some (N.take i p) else none
  | .timedOut => if P.timeouts i then some N else none
  | .invoked cb msg => some (N.note i cb msg)
  | .finished job result => some (N.conclude i job result)

def transit (P : Policy A) : Transit A → Option (Net A K J R)
  | .arrive src dst n =>
      if P.reorder ∨ n = 0 then (N.flight (src, dst))[n]?.map (N.arrive src dst n) else none
  | .lose src dst n => if P.lossy then some (N.lose src dst n) else none

section Fields

variable (i : A) (job : J) (result : R) (msg : Bytes) (src dst : A) (cb : K) (p : Packet A)
  (n : ℕ)

/-! The fields after each operation, the changed ones first. -/

@[simp] theorem start_cause : (N.start i job).cause =
    Function.update N.cause i (i, (N.started i).length) := rfl
@[simp] theorem start_started : (N.start i job).started =
    Function.update N.started i (N.started i ++ [job]) := rfl
@[simp] theorem start_flight : (N.start i job).flight = N.flight := rfl
@[simp] theorem start_queue : (N.start i job).queue = N.queue := rfl
@[simp] theorem start_invoked : (N.start i job).invoked = N.invoked := rfl
@[simp] theorem start_returned : (N.start i job).returned = N.returned := rfl

@[simp] theorem post_flight : (N.post i msg dst).flight =
    Function.update N.flight (i, dst) (N.flight (i, dst) ++ [⟨i, msg, N.cause i⟩]) := rfl
@[simp] theorem post_queue : (N.post i msg dst).queue = N.queue := rfl
@[simp] theorem post_cause : (N.post i msg dst).cause = N.cause := rfl
@[simp] theorem post_started : (N.post i msg dst).started = N.started := rfl
@[simp] theorem post_invoked : (N.post i msg dst).invoked = N.invoked := rfl
@[simp] theorem post_returned : (N.post i msg dst).returned = N.returned := rfl

@[simp] theorem take_queue : (N.take i p).queue = Function.update N.queue i (N.queue i).tail := rfl
@[simp] theorem take_cause : (N.take i p).cause = Function.update N.cause i p.cause := rfl
@[simp] theorem take_flight : (N.take i p).flight = N.flight := rfl
@[simp] theorem take_started : (N.take i p).started = N.started := rfl
@[simp] theorem take_invoked : (N.take i p).invoked = N.invoked := rfl
@[simp] theorem take_returned : (N.take i p).returned = N.returned := rfl

@[simp] theorem note_invoked : (N.note i cb msg).invoked =
    Function.update N.invoked i (N.invoked i ++ [⟨N.cause i, cb, msg⟩]) := rfl
@[simp] theorem note_flight : (N.note i cb msg).flight = N.flight := rfl
@[simp] theorem note_queue : (N.note i cb msg).queue = N.queue := rfl
@[simp] theorem note_cause : (N.note i cb msg).cause = N.cause := rfl
@[simp] theorem note_started : (N.note i cb msg).started = N.started := rfl
@[simp] theorem note_returned : (N.note i cb msg).returned = N.returned := rfl

@[simp] theorem conclude_returned : (N.conclude i job result).returned =
    Function.update N.returned i (N.returned i ++ [⟨job, result, N.cause i⟩]) := rfl
@[simp] theorem conclude_flight : (N.conclude i job result).flight = N.flight := rfl
@[simp] theorem conclude_queue : (N.conclude i job result).queue = N.queue := rfl
@[simp] theorem conclude_cause : (N.conclude i job result).cause = N.cause := rfl
@[simp] theorem conclude_started : (N.conclude i job result).started = N.started := rfl
@[simp] theorem conclude_invoked : (N.conclude i job result).invoked = N.invoked := rfl

@[simp] theorem lose_flight : (N.lose src dst n).flight =
    Function.update N.flight (src, dst) ((N.flight (src, dst)).eraseIdx n) := rfl
@[simp] theorem lose_queue : (N.lose src dst n).queue = N.queue := rfl
@[simp] theorem lose_cause : (N.lose src dst n).cause = N.cause := rfl
@[simp] theorem lose_started : (N.lose src dst n).started = N.started := rfl
@[simp] theorem lose_invoked : (N.lose src dst n).invoked = N.invoked := rfl
@[simp] theorem lose_returned : (N.lose src dst n).returned = N.returned := rfl

@[simp] theorem arrive_flight : (N.arrive src dst n p).flight = (N.lose src dst n).flight := rfl
@[simp] theorem arrive_queue : (N.arrive src dst n p).queue =
    Function.update N.queue dst (N.queue dst ++ [p]) := rfl
@[simp] theorem arrive_cause : (N.arrive src dst n p).cause = N.cause := rfl
@[simp] theorem arrive_started : (N.arrive src dst n p).started = N.started := rfl
@[simp] theorem arrive_invoked : (N.arrive src dst n p).invoked = N.invoked := rfl
@[simp] theorem arrive_returned : (N.arrive src dst n p).returned = N.returned := rfl

/-! What is under way or queued after an operation. -/

variable {N i msg src dst p n}

theorem mem_post_flight {q : Packet A} {sd : A × A} :
    q ∈ (N.post i msg dst).flight sd ↔
      q ∈ N.flight sd ∨ (sd = (i, dst) ∧ q = ⟨i, msg, N.cause i⟩) := by
  by_cases hsd : sd = (i, dst)
  · subst hsd
    simp only [post_flight, Function.update_self, List.mem_append, List.mem_singleton, true_and]
  · simp only [post_flight, Function.update_of_ne hsd, hsd, false_and, or_false]

theorem lose_flight_sublist (sd : A × A) :
    ((N.lose src dst n).flight sd).Sublist (N.flight sd) := by
  by_cases hsd : sd = (src, dst)
  · subst hsd
    simp only [lose_flight, Function.update_self]
    exact List.eraseIdx_sublist _ _
  · simp only [lose_flight, Function.update_of_ne hsd]
    exact List.Sublist.refl _

theorem mem_of_mem_take_queue {q : Packet A} {j : A} (h : q ∈ (N.take i p).queue j) :
    q ∈ N.queue j := by
  by_cases hj : j = i
  · subst hj
    simp only [take_queue, Function.update_self] at h
    exact List.mem_of_mem_tail h
  · simpa only [take_queue, Function.update_of_ne hj] using h

theorem mem_arrive_queue {q : Packet A} {j : A} :
    q ∈ (N.arrive src dst n p).queue j ↔ q ∈ N.queue j ∨ (j = dst ∧ q = p) := by
  by_cases hj : j = dst
  · subst hj
    simp only [arrive_queue, Function.update_self, List.mem_append, List.mem_singleton,
      true_and]
  · simp only [arrive_queue, Function.update_of_ne hj, hj, false_and, or_false]

/-! When the network allows an event. -/

theorem effect_sendFails {P : Policy A} {e : Errno} {N' : Net A K J R}
    (h : N.effect P i (.sendFails e) = some N') : P.lossy = true ∧ N' = N := by
  obtain ⟨hlossy, hN⟩ := Option.ite_none_right_eq_some.mp h
  exact ⟨hlossy, (Option.some.inj hN).symm⟩

theorem effect_received {P : Policy A} {N' : Net A K J R}
    (h : N.effect P i (.received p) = some N') :
    ∃ rest, N.queue i = p :: rest ∧ N' = N.take i p := by
  obtain ⟨hhead, hN⟩ := Option.ite_none_right_eq_some.mp h
  obtain ⟨rest, hrest⟩ := List.head?_eq_some_iff.mp hhead
  exact ⟨rest, hrest, (Option.some.inj hN).symm⟩

theorem effect_timedOut {P : Policy A} {N' : Net A K J R}
    (h : N.effect P i .timedOut = some N') : P.timeouts i = true ∧ N' = N := by
  obtain ⟨htime, hN⟩ := Option.ite_none_right_eq_some.mp h
  exact ⟨htime, (Option.some.inj hN).symm⟩

theorem transit_arrive {P : Policy A} {N' : Net A K J R}
    (h : N.transit P (.arrive src dst n) = some N') :
    (P.reorder = true ∨ n = 0) ∧
      ∃ p, (N.flight (src, dst))[n]? = some p ∧ N' = N.arrive src dst n p := by
  obtain ⟨hn, hN⟩ := Option.ite_none_right_eq_some.mp h
  obtain ⟨p, hp, rfl⟩ := Option.map_eq_some_iff.mp hN
  exact ⟨hn, p, hp, rfl⟩

theorem transit_lose {P : Policy A} {N' : Net A K J R}
    (h : N.transit P (.lose src dst n) = some N') :
    P.lossy = true ∧ N' = N.lose src dst n := by
  obtain ⟨hlossy, hN⟩ := Option.ite_none_right_eq_some.mp h
  exact ⟨hlossy, (Option.some.inj hN).symm⟩

/-! A network that keeps order and loses nothing. -/

theorem effect_sendFails_lossless {P : Policy A} (hloss : P.lossy = false) (e : Errno) :
    N.effect P i (.sendFails e) = none := by
  rw [effect, hloss]
  rfl

/-- All that the network does there is to deliver the oldest datagram of a pair. -/
theorem transit_ordered {P : Policy A} {t : Transit A} {N' : Net A K J R}
    (hfifo : P.reorder = false) (hloss : P.lossy = false) (h : N.transit P t = some N') :
    ∃ src dst p rest, N.flight (src, dst) = p :: rest ∧ N' = N.arrive src dst 0 p := by
  cases t with
  | arrive src dst n =>
    obtain ⟨horder, p, hp, rfl⟩ := transit_arrive h
    have hn : n = 0 := by
      apply horder.resolve_left
      rw [hfifo]
      exact Bool.false_ne_true
    subst hn
    obtain ⟨rest, hrest⟩ := List.head?_eq_some_iff.mp (List.head?_eq_getElem? ▸ hp)
    exact ⟨src, dst, p, rest, hrest, rfl⟩
  | lose src dst n =>
    have hlossy : P.lossy = true := (transit_lose h).1
    rw [hloss] at hlossy
    contradiction

end Fields

end Net

/-- What holds of every party stays so when one party moves to a state where it holds. -/
theorem forall_update [DecidableEq A] {B : Type} {Q : A → B → Prop} {φ : A → B} {i : A} {x : B}
    (h : ∀ j, Q j (φ j)) (hx : Q i x) : ∀ j, Q j (Function.update φ i x j) :=
  (Function.forall_update_iff φ Q).mpr ⟨hx, fun j _ => h j⟩

variable [DecidableEq A] [DecidableEq K] [DecidableEq J] [DecidableEq R]

/-- The party's program makes the call that the event names, and goes on with the answer.
No event is a configuration call: the sockets are already bound. -/
def Activity.next (D : Deployment A K V J R) (i : A) :
    Event A K J R → Activity A K V J R → Option (Activity A K V J R)
  | .start job, .idle => (D.body i job).map (.busy job)
  | .sent msg dst, .busy job (.call (.sendto m d flags) k) =>
      if m = msg ∧ d = dst ∧ flags = 0 then some (.busy job (k (.sent msg.length))) else none
  | .sendFails e, .busy job (.call (.sendto _ _ flags) k) =>
      if flags = 0 then some (.busy job (k (.failed e))) else none
  -- the kernel drops what does not fit into the caller's buffer
  | .received p, .busy job (.call (.recvfrom size flags) k) =>
      if flags = 0 then some (.busy job (k (.received (p.payload.take size) p.src))) else none
  | .timedOut, .busy job (.call (.recvfrom _ flags) k) =>
      if flags = 0 then some (.busy job (k (.failed .again))) else none
  | .invoked cb msg, .busy job (.call (.callback c m) k) =>
      if c = cb ∧ m = msg then some (.busy job (k (D.callback i cb msg))) else none
  | .finished job result, .busy j (.done r) => if j = job ∧ r = result then some .idle else none
  | _, _ => none

namespace Activity

variable {D : Deployment A K V J R} {i : A} {e : Event A K J R} {x : Activity A K V J R}
  {job : J}

/-! What an idle party, and a program at each of its calls, can do next. -/

theorem next_idle (h : (idle : Activity A K V J R).next D i e = some x) :
    ∃ job p, e = .start job ∧ D.body i job = some p ∧ x = .busy job p := by
  cases e <;> simp only [next, Option.map_eq_some_iff, reduceCtorEq] at h
  case start job =>
    obtain ⟨p, hp, rfl⟩ := h
    exact ⟨job, p, rfl, hp, rfl⟩

theorem next_sendto {m : Bytes} {d : A} {k : SendAnswer → Prog A K V R}
    (h : (busy job (.call (.sendto m d 0) k)).next D i e = some x) :
    (e = .sent m d ∧ x = .busy job (k (.sent m.length))) ∨
      ∃ err, e = .sendFails err ∧ x = .busy job (k (.failed err)) := by
  cases e <;> simp only [next, and_true, if_true, Option.ite_none_right_eq_some,
    Option.some.injEq, reduceCtorEq] at h
  case sent msg dst =>
    obtain ⟨⟨rfl, rfl⟩, rfl⟩ := h
    exact .inl ⟨rfl, rfl⟩
  case sendFails err => exact .inr ⟨err, rfl, h.symm⟩

theorem next_recvfrom {size : ℕ} {k : RecvAnswer A → Prog A K V R}
    (h : (busy job (.call (.recvfrom size 0) k)).next D i e = some x) :
    (∃ p, e = .received p ∧ x = .busy job (k (.received (p.payload.take size) p.src))) ∨
      (e = .timedOut ∧ x = .busy job (k (.failed .again))) := by
  cases e <;> simp only [next, if_true, Option.some.injEq, reduceCtorEq] at h
  case received p => exact .inl ⟨p, rfl, h.symm⟩
  case timedOut => exact .inr ⟨rfl, h.symm⟩

theorem next_callback {c : K} {m : Bytes} {k : V → Prog A K V R}
    (h : (busy job (.call (.callback c m) k)).next D i e = some x) :
    e = .invoked c m ∧ x = .busy job (k (D.callback i c m)) := by
  cases e <;> simp only [next, Option.ite_none_right_eq_some, Option.some.injEq,
    reduceCtorEq] at h
  case invoked cb msg =>
    obtain ⟨⟨rfl, rfl⟩, rfl⟩ := h
    exact ⟨rfl, rfl⟩

theorem next_done {r : R} (h : (busy job (.done r)).next D i e = some x) :
    e = .finished job r ∧ x = .idle := by
  cases e <;> simp only [next, Option.ite_none_right_eq_some, Option.some.injEq,
    reduceCtorEq] at h
  case finished j result =>
    obtain ⟨⟨rfl, rfl⟩, rfl⟩ := h
    exact ⟨rfl, rfl⟩

end Activity

def step (D : Deployment A K V J R) (P : Policy A) :
    Label A K J R → Config A K V J R → Option (Config A K V J R)
  | .party i e, c => do
      let x ← (c.act i).next D i e
      let N ← c.net.effect P i e
      some ⟨N, Function.update c.act i x⟩
  | .transit t, c => (c.net.transit P t).map fun N => ⟨N, c.act⟩

/-! When a step is possible. -/

theorem step_party {D : Deployment A K V J R} {P : Policy A} {c : Config A K V J R} {i : A}
    {e : Event A K J R} {x : Activity A K V J R} {N : Net A K J R}
    (hx : (c.act i).next D i e = some x) (hN : c.net.effect P i e = some N) :
    step D P (.party i e) c = some ⟨N, Function.update c.act i x⟩ := by
  simp only [step, hx, hN, Option.bind_eq_bind, Option.bind_some]

theorem step_arrive {D : Deployment A K V J R} {P : Policy A} {c : Config A K V J R}
    {src dst : A} {p : Packet A} {rest : List (Packet A)}
    (hflight : c.net.flight (src, dst) = p :: rest) :
    step D P (.transit (.arrive src dst 0)) c = some ⟨c.net.arrive src dst 0 p, c.act⟩ := by
  simp only [step, Net.transit, or_true, if_true, hflight, List.getElem?_cons_zero,
    Option.map_some]

def network (D : Deployment A K V J R) (P : Policy A) :
    Machine (Label A K J R) (Config A K V J R) where
  init := ⟨.empty, fun _ => .idle⟩
  step := step D P

/-- Local state machines that stand for the programs of a deployment: a phase says how far
a party's program is, and every step of the program is a move between phases. -/
structure Phases (D : Deployment A K V J R) where
  Phase : Type
  activity : A → Phase → Activity A K V J R
  initial : Phase
  Move : A → Event A K J R → Phase → Phase → Prop
  activity_initial : ∀ i, activity i initial = .idle
  simulates : ∀ i e φ x, (activity i φ).next D i e = some x →
    ∃ φ', Move i e φ φ' ∧ activity i φ' = x

namespace Phases

variable {D : Deployment A K V J R} (Φ : Phases D) (P : Policy A)

inductive Step (N : Net A K J R) (φ : A → Φ.Phase) : Net A K J R → (A → Φ.Phase) → Prop where
  | party (i : A) (e : Event A K J R) (x : Φ.Phase) (N' : Net A K J R)
      (hmove : Φ.Move i e (φ i) x) (hnet : N.effect P i e = some N') :
      Step N φ N' (Function.update φ i x)
  | transit (t : Transit A) (N' : Net A K J R) (hnet : N.transit P t = some N') : Step N φ N' φ

def view (d : Net A K J R × (A → Φ.Phase)) : Config A K V J R :=
  ⟨d.1, fun i => Φ.activity i (d.2 i)⟩

/-- Every step of the parties' programs is a step of their phases. -/
theorem step_simulated (l : Label A K J R) (d : Net A K J R × (A → Φ.Phase))
    (c : Config A K V J R) (h : step D P l (Φ.view d) = some c) :
    ∃ d' : Net A K J R × (A → Φ.Phase), Φ.Step P d.1 d.2 d'.1 d'.2 ∧ Φ.view d' = c := by
  cases l with
  | party i e =>
    simp only [step, Option.bind_eq_bind, Option.bind_eq_some_iff, Option.some.injEq] at h
    obtain ⟨x, hx, N', hnet, rfl⟩ := h
    obtain ⟨y, hmove, rfl⟩ := Φ.simulates i e (d.2 i) x hx
    refine ⟨(N', Function.update d.2 i y), .party i e y N' hmove hnet, ?_⟩
    have hact : (fun j => Φ.activity j (Function.update d.2 i y j)) =
        Function.update (fun j => Φ.activity j (d.2 j)) i (Φ.activity i y) := by
      ext j
      exact Function.apply_update Φ.activity d.2 i y j
    simp only [view, hact]
  | transit t =>
    simp only [step, Option.map_eq_some_iff] at h
    obtain ⟨N', hnet, rfl⟩ := h
    exact ⟨(N', d.2), .transit t N' hnet, rfl⟩

/-- What holds initially and is preserved by every step of the phases holds at the end of every
run of the network; it may speak of the number of steps. -/
theorem counted {I : ℕ → Net A K J R → (A → Φ.Phase) → Prop}
    (hinit : I 0 .empty fun _ => Φ.initial)
    (hstep : ∀ n N φ N' φ', I n N φ → Φ.Step P N φ N' φ' → I (n + 1) N' φ')
    {ls : List (Label A K J R)} {c : Config A K V J R}
    (hrun : (network D P).run ls (network D P).init = some c) :
    ∃ φ, I ls.length c.net φ ∧ c.act = fun i => Φ.activity i (φ i) := by
  have hview : Φ.view (.empty, fun _ => Φ.initial) = (network D P).init := by
    simp only [view, Φ.activity_initial, network]
  have hpreserved : ∀ n, ∀ d d' : Net A K J R × (A → Φ.Phase), I n d.1 d.2 →
      Φ.Step P d.1 d.2 d'.1 d'.2 → I (n + 1) d'.1 d'.2 := fun n d d' => hstep n d.1 d.2 d'.1 d'.2
  obtain ⟨d, rfl, hd⟩ := Machine.counted_of_simulation Φ.view
    (fun d d' => Φ.Step P d.1 d.2 d'.1 d'.2) (fun n d => I n d.1 d.2) hview hinit
    (Φ.step_simulated P) hpreserved hrun
  exact ⟨d.2, hd, rfl⟩

theorem invariant {I : Net A K J R → (A → Φ.Phase) → Prop}
    (hinit : I .empty fun _ => Φ.initial)
    (hstep : ∀ N φ N' φ', I N φ → Φ.Step P N φ N' φ' → I N' φ')
    {c : Config A K V J R} (hc : (network D P).Reachable c) :
    ∃ φ, I c.net φ ∧ c.act = fun i => Φ.activity i (φ i) := by
  obtain ⟨ls, hrun⟩ := hc
  exact Φ.counted P (I := fun _ => I) hinit (fun _ => hstep) hrun

end Phases

end Datagram
