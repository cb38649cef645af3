import Mathlib.Data.List.Forall2
import Marko.DatagramArrivals
import Marko.MarkoRequestReply

/-! Which datagrams a reply socket hands to its callback. The socket sees any sequence of
arriving datagrams and expired receive timeouts, one for each call of `once`. -/
namespace Marko

open Datagram Interaction

variable {A σ : Type}

def payloads (arrivals : List (Arrival A)) : List Bytes :=
  arrivals.filterMap fun
    | .datagram payload _ => some payload
    | .timeout => none

def serving (f : Message → Message) (send : Bytes → A → σ → SendAnswer × σ) :
    Handler (sig A Unit Message) (List (Arrival A) × σ) :=
  arriving (fun _ => f) send

/-- What one call of `once` should do with its arrival: invoke the callback on a datagram
of exactly `msgSize` bytes, and otherwise invoke nothing and return false. -/
def Gated (msgSize : ℕ) : Arrival A → Bool × List (Call A Unit) → Prop
  | .datagram payload _, record =>
    if payload.length = msgSize then callbacks record.2 = [((), payload)]
    else record.1 = false ∧ callbacks record.2 = []
  | .timeout, record => record.1 = false ∧ callbacks record.2 = []

structure GatesBySize (msgSize : ℕ) (arrivals : List (Arrival A))
    (records : List (Bool × List (Call A Unit))) : Prop where
  each : List.Forall₂ (Gated msgSize) arrivals records
  invoked : (records.flatMap fun r => (callbacks r.2).map Prod.snd) =
    (payloads arrivals).filter (fun payload => payload.length = msgSize)

/-- The payloads that the size test tells apart from what it should accept. -/
def Fits (msgSize : ℕ) : Arrival A → Prop
  | .datagram payload _ => payload = [] ∨ payload.length = msgSize
  | .timeout => True

section Steps

variable (D : SocketDefs) (f : Message → Message) (send : Bytes → A → σ → SendAnswer × σ)
variable (toAddr : RecvAnswer A → A) {msgSize : ℕ}

def serveOne (msgSize : ℕ) (toAddr : RecvAnswer A → A) : Prog A Unit Message Bool :=
  .call (.recvfrom msgSize 0) (Reply.handle D msgSize toAddr)

theorem exec_handle_arrivals (ans : RecvAnswer A) (w : List (Arrival A) × σ) :
    ∃ s', ((Reply.handle D msgSize toAddr ans).exec (serving f send) w).2 = (w.1, s') := by
  unfold Reply.handle
  split
  · exact ⟨w.2, rfl⟩
  · exact ⟨_, rfl⟩

theorem exec_serveOne_arrivals (a : Arrival A) (rest : List (Arrival A)) (s : σ) :
    ∃ s', ((serveOne D msgSize toAddr).exec (serving f send) (a :: rest, s)).2 = (rest, s') := by
  cases a with
  | timeout => exact exec_handle_arrivals D f send toAddr _ (rest, s)
  | datagram payload src => exact exec_handle_arrivals D f send toAddr _ (rest, s)

theorem exec_serveOne_timeout {w w' : List (Arrival A) × σ}
    (hw : serving f send (.recvfrom msgSize 0) w = (.failed .again, w')) :
    ((serveOne D msgSize toAddr).exec (serving f send) w).1 = false := by
  unfold serveOne
  rw [Program.exec_call, hw, Reply.handle_failed]
  rfl

theorem callbacks_serveOne_datagram (hsize : 0 < msgSize) (payload : Bytes) (src : A)
    (rest : List (Arrival A)) (s : σ) :
    callbacks ((serveOne D msgSize toAddr).trace (serving f send)
      (.datagram payload src :: rest, s)) =
      if payload = [] then [] else [((), fillBuffer msgSize (payload.take msgSize))] := by
  simp only [serveOne, Program.trace_call, callbacks_recvfrom, serving, arriving,
    Reply.handle_received D hsize]
  split_ifs <;> rfl

theorem gated_serveOne (hsize : 0 < msgSize) (a : Arrival A) (rest : List (Arrival A)) (s : σ) :
    Gated msgSize a (((serveOne D msgSize toAddr).exec (serving f send) (a :: rest, s)).1,
      (serveOne D msgSize toAddr).trace (serving f send) (a :: rest, s)) ↔ Fits msgSize a := by
  cases a with
  | timeout =>
    refine ⟨fun _ => trivial, fun _ => ?_⟩
    simp only [Gated, serveOne, Program.exec_call, Program.trace_call, serving, arriving,
      Reply.handle_failed]
    exact ⟨rfl, rfl⟩
  | datagram payload src =>
    have hcalls := callbacks_serveOne_datagram D f send toAddr hsize payload src rest s
    simp only [Gated, Fits, hcalls]
    by_cases hnil : payload = []
    · subst hnil
      have hne : ¬ ([] : Bytes).length = msgSize := by simp only [List.length_nil]; omega
      rw [if_neg hne, if_pos rfl]
      refine ⟨fun _ => Or.inl rfl, fun _ => ⟨?_, rfl⟩⟩
      simp only [serveOne, Program.exec_call, serving, arriving, Reply.handle_received D hsize,
        if_true, Program.exec_done]
    · rw [if_neg hnil]
      by_cases hlen : payload.length = msgSize
      · have hfill : fillBuffer msgSize (payload.take msgSize) = payload := by
          have hexact := receivedMessage_exact D src hlen
          rwa [receivedMessage_received, if_neg] at hexact
          rwa [← hlen, List.take_length]
        rw [if_pos hlen, hfill]
        exact ⟨fun _ => Or.inr hlen, fun _ => rfl⟩
      · -- the callback sees the padded or cut datagram, where it should see nothing
        rw [if_neg hlen]
        refine ⟨fun h => absurd h.2 (List.cons_ne_nil _ _), fun h => ?_⟩
        exact absurd h (not_or.mpr ⟨hnil, hlen⟩)

/-- One call at a time: the record of a whole run meets the gate exactly when each of its
arrivals fits. -/
theorem gated_iterate_iff (hsize : 0 < msgSize) (arrivals : List (Arrival A)) (s : σ) :
    List.Forall₂ (Gated msgSize) arrivals
      (Program.iterate (serving f send) (serveOne D msgSize toAddr) arrivals.length
        (arrivals, s)) ↔
      ∀ a ∈ arrivals, Fits msgSize a := by
  induction arrivals generalizing s with
  | nil => simp only [List.length_nil, Program.iterate, List.forall₂_nil_left_iff,
      List.not_mem_nil, false_imp_iff, implies_true]
  | cons a rest ih =>
    obtain ⟨s', hs'⟩ : ∃ s', ((serveOne D msgSize toAddr).exec (serving f send)
        (a :: rest, s)).2 = (rest, s') := exec_serveOne_arrivals D f send toAddr a rest s
    rw [List.length_cons, Program.iterate, List.forall₂_cons, hs', ih s',
      gated_serveOne D f send toAddr hsize, List.forall_mem_cons]

end Steps

theorem invoked_of_gated {msgSize : ℕ} {arrivals : List (Arrival A)}
    {records : List (Bool × List (Call A Unit))}
    (hgated : List.Forall₂ (Gated msgSize) arrivals records) :
    (records.flatMap fun r => (callbacks r.2).map Prod.snd) =
      (payloads arrivals).filter (fun payload => payload.length = msgSize) := by
  induction hgated with
  | nil => rfl
  | @cons a record arrivals records hone _ ih =>
    rw [List.flatMap_cons, ih]
    cases a with
    | timeout =>
      rw [hone.2]
      rfl
    | datagram payload src =>
      -- a datagram contributes itself or nothing, on both sides alike
      have hpayloads : payloads (.datagram payload src :: arrivals) =
          payload :: payloads arrivals := rfl
      rw [hpayloads, List.filter_cons]
      simp only [Gated] at hone
      split_ifs at hone with hlen
      · rw [hone, if_pos (decide_eq_true hlen)]
        rfl
      · rw [hone.2, if_neg (by simpa only [decide_eq_true_eq] using hlen)]
        rfl

/-- Over either transport and for either overload, `once` gates requests by their length on
the wire exactly on the arrivals that are empty or of the right length: any other datagram
is cut or zero-padded to `msgSize` bytes before its size is tested. -/
theorem reply_gates_by_size_iff (D : SocketDefs) (t : Transport) [Zero A]
    (f : Message → Message)
    (send : Bytes → A → σ → SendAnswer × σ) (msgSize : ℕ) (hsize : 0 < msgSize)
    (arrivals : List (Arrival A)) (s : σ) :
    (GatesBySize msgSize arrivals (Program.iterate (serving f send)
      (Reply.once (t.socketClass D) msgSize) arrivals.length (arrivals, s)) ↔
        ∀ a ∈ arrivals, Fits msgSize a) ∧
    ∀ toAddr : A, (GatesBySize msgSize arrivals (Program.iterate (serving f send)
      (Reply.onceTo (t.socketClass D) msgSize toAddr) arrivals.length (arrivals, s)) ↔
        ∀ a ∈ arrivals, Fits msgSize a) := by
  have hgate (toAddr : RecvAnswer A → A) : GatesBySize msgSize arrivals
      (Program.iterate (serving f send) (serveOne D msgSize toAddr) arrivals.length
        (arrivals, s)) ↔ ∀ a ∈ arrivals, Fits msgSize a := by
    rw [← gated_iterate_iff D f send toAddr hsize arrivals s]
    exact ⟨GatesBySize.each, fun h => ⟨h, invoked_of_gated h⟩⟩
  constructor
  · rw [Reply.once_eq]
    exact hgate receivedFrom
  · intro toAddr
    rw [Reply.onceTo_eq]
    exact hgate fun _ => toAddr

/-- The whole-run gate on a timeout, an empty datagram and one request of two bytes. -/
theorem reply_gates_two_byte_request :
    GatesBySize 2 [.timeout, .datagram [] 7, .datagram [1, 2] 7]
      (Program.iterate (serving id fun _ _ s => (.failed .again, s))
        (Reply.once (A := ℕ) (Transport.udp.socketClass .failure) 2) 3
        ([.timeout, .datagram [] 7, .datagram [1, 2] 7], ())) :=
  ((reply_gates_by_size_iff .failure .udp id (fun _ _ s => (.failed .again, s)) 2 (by decide)
    [.timeout, .datagram [] 7, .datagram [1, 2] 7] ()).1).mpr (by simp [Fits])

/-- A datagram of one byte reaches the callback of a four-byte reply socket, padded. -/
theorem short_request_is_answered :
    ¬ GatesBySize 4 [.datagram [9] 7]
      (Program.iterate (serving id fun _ _ s => (.sent 4, s))
        (Reply.once (A := ℕ) (Transport.udp.socketClass .failure) 4) 1
        ([.datagram [9] 7], ())) := by
  intro h
  have hinvoked : [[9, 0, 0, 0]] = ([] : List Bytes) := h.invoked
  exact absurd hinvoked (List.cons_ne_nil _ _)

end Marko
