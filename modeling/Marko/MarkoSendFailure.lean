import Marko.MarkoOnceGate

/-! Whether a failing `sendto` shows in what `once` and `request` return. The kernel may
accept a message whole, in part or not at all. -/
namespace Marko

open Datagram Interaction

variable {A σ : Type}

def Accepts (ans : SendAnswer) (msg : Message) : Prop := ans.num = msg.length

section Reply

variable (D : SocketDefs) (f : Message → Message) (send : Bytes → A → σ → SendAnswer × σ)
variable (msgSize : ℕ) (dst : A → A)

/-- The next arrival is a request of `msgSize` bytes, and the callback's reply to it, sent to
`dst` of its source, is accepted whole. An empty request is not replied to. -/
def ServedWhole : List (Arrival A) → σ → Prop
  | .datagram p src :: _, s =>
    p.length = msgSize ∧ p ≠ [] ∧ Accepts (send (f p) (dst src) s).1 (f p)
  | _, _ => False

/-- No request is there that would be answered without being one of `msgSize` bytes, or whose
reply would not go out whole. -/
def NothingToReport : List (Arrival A) → σ → Prop
  | .datagram p src :: _, s =>
    msgSize = 0 ∨ p = [] ∨ p.length = msgSize ∧ Accepts (send (f p) (dst src) s).1 (f p)
  | _, _ => True

theorem serveOne_datagram (toAddr : RecvAnswer A → A) (p : Bytes) (src : A)
    (rest : List (Arrival A)) (s : σ) :
    ((serveOne D msgSize toAddr).exec (serving f send) (.datagram p src :: rest, s)).1 = true ↔
      0 < msgSize ∧ p ≠ [] := by
  have hexec : (serveOne D msgSize toAddr).exec (serving f send) (.datagram p src :: rest, s) =
      (Reply.handle D msgSize toAddr (.received (p.take msgSize) src)).exec (serving f send)
        (rest, s) := rfl
  rw [hexec]
  rcases Nat.eq_zero_or_pos msgSize with hzero | hpos
  · -- nothing fits into a buffer of no bytes
    subst hzero
    rw [Reply.handle_zero]
    simp
  · rw [Reply.handle_received D hpos]
    by_cases hnil : p = []
    · rw [if_pos hnil]
      simp [hnil]
    · rw [if_neg hnil]
      exact iff_of_true rfl ⟨hpos, hnil⟩

theorem serveOne_reports_iff (toAddr : RecvAnswer A → A) (arrivals : List (Arrival A)) (s : σ) :
    (((serveOne D msgSize toAddr).exec (serving f send) (arrivals, s)).1 = true ↔
        ServedWhole f send msgSize dst arrivals s) ↔
      NothingToReport f send msgSize dst arrivals s := by
  match arrivals with
  | [] =>
    rw [exec_serveOne_timeout D f send toAddr rfl]
    exact iff_of_true (iff_of_false Bool.false_ne_true id) trivial
  | .timeout :: rest =>
    rw [exec_serveOne_timeout D f send toAddr rfl]
    exact iff_of_true (iff_of_false Bool.false_ne_true id) trivial
  | .datagram p src :: rest =>
    rw [serveOne_datagram]
    show (0 < msgSize ∧ p ≠ [] ↔ p.length = msgSize ∧ p ≠ [] ∧ _) ↔
      (msgSize = 0 ∨ p = [] ∨ p.length = msgSize ∧ _)
    -- an empty request is refused, and so is everything when the buffer has no bytes
    by_cases hnil : p = []
    · simp only [hnil, ne_eq, not_true_eq_false, false_and, and_false, true_or, or_true]
    · have hlen : 0 < p.length := List.length_pos_of_ne_nil hnil
      rcases Nat.eq_zero_or_pos msgSize with hzero | hpos
      · apply iff_of_true _ (Or.inl hzero)
        exact iff_of_false (fun h => by omega) (fun h => by omega)
      · have hne : msgSize ≠ 0 := by omega
        simp only [hpos, hnil, hne, ne_eq, not_false_eq_true, true_and, false_or, true_iff]

end Reply

section Request

variable {K V : Type} (D : SocketDefs) (cb : K → Bytes → V) (send : Bytes → A → σ → SendAnswer × σ)

/-- A request that did not go out whole is reported by an empty reply, and leaves the receive
queue alone. -/
def RequestReports [Zero A] (t : Transport) (msgSize : ℕ) (msg : Message) (addr : A)
    (arrivals : List (Arrival A)) (s : σ) : Prop :=
  ¬ Accepts (send msg addr s).1 msg →
    ((Request.request (t.socketClass D) msgSize msg addr).exec (arriving cb send)
      (arrivals, s)).1 = [] ∧
      payloads ((Request.request (t.socketClass D) msgSize msg addr).exec (arriving cb send)
        (arrivals, s)).2.1 = payloads arrivals

def MeetsDatagram : List (Arrival A) → Prop
  | .datagram .. :: _ => True
  | _ => False

/-- After a failed send the request still takes what arrives next, if anything does. -/
theorem requestReports_iff [Zero A] (t : Transport) (msgSize : ℕ) (msg : Message) (addr : A)
    (arrivals : List (Arrival A)) (s : σ) :
    RequestReports D cb send t msgSize msg addr arrivals s ↔
      Accepts (send msg addr s).1 msg ∨ ¬ MeetsDatagram arrivals := by
  unfold RequestReports
  rw [Request.request_eq, or_iff_not_imp_left]
  apply imp_congr_right
  intro _
  match arrivals with
  | [] => exact iff_of_true ⟨receivedMessage_failed D msgSize .again, rfl⟩ id
  | .timeout :: rest => exact iff_of_true ⟨receivedMessage_failed D msgSize .again, rfl⟩ id
  | .datagram p src :: rest =>
    apply iff_of_false
    -- the receive has taken the datagram off the queue
    · rintro ⟨-, hqueue⟩
      have hshorter : payloads rest = p :: payloads rest := hqueue
      exact List.cons_ne_self _ _ hshorter.symm
    · exact not_not_intro trivial

end Request

/-- Serving reports failed sends exactly when there is none to report and every request it
answers has the right length; a request call does exactly when its send goes through or
nothing arrives. -/
theorem send_failures_reported_iff [Zero A] (D : SocketDefs) (t : Transport)
    (f : Message → Message) (send : Bytes → A → σ → SendAnswer × σ) (msgSize : ℕ)
    (arrivals : List (Arrival A)) (s : σ) :
    ((((Reply.once (t.socketClass D) msgSize).exec (serving f send) (arrivals, s)).1 = true ↔
        ServedWhole f send msgSize id arrivals s) ↔
      NothingToReport f send msgSize id arrivals s) ∧
    (∀ toAddr : A,
      (((Reply.onceTo (t.socketClass D) msgSize toAddr).exec (serving f send)
          (arrivals, s)).1 = true ↔
        ServedWhole f send msgSize (fun _ => toAddr) arrivals s) ↔
      NothingToReport f send msgSize (fun _ => toAddr) arrivals s) ∧
    ∀ (K V : Type) (cb : K → Bytes → V) (msg : Message) (addr : A),
      RequestReports D cb send t msgSize msg addr arrivals s ↔
        Accepts (send msg addr s).1 msg ∨ ¬ MeetsDatagram arrivals := by
  refine ⟨?_, ?_, ?_⟩
  · rw [Reply.once_eq]
    exact serveOne_reports_iff D f send msgSize id receivedFrom arrivals s
  · intro toAddr
    rw [Reply.onceTo_eq]
    exact serveOne_reports_iff D f send msgSize (fun _ => toAddr) (fun _ => toAddr) arrivals s
  · intro K V cb msg addr
    exact requestReports_iff D cb send t msgSize msg addr arrivals s

/-- The kernel refuses the reply to a request of one byte, and `once` returns true. -/
theorem refused_reply_returns_true :
    ¬ (((Reply.once (A := ℕ) (Transport.udp.socketClass .failure) 1).exec
        (serving id fun _ _ s => (.failed .connRefused, s)) ([.datagram [5] 7], ())).1 = true ↔
      ServedWhole id (fun _ _ s => (.failed .connRefused, s)) 1 id [.datagram [5] 7] ()) := by
  intro h
  have hserved := h.mp rfl
  have haccepted : (-1 : ℤ) = 1 := hserved.2.2
  exact absurd haccepted (by decide)

end Marko
