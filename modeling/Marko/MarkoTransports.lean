import Marko.DatagramAlike
import Marko.MarkoPubSub
import Marko.MarkoSendFailure

/-! The two socket classes side by side: where their receives agree, and where the null address
tells them apart. `A` and `B` are their types of addresses. -/
namespace Marko

open Datagram Interaction

variable (D : SocketDefs)

section Receives

variable {A B K V : Type} [Zero A] [Zero B] {r : A → B → Prop}

omit [Zero A] [Zero B] in
theorem receivedMessage_alike (msgSize : ℕ) {ans : RecvAnswer A} {ans' : RecvAnswer B}
    (h : ans.Alike r ans') : receivedMessage D msgSize ans = receivedMessage D msgSize ans' := by
  cases h with
  | received bytes _ => rw [receivedMessage_received, receivedMessage_received]
  | failed e => rw [receivedMessage_failed, receivedMessage_failed]

/-- The records that two receives fill in: the sources correspond, or both are zeroed. -/
def RecordsAlike (r : A → B → Prop) (x : Option A) (y : Option B) : Prop :=
  ∀ a ∈ x, ∀ b ∈ y, r a b ∨ a = 0 ∧ b = 0

theorem receivedFrom_alike {ans : RecvAnswer A} {ans' : RecvAnswer B} (h : ans.Alike r ans') :
    RecordsAlike r (some (receivedFrom ans)) (some (receivedFrom ans')) := by
  intro a ha b hb
  obtain rfl := Option.some.inj ha
  obtain rfl := Option.some.inj hb
  cases h with
  | received bytes hab => exact .inl hab
  | failed e => exact .inr ⟨rfl, rfl⟩

variable (r) (msgSize : ℕ) (flags : ℤ)

omit [Zero B] in
theorem recv_alike : Alike r Eq (SocketUDP.recv D msgSize flags : Prog A K V Message)
    (SocketUnix.recv D msgSize flags : Prog B K V Message) :=
  .recvfrom msgSize flags fun _ _ h => .done (receivedMessage_alike D msgSize h)

theorem recvfrom_alike (a : A) (b : B) :
    Alike r (fun x y => x.1 = y.1 ∧ RecordsAlike r x.2 y.2)
      (SocketUDP.recvfrom D msgSize (some a) flags : Prog A K V (Message × Option A))
      (SocketUnix.recvfrom D msgSize (some b) flags : Prog B K V (Message × Option B)) :=
  .recvfrom msgSize flags fun _ _ h =>
    .done ⟨receivedMessage_alike D msgSize h, receivedFrom_alike h⟩

/-- For the UDP class a receive is one with a null address. -/
theorem udp_recv_eq : (SocketUDP.recv D msgSize flags : Prog A K V Message) =
    Prod.fst <$> SocketUDP.recvfrom D msgSize none flags := rfl

theorem unix_recvfrom_null : (SocketUnix.recvfrom D msgSize none flags : Prog B K V _) =
    pure ([], none) := rfl

end Receives

section Null

variable {A B K V σ τ : Type}

/-- The same message is received, and the same datagrams are left. -/
def ReceivesAlike (x : Message × List (Arrival A) × σ) (y : Message × List (Arrival B) × τ) :
    Prop :=
  x.1 = y.1 ∧ payloads x.2.1 = payloads y.2.1

variable {r : A → B → Prop} {arrivals : List (Arrival A)} {arrivals' : List (Arrival B)}

theorem payloads_alike (halike : List.Forall₂ (Arrival.Alike r) arrivals arrivals') :
    payloads arrivals = payloads arrivals' := by
  induction halike with
  | nil => rfl
  | cons hone _ ih =>
    cases hone with
    | datagram payload _ => exact congrArg (payload :: ·) ih
    | timeout => exact ih

variable [Zero A] [Zero B] (msgSize : ℕ) (flags : ℤ) (cb : K → Bytes → V)

omit [Zero B] in
theorem recv_receivesAlike (halike : List.Forall₂ (Arrival.Alike r) arrivals arrivals') :
    ReceivesAlike
      ((SocketUDP.recv D msgSize flags).exec (arriving cb acceptAll) (arrivals, ()))
      ((SocketUnix.recv D msgSize flags).exec (arriving cb acceptAll) (arrivals', ())) := by
  obtain ⟨hmessage, hrest⟩ := (recv_alike D r msgSize flags).over_arrivals cb halike
  exact ⟨hmessage, payloads_alike hrest⟩

variable (send : Bytes → A → σ → SendAnswer × σ) (send' : Bytes → B → τ → SendAnswer × τ)

/-- Against a class that receives, the guard shows whenever a datagram is there: the other one
has taken it off the queue. -/
theorem receivesAlike_null_iff
    (halike : List.Forall₂ (Arrival.Alike r) arrivals arrivals') (s : σ) (t : τ) :
    ReceivesAlike
        ((SocketUDP.recv D msgSize flags).exec (arriving cb send) (arrivals, s))
        ((Prod.fst <$> SocketUnix.recvfrom D msgSize none flags).exec (arriving cb send')
          (arrivals', t)) ↔
      ¬ MeetsDatagram arrivals := by
  have hpayloads := payloads_alike halike
  cases halike with
  | nil => exact iff_of_true ⟨receivedMessage_failed D msgSize .again, rfl⟩ id
  | cons hone hrest =>
    cases hone with
    -- a receive that times out changes as little as none at all
    | timeout =>
      exact iff_of_true ⟨receivedMessage_failed D msgSize .again, hpayloads⟩ id
    | @datagram payload a b hab =>
      apply iff_of_false
      · rintro ⟨-, hqueue⟩
        have hshorter : payloads _ = payload :: payloads _ := hqueue.trans hpayloads.symm
        exact List.cons_ne_self _ _ hshorter.symm
      · exact not_not_intro trivial

omit [Zero A] in
/-- The same within the class, whose own `recv` takes the datagram. -/
theorem unix_receivesAlike_null_iff (arrivals : List (Arrival B)) (t : τ) :
    ReceivesAlike
        ((SocketUnix.recv D msgSize flags).exec (arriving cb send') (arrivals, t))
        ((Prod.fst <$> SocketUnix.recvfrom D msgSize none flags).exec (arriving cb send')
          (arrivals, t)) ↔
      ¬ MeetsDatagram arrivals :=
  receivesAlike_null_iff D msgSize flags cb send' send' (arrivals_alike_refl arrivals) t t

end Null

section Templates

variable {A B K V : Type} {r : A → B → Prop} {a : A} {b : B}

theorem answer_alike (m : Message) (hab : r a b) :
    Alike r Eq (Reply.answer m a) (Reply.answer m b) :=
  .callback () m fun reply => .sendto reply hab 0 fun _ => .done rfl

theorem handle_alike (msgSize : ℕ) {toAddr : RecvAnswer A → A} {toAddr' : RecvAnswer B → B}
    (haddr : ∀ bytes a b, r a b → r (toAddr (.received bytes a)) (toAddr' (.received bytes b)))
    {ans : RecvAnswer A} {ans' : RecvAnswer B} (h : ans.Alike r ans') :
    Alike r Eq (Reply.handle D msgSize toAddr ans) (Reply.handle D msgSize toAddr' ans') := by
  have hmessage : receivedMessage D msgSize ans = receivedMessage D msgSize ans' :=
    receivedMessage_alike D msgSize h
  unfold Reply.handle
  rw [hmessage]
  split_ifs with hrefused
  · exact .done rfl
  · cases h with
    | received bytes hab => exact answer_alike _ (haddr bytes _ _ hab)
    -- a receive that failed is refused for its length
    | failed e =>
      rw [receivedMessage_failed] at hrefused
      exact absurd (.inl rfl) hrefused

theorem callbacks_alike (msg : Message) (callbacks : List K) :
    Alike r Eq (Program.each (S := sig A K V) (fun callback => .callback callback msg) callbacks)
      (Program.each (S := sig B K V) (fun callback => .callback callback msg) callbacks) := by
  induction callbacks with
  | nil => exact .done rfl
  | cons callback rest ih => exact .callback callback msg fun _ => ih

variable [Zero A] [Zero B] (r) (msgSize : ℕ)

theorem once_alike : Alike r Eq (Reply.once (socketUDP D) msgSize : Prog A Unit Message Bool)
    (Reply.once (socketUnix D) msgSize : Prog B Unit Message Bool) := by
  have hudp : Reply.once (A := A) (socketUDP D) msgSize = _ := Reply.once_eq D .udp msgSize
  have hunix : Reply.once (A := B) (socketUnix D) msgSize = _ := Reply.once_eq D .unix msgSize
  rw [hudp, hunix]
  exact .recvfrom msgSize 0 fun _ _ h => handle_alike D msgSize (fun _ _ _ hab => hab) h

variable {r}

theorem onceTo_alike (hab : r a b) :
    Alike r Eq (Reply.onceTo (socketUDP D) msgSize a) (Reply.onceTo (socketUnix D) msgSize b) := by
  have hudp : Reply.onceTo (socketUDP D) msgSize a = _ := Reply.onceTo_eq D .udp msgSize a
  have hunix : Reply.onceTo (socketUnix D) msgSize b = _ := Reply.onceTo_eq D .unix msgSize b
  rw [hudp, hunix]
  exact .recvfrom msgSize 0 fun _ _ h => handle_alike D msgSize (fun _ _ _ _ => hab) h

theorem request_alike (msg : Message) (hab : r a b) :
    Alike r Eq (Request.request (socketUDP D) msgSize msg a : Prog A K V Message)
      (Request.request (socketUnix D) msgSize msg b : Prog B K V Message) := by
  have hudp : Request.request (K := K) (V := V) (socketUDP D) msgSize msg a = _ :=
    Request.request_eq D .udp msgSize msg a
  have hunix : Request.request (K := K) (V := V) (socketUnix D) msgSize msg b = _ :=
    Request.request_eq D .unix msgSize msg b
  rw [hudp, hunix]
  exact .sendto msg hab 0 fun _ => .recvfrom msgSize 0 fun _ _ h =>
    .done (receivedMessage_alike D msgSize h)

variable (r)

theorem subscriber_alike (s : Subscriber K) :
    Alike r Eq (s.once (socketUDP D) : Prog A K Unit Unit)
      (s.once (socketUnix D) : Prog B K Unit Unit) := by
  have hudp : s.once (A := A) (socketUDP D) = _ := s.once_eq D .udp
  have hunix : s.once (A := B) (socketUnix D) = _ := s.once_eq D .unix
  rw [hudp, hunix]
  apply Alike.recvfrom
  intro ans ans' h
  rw [receivedMessage_alike D s.dataSize h]
  split_ifs
  · exact .done rfl
  · exact callbacks_alike _ s.callbacks

end Templates

/-- Under any two kernels that answer alike, whatever their addresses are, the two classes
receive the same, and so do the templates on them. Only with a null address, which no template
passes, `SocketUnix` receives nothing, and that shows exactly when a datagram is there. -/
theorem transports_receive_alike {A B : Type} [Zero A] [Zero B] (r : A → B → Prop) (K V : Type)
    (msgSize : ℕ) (flags : ℤ) :
    BehavesAlike r Eq (SocketUDP.recv D msgSize flags : Prog A K V Message)
        (SocketUnix.recv D msgSize flags : Prog B K V Message) ∧
      (∀ a b, BehavesAlike r (fun x y => x.1 = y.1 ∧ RecordsAlike r x.2 y.2)
        (SocketUDP.recvfrom D msgSize (some a) flags : Prog A K V (Message × Option A))
        (SocketUnix.recvfrom D msgSize (some b) flags : Prog B K V (Message × Option B))) ∧
      (SocketUDP.recv D msgSize flags : Prog A K V Message) =
        Prod.fst <$> SocketUDP.recvfrom D msgSize none flags ∧
      (SocketUnix.recvfrom D msgSize none flags : Prog B K V _) = pure ([], none) ∧
      (∀ (cb : K → Bytes → V) (arrivals : List (Arrival A)) (arrivals' : List (Arrival B)),
        List.Forall₂ (Arrival.Alike r) arrivals arrivals' →
          ReceivesAlike
            ((SocketUDP.recv D msgSize flags).exec (arriving cb acceptAll) (arrivals, ()))
            ((SocketUnix.recv D msgSize flags).exec (arriving cb acceptAll) (arrivals', ()))) ∧
      (∀ (σ τ : Type) (cb : K → Bytes → V) (send : Bytes → A → σ → SendAnswer × σ)
        (send' : Bytes → B → τ → SendAnswer × τ) (arrivals : List (Arrival A))
        (arrivals' : List (Arrival B)) (s : σ) (t : τ),
        List.Forall₂ (Arrival.Alike r) arrivals arrivals' →
          (ReceivesAlike
              ((SocketUDP.recv D msgSize flags).exec (arriving cb send) (arrivals, s))
              ((Prod.fst <$> SocketUnix.recvfrom D msgSize none flags).exec (arriving cb send')
                (arrivals', t)) ↔
            ¬ MeetsDatagram arrivals)) ∧
      (∀ (τ : Type) (cb : K → Bytes → V) (send : Bytes → B → τ → SendAnswer × τ)
        (arrivals : List (Arrival B)) (t : τ),
        ReceivesAlike
            ((SocketUnix.recv D msgSize flags).exec (arriving cb send) (arrivals, t))
            ((Prod.fst <$> SocketUnix.recvfrom D msgSize none flags).exec (arriving cb send)
              (arrivals, t)) ↔
          ¬ MeetsDatagram arrivals) ∧
      BehavesAlike r Eq (Reply.once (socketUDP D) msgSize) (Reply.once (socketUnix D) msgSize) ∧
      (∀ a b, r a b → BehavesAlike r Eq (Reply.onceTo (socketUDP D) msgSize a)
        (Reply.onceTo (socketUnix D) msgSize b)) ∧
      (∀ msg a b, r a b →
        BehavesAlike r Eq (Request.request (socketUDP D) msgSize msg a : Prog A K V Message)
          (Request.request (socketUnix D) msgSize msg b : Prog B K V Message)) ∧
      ∀ s : Subscriber K, BehavesAlike r Eq (s.once (socketUDP D)) (s.once (socketUnix D)) := by
  refine ⟨?_, ?_, ?_, ?_, ?_, ?_, ?_, ?_, ?_, ?_, ?_⟩
  · exact (recv_alike D r msgSize flags).behavesAlike
  · exact fun a b => (recvfrom_alike D r msgSize flags a b).behavesAlike
  · exact udp_recv_eq D msgSize flags
  · exact unix_recvfrom_null D msgSize flags
  · exact fun cb _ _ halike => recv_receivesAlike D msgSize flags cb halike
  · intro σ τ cb send send' arrivals arrivals' s t halike
    exact receivesAlike_null_iff D msgSize flags cb send send' halike s t
  · intro τ cb send arrivals t
    exact unix_receivesAlike_null_iff D msgSize flags cb send arrivals t
  · exact (once_alike D r msgSize).behavesAlike
  · exact fun a b hab => (onceTo_alike D msgSize hab).behavesAlike
  · exact fun msg a b hab => (request_alike D msgSize msg hab).behavesAlike
  · exact fun s => (subscriber_alike D r s).behavesAlike

/-- A datagram is there, and with a null address `SocketUnix` leaves it, unlike `SocketUDP` and
unlike its own `recv`. -/
theorem null_address_receives_nothing :
    ¬ ReceivesAlike
        ((Prod.fst <$> SocketUDP.recvfrom .failure 1 none 0 : Prog ℕ Unit Unit Message).exec
          (arriving (fun _ _ => ()) acceptAll) ([.datagram [5] 7], ()))
        ((Prod.fst <$> SocketUnix.recvfrom .failure 1 none 0 : Prog ℕ Unit Unit Message).exec
          (arriving (fun _ _ => ()) acceptAll) ([.datagram [5] 7], ())) ∧
      ¬ ReceivesAlike
        ((SocketUnix.recv .failure 1 0 : Prog ℕ Unit Unit Message).exec
          (arriving (fun _ _ => ()) acceptAll) ([.datagram [5] 7], ()))
        ((Prod.fst <$> SocketUnix.recvfrom .failure 1 none 0 : Prog ℕ Unit Unit Message).exec
          (arriving (fun _ _ => ()) acceptAll) ([.datagram [5] 7], ())) := by
  have hmissed : ([5] : Message) ≠ [] := List.cons_ne_nil _ _
  constructor
  · rintro ⟨hmessage, -⟩
    exact hmissed hmessage
  · rintro ⟨hmessage, -⟩
    exact hmissed hmessage

end Marko
