import Marko.MarkoSocket

/-! The templates of `request_reply.hpp`. A reply socket has one registered callback, so
callbacks are named by `Unit` and return the message to send back. -/
namespace Marko

open Datagram

variable {A : Type} [Zero A] (D : SocketDefs)

namespace Reply

/-- `once()`: serve one request and answer the address it came from. -/
def once (S : SocketClass A Unit Message) (msgSize : ℕ) : Prog A Unit Message Bool := do
  let rcv ← S.recvfrom msgSize (some 0) 0
  let m := rcv.1
  let fromAddr := rcv.2.getD 0
  -- a message that is not empty has the size of its buffer
  if m.length = 0 ∨ m.length ≠ msgSize then pure false
  else
    let r ← Sys.callback () m
    let _ ← S.sendto r fromAddr 0
    pure true

/-- `once(to)`: serve one request and send the answer to a given address. -/
def onceTo (S : SocketClass A Unit Message) (msgSize : ℕ) (toAddr : A) :
    Prog A Unit Message Bool := do
  let m ← S.recv msgSize 0
  if m.length = 0 ∨ m.length ≠ msgSize then pure false
  else
    let r ← Sys.callback () m
    -- in both overloads the result of the send is dropped
    let _ ← S.sendto r toAddr 0
    pure true

def answer (m : Message) (toAddr : A) : Prog A Unit Message Bool :=
  .call (.callback () m) fun r => .call (.sendto r toAddr 0) fun _ => .done true

def handle (msgSize : ℕ) (toAddr : RecvAnswer A → A) (ans : RecvAnswer A) :
    Prog A Unit Message Bool :=
  if (receivedMessage D msgSize ans).length = 0 ∨ (receivedMessage D msgSize ans).length ≠ msgSize
  then .done false else answer (receivedMessage D msgSize ans) (toAddr ans)

/-- On either transport, serving is one receive followed by `handle`. -/
theorem once_eq (t : Transport) (msgSize : ℕ) :
    once (A := A) (t.socketClass D) msgSize =
      .call (.recvfrom msgSize 0) (handle D msgSize receivedFrom) := by
  cases t <;> rfl

theorem onceTo_eq (t : Transport) (msgSize : ℕ) (toAddr : A) :
    onceTo (t.socketClass D) msgSize toAddr =
      .call (.recvfrom msgSize 0) (handle D msgSize fun _ => toAddr) := by
  cases t <;> rfl

omit [Zero A] in
@[simp] theorem handle_failed (msgSize : ℕ) (toAddr : RecvAnswer A → A) (e : Errno) :
    handle D msgSize toAddr (.failed e) = .done false := by
  unfold handle
  rw [receivedMessage_failed]
  exact if_pos (.inl rfl)

omit [Zero A] in
/-- A buffer of no bytes receives nothing. -/
theorem handle_zero (toAddr : RecvAnswer A → A) (bytes : Bytes) (src : A) :
    handle D 0 toAddr (.received (bytes.take 0) src) = .done false := by
  unfold handle
  rw [List.take_zero, receivedMessage_received]
  exact if_pos (.inl rfl)

omit [Zero A] in
/-- The size test passes on everything but a timeout and an empty datagram: the received
message always has the size of its buffer. -/
theorem handle_received {msgSize : ℕ} (hsize : 0 < msgSize) (toAddr : RecvAnswer A → A)
    (bytes : Bytes) (src : A) :
    handle D msgSize toAddr (.received (bytes.take msgSize) src) =
      if bytes = [] then .done false
      else answer (fillBuffer msgSize (bytes.take msgSize))
        (toAddr (.received (bytes.take msgSize) src)) := by
  have hlen : (receivedMessage D msgSize (.received (bytes.take msgSize) src)).length =
      if bytes.take msgSize = [] then 0 else msgSize := length_receivedMessage D bytes src
  have hnil : bytes.take msgSize = [] ↔ bytes = [] := by
    simp only [List.take_eq_nil_iff, Nat.ne_of_gt hsize, false_or]
  unfold handle
  by_cases hbytes : bytes = []
  · rw [if_pos (hnil.mpr hbytes)] at hlen
    rw [if_pos (Or.inl hlen), if_pos hbytes]
  · rw [if_neg (mt hnil.mp hbytes)] at hlen
    rw [if_neg (by omega), if_neg hbytes, receivedMessage_received,
      if_neg (mt hnil.mp hbytes)]

end Reply

namespace Request

/-- Send the request and wait for whatever message arrives next. -/
def request {K V : Type} (S : SocketClass A K V) (msgSize : ℕ) (msg : Message) (addr : A) :
    Prog A K V Message := do
  let _ ← S.sendto msg addr 0
  let rep ← S.recv msgSize 0
  pure rep

theorem request_eq {K V : Type} (t : Transport) (msgSize : ℕ) (msg : Message) (addr : A) :
    request (K := K) (V := V) (t.socketClass D) msgSize msg addr =
      .call (.sendto msg addr 0) fun _ =>
        .call (.recvfrom msgSize 0) fun ans => .done (receivedMessage D msgSize ans) := by
  cases t <;> rfl

end Request

end Marko
