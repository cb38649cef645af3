import Mathlib.Data.List.TakeDrop
import Marko.DatagramCalls

/-! The socket classes of `socket.hpp`, `socket_udp.hpp` and `socket_uds.hpp` as programs
over the kernel's datagram calls. `Zero A` is the zeroed socket address `{0}`. -/
namespace Marko

open Datagram

/-- `message_t`, a `std::vector<uint8_t>`. -/
abbrev Message := Bytes

/-- What the classes use of `socket_defs.hpp`: the number that stands for no descriptor, and the
receive count that they take for a timeout ("timeout gives -1"). -/
structure SocketDefs where
  socketErr : ℤ
  socketErr_neg : socketErr < 0
  socketTimeout : ℤ
  timeout_gives : socketTimeout = -1

/-- Both as the number that a failed call returns. -/
def SocketDefs.failure : SocketDefs where
  socketErr := -1
  socketErr_neg := Int.neg_neg_of_pos Int.one_pos
  socketTimeout := -1
  timeout_gives := rfl

section Receive

variable {A : Type} (D : SocketDefs)

/-- `message_t dst(msg_size)` after the kernel wrote to its front. -/
def fillBuffer (msgSize : ℕ) (written : Bytes) : Message :=
  written ++ (List.replicate msgSize 0).drop written.length

/-- The message a receive of at most `msgSize` bytes ends with: the buffer keeps the size
it was allocated with, and is cleared on a timeout or an empty datagram. -/
def receivedMessage (msgSize : ℕ) (ans : RecvAnswer A) : Message :=
  if ans.num = D.socketTimeout ∨ ans.num = 0 then [] else fillBuffer msgSize ans.written

/-- The address record, zeroed before the call and filled in by a successful one. -/
def receivedFrom [Zero A] : RecvAnswer A → A
  | .received _ src => src
  | .failed _ => 0

theorem length_fillBuffer (msgSize : ℕ) (written : Bytes) :
    (fillBuffer msgSize written).length = max msgSize written.length := by
  simp only [fillBuffer, List.length_append, List.length_drop, List.length_replicate]
  omega

theorem receivedMessage_received (msgSize : ℕ) (bytes : Bytes) (src : A) :
    receivedMessage D msgSize (.received bytes src) =
      if bytes = [] then [] else fillBuffer msgSize bytes := by
  have hnum : ¬ ((bytes.length : ℤ) = -1) := by omega
  simp only [receivedMessage, RecvAnswer.num, D.timeout_gives, hnum, false_or,
    Int.natCast_eq_zero, List.length_eq_zero_iff, RecvAnswer.written]

@[simp] theorem receivedMessage_failed (msgSize : ℕ) (e : Errno) :
    receivedMessage D msgSize (.failed e : RecvAnswer A) = [] :=
  if_pos (.inl D.timeout_gives.symm)

theorem fillBuffer_exact {msgSize : ℕ} {bytes : Bytes} (hlen : bytes.length = msgSize) :
    fillBuffer msgSize (bytes.take msgSize) = bytes := by
  subst hlen
  rw [List.take_length]
  simp only [fillBuffer, List.drop_replicate, Nat.sub_self, List.replicate_zero,
    List.append_nil]

theorem receivedMessage_exact {msgSize : ℕ} {bytes : Bytes} (src : A)
    (hlen : bytes.length = msgSize) :
    receivedMessage D msgSize (.received (bytes.take msgSize) src) = bytes := by
  have htake : bytes.take msgSize = bytes := hlen ▸ List.take_length
  rw [receivedMessage_received, fillBuffer_exact hlen, htake]
  split_ifs with hnil
  · exact hnil.symm
  · rfl

/-- Whatever arrives, a message is empty or has the size of the buffer. -/
theorem length_receivedMessage {msgSize : ℕ} (bytes : Bytes) (src : A) :
    (receivedMessage D msgSize (.received (bytes.take msgSize) src)).length =
      if bytes.take msgSize = [] then 0 else msgSize := by
  rw [receivedMessage_received]
  split_ifs
  · rfl
  · rw [length_fillBuffer, List.length_take]
    omega

end Receive

/-- What the templates of the library use of their `SOCKET` parameter. -/
structure SocketClass (A K V : Type) where
  recvfrom : ℕ → Option A → ℤ → Prog A K V (Message × Option A)
  recv : ℕ → ℤ → Prog A K V Message
  sendto : Message → A → ℤ → Prog A K V ℤ
  bind : A → Prog A K V Bool
  connect : A → Prog A K V Bool

variable {A K V : Type} [Zero A]

namespace Socket

def setsockopt (level : OptLevel) (name : OptName) (val : ℤ) : Prog A K V Bool := do
  let err ← Sys.setsockopt level name val
  pure (if err = 0 then true else false)

/-- Allow multiple sockets to use one address: `SO_REUSEPORT`, else `SO_REUSEADDR`. -/
def reuseSocket (enable : Bool) : Prog A K V Bool := do
  if enable then
    let ok ← setsockopt .solSocket .soReusePort 1
    -- not every system has the first option: its failure falls through to the second
    if ok then pure true else setsockopt .solSocket .soReuseAddr 1
  else
    let ok ← setsockopt .solSocket .soReusePort 0
    if ok then pure true else setsockopt .solSocket .soReuseAddr 0

end Socket

variable (D : SocketDefs)

namespace SocketUDP

def bind (addr : A) : Prog A K V Bool := do
  let err ← Sys.bind addr
  pure (if err = 0 then true else false)

/-- Connecting binds the local socket to `addr`, after asking for address reuse. -/
def connect (addr : A) : Prog A K V Bool := do
  let ok ← Socket.reuseSocket true
  -- a failure to share the address ends the call before anything is bound
  if ok = false then pure false else bind addr

/-- The second component is what `*from_addr` holds afterwards, `none` for `NULL`. -/
def recvfrom (msgSize : ℕ) : Option A → ℤ → Prog A K V (Message × Option A)
  | some _, flags => do
    let ans ← Sys.recvfrom msgSize flags
    pure (receivedMessage D msgSize ans, some (receivedFrom ans))
  | none, flags => do
    let ans ← Sys.recvfrom msgSize flags
    pure (receivedMessage D msgSize ans, none)

def recv (msgSize : ℕ) (flags : ℤ) : Prog A K V Message := do
  -- the UDP class receives through its own `recvfrom`, with no address record
  let m ← recvfrom D msgSize (none : Option A) flags
  pure m.1

def sendto (msg : Message) (addr : A) (flags : ℤ) : Prog A K V ℤ := do
  let ans ← Sys.sendto msg addr flags
  pure ans.num

end SocketUDP

namespace SocketUnix

/-- Without an address record this class does not receive at all. -/
def recvfrom (msgSize : ℕ) : Option A → ℤ → Prog A K V (Message × Option A)
  | none, _ => pure ([], none)
  | some _, flags => do
    let ans ← Sys.recvfrom msgSize flags
    pure (receivedMessage D msgSize ans, some (receivedFrom ans))

def recv (msgSize : ℕ) (flags : ℤ) : Prog A K V Message := do
  let ans ← Sys.recvfrom msgSize flags
  pure (receivedMessage D msgSize ans)

def sendto (msg : Message) (addr : A) (flags : ℤ) : Prog A K V ℤ := do
  let ans ← Sys.sendto msg addr flags
  pure ans.num

def connect (_addr : A) : Prog A K V Bool := pure true

def bind (addr : A) : Prog A K V Bool := do
  let err ← Sys.bind addr
  pure (if err = 0 then true else false)

end SocketUnix

def socketUDP : SocketClass A K V where
  recvfrom := SocketUDP.recvfrom D
  recv := SocketUDP.recv D
  sendto := SocketUDP.sendto
  bind := SocketUDP.bind
  connect := SocketUDP.connect

def socketUnix : SocketClass A K V where
  recvfrom := SocketUnix.recvfrom D
  recv := SocketUnix.recv D
  sendto := SocketUnix.sendto
  bind := SocketUnix.bind
  connect := SocketUnix.connect

inductive Transport where
  | udp
  | unix
  deriving DecidableEq, Repr

def Transport.socketClass : Transport → SocketClass A K V
  | .udp => socketUDP D
  | .unix => socketUnix D

end Marko
