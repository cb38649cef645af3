import Marko.DescriptorCalls
import Marko.MarkoSocket
import Marko.SignedArithmetic

/-! The base class `Socket` of `socket.hpp` as programs over the descriptor calls: making and
closing the descriptor, the receive timeout of `time.hpp`, and polling. -/
namespace Marko

open Descriptor

structure Socket where
  socketFd : ℤ
  deriving DecidableEq, Repr

abbrev Long := Signed.Value 64

namespace Long

def thousand : Long := ⟨1000, by decide⟩

end Long

/-- `get_time` of `time.hpp`. -/
def getTime (timeoutMsec : Long) : Option Timeval := do
  let tvSec ← Signed.div timeoutMsec Long.thousand
  let whole ← Signed.mul tvSec Long.thousand
  let rest ← Signed.sub timeoutMsec whole
  -- milliseconds, in a field that counts microseconds
  let tvUsec ← Signed.mod rest Long.thousand
  pure ⟨tvSec.val, tvUsec.val⟩

namespace Socket

variable {size : ℕ} (D : SocketDefs) (s : Socket)

def init : Socket := ⟨D.socketErr⟩

def close : Prog size Socket := do
  if s.socketFd ≠ D.socketErr then
    let _ ← Sys.close s.socketFd
    pure ⟨D.socketErr⟩
  else pure s

/-- The copy constructor and the copy assignment, which the compiler supplies: the number is
copied. A class with a destructor gets no moves, so moving copies as well. -/
def copy : Socket := ⟨s.socketFd⟩

/-- The destructor. -/
def destroy : Prog size Unit := do
  let _ ← close D s
  pure ()

/-- The new descriptor replaces whatever the object held. -/
def makeSocket (family : AddressFamily) (type : SocketType) (proto : ℤ) :
    Prog size (Bool × Socket) := do
  let fd ← Sys.socket family type proto
  -- the number held so far is overwritten without being closed
  let s : Socket := ⟨fd⟩
  if s.socketFd < 0 then
    let s ← close D s
    pure (false, s)
  else pure (true, s)

def settimeout (timeoutMsec : Long) : PartialProg size Bool := do
  let tv ← PartialProg.ofOption (getTime timeoutMsec)
  let err ← OptionT.lift (Sys.setRcvTimeo s.socketFd tv)
  pure (if err = 0 then true else false)

def setnonblocking (val : Bool) : Prog size Bool := do
  let on : ℤ := if val then 1 else 0
  let err ← Sys.setFionbio s.socketFd on
  pure (if err = 0 then true else false)

/-- Poll with a `select` that is given a set holding this socket alone, and that answers with
its count and what it left of the set. -/
def poll (select : FdSet size → Timeval → Prog size (ℤ × FdSet size)) : PartialProg size Bool := do
  let tv : Timeval := ⟨0, 1000⟩
  let fds ← PartialProg.ofOption (FdSet.set s.socketFd FdSet.zero)
  let (err, fds) ← OptionT.lift (select fds tv)
  -- a positive count is the number of ready descriptors, a negative one is the failure
  if err > 0 then pure false
  else
    let isset ← PartialProg.ofOption (FdSet.isset s.socketFd fds)
    if isset then pure true else pure false

def available : PartialProg size Bool :=
  s.poll fun readfds tv => do
    let ans ← Sys.select (s.socketFd + 1) readfds ∅ tv
    pure (ans.num, ans.readfds)

def availableForWrite : PartialProg size Bool :=
  s.poll fun writefds tv => do
    let ans ← Sys.select (s.socketFd + 1) ∅ writefds tv
    pure (ans.num, ans.writefds)

end Socket

/-- What a derived class's constructor does; it drops the result of `makeSocket`. -/
def Socket.construct {size : ℕ} (D : SocketDefs) (family : AddressFamily) : Prog size Socket := do
  let made ← Socket.makeSocket D family .sockDgram 0
  pure made.2

theorem Socket.construct_eq {size : ℕ} (D : SocketDefs) (family : AddressFamily) :
    (Socket.construct D family : Prog size Socket) =
      .call (.socket family .sockDgram 0) fun fd =>
        if fd < 0 then Socket.close D ⟨fd⟩ else .done ⟨fd⟩ := by
  apply Interaction.Program.call_congr
  intro fd
  show ((if fd < 0 then Socket.close D ⟨fd⟩ >>= fun s => pure (false, s) else pure (true, ⟨fd⟩) :
    Prog size (Bool × Socket)) >>= fun made => pure made.2) = _
  split_ifs
  · rw [bind_assoc]
    exact bind_pure _
  · rfl

/-- The constructors `SocketUDP()` and `SocketUnix()`. -/
def SocketUDP.init {size : ℕ} (D : SocketDefs) : Prog size Socket := Socket.construct D .afInet

def SocketUnix.init {size : ℕ} (D : SocketDefs) : Prog size Socket := Socket.construct D .afUnix

def Transport.construct {size : ℕ} (D : SocketDefs) : Transport → Prog size Socket
  | .udp => SocketUDP.init D
  | .unix => SocketUnix.init D

end Marko
