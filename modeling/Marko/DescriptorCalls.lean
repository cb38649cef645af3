import Mathlib.Data.Finset.Basic
import Mathlib.Data.Fintype.Card
import Marko.InteractionProgram

/-! The kernel's calls that take a descriptor number, as a signature. `size` is `FD_SETSIZE`,
the number of descriptors that a set of them has room for. -/
namespace Descriptor

open Interaction (Signature Program)

structure Timeval where
  tvSec : ℤ
  tvUsec : ℤ
  deriving DecidableEq, Repr

inductive AddressFamily where
  | afInet
  | afUnix
  deriving DecidableEq, Repr

inductive SocketType where
  | sockDgram
  deriving DecidableEq, Repr

/-- A set of descriptors, one bit for each number below `size`. -/
abbrev FdSet (size : ℕ) := Finset (Fin size)

namespace FdSet

variable {size : ℕ}

def index (fd : ℤ) : Option (Fin size) :=
  if h : 0 ≤ fd ∧ fd < size then some ⟨fd.toNat, by omega⟩ else none

def zero : FdSet size := ∅

/-- `FD_SET`, undefined when it writes past the set. -/
def set (fd : ℤ) (fds : FdSet size) : Option (FdSet size) := do
  let i ← index fd
  pure (insert i fds)

/-- `FD_ISSET`, undefined when it reads past the set. -/
def isset (fd : ℤ) (fds : FdSet size) : Option Bool := do
  let i ← index fd
  pure (decide (i ∈ fds))

@[simp] theorem index_coe (fd : Fin size) : index (fd : ℤ) = some fd := by
  have hbound : 0 ≤ (fd : ℤ) ∧ (fd : ℤ) < size := by omega
  rw [index, dif_pos hbound]
  rfl

@[simp] theorem set_coe (fd : Fin size) (fds : FdSet size) :
    set (fd : ℤ) fds = some (insert fd fds) := by
  rw [set, index_coe]
  rfl

@[simp] theorem isset_coe (fd : Fin size) (fds : FdSet size) :
    isset (fd : ℤ) fds = some (decide (fd ∈ fds)) := by
  rw [isset, index_coe]
  rfl

end FdSet

/-- `select` reports its sets by rewriting those it was given. -/
structure SelectAnswer (size : ℕ) where
  num : ℤ
  readfds : FdSet size
  writefds : FdSet size
  deriving DecidableEq

/-- `setRcvTimeo` is `setsockopt(fd, SOL_SOCKET, SO_RCVTIMEO, ..)` and `setFionbio` is
`ioctl(fd, FIONBIO, ..)`. A set that the caller passes to `select` as `NULL` is the empty one. -/
inductive Call (size : ℕ) where
  | socket (family : AddressFamily) (type : SocketType) (proto : ℤ)
  | close (fd : ℤ)
  | setRcvTimeo (fd : ℤ) (tv : Timeval)
  | setFionbio (fd : ℤ) (on : ℤ)
  | select (nfds : ℤ) (readfds writefds : FdSet size) (timeout : Timeval)
  deriving DecidableEq

abbrev Call.Answer {size : ℕ} : Call size → Type
  | .socket .. => ℤ
  | .close .. => ℤ
  | .setRcvTimeo .. => ℤ
  | .setFionbio .. => ℤ
  | .select .. => SelectAnswer size

abbrev sig (size : ℕ) : Signature := ⟨Call size, Call.Answer⟩

abbrev Prog (size : ℕ) (α : Type) := Program (sig size) α

/-- Programs that may run into undefined behaviour, which is their result `none`. -/
abbrev PartialProg (size : ℕ) (α : Type) := OptionT (Program (sig size)) α

def PartialProg.ofOption {size : ℕ} {α : Type} (value : Option α) : PartialProg size α :=
  OptionT.mk (pure value)

namespace Sys

variable {size : ℕ}

def socket (family : AddressFamily) (type : SocketType) (proto : ℤ) : Prog size ℤ :=
  Program.ask (S := sig size) (.socket family type proto)

def close (fd : ℤ) : Prog size ℤ := Program.ask (S := sig size) (.close fd)

def setRcvTimeo (fd : ℤ) (tv : Timeval) : Prog size ℤ :=
  Program.ask (S := sig size) (.setRcvTimeo fd tv)

def setFionbio (fd : ℤ) (on : ℤ) : Prog size ℤ :=
  Program.ask (S := sig size) (.setFionbio fd on)

def select (nfds : ℤ) (readfds writefds : FdSet size) (timeout : Timeval) :
    Prog size (SelectAnswer size) :=
  Program.ask (S := sig size) (.select nfds readfds writefds timeout)

end Sys

end Descriptor
