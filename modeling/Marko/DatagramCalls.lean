import Mathlib.Algebra.GroupWithZero.Nat
import Mathlib.Data.Nat.Notation
import Mathlib.Data.Int.Notation
import Marko.InteractionProgram

/-! The kernel's datagram calls as a signature, together with the user callbacks that a
library running on them invokes. Addresses `A`, callbacks `K` and the values `V` that
callbacks return are parameters. -/
namespace Datagram

open Interaction (Signature Program)

abbrev Bytes := List UInt8

/-- The errors that the callers of these calls tell apart. -/
inductive Errno where
  | again
  | connRefused
  | other (code : ℕ)
  deriving DecidableEq, Repr

/-- A receive either fails or writes `bytes` to the front of the caller's buffer and
reports the sender. -/
inductive RecvAnswer (A : Type) where
  | received (bytes : Bytes) (src : A)
  | failed (e : Errno)
  deriving DecidableEq, Repr

inductive SendAnswer where
  | sent (count : ℕ)
  | failed (e : Errno)
  deriving DecidableEq, Repr

/-- The returned count, with -1 for a failure. A datagram is far shorter than 2^31
bytes, so an `int` holds every count exactly. -/
def RecvAnswer.num {A : Type} : RecvAnswer A → ℤ
  | .received bytes _ => bytes.length
  | .failed _ => -1

def RecvAnswer.written {A : Type} : RecvAnswer A → Bytes
  | .received bytes _ => bytes
  | .failed _ => []

def SendAnswer.num : SendAnswer → ℤ
  | .sent count => count
  | .failed _ => -1

inductive OptLevel where
  | solSocket
  | ipprotoIp
  deriving DecidableEq, Repr

inductive OptName where
  | soReusePort
  | soReuseAddr
  deriving DecidableEq, Repr

/-- `recv` is `recvfrom` whose caller ignores the source, so both are the one call. -/
inductive Call (A K : Type) where
  | sendto (msg : Bytes) (dst : A) (flags : ℤ)
  | recvfrom (size : ℕ) (flags : ℤ)
  | bind (addr : A)
  | getpeername
  | setsockopt (level : OptLevel) (name : OptName) (val : ℤ)
  | callback (cb : K) (msg : Bytes)
  deriving DecidableEq, Repr

abbrev Call.Answer (A V : Type) {K : Type} : Call A K → Type
  | .sendto .. => SendAnswer
  | .recvfrom .. => RecvAnswer A
  | .bind .. => ℤ
  | .getpeername => Option A
  | .setsockopt .. => ℤ
  | .callback .. => V

abbrev sig (A K V : Type) : Signature := ⟨Call A K, Call.Answer A V⟩

abbrev Prog (A K V α : Type) := Program (sig A K V) α

namespace Sys

variable {A K V : Type}

def sendto (msg : Bytes) (dst : A) (flags : ℤ) : Prog A K V SendAnswer :=
  Program.ask (S := sig A K V) (.sendto msg dst flags)

def recvfrom (size : ℕ) (flags : ℤ) : Prog A K V (RecvAnswer A) :=
  Program.ask (S := sig A K V) (.recvfrom size flags)

def bind (addr : A) : Prog A K V ℤ := Program.ask (S := sig A K V) (.bind addr)

def getpeername : Prog A K V (Option A) := Program.ask (S := sig A K V) .getpeername

def setsockopt (level : OptLevel) (name : OptName) (val : ℤ) : Prog A K V ℤ :=
  Program.ask (S := sig A K V) (.setsockopt level name val)

def callback (cb : K) (msg : Bytes) : Prog A K V V :=
  Program.ask (S := sig A K V) (.callback cb msg)

end Sys

def Call.answered {A K V W : Type} (f : W → V) :
    (c : Call A K) → Call.Answer A W c → Call.Answer A V c
  | .sendto .., ans => ans
  | .recvfrom .., ans => ans
  | .bind _, ans => ans
  | .getpeername, ans => ans
  | .setsockopt .., ans => ans
  | .callback .., w => f w

/-- A program among callbacks of another type, whose values it reads by `f`. -/
def Prog.answering {A K V W α : Type} (f : W → V) (p : Prog A K V α) : Prog A K W α :=
  Program.translate (T := sig A K W) (fun c : Call A K => c) (Call.answered f) p

def sends {A K : Type} (calls : List (Call A K)) : List (Bytes × A) :=
  calls.filterMap fun
    | .sendto msg dst _ => some (msg, dst)
    | _ => none

/-- The callbacks among some calls, each with the message it is invoked on. -/
def callbacks {A K : Type} (calls : List (Call A K)) : List (K × Bytes) :=
  calls.filterMap fun
    | .callback cb msg => some (cb, msg)
    | _ => none

variable {A K : Type} (calls more : List (Call A K))

theorem sends_map_sendto {α : Type} (xs : List α) (msg : α → Bytes) (dst : α → A) (flags : ℤ) :
    sends (xs.map fun x => (.sendto (msg x) (dst x) flags : Call A K)) =
      xs.map fun x => (msg x, dst x) := by
  rw [sends, List.filterMap_map]
  exact congrFun List.filterMap_eq_map xs

@[simp] theorem sends_append : sends (calls ++ more) = sends calls ++ sends more :=
  List.filterMap_append

@[simp] theorem callbacks_append : callbacks (calls ++ more) = callbacks calls ++ callbacks more :=
  List.filterMap_append

@[simp] theorem callbacks_recvfrom (size : ℕ) (flags : ℤ) :
    callbacks (.recvfrom size flags :: calls) = callbacks calls := rfl

end Datagram
