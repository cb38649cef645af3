import Mathlib.Data.List.Nodup
import Mathlib.Logic.Function.Basic
import Marko.DescriptorCalls

/-! A process's descriptor table. Numbers are reused, so every successful `socket` call also
gets a serial number of its own, which no program can see. -/
namespace Descriptor

open Interaction (Handler)

/-- `entry n` is the serial number of what is open under the number `n`. Every close that
went through is recorded with the serial number that its caller believed to close. -/
structure Table where
  entry : ℕ → Option ℕ
  made : ℕ
  closings : List (Option ℕ × ℕ)

namespace Table

def empty : Table := ⟨fun _ => none, 0, []⟩

def afterSocket (t : Table) (n : ℕ) : Table :=
  { t with entry := Function.update t.entry n (some t.made), made := t.made + 1 }

def afterClose (t : Table) (n : ℕ) (believed : Option ℕ) (serial : ℕ) : Table :=
  { t with
    entry := Function.update t.entry n none
    closings := t.closings ++ [(believed, serial)] }

/-- The kernel hands out `choice` when that number is unused, and fails otherwise. -/
def socket (choice : Option ℕ) (t : Table) : ℤ × Table :=
  match choice with
  | none => (-1, t)
  | some n => if t.entry n = none then (n, t.afterSocket n) else (-1, t)

def close (believed : Option ℕ) (fd : ℤ) (t : Table) : ℤ × Table :=
  if fd < 0 then (-1, t)
  else
    match t.entry fd.toNat with
    | none => (-1, t)
    | some serial => (0, t.afterClose fd.toNat believed serial)

/-- The kernel as a caller meets it that means to close what has the serial `believed`. -/
def handler {size : ℕ} (believed choice : Option ℕ) : Handler (sig size) Table
  | .socket .., t => socket choice t
  | .close fd, t => close believed fd t
  | .setRcvTimeo .., t => ((0 : ℤ), t)
  | .setFionbio .., t => ((0 : ℤ), t)
  | .select .., t => (⟨0, ∅, ∅⟩, t)

def closed (t : Table) : List ℕ := t.closings.map Prod.snd

/-- Every serial number is either open under one number or was closed once. -/
structure Ledger (t : Table) : Prop where
  open_made : ∀ n serial, t.entry n = some serial → serial < t.made
  open_once : ∀ n m serial, t.entry n = some serial → t.entry m = some serial → n = m
  closed_made : ∀ serial ∈ t.closed, serial < t.made
  closed_once : t.closed.Nodup
  not_both : ∀ n serial, t.entry n = some serial → serial ∉ t.closed
  covers : ∀ serial < t.made, serial ∈ t.closed ∨ ∃ n, t.entry n = some serial

theorem ledger_empty : Ledger empty where
  open_made n serial h := by cases h
  open_once n m serial h := by cases h
  closed_made serial h := by cases h
  closed_once := List.nodup_nil
  not_both n serial h := by cases h
  covers serial h := absurd h (Nat.not_lt_zero serial)

section Operations

variable {t : Table} (n : ℕ)

theorem socket_unused (h : t.entry n = none) : socket (some n) t = ((n : ℤ), t.afterSocket n) :=
  if_pos h

theorem close_open {serial : ℕ} (believed : Option ℕ) (h : t.entry n = some serial) :
    close believed n t = (0, t.afterClose n believed serial) := by
  -- the number of an entry is a natural number
  have hnonneg : ¬ (n : ℤ) < 0 := by omega
  rw [close, if_neg hnonneg, Int.toNat_natCast, h]

@[simp] theorem entry_afterSocket_self : (t.afterSocket n).entry n = some t.made := by
  simp only [afterSocket, Function.update_self]

theorem entry_afterSocket_of_ne {m : ℕ} (hne : m ≠ n) :
    (t.afterSocket n).entry m = t.entry m := by
  simp only [afterSocket, Function.update_of_ne hne]

@[simp] theorem entry_afterClose_self (believed : Option ℕ) (serial : ℕ) :
    (t.afterClose n believed serial).entry n = none := by
  simp only [afterClose, Function.update_self]

theorem entry_afterClose_of_ne {m : ℕ} (hne : m ≠ n) (believed : Option ℕ) (serial : ℕ) :
    (t.afterClose n believed serial).entry m = t.entry m := by
  simp only [afterClose, Function.update_of_ne hne]

theorem closed_afterClose (believed : Option ℕ) (serial : ℕ) :
    (t.afterClose n believed serial).closed = t.closed ++ [serial] :=
  List.map_append

theorem update_eq_some {n m serial : ℕ} {e : ℕ → Option ℕ} {v : Option ℕ}
    (h : Function.update e n v m = some serial) :
    m = n ∧ v = some serial ∨ m ≠ n ∧ e m = some serial := by
  by_cases hm : m = n
  · subst hm
    rw [Function.update_self] at h
    exact Or.inl ⟨rfl, h⟩
  · rw [Function.update_of_ne hm] at h
    exact Or.inr ⟨hm, h⟩

theorem Ledger.afterSocket (ht : Ledger t) (hn : t.entry n = none) : Ledger (t.afterSocket n) where
  open_made m serial h := by
    rcases update_eq_some h with ⟨-, hnew⟩ | ⟨-, hold⟩
    · have hserial : t.made = serial := Option.some.inj hnew
      show serial < t.made + 1
      omega
    · have hlt := ht.open_made m serial hold
      show serial < t.made + 1
      omega
  -- the new serial number is larger than all that are open
  open_once m k serial h h' := by
    rcases update_eq_some h with ⟨rfl, hnew⟩ | ⟨hm, hold⟩
    -- both are the new entry, or the other one is older
    · have hserial : t.made = serial := Option.some.inj hnew
      rcases update_eq_some h' with ⟨rfl, -⟩ | ⟨-, hold'⟩
      · rfl
      · have hlt := ht.open_made k serial hold'
        omega
    · rcases update_eq_some h' with ⟨rfl, hnew'⟩ | ⟨-, hold'⟩
      · have hserial : t.made = serial := Option.some.inj hnew'
        have hlt := ht.open_made m serial hold
        omega
      · exact ht.open_once m k serial hold hold'
  closed_made serial h := by
    have hlt := ht.closed_made serial h
    show serial < t.made + 1
    omega
  closed_once := ht.closed_once
  not_both m serial h := by
    rcases update_eq_some h with ⟨-, hnew⟩ | ⟨-, hold⟩
    · intro hclosed
      have hserial : t.made = serial := Option.some.inj hnew
      have hlt := ht.closed_made serial hclosed
      omega
    · exact ht.not_both m serial hold
  covers serial h := by
    have hcases : serial < t.made ∨ serial = t.made := Nat.lt_succ_iff_lt_or_eq.mp h
    rcases hcases with hlt | rfl
    · rcases ht.covers serial hlt with hclosed | ⟨m, hm⟩
      · exact Or.inl hclosed
      -- the entries that were there before are not at the unused number
      · have hne : m ≠ n := by
          intro hmn
          rw [hmn, hn] at hm
          cases hm
        exact Or.inr ⟨m, (entry_afterSocket_of_ne n hne).trans hm⟩
    · exact Or.inr ⟨n, entry_afterSocket_self n⟩

theorem Ledger.afterClose (ht : Ledger t) {serial : ℕ} (believed : Option ℕ)
    (hn : t.entry n = some serial) : Ledger (t.afterClose n believed serial) where
  open_made m s h := by
    rcases update_eq_some h with ⟨-, hnew⟩ | ⟨-, hold⟩
    · cases hnew
    · exact ht.open_made m s hold
  open_once m k s h h' := by
    rcases update_eq_some h with ⟨-, hnew⟩ | ⟨-, hold⟩
    · cases hnew
    · rcases update_eq_some h' with ⟨-, hnew'⟩ | ⟨-, hold'⟩
      · cases hnew'
      · exact ht.open_once m k s hold hold'
  closed_made s h := by
    rw [closed_afterClose, List.mem_append, List.mem_singleton] at h
    rcases h with h | rfl
    · exact ht.closed_made s h
    · exact ht.open_made n s hn
  -- what was open was not closed before
  closed_once := by
    rw [closed_afterClose, ← List.concat_eq_append]
    exact ht.closed_once.concat (ht.not_both n serial hn)
  not_both m s h := by
    rcases update_eq_some h with ⟨-, hnew⟩ | ⟨hm, hold⟩
    · cases hnew
    · rw [closed_afterClose, List.mem_append, List.mem_singleton]
      rintro (hclosed | rfl)
      · exact ht.not_both m s hold hclosed
      -- a serial number is open under one number only
      · exact hm (ht.open_once m n s hold hn)
  covers s h := by
    rw [closed_afterClose, List.mem_append, List.mem_singleton]
    rcases ht.covers s h with hclosed | ⟨m, hm⟩
    · exact Or.inl (Or.inl hclosed)
    · by_cases hmn : m = n
      · rw [hmn, hn] at hm
        exact Or.inl (Or.inr (Option.some.inj hm).symm)
      · exact Or.inr ⟨m, (entry_afterClose_of_ne n hmn believed serial).trans hm⟩

end Operations

/-- When nothing is open any more, every serial number was closed exactly once. -/
theorem Ledger.count_closed {t : Table} (ht : Ledger t) (hnone : ∀ n, t.entry n = none)
    {serial : ℕ} (h : serial < t.made) : t.closed.count serial = 1 := by
  rcases ht.covers serial h with hclosed | ⟨n, hn⟩
  · exact List.count_eq_one_of_mem ht.closed_once hclosed
  · rw [hnone n] at hn
    cases hn

end Table

end Descriptor
