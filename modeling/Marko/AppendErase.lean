import Mathlib.Data.List.Basic
import Mathlib.Data.List.Nodup
import Mathlib.Data.Nat.Notation

/-! A list that grows by appending and shrinks by erasing a first occurrence, and when it
behaves as the set of what was added last and not removed since. -/
namespace AppendErase

variable {α : Type} [DecidableEq α]

inductive Change (α : Type) where
  | add (a : α)
  | remove (a : α)
  | keep
  deriving DecidableEq, Repr

def apply (xs : List α) : Change α → List α
  | .add a => xs ++ [a]
  | .remove a => xs.erase a
  | .keep => xs

def after (changes : List (Change α)) : List α := changes.foldl apply []

def latest (a : α) (changes : List (Change α)) : Option (Change α) :=
  (changes.filter fun c => c = .add a ∨ c = .remove a).getLast?

/-- The list has no element twice, and the elements that were added last. -/
def IsSet (changes : List (Change α)) : Prop :=
  (after changes).Nodup ∧ ∀ a, a ∈ after changes ↔ latest a changes = some (.add a)

def AddsOnce (changes : List (Change α)) : Prop :=
  ∀ n a, changes[n]? = some (.add a) → latest a (changes.take n) ≠ some (.add a)

@[simp] theorem after_nil : after ([] : List (Change α)) = [] := rfl

@[simp] theorem after_concat (changes : List (Change α)) (c : Change α) :
    after (changes ++ [c]) = apply (after changes) c := by
  simp only [after, List.foldl_append, List.foldl_cons, List.foldl_nil]

theorem latest_concat (a : α) (changes : List (Change α)) (c : Change α) :
    latest a (changes ++ [c]) =
      if c = .add a ∨ c = .remove a then some c else latest a changes := by
  unfold latest
  rw [List.filter_append]
  by_cases hc : c = .add a ∨ c = .remove a
  · rw [List.filter_cons_of_pos (by simpa using hc), if_pos hc]
    exact List.getLast?_concat
  · rw [List.filter_cons_of_neg (by simpa using hc), if_neg hc]
    exact congrArg List.getLast? (List.append_nil _)

theorem mem_of_latest {a : α} {changes : List (Change α)} {c : Change α}
    (h : latest a changes = some c) : c ∈ changes :=
  List.mem_of_mem_filter (List.mem_of_getLast? h)

theorem isSet_nil : IsSet ([] : List (Change α)) := by
  refine ⟨List.nodup_nil, fun a => ?_⟩
  simp [latest]

/-- One change keeps the list a set, unless it adds what is there. -/
theorem IsSet.concat {changes : List (Change α)} (h : IsSet changes) {c : Change α}
    (hc : ∀ a, c = .add a → latest a changes ≠ some (.add a)) : IsSet (changes ++ [c]) := by
  obtain ⟨hnodup, hmem⟩ := h
  cases c with
  | add b =>
    have hb : b ∉ after changes := fun hb => hc b rfl ((hmem b).mp hb)
    constructor
    · rw [after_concat, apply, List.nodup_append]
      refine ⟨hnodup, List.nodup_singleton b, ?_⟩
      rintro x hx y hy rfl
      exact hb (List.mem_singleton.mp hy ▸ hx)
    · intro a
      rw [after_concat, apply, latest_concat, List.mem_append, hmem a, List.mem_singleton]
      rcases eq_or_ne a b with rfl | hab
      · simp
      · simp [hab, hab.symm]
  | remove b =>
    constructor
    · rw [after_concat]
      exact hnodup.erase b
    · intro a
      rw [after_concat, apply, latest_concat, hnodup.mem_erase_iff, hmem a]
      rcases eq_or_ne a b with rfl | hab
      · simp
      · simp [hab, hab.symm]
  | keep =>
    constructor
    · rw [after_concat]
      exact hnodup
    · intro a
      rw [after_concat, latest_concat, if_neg (by simp)]
      exact hmem a

/-- The list is a set after every change exactly when nothing is added twice in a row. -/
theorem isSet_take_iff (changes : List (Change α)) :
    (∀ n, IsSet (changes.take n)) ↔ AddsOnce changes := by
  constructor
  · -- adding what is there would make it twice
    intro h n a hn hlatest
    have hmem : a ∈ after (changes.take n) := ((h n).2 a).mpr hlatest
    have hnodup := (h (n + 1)).1
    rw [List.take_add_one, hn, Option.toList_some, after_concat, apply,
      List.nodup_append] at hnodup
    exact hnodup.2.2 a hmem a (List.mem_singleton_self a) rfl
  · intro h n
    induction n with
    | zero => exact isSet_nil
    | succ n ih =>
      rw [List.take_add_one]
      cases hn : changes[n]? with
      | none => rwa [Option.toList_none, List.append_nil]
      | some c =>
        apply ih.concat
        rintro a rfl
        exact h n a hn

end AppendErase
