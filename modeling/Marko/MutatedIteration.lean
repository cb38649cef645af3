import Mathlib.Data.List.Nodup
import Marko.AppendErase
import Marko.InteractionMachine

/-! Walking over a list by index while others append to it and erase from it. -/
namespace AppendErase

open Interaction

variable {α : Type} [DecidableEq α]

/-- A walk over `list`, about to read the element at `index`. -/
structure Walk (α : Type) where
  list : List α
  index : ℕ
  -- what the loop has read so far, in order
  visited : List α

inductive Move (α : Type) where
  | visit
  | edit (c : Change α)

def Fresh (xs : List α) : Change α → Prop
  | .add b => b ∉ xs
  | .remove _ => True
  | .keep => True

instance (xs : List α) (c : Change α) : Decidable (Fresh xs c) := by
  cases c <;> unfold Fresh <;> infer_instance

namespace Walk

def step : Move α → Walk α → Option (Walk α)
  | .visit, w => w.list[w.index]?.map fun x => ⟨w.list, w.index + 1, w.visited ++ [x]⟩
  | .edit c, w => if Fresh w.list c then some ⟨apply w.list c, w.index, w.visited⟩ else none

def passed (w : Walk α) : List α := w.list.take w.index

def visits (w : Walk α) (a : α) : ℕ := w.visited.count a

/-- The move shifts `a`, which is next, to before the index. -/
def Skips (a : α) : Move α → Walk α → Prop
  | .edit (.remove b), w => b ∈ w.passed ∧ w.list[w.index]? = some a
  | _, _ => False

instance (a : α) (m : Move α) (w : Walk α) : Decidable (Skips a m w) := by
  unfold Skips
  split <;> infer_instance

/-- `a` was visited as often as it lies before the index. -/
structure Regular (a : α) (w : Walk α) : Prop where
  nodup : w.list.Nodup
  counted : w.visited.count a = w.passed.count a

/-- `a` lies before the index without a visit for it. -/
structure Lost (a : α) (w : Walk α) : Prop where
  nodup : w.list.Nodup
  counted : w.visited.count a + 1 = w.passed.count a

theorem nodup_apply {xs : List α} (hxs : xs.Nodup) {c : Change α} (hc : Fresh xs c) :
    (apply xs c).Nodup := by
  cases c with
  | add b =>
    rw [apply, ← List.concat_eq_append]
    exact hxs.concat hc
  | remove b => exact hxs.erase b
  | keep => exact hxs

/-- Erasing an element before position `i` moves the element at `i` in front of it. -/
theorem take_erase_of_mem {xs : List α} {i : ℕ} {b : α} (hb : b ∈ xs.take i) :
    (xs.erase b).take i = (xs.take i).erase b ++ xs[i]?.toList := by
  -- the erasure happens within the first `i` elements, which get one shorter
  have hxs : xs.erase b = (xs.take i).erase b ++ xs.drop i := by
    have happend := List.erase_append_left (xs.drop i) hb
    rwa [List.take_append_drop] at happend
  have hpos : 0 < (xs.take i).length := List.length_pos_of_mem hb
  have hlen : ((xs.take i).erase b).length = min i xs.length - 1 := by
    rw [List.length_erase_of_mem hb, List.length_take]
  rw [List.length_take] at hpos
  rw [hxs, List.take_append, List.take_of_length_le (by omega)]
  apply congrArg
  -- the gap is filled by the element at `i`, if there is one
  rcases Nat.lt_or_ge i xs.length with hi | hi
  · have hone : i - ((xs.take i).erase b).length = 1 := by omega
    rw [hone, List.take_one, List.head?_drop]
  · rw [List.drop_eq_nil_of_le hi, List.getElem?_eq_none hi, List.take_nil]
    rfl

theorem take_erase_of_notMem {xs : List α} {i : ℕ} {b : α} (hb : b ∉ xs.take i) :
    (xs.erase b).take i = xs.take i := by
  -- the erasure happens behind the first `i` elements
  have hxs : xs.erase b = xs.take i ++ (xs.drop i).erase b := by
    have happend := List.erase_append_right (xs.drop i) hb
    rwa [List.take_append_drop] at happend
  rw [hxs, List.take_append]
  rcases Nat.lt_or_ge i xs.length with hi | hi
  · have hlen : (xs.take i).length = i := List.length_take_of_le (Nat.le_of_lt hi)
    rw [hlen, Nat.sub_self, List.take_zero, List.append_nil, List.take_take, Nat.min_self]
  · rw [List.drop_eq_nil_of_le hi, List.erase_nil, List.take_nil, List.append_nil,
      List.take_take, Nat.min_self]

/-- What an edit does to an element that stays on the list: only a skip moves it to before
the index. -/
theorem count_passed_edit {a : α} {w : Walk α} {c : Change α} (hnodup : w.list.Nodup)
    (hfresh : Fresh w.list c) (hbefore : a ∈ w.list) (hafter : a ∈ apply w.list c) :
    ((apply w.list c).take w.index).count a =
      w.passed.count a + if Skips a (.edit c) w then 1 else 0 := by
  cases c with
  | add b =>
    have hne : a ≠ b := by
      rintro rfl
      exact hfresh hbefore
    -- what is appended may lie before an index past the end, but it is not `a`
    have hnew : ([b].take (w.index - w.list.length)).count a = 0 := by
      apply List.count_eq_zero_of_not_mem
      intro h
      exact hne (List.mem_singleton.mp (List.mem_of_mem_take h))
    rw [apply, List.take_append, List.count_append, hnew]
    rfl
  | remove b =>
    have hne : a ≠ b := by
      rintro rfl
      exact hnodup.not_mem_erase hafter
    -- erasing behind the index moves nothing; before it, the next element moves
    by_cases hb : b ∈ w.passed
    · have hskip : Skips a (.edit (.remove b)) w ↔ w.list[w.index]? = some a := and_iff_right hb
      rw [apply, take_erase_of_mem hb, List.count_append, List.count_erase_of_ne hne]
      simp only [hskip]
      cases w.list[w.index]? with
      | none => rfl
      | some x =>
        rw [Option.toList_some, List.count_singleton]
        simp [passed]
    · have hskip : ¬ Skips a (.edit (.remove b)) w := fun h => hb h.1
      rw [apply, take_erase_of_notMem hb, if_neg hskip]
      rfl
  | keep => rfl

section Moves

variable {a : α} {w w' : Walk α} {m : Move α}

theorem step_visit (hstep : step .visit w = some w') :
    ∃ x, w' = ⟨w.list, w.index + 1, w.visited ++ [x]⟩ ∧ w'.passed = w.passed ++ [x] := by
  obtain ⟨x, hx, rfl⟩ := Option.map_eq_some_iff.mp hstep
  refine ⟨x, rfl, ?_⟩
  show w.list.take (w.index + 1) = _
  rw [List.take_add_one, hx]
  rfl

theorem step_edit {c : Change α} (hstep : step (.edit c) w = some w') :
    Fresh w.list c ∧ w' = ⟨apply w.list c, w.index, w.visited⟩ := by
  simp only [step] at hstep
  split_ifs at hstep with hfresh
  exact ⟨hfresh, (Option.some.inj hstep).symm⟩

theorem nodup_step (hnodup : w.list.Nodup) (hstep : step m w = some w') : w'.list.Nodup := by
  cases m with
  | visit =>
    obtain ⟨x, rfl, -⟩ := step_visit hstep
    exact hnodup
  | edit c =>
    obtain ⟨hfresh, rfl⟩ := step_edit hstep
    exact nodup_apply hnodup hfresh

/-- Every move adds to the visits of a staying element what it adds to its occurrences before
the index, a skip excepted. -/
theorem counts_step (hnodup : w.list.Nodup) (hbefore : a ∈ w.list) (hafter : a ∈ w'.list)
    (hstep : step m w = some w') :
    w'.passed.count a + w.visited.count a =
      w.passed.count a + w'.visited.count a + if Skips a m w then 1 else 0 := by
  cases m with
  | visit =>
    obtain ⟨x, rfl, hpassed⟩ := step_visit hstep
    have hskip : ¬ Skips a .visit w := id
    rw [hpassed, List.count_append, List.count_append, if_neg hskip]
    omega
  | edit c =>
    obtain ⟨hfresh, rfl⟩ := step_edit hstep
    have hcount := count_passed_edit hnodup hfresh hbefore hafter
    show ((apply w.list c).take w.index).count a + w.visited.count a =
      w.passed.count a + w.visited.count a + _
    omega

theorem Regular.step (hw : Regular a w) (hbefore : a ∈ w.list) (hafter : a ∈ w'.list)
    (hstep : Walk.step m w = some w') (hskip : ¬ Skips a m w) : Regular a w' := by
  have hcounts := counts_step hw.nodup hbefore hafter hstep
  have hcounted := hw.counted
  rw [if_neg hskip] at hcounts
  exact ⟨nodup_step hw.nodup hstep, by omega⟩

theorem Regular.lost (hw : Regular a w) (hbefore : a ∈ w.list) (hafter : a ∈ w'.list)
    (hstep : Walk.step m w = some w') (hskip : Skips a m w) : Lost a w' := by
  have hcounts := counts_step hw.nodup hbefore hafter hstep
  have hcounted := hw.counted
  rw [if_pos hskip] at hcounts
  exact ⟨nodup_step hw.nodup hstep, by omega⟩

theorem Lost.not_skips (hw : Lost a w) : ¬ Skips a m w := by
  intro hskip
  have hnext : w.list[w.index]? = some a := by
    match m, hskip with
    | .edit (.remove _), h => exact h.2
  -- `a` would be both before the index and at it
  have htake : w.list.take (w.index + 1) = w.passed ++ [a] := by
    rw [List.take_add_one, hnext]
    rfl
  have hnodup : (w.passed ++ [a]).Nodup := htake ▸ hw.nodup.sublist (List.take_sublist _ _)
  have hmem : a ∈ w.passed := by
    apply List.count_pos_iff.mp
    have hcounted := hw.counted
    omega
  exact List.disjoint_of_nodup_append hnodup hmem (List.mem_singleton_self a)

theorem Lost.step (hw : Lost a w) (hbefore : a ∈ w.list) (hafter : a ∈ w'.list)
    (hstep : Walk.step m w = some w') : Lost a w' := by
  have hcounts := counts_step hw.nodup hbefore hafter hstep
  have hcounted := hw.counted
  rw [if_neg hw.not_skips] at hcounts
  exact ⟨nodup_step hw.nodup hstep, by omega⟩

theorem count_passed_of_end (hnodup : w.list.Nodup) (ha : a ∈ w.list)
    (hend : w.list.length ≤ w.index) : w.passed.count a = 1 := by
  rw [passed, List.take_of_length_le hend]
  exact List.count_eq_one_of_mem hnodup ha

end Moves

section Run

/-- A machine that walks: each of its steps is a move of the walk that `view` shows, or
leaves it alone. -/
def Walks {L C : Type} (M : Machine L C) (view : C → Walk α) (move : L → C → Option (Move α)) :
    Prop :=
  ∀ l c c', M.step l c = some c' →
    match move l c with
    | some m => step m (view c) = some (view c')
    | none => view c' = view c

variable {L C : Type} {M : Machine L C} {view : C → Walk α} {move : L → C → Option (Move α)}
variable {a : α}

theorem Walks.lost (hM : Walks M view move) {ls : List L} {c c' : C} (hc : Lost a (view c))
    (hstays : M.Always (fun c => a ∈ (view c).list) ls c) (hrun : M.run ls c = some c') :
    Lost a (view c') := by
  induction ls generalizing c with
  | nil => exact Option.some.inj hrun ▸ hc
  | cons l ls ih =>
    obtain ⟨d, hd, hrest⟩ := Option.bind_eq_some_iff.mp hrun
    obtain ⟨hbefore, hstays⟩ := (Machine.always_cons hd).mp hstays
    apply ih _ hstays hrest
    have hmove := hM l c d hd
    cases hm : move l c with
    | none =>
      rw [hm] at hmove
      exact hmove ▸ hc
    | some m =>
      rw [hm] at hmove
      exact hc.step hbefore hstays.head hmove

/-- In a run that walks to the end, an element that stays on the list all the time is visited
exactly once when no move skips it, and not at all otherwise. -/
theorem Walks.visited_once_iff (hM : Walks M view move) {ls : List L} {c c' : C}
    (hc : Regular a (view c)) (hstays : M.Always (fun c => a ∈ (view c).list) ls c)
    (hrun : M.run ls c = some c') (hend : (view c').list.length ≤ (view c').index) :
    (view c').visits a = 1 ↔
      M.Throughout (fun l c => ∀ m, move l c = some m → ¬ Skips a m (view c)) ls c := by
  induction ls generalizing c with
  | nil =>
    obtain rfl := Option.some.inj hrun
    have hcount := count_passed_of_end hc.nodup hstays.head hend
    exact iff_of_true (hc.counted.trans hcount) trivial
  | cons l ls ih =>
    obtain ⟨d, hd, hrest⟩ := Option.bind_eq_some_iff.mp hrun
    obtain ⟨hbefore, hstays⟩ := (Machine.always_cons hd).mp hstays
    rw [Machine.throughout_cons hd]
    have hmove := hM l c d hd
    -- a step of the machine that is no move of the walk is passed over
    cases hm : move l c with
    | none =>
      rw [hm] at hmove
      rw [ih (hmove ▸ hc) hstays hrest]
      exact (and_iff_right fun m h => by cases h).symm
    | some m =>
      rw [hm] at hmove
      by_cases hskip : Skips a m (view c)
      · -- from here on the element stays lost
        have hlost : Lost a (view c') :=
          hM.lost (hc.lost hbefore hstays.head hmove hskip) hstays hrest
        have hcount := count_passed_of_end hlost.nodup (hstays.last hrest) hend
        have hcounted := hlost.counted
        apply iff_of_false
        · unfold visits
          omega
        · exact fun h => h.1 m rfl hskip
      · rw [ih (hc.step hbefore hstays.head hmove hskip) hstays hrest]
        refine (and_iff_right fun m' hm' => ?_).symm
        rwa [← Option.some.inj hm']

end Run

end Walk

end AppendErase
