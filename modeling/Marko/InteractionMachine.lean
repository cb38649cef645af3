import Mathlib.Data.List.Induction
import Mathlib.Data.List.Basic

/-! Labelled machines. A label resolves every choice of one step, so a run is a list
of labels and can be computed. -/
namespace Interaction

structure Machine (L C : Type) where
  init : C
  step : L → C → Option C

namespace Machine

variable {L C D : Type}

/-- Perform the labelled steps in order; `none` when one of them is not enabled. -/
def run (M : Machine L C) : List L → C → Option C
  | [], c => some c
  | l :: ls, c => (M.step l c).bind (M.run ls)

def Reachable (M : Machine L C) (c : C) : Prop := ∃ ls, M.run ls M.init = some c

/-- A run that keeps an invariant, when the invariant may speak of the number of steps. -/
theorem run_counted {M : Machine L C} {I : ℕ → C → Prop}
    (hstep : ∀ n l c c', I n c → M.step l c = some c' → I (n + 1) c') (ls : List L) (n : ℕ)
    (c c' : C) (hc : I n c) (hrun : M.run ls c = some c') : I (n + ls.length) c' := by
  induction ls generalizing n c with
  | nil => exact Option.some.inj hrun ▸ hc
  | cons l ls ih =>
    obtain ⟨d, hd, hrest⟩ := Option.bind_eq_some_iff.mp hrun
    have hnext := ih (n + 1) d (hstep n l c d hc hd) hrest
    rwa [List.length_cons, Nat.add_comm ls.length 1, ← Nat.add_assoc]

theorem run_invariant {M : Machine L C} {I : C → Prop}
    (hstep : ∀ l c c', I c → M.step l c = some c' → I c') (ls : List L) (c c' : C)
    (hc : I c) (hrun : M.run ls c = some c') : I c' :=
  run_counted (I := fun _ => I) (fun _ => hstep) ls 0 c c' hc hrun

/-- Forward simulation: when every step of `M` from a related state is matched by a step
of the relation `T`, an invariant of `T` carries over to the runs of `M`. -/
theorem counted_of_simulation {M : Machine L C} (view : D → C) (T : D → D → Prop)
    (I : ℕ → D → Prop) {d₀ : D} (hview : view d₀ = M.init) (hinit : I 0 d₀)
    (hsim : ∀ l d c', M.step l (view d) = some c' → ∃ d', T d d' ∧ view d' = c')
    (hstep : ∀ n d d', I n d → T d d' → I (n + 1) d') {ls : List L} {c : C}
    (hrun : M.run ls M.init = some c) : ∃ d, view d = c ∧ I ls.length d := by
  have hkeep : ∀ n l c c', (∃ d, view d = c ∧ I n d) → M.step l c = some c' →
      ∃ d, view d = c' ∧ I (n + 1) d := by
    rintro n l _ c' ⟨d, rfl, hd⟩ hl
    obtain ⟨d', hT, rfl⟩ := hsim l d c' hl
    exact ⟨d', rfl, hstep n d d' hd hT⟩
  have hend := run_counted hkeep ls 0 M.init c ⟨d₀, hview, hinit⟩ hrun
  rwa [Nat.zero_add] at hend

theorem run_append {M : Machine L C} (ls ks : List L) (c : C) :
    M.run (ls ++ ks) c = (M.run ls c).bind (M.run ks) := by
  induction ls generalizing c with
  | nil => rfl
  | cons l ls ih =>
    rw [List.cons_append, run, run, Option.bind_assoc]
    exact Option.bind_congr fun d _ => ih d

theorem run_concat {M : Machine L C} (ls : List L) (l : L) (c : C) :
    M.run (ls ++ [l]) c = (M.run ls c).bind (M.step l) := by
  rw [run_append]
  exact Option.bind_congr fun d _ => Option.bind_fun_some _

/-- An invariant that may speak of the steps taken so far. -/
theorem run_history {M : Machine L C} {I : List L → C → Prop} (hinit : I [] M.init)
    (hstep : ∀ ls l c c', I ls c → M.step l c = some c' → I (ls ++ [l]) c') {ls : List L} {c : C}
    (hrun : M.run ls M.init = some c) : I ls c := by
  -- the induction takes the last step off the run
  induction ls using List.reverseRecOn generalizing c with
  | nil => exact Option.some.inj hrun ▸ hinit
  | append_singleton ls l ih =>
    rw [run_concat] at hrun
    obtain ⟨d, hd, hlast⟩ := Option.bind_eq_some_iff.mp hrun
    exact hstep ls l d c (ih hd) hlast

/-! Properties of a run along its states. A step that is not enabled ends the run. -/

/-- `P` holds in every state that the run from `c` visits. -/
def Always (M : Machine L C) (P : C → Prop) : List L → C → Prop
  | [], c => P c
  | l :: ls, c => P c ∧ ∀ c', M.step l c = some c' → M.Always P ls c'

/-- Every step that the run from `c` takes meets the condition `Q` on its label and the state
before it. -/
def Throughout (M : Machine L C) (Q : L → C → Prop) : List L → C → Prop
  | [], _ => True
  | l :: ls, c => ∀ c', M.step l c = some c' → Q l c ∧ M.Throughout Q ls c'

theorem always_nil {M : Machine L C} {P : C → Prop} {c : C} : M.Always P [] c ↔ P c := Iff.rfl

theorem always_cons {M : Machine L C} {P : C → Prop} {l : L} {ls : List L} {c c' : C}
    (hstep : M.step l c = some c') : M.Always P (l :: ls) c ↔ P c ∧ M.Always P ls c' := by
  simp only [Always, hstep, Option.some.injEq, forall_eq']

theorem throughout_cons {M : Machine L C} {Q : L → C → Prop} {l : L} {ls : List L} {c c' : C}
    (hstep : M.step l c = some c') :
    M.Throughout Q (l :: ls) c ↔ Q l c ∧ M.Throughout Q ls c' := by
  simp only [Throughout, hstep, Option.some.injEq, forall_eq']

theorem Always.head {M : Machine L C} {P : C → Prop} {ls : List L} {c : C}
    (h : M.Always P ls c) : P c := by
  cases ls with
  | nil => exact h
  | cons l ls => exact h.1

theorem Always.last {M : Machine L C} {P : C → Prop} {ls : List L} {c d : C}
    (h : M.Always P ls c) (hrun : M.run ls c = some d) : P d := by
  induction ls generalizing c with
  | nil => exact Option.some.inj hrun ▸ h
  | cons l ls ih =>
    obtain ⟨c', hstep, hrest⟩ := Option.bind_eq_some_iff.mp hrun
    exact ih (h.2 c' hstep) hrest

/-- When an invariant `I` is kept exactly by the steps that meet `Q`, and every other step
breaks `P` at once, then `P` always holds exactly in the runs whose steps all meet `Q`. -/
theorem always_iff_throughout {M : Machine L C} {P I : C → Prop} {Q : L → C → Prop}
    (hgood : ∀ c, I c → P c)
    (hkeep : ∀ l c c', I c → M.step l c = some c' → Q l c → I c')
    (hbreak : ∀ l c c', I c → M.step l c = some c' → P c' → Q l c)
    (ls : List L) {c : C} (hc : I c) : M.Always P ls c ↔ M.Throughout Q ls c := by
  induction ls generalizing c with
  | nil => exact iff_of_true (hgood c hc) trivial
  | cons l ls ih =>
    constructor
    · rintro ⟨-, hrest⟩ c' hstep
      have hQ : Q l c := hbreak l c c' hc hstep (hrest c' hstep).head
      exact ⟨hQ, (ih (hkeep l c c' hc hstep hQ)).mp (hrest c' hstep)⟩
    · intro h
      refine ⟨hgood c hc, fun c' hstep => ?_⟩
      obtain ⟨hQ, hrest⟩ := h c' hstep
      exact (ih (hkeep l c c' hc hstep hQ)).mpr hrest

/-- Two conditions on steps that mean the same wherever an invariant holds. -/
theorem throughout_congr {M : Machine L C} {I : C → Prop} {Q Q' : L → C → Prop}
    (hkeep : ∀ l c c', I c → M.step l c = some c' → I c')
    (hiff : ∀ l c, I c → (Q l c ↔ Q' l c)) (ls : List L) {c : C} (hc : I c) :
    M.Throughout Q ls c ↔ M.Throughout Q' ls c := by
  induction ls generalizing c with
  | nil => exact Iff.rfl
  | cons l ls ih =>
    unfold Throughout
    apply forall_congr'
    intro c'
    apply imp_congr_right
    intro hstep
    rw [hiff l c hc, ih (hkeep l c c' hc hstep)]

end Machine

end Interaction
