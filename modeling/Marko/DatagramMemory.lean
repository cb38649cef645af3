import Marko.DatagramTraffic

/-! A network in which one party keeps something in mind from one job to the next: some of its
jobs only start from what they name, and what a job returns says what becomes of it. -/
namespace Datagram

open Interaction (Machine)

variable {A K V J R M : Type}

/-- `reads job m` says whether the job can start with `m` in mind, and `writes job result m` is
what is in mind after it ended. -/
structure Memory (J R M : Type) where
  reads : J → M → Bool
  writes : J → R → M → M

namespace Memory

variable [DecidableEq A] (B : Memory J R M)

def admits : Event A K J R → M → Bool
  | .start job, m => B.reads job m
  | _, _ => true

def after : Event A K J R → M → M
  | .finished job result, m => B.writes job result m
  | _, m => m

variable [DecidableEq K] [DecidableEq J] [DecidableEq R]

def step (D : Deployment A K V J R) (P : Policy A) (i : A) :
    Label A K J R → Config A K V J R × M → Option (Config A K V J R × M)
  | .party j e, (c, m) =>
    if j = i then
      if B.admits e m then (Datagram.step D P (.party j e) c).map fun c' => (c', B.after e m)
      else none
    else (Datagram.step D P (.party j e) c).map fun c' => (c', m)
  | .transit t, (c, m) => (Datagram.step D P (.transit t) c).map fun c' => (c', m)

/-- The network with a party `i` that starts with `m₀` in mind. -/
def machine (D : Deployment A K V J R) (P : Policy A) (i : A) (m₀ : M) :
    Machine (Label A K J R) (Config A K V J R × M) where
  init := ((network D P).init, m₀)
  step := B.step D P i

variable {B} {D : Deployment A K V J R} {P : Policy A} {i : A} {m₀ : M}

/-- Every step is one of the network. The other parties and the network leave the memory alone. -/
theorem step_cases {l : Label A K J R} {s s' : Config A K V J R × M}
    (h : B.step D P i l s = some s') :
    Datagram.step D P l s.1 = some s'.1 ∧
      ((∃ e, l = .party i e ∧ B.admits e s.2 = true ∧ s'.2 = B.after e s.2) ∨
        (∀ e, l ≠ .party i e) ∧ s'.2 = s.2) := by
  obtain ⟨c, m⟩ := s
  cases l with
  | party j e =>
    by_cases hj : j = i
    · subst hj
      rw [step, if_pos rfl] at h
      obtain ⟨hadmits, h⟩ := Option.ite_none_right_eq_some.mp h
      obtain ⟨c', hc', rfl⟩ := Option.map_eq_some_iff.mp h
      exact ⟨hc', .inl ⟨e, rfl, hadmits, rfl⟩⟩
    · rw [step, if_neg hj] at h
      obtain ⟨c', hc', rfl⟩ := Option.map_eq_some_iff.mp h
      refine ⟨hc', .inr ⟨?_, rfl⟩⟩
      intro e' heq
      cases heq
      exact hj rfl
  | transit t =>
    obtain ⟨c', hc', rfl⟩ := Option.map_eq_some_iff.mp h
    refine ⟨hc', .inr ⟨?_, rfl⟩⟩
    intro e heq
    cases heq

/-- Without the memory, a run is a run of the network. -/
theorem network_run {ls : List (Label A K J R)} {s : Config A K V J R × M}
    (hrun : (B.machine D P i m₀).run ls (B.machine D P i m₀).init = some s) :
    (network D P).run ls (network D P).init = some s.1 := by
  refine (B.machine D P i m₀).run_history
    (I := fun ls s => (network D P).run ls (network D P).init = some s.1) rfl ?_ hrun
  intro ls l s s' ih hstep
  rw [Machine.run_concat, ih]
  exact (step_cases hstep).1

/-- A property of the party and its memory that its own events keep holds in every run. -/
theorem invariant {I : List (Event A K J R) → Activity A K V J R → M → Prop}
    (hinit : I [] .idle m₀)
    (hstep : ∀ es e x x' m, I es x m → e.possible P i = true → B.admits e m = true →
      x.next D i e = some x' → I (es ++ [e]) x' (B.after e m))
    {ls : List (Label A K J R)} {s : Config A K V J R × M}
    (hrun : (B.machine D P i m₀).run ls (B.machine D P i m₀).init = some s) :
    I (events i ls) (s.1.act i) s.2 := by
  refine (B.machine D P i m₀).run_history (I := fun ls s => I (events i ls) (s.1.act i) s.2)
    hinit ?_ hrun
  intro ls l s s' ih h
  obtain ⟨hnet, hmemory⟩ := step_cases h
  rcases hmemory with ⟨e, rfl, hadmits, hafter⟩ | ⟨hothers, hsame⟩
  · -- an event of the party itself
    rcases Datagram.step_cases hnet with ⟨j, e', x, N, heq, hx, hN, hs'⟩ | ⟨t, N, heq, -, -⟩
    · cases heq
      rw [events_party, if_pos rfl, hs', hafter]
      dsimp only
      rw [Function.update_self]
      exact hstep _ e _ x _ ih (Net.possible_of_effect hN) hadmits hx
    · cases heq
  · -- what anybody else does concerns neither the party nor its memory
    rw [hsame]
    rcases Datagram.step_cases hnet with ⟨j, e, x, N, rfl, hx, hN, hs'⟩ | ⟨t, N, rfl, hN, hs'⟩
    · have hj : j ≠ i := by
        rintro rfl
        exact hothers e rfl
      rw [events_party, if_neg hj, List.append_nil, hs']
      dsimp only
      rw [Function.update_of_ne (Ne.symm hj)]
      exact ih
    · rw [events_transit, hs']
      exact ih

end Memory

end Datagram
