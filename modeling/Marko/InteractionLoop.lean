import Marko.InteractionProgram

/-! While loops between external calls. A round either goes on with new values of the loop's
variables or leaves the loop with a result. -/
namespace Interaction.Program

variable {S : Signature} {α β σ : Type}

/-- At most `fuel` rounds, with no result when they did not suffice. -/
def loop (round : α → Program S (α ⊕ β)) : ℕ → α → Program S (Option β)
  | 0, _ => done none
  | fuel + 1, a => do
    match ← round a with
    | .inl a' => loop round fuel a'
    | .inr b => pure (some b)

variable {h : Handler S σ} {round : α → Program S (α ⊕ β)} {a a' : α} {s s' : σ} {b : β}

/-- The loop ends with `b`, in as many rounds as it takes. -/
def Returns (h : Handler S σ) (round : α → Program S (α ⊕ β)) (a : α) (s : σ) (b : β)
    (s' : σ) : Prop :=
  ∃ fuel, (loop round fuel a).exec h s = (some b, s')

theorem exec_loop_goes_on (fuel : ℕ) (hround : (round a).exec h s = (.inl a', s')) :
    (loop round (fuel + 1) a).exec h s = (loop round fuel a').exec h s' := by
  rw [loop, exec_bind, hround]

theorem exec_loop_leaves (fuel : ℕ) (hround : (round a).exec h s = (.inr b, s')) :
    (loop round (fuel + 1) a).exec h s = (some b, s') := by
  rw [loop, exec_bind, hround]
  rfl

theorem Returns.of_goes_on (hround : (round a).exec h s = (.inl a', s')) {s'' : σ}
    (hret : Returns h round a' s' b s'') : Returns h round a s b s'' := by
  obtain ⟨fuel, hloop⟩ := hret
  exact ⟨fuel + 1, (exec_loop_goes_on fuel hround).trans hloop⟩

theorem Returns.of_leaves (hround : (round a).exec h s = (.inr b, s')) :
    Returns h round a s b s' :=
  ⟨1, exec_loop_leaves 0 hround⟩

/-- Partial correctness: what every round keeps until one leaves the loop with `Q`. -/
theorem Returns.of_invariant {I : α → σ → Prop} {Q : β → σ → Prop}
    (hon : ∀ a s a' s', I a s → (round a).exec h s = (.inl a', s') → I a' s')
    (hleave : ∀ a s b s', I a s → (round a).exec h s = (.inr b, s') → Q b s')
    (hret : Returns h round a s b s') (hI : I a s) : Q b s' := by
  obtain ⟨fuel, hloop⟩ := hret
  -- the fuel counts the rounds that are still to come
  induction fuel generalizing a s with
  | zero => cases hloop
  | succ fuel ih =>
    cases hround : (round a).exec h s with
    | mk next t =>
      cases next with
      | inl a' =>
        rw [exec_loop_goes_on fuel hround] at hloop
        exact ih (hon a s a' t hI hround) hloop
      | inr b' =>
        rw [exec_loop_leaves fuel hround] at hloop
        obtain ⟨hb, rfl⟩ := Prod.mk.inj hloop
        rw [← Option.some.inj hb]
        exact hleave a s b' t hI hround

/-- Termination: a variant that every round lowers unless it leaves the loop. -/
theorem returns_of_variant {I : α → σ → Prop} (variant : α → σ → ℕ)
    (hon : ∀ a s a' s', I a s → (round a).exec h s = (.inl a', s') →
      I a' s' ∧ variant a' s' < variant a s) (hI : I a s) :
    ∃ b s', Returns h round a s b s' := by
  induction hn : variant a s using Nat.strongRecOn generalizing a s with
  | ind n ih =>
    cases hround : (round a).exec h s with
    | mk next t =>
      cases next with
      | inl a' =>
        obtain ⟨hnext, hlt⟩ := hon a s a' t hI hround
        rw [hn] at hlt
        obtain ⟨b, s', hret⟩ := ih _ hlt hnext rfl
        exact ⟨b, s', hret.of_goes_on hround⟩
      | inr b => exact ⟨b, t, .of_leaves hround⟩

end Interaction.Program
