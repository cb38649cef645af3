import Mathlib.Tactic.Linarith
import Marko.MarkoDescriptor

/-! The receive timeout that `settimeout` asks the kernel for. -/
namespace Marko

open Descriptor Interaction

structure Denotes (tv : Timeval) (t : Long) : Prop where
  normalised : 0 ≤ tv.tvUsec ∧ tv.tvUsec < 1000000
  duration : tv.tvSec * 1000000 + tv.tvUsec = 1000 * t.val

/-- Without undefined behaviour on the way, `settimeout` makes the one call that passes `tv`
to `SO_RCVTIMEO`, and reports whether the kernel took it. -/
def Passes (size : ℕ) (s : Socket) (t : Long) (tv : Timeval) : Prop :=
  (s.settimeout t : PartialProg size Bool).run =
    .call (.setRcvTimeo s.socketFd tv) fun err => .done (some (if err = 0 then true else false))

/-- What `get_time` computes, with no overflow on the way: whole seconds, and the remaining
milliseconds as they are. -/
theorem getTime_eq (t : Long) : getTime t = some ⟨t.val.tdiv 1000, t.val.tmod 1000⟩ := by
  have hpos : 0 < Long.thousand.val := by decide
  -- `% 1000` is applied to a remainder by 1000
  have hmod : (t.val.tmod 1000).tmod 1000 = t.val.tmod 1000 := Int.tmod_tmod _ _
  unfold getTime
  simp only [Option.bind_eq_bind]
  -- every operation of the computation stays in range
  rw [Signed.div_of_pos hpos, Option.bind_some, Signed.mul_tdiv hpos, Option.bind_some,
    Signed.sub_tdiv_mul hpos, Option.bind_some, Signed.mod_of_pos hpos]
  show some (Timeval.mk (t.val.tdiv 1000) ((t.val.tmod 1000).tmod 1000)) = _
  rw [hmod]

theorem passes_getTime (size : ℕ) (s : Socket) (t : Long) :
    Passes size s t ⟨t.val.tdiv 1000, t.val.tmod 1000⟩ := by
  unfold Passes Socket.settimeout
  rw [getTime_eq]
  rfl

theorem eq_of_passes {size : ℕ} {s : Socket} {t : Long} {tv : Timeval}
    (h : Passes size s t tv) : tv = ⟨t.val.tdiv 1000, t.val.tmod 1000⟩ := by
  have hpass := passes_getTime size s t
  unfold Passes at h hpass
  rw [h] at hpass
  injection hpass with hcall
  injection hcall

/-- The remainder in milliseconds is passed as if it were microseconds, so what is missing
from the requested duration is 999 times the remainder. -/
theorem duration_getTime (t : Long) :
    t.val.tdiv 1000 * 1000000 + t.val.tmod 1000 = 1000 * t.val - 999 * t.val.tmod 1000 := by
  have hsum : 1000 * t.val.tdiv 1000 + t.val.tmod 1000 = t.val := Int.mul_tdiv_add_tmod _ _
  omega

/-- The conversion is exact on whole seconds and on nothing else. -/
theorem settimeout_exact_iff (size : ℕ) (s : Socket) (t : Long) :
    (∃ tv, Passes size s t tv ∧ Denotes tv t) ↔ 1000 ∣ t.val := by
  have hdiv : 1000 ∣ t.val ↔ t.val.tmod 1000 = 0 := Int.dvd_iff_tmod_eq_zero
  have hdur := duration_getTime t
  rw [hdiv]
  constructor
  · rintro ⟨tv, hpass, hden⟩
    have hexact : tv.tvSec * 1000000 + tv.tvUsec = 1000 * t.val := hden.duration
    rw [eq_of_passes hpass, hdur] at hexact
    -- the duration can only be right when nothing is missing
    have hmissing : 999 * t.val.tmod 1000 = 0 := by linarith
    exact (mul_eq_zero.mp hmissing).resolve_left (by decide)
  · intro hrem
    refine ⟨_, passes_getTime size s t, ⟨?_, ?_⟩⟩
    · show 0 ≤ t.val.tmod 1000 ∧ t.val.tmod 1000 < 1000000
      rw [hrem]
      omega
    · show t.val.tdiv 1000 * 1000000 + t.val.tmod 1000 = 1000 * t.val
      rw [hdur, hrem]
      omega

/-- A second and a half becomes a second and half a millisecond. -/
theorem settimeout_cuts_half_second :
    ¬ ∃ tv, Passes 1024 ⟨3⟩ ⟨1500, by decide⟩ tv ∧ Denotes tv ⟨1500, by decide⟩ := by
  rintro ⟨tv, hpass, hden⟩
  have hexact : tv.tvSec * 1000000 + tv.tvUsec = 1000 * 1500 := hden.duration
  rw [eq_of_passes hpass] at hexact
  exact absurd hexact (by decide)

end Marko
