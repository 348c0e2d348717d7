/-
# CatHub.Systems.FixedPoint — rounded scales, and arithmetic on words.

A scale is known by one observation and by its value at the top, where one of the two is rounded from the
other.  Off the observed level it shows its top in proportion, rounded to the nearest; `Meets` says that the
rounding does not carry it past the observation, so that it rises everywhere.

`Arithmetic` leaves open what a product or a sum does that does not fit into a word.  A program over it
that computes the same under every `Faithful` arithmetic never overflows: one of them is `checked`.
-/
import Mathlib.Order.Monotone.Defs
import Mathlib.Order.Interval.Set.Defs
import Mathlib.Algebra.Order.Group.Nat

namespace CatHub.Systems

/-! ## Division to the nearest -/

/-- The quotient rounded to the nearest number, halves up. -/
def roundDiv (n d : ℕ) : ℕ := (n + d / 2) / d

section
variable {n n' d k : ℕ}

theorem le_roundDiv_iff (pos : 0 < d) : k ≤ roundDiv n d ↔ k * d ≤ n + d / 2 :=
  Nat.le_div_iff_mul_le pos

theorem roundDiv_le_iff (pos : 0 < d) : roundDiv n d ≤ k ↔ n + d / 2 < (k + 1) * d := by
  rw [← Nat.lt_succ_iff]
  exact Nat.div_lt_iff_lt_mul pos

theorem roundDiv_mono (le : n ≤ n') : roundDiv n d ≤ roundDiv n' d :=
  Nat.div_le_div_right (Nat.add_le_add_right le _)

theorem roundDiv_mul_le : roundDiv n d * d ≤ n + d / 2 := Nat.div_mul_le_self _ _

theorem lt_roundDiv_mul (pos : 0 < d) : n + d / 2 < roundDiv n d * d + d := Nat.lt_div_mul_add pos

@[simp] theorem roundDiv_zero (pos : 0 < d) : roundDiv 0 d = 0 := by
  refine Nat.le_zero.mp ((roundDiv_le_iff pos).mpr ?_)
  omega

theorem roundDiv_mul_self (pos : 0 < d) : roundDiv (k * d) d = k := by
  refine le_antisymm ((roundDiv_le_iff pos).mpr ?_) ((le_roundDiv_iff pos).mpr (Nat.le_add_right _ _))
  rw [Nat.succ_mul]
  omega

end

/-! ## A scale and an observation -/

/-- The scale with `full` at the top does not pass the observation of `value` at `level`. -/
structure Meets (scale full level value : ℕ) : Prop where
  /-- At the observed level it shows at most half a unit too much. -/
  below : 2 * (full * level) ≤ (2 * value + 1) * scale
  /-- One level up it has come up with the value. -/
  above : level < scale → value * scale ≤ full * (level + 1) + scale / 2

/-- The scale, with what was observed at the level where that was. -/
def reading (scale full level value : ℕ) : ℕ → ℕ :=
  Function.update (fun l => roundDiv (full * l) scale) level value

section
variable {scale full level value l : ℕ}

@[simp] theorem reading_level : reading scale full level value level = value :=
  Function.update_self ..

theorem reading_of_ne (ne : l ≠ level) : reading scale full level value l = roundDiv (full * l) scale :=
  Function.update_of_ne ne ..

/-- Rounding is monotone, so the scale stays below its top. -/
theorem roundDiv_le_full (pos : 0 < scale) (le : l ≤ scale) : roundDiv (full * l) scale ≤ full :=
  calc roundDiv (full * l) scale
      ≤ roundDiv (full * scale) scale := roundDiv_mono (Nat.mul_le_mul_left full le)
    _ = full := roundDiv_mul_self pos

namespace Meets

theorem roundDiv_le (meets : Meets scale full level value) (pos : 0 < scale) (lt : l < level) :
    roundDiv (full * l) scale ≤ value := by
  rcases Nat.eq_zero_or_pos full with rfl | full_pos
  · simp [pos]
  · -- one level down the scale shows `full` of its parts less
    have step : full * l + full ≤ full * level := by
      rw [← Nat.mul_succ]
      exact Nat.mul_le_mul_left full lt
    have below := meets.below
    rw [Nat.add_mul, Nat.one_mul, Nat.mul_assoc] at below
    rw [roundDiv_le_iff pos, Nat.add_mul, Nat.one_mul]
    omega

theorem le_roundDiv (meets : Meets scale full level value) (lt : level < l) (le : l ≤ scale) :
    value ≤ roundDiv (full * l) scale := by
  rw [le_roundDiv_iff (by omega)]
  calc value * scale
      ≤ full * (level + 1) + scale / 2 := meets.above (lt.trans_le le)
    _ ≤ full * l + scale / 2 := Nat.add_le_add_right (Nat.mul_le_mul_left full lt) _

/-- A scale that meets the observation rises. -/
theorem monotoneOn (meets : Meets scale full level value) (pos : 0 < scale) :
    MonotoneOn (reading scale full level value) (Set.Iic scale) := by
  intro l _ l' in_scale le
  by_cases here : l = level
  · subst here
    rw [reading_level]
    rcases le.eq_or_lt with rfl | lt
    · rw [reading_level]
    · rw [reading_of_ne lt.ne']
      exact meets.le_roundDiv lt in_scale
  · rw [reading_of_ne here]
    by_cases there : l' = level
    · subst there
      rw [reading_level]
      exact meets.roundDiv_le pos (lt_of_le_of_ne le here)
    · rw [reading_of_ne there]
      exact roundDiv_mono (Nat.mul_le_mul_left full le)

end Meets

/-- The level is cut off from the top. -/
theorem meets_floor (pos : 0 < full) : Meets scale full (min (value * scale / full) scale) value where
  below := by
    have exact_ : full * (value * scale / full) ≤ value * scale := Nat.mul_div_le _ _
    have cut := Nat.mul_le_mul_left full (min_le_left (value * scale / full) scale)
    rw [Nat.add_mul, Nat.mul_assoc]
    omega
  above lt := by
    have whole : min (value * scale / full) scale = value * scale / full := by omega
    rw [whole]
    exact (Nat.lt_mul_div_succ (value * scale) pos).le.trans (Nat.le_add_right _ _)

/-- The top is rounded from the level. -/
theorem meets_round (pos : 0 < level) (le : level ≤ scale) :
    Meets scale (roundDiv (value * scale) level) level value where
  below := by
    have most := @roundDiv_mul_le (value * scale) level
    rw [Nat.add_mul, Nat.mul_assoc]
    omega
  above lt := by
    have least := @lt_roundDiv_mul (value * scale) level pos
    rw [Nat.mul_succ]
    omega

end

/-! ## Words -/

/-- Products and sums of words; `m` says what becomes of one that does not fit. -/
structure Arithmetic (m : Type → Type) where
  mul : ℕ → ℕ → m ℕ
  add : ℕ → ℕ → m ℕ

namespace Arithmetic

/-- What fits is computed as it is. -/
structure Faithful {m : Type → Type} [Monad m] (limit : ℕ) (word : Arithmetic m) : Prop where
  mul : ∀ {x y}, x * y < limit → word.mul x y = pure (x * y)
  add : ∀ {x y}, x + y < limit → word.add x y = pure (x + y)

/-- What does not fit becomes the largest word. -/
def saturating (limit : ℕ) : Arithmetic Id where
  mul x y := pure (min (x * y) (limit - 1))
  add x y := pure (min (x + y) (limit - 1))

/-- What does not fit ends the computation. -/
def checked (limit : ℕ) : Arithmetic Option where
  mul x y := if x * y < limit then some (x * y) else none
  add x y := if x + y < limit then some (x + y) else none

theorem faithful_saturating (limit : ℕ) : (saturating limit).Faithful limit where
  mul fits := congrArg pure (Nat.min_eq_left (Nat.le_pred_of_lt fits))
  add fits := congrArg pure (Nat.min_eq_left (Nat.le_pred_of_lt fits))

theorem faithful_checked (limit : ℕ) : (checked limit).Faithful limit where
  mul fits := if_pos fits
  add fits := if_pos fits

end Arithmetic

end CatHub.Systems
