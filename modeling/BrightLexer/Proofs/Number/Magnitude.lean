import BrightLexer.Number.Binary
import Mathlib.Algebra.Order.Field.Power
import Mathlib.Order.Monotone.Basic
import Mathlib.Tactic.Linarith
import Mathlib.Tactic.Ring

/-!
# The values of magnitudes

`Format.valueOf` is the number that a magnitude stands for. It is defined on all magnitudes, so that
infinity stands for the power of two at which the format ends, and the ones behind it go on from there.
Magnitudes come in blocks that share an exponent, and in a block the value is a multiple of one unit
(`Format.valueOf_block`); the end of a block and the start of the next one agree. So the value grows with
the magnitude everywhere (`Format.strictMono_valueOf`).

A magnitude is the rounding of a number (`Format.Rounds`) if no other one is nearer, and if it is even
where another one is as near. Whether it is finite can be told from the number alone: it is one below the
middle between the largest finite magnitude and infinity (`Format.Rounds.lt_infinity_iff`).
-/

namespace BrightLexer

namespace Format

/-- A format with room for a fraction and for an exponent. -/
structure Regular (F : Format) : Prop where
  /-- A significand has two binary digits or more. -/
  precision : 2 ≤ F.precision
  /-- So has an exponent field. -/
  exponentWidth : 2 ≤ F.exponentWidth

/-- The narrow format is regular. -/
theorem regular_binary32 : binary32.Regular := ⟨by decide, by decide⟩

/-- The wide format is regular. -/
theorem regular_binary64 : binary64.Regular := ⟨by decide, by decide⟩

/-- The number that a magnitude stands for, as if there were no largest one. -/
def valueOf (F : Format) (m : Nat) : ℚ := F.significand m * 2 ^ F.exponent m

/-- The middle between the largest finite value and the power of two at which the format ends. -/
def overflow (F : Format) : ℚ := 2 ^ F.limit - 2 ^ ((F.limit : Int) - F.precision - 1)

section
variable {F : Format} {k m s : Nat} {x : ℚ}

/-- There are magnitudes in a step. -/
theorem step_pos (F : Format) : 0 < F.step := Nat.pow_pos (by decide)

/-- Two steps are as many magnitudes as there are significands. -/
theorem Regular.two_mul_step (hF : F.Regular) : 2 * F.step = 2 ^ F.precision := by
  have hp := hF.precision
  change 2 * 2 ^ (F.precision - 1) = 2 ^ F.precision
  rw [← Nat.pow_succ', Nat.succ_eq_add_one, Nat.sub_add_cancel (by omega)]

/-- Two steps are a power of two, as rational numbers. -/
theorem Regular.cast_two_mul_step (hF : F.Regular) : (2 * F.step : ℚ) = 2 ^ (F.precision : Int) := by
  exact_mod_cast hF.two_mul_step

/-- A step is even. -/
theorem Regular.two_dvd_step (hF : F.Regular) : 2 ∣ F.step := by
  have hp := hF.precision
  exact Dvd.intro_left _ (Nat.pow_pred_mul (by omega : 0 < F.precision - 1))

/-! ## Blocks -/

/-- Before the end of a block, the `s`-th magnitude has the significand `s` and the exponent of the
block. -/
theorem fields_block (hs : s < 2 * F.step) (hk : k = 0 ∨ F.step ≤ s) :
    F.significand (k * F.step + s) = s ∧ F.exponent (k * F.step + s) = F.leastExponent + k := by
  have hpos := F.step_pos
  rcases Nat.lt_or_ge s F.step with hlow | hlow
  · obtain rfl : k = 0 := by omega
    have hdiv : s / F.step = 0 := Nat.div_eq_of_lt hlow
    simp [significand, exponent, hdiv]
  have hdiv : (k * F.step + s) / F.step = k + 1 := by
    rw [Nat.add_comm, Nat.add_mul_div_right _ _ hpos, Nat.add_comm]
    congr 1
    exact Nat.div_eq_of_lt_le (by omega) (by omega)
  have hmod : (k * F.step + s) % F.step = s - F.step := by
    rw [Nat.add_comm, Nat.add_mul_mod_self_right, Nat.mod_eq_sub_mod hlow,
      Nat.mod_eq_of_lt (by omega)]
  constructor
  · rw [significand, hdiv, hmod]
    split
    · next hle =>
      obtain rfl : k = 0 := by omega
      omega
    · omega
  · rw [exponent, hdiv, Nat.add_sub_cancel]

/-- The value of the `s`-th magnitude of a block is `s` units. The first block goes on to its start at
zero, and each block goes up to its end, where the next one starts. -/
theorem valueOf_block (hs : s ≤ 2 * F.step) (hk : k = 0 ∨ F.step ≤ s) :
    F.valueOf (k * F.step + s) = s * 2 ^ (F.leastExponent + k) := by
  have hpos := F.step_pos
  rcases Nat.lt_or_eq_of_le hs with hhigh | rfl
  · obtain ⟨hsig, hexp⟩ := fields_block hhigh hk
    rw [valueOf, hsig, hexp]
  · have hdiv : (k * F.step + 2 * F.step) / F.step = k + 2 := by
      rw [← Nat.add_mul, Nat.mul_div_cancel _ hpos]
    have hsig : F.significand (k * F.step + 2 * F.step) = F.step := by
      rw [significand, hdiv, if_neg (by omega), ← Nat.add_mul, Nat.mul_mod_left, Nat.add_zero]
    have hexp : F.exponent (k * F.step + 2 * F.step) = F.leastExponent + k + 1 := by
      rw [exponent, hdiv]
      omega
    rw [valueOf, hsig, hexp, zpow_add_one₀ (by norm_num)]
    push_cast
    ring

/-- Every magnitude lies in a block, before its end. -/
theorem exists_block (F : Format) (m : Nat) :
    ∃ k s, m = k * F.step + s ∧ s < 2 * F.step ∧ (k = 0 ∨ F.step ≤ s) := by
  have hpos := F.step_pos
  have hdiv := Nat.div_add_mod' m F.step
  have hmod := Nat.mod_lt m hpos
  cases hk : m / F.step with
  | zero => exact ⟨0, m, by omega, by rw [hk] at hdiv; omega, .inl rfl⟩
  | succ k =>
    rw [hk, Nat.succ_mul] at hdiv
    exact ⟨k, F.step + m % F.step, by omega, by omega, .inr (by omega)⟩

/-- Behind a magnitude before the end of its block, the value is one unit larger. -/
theorem valueOf_succ (hs : s < 2 * F.step) (hk : k = 0 ∨ F.step ≤ s) :
    F.valueOf (k * F.step + s + 1) =
      F.valueOf (k * F.step + s) + 2 ^ (F.leastExponent + k) := by
  rw [Nat.add_assoc, valueOf_block (Nat.le_of_lt hs) hk, valueOf_block hs (hk.imp_right Nat.le_succ_of_le)]
  push_cast
  ring

/-- The value grows with the magnitude. -/
theorem strictMono_valueOf (F : Format) : StrictMono F.valueOf := by
  refine strictMono_nat_of_lt_succ fun m => ?_
  obtain ⟨k, s, rfl, hs, hk⟩ := F.exists_block m
  rw [valueOf_succ hs hk]
  exact lt_add_of_pos_right _ (zpow_pos (by norm_num) _)

/-- The least magnitude is zero. -/
theorem valueOf_zero (F : Format) : F.valueOf 0 = 0 := by
  simp [valueOf, significand]

/-- The magnitude behind zero is the least power of two. -/
theorem valueOf_one (F : Format) : F.valueOf 1 = 2 ^ F.leastExponent := by
  have h := @valueOf_block F 0 1 (by have := F.step_pos; omega) (.inl rfl)
  simpa using h

/-- No magnitude is negative. -/
theorem valueOf_nonneg (F : Format) (m : Nat) : 0 ≤ F.valueOf m := by
  rw [← F.valueOf_zero]
  exact F.strictMono_valueOf.monotone (Nat.zero_le m)

/-- A significand is even where its magnitude is. -/
theorem Regular.significand_mod_two (hF : F.Regular) (m : Nat) : F.significand m % 2 = m % 2 := by
  rw [significand]
  split
  · rfl
  · have hstep := Nat.mod_eq_zero_of_dvd hF.two_dvd_step
    have hmod := Nat.mod_mod_of_dvd m hF.two_dvd_step
    omega

/-! ## Infinity -/

/-- Infinity is the end of a block. -/
theorem Regular.infinity_eq (hF : F.Regular) :
    F.infinity = (2 ^ F.exponentWidth - 3) * F.step + 2 * F.step := by
  have hw : 2 ^ 2 ≤ 2 ^ F.exponentWidth := Nat.pow_le_pow_right (by decide) hF.exponentWidth
  rw [← Nat.add_mul]
  change (2 ^ F.exponentWidth - 1) * F.step = _
  congr 1
  omega

/-- The least exponent is negative. -/
theorem Regular.leastExponent_neg (hF : F.Regular) : F.leastExponent < 0 := by
  have hp := hF.precision
  have hw : 2 ^ 1 ≤ 2 ^ (F.exponentWidth - 1) :=
    Nat.pow_le_pow_right (by decide) (Nat.le_sub_one_of_lt hF.exponentWidth)
  change 3 - ((2 ^ (F.exponentWidth - 1) : Nat) : Int) - F.precision < 0
  omega

/-- The exponent of the block before infinity. -/
theorem Regular.leastExponent_add (hF : F.Regular) :
    F.leastExponent + ((2 ^ F.exponentWidth - 3 : Nat) : Int) = F.limit - F.precision := by
  have hw : 2 ^ 2 ≤ 2 ^ F.exponentWidth := Nat.pow_le_pow_right (by decide) hF.exponentWidth
  have hlimit : 2 ^ F.exponentWidth = 2 * F.limit :=
    (Nat.mul_comm ..).trans (Nat.pow_pred_mul (by have := hF.exponentWidth; omega)) |>.symm
  change 3 - (F.limit : Int) - F.precision + _ = _
  omega

/-- The values at the end of the finite magnitudes are multiples of one unit. -/
theorem Regular.valueOf_end (hF : F.Regular) (hs : s ≤ 2 * F.step) (hlow : F.step ≤ s) :
    F.valueOf ((2 ^ F.exponentWidth - 3) * F.step + s) =
      s * 2 ^ ((F.limit : Int) - F.precision) := by
  rw [valueOf_block hs (.inr hlow), hF.leastExponent_add]

/-- The middle between the largest finite value and infinity is where numbers are too large. -/
theorem Regular.two_mul_overflow (hF : F.Regular) :
    2 * F.overflow = F.valueOf (F.infinity - 1) + F.valueOf F.infinity := by
  have hpos := F.step_pos
  have hpred : F.infinity - 1 = (2 ^ F.exponentWidth - 3) * F.step + (2 * F.step - 1) := by
    rw [hF.infinity_eq]
    omega
  have hunits : (2 * F.step : ℚ) * 2 ^ ((F.limit : Int) - F.precision) = 2 ^ F.limit := by
    rw [hF.cast_two_mul_step, ← zpow_add₀ (by norm_num), ← zpow_natCast]
    congr 1
    omega
  have hhalf : (2 : ℚ) * 2 ^ ((F.limit : Int) - F.precision - 1) = 2 ^ ((F.limit : Int) - F.precision) := by
    rw [← zpow_one_add₀ (by norm_num)]
    congr 1
    omega
  rw [hpred, hF.valueOf_end (by omega) (by omega), hF.infinity_eq, hF.valueOf_end (by omega) (by omega),
    Nat.cast_sub (by omega), overflow]
  push_cast
  linarith

/-- Zero is finite, and not the largest finite magnitude. -/
theorem Regular.one_lt_infinity (hF : F.Regular) : 1 < F.infinity := by
  have hpos := F.step_pos
  rw [hF.infinity_eq]
  omega

/-- The largest finite magnitude is odd. -/
theorem Regular.infinity_pred_odd (hF : F.Regular) : (F.infinity - 1) % 2 = 1 := by
  have hpos := F.step_pos
  obtain ⟨half, hhalf⟩ := hF.two_dvd_step
  have heven : (2 ^ F.exponentWidth - 3) * F.step = 2 * ((2 ^ F.exponentWidth - 3) * half) := by
    rw [hhalf, Nat.mul_left_comm]
  rw [hF.infinity_eq, heven]
  omega

/-! ## Rounding -/

/-- The magnitude `m` is the rounding of `x`: it is on the near side of every middle between its value and
another one, and it is even if `x` is such a middle. -/
structure Rounds (F : Format) (m : Nat) (x : ℚ) : Prop where
  below : ∀ j < m, F.valueOf j + F.valueOf m ≤ 2 * x
  above : ∀ j > m, 2 * x ≤ F.valueOf m + F.valueOf j
  even : ∀ j ≠ m, F.valueOf j + F.valueOf m = 2 * x → m % 2 = 0

/-- It is enough to look at the two neighbours. -/
theorem Rounds.of_neighbours
    (below : ∀ j, m = j + 1 → F.valueOf j + F.valueOf m ≤ 2 * x)
    (above : 2 * x ≤ F.valueOf m + F.valueOf (m + 1))
    (even : ∀ j, m = j + 1 ∨ j = m + 1 → F.valueOf j + F.valueOf m = 2 * x → m % 2 = 0) :
    F.Rounds m x := by
  have hmono := F.strictMono_valueOf
  refine ⟨fun j hj => ?_, fun j hj => ?_, fun j hj heq => ?_⟩
  · have hle := hmono.monotone (Nat.le_sub_one_of_lt hj)
    linarith [below (m - 1) (by omega)]
  · linarith [hmono.monotone (Nat.succ_le_of_lt hj)]
  · rcases Nat.lt_or_gt_of_ne hj with hlt | hgt
    · -- A middle farther down lies below the near one.
      have hle := hmono.monotone (Nat.le_sub_one_of_lt hlt)
      exact even (m - 1) (.inl (by omega)) (by linarith [below (m - 1) (by omega)])
    · have hle := hmono.monotone (Nat.succ_le_of_lt hgt)
      exact even (m + 1) (.inr rfl) (by linarith)

/-- A number that lies below half of the least value rounds to zero. -/
theorem rounds_zero (h : 2 * x < F.valueOf 1) : F.Rounds 0 x := by
  refine .of_neighbours (fun j hj => absurd hj (by omega)) ?_ fun _ _ _ => rfl
  rw [valueOf_zero]
  linarith

/-- No other magnitude is nearer. -/
theorem Rounds.nearest (h : F.Rounds m x) (j : Nat) :
    |F.valueOf m - x| ≤ |F.valueOf j - x| := by
  have hmono := F.strictMono_valueOf
  rcases Nat.lt_trichotomy j m with hlt | rfl | hgt
  · have hv := hmono hlt
    have hmid := h.below j hlt
    rw [abs_of_nonpos (by linarith : F.valueOf j - x ≤ 0)]
    exact abs_le.2 ⟨by linarith, by linarith⟩
  · exact le_rfl
  · have hv := hmono hgt
    have hmid := h.above j hgt
    rw [abs_of_nonneg (by linarith : 0 ≤ F.valueOf j - x)]
    exact abs_le.2 ⟨by linarith, by linarith⟩

/-- Another magnitude is as near only if the rounding is even. -/
theorem Rounds.even_of_tie (h : F.Rounds m x) {j : Nat} (hj : j ≠ m)
    (heq : |F.valueOf j - x| = |F.valueOf m - x|) : m % 2 = 0 := by
  have hne : F.valueOf j ≠ F.valueOf m := fun he => hj (F.strictMono_valueOf.injective he)
  refine h.even j hj ?_
  -- Two different values at the same distance lie on either side.
  rcases abs_eq_abs.1 heq with he | he
  · exact absurd (sub_left_inj.1 he) hne
  · linarith

/-- The rounding is finite if and only if the number is below the middle before infinity. -/
theorem Rounds.lt_infinity_iff (hF : F.Regular) (h : F.Rounds m x) :
    m < F.infinity ↔ x < F.overflow := by
  have hmono := F.strictMono_valueOf
  have hmid := hF.two_mul_overflow
  constructor
  · intro hlt
    have habove := h.above _ hlt
    have hle := hmono.monotone (Nat.le_sub_one_of_lt hlt)
    refine lt_of_le_of_ne (by linarith) fun heq => ?_
    -- Only the largest finite magnitude could round from the middle, and it is odd.
    have hm : m = F.infinity - 1 := hmono.injective (by linarith)
    have heven := h.even F.infinity (Nat.ne_of_gt hlt) (by rw [hm]; linarith)
    rw [hm, hF.infinity_pred_odd] at heven
    cases heven
  · intro hx
    by_contra hge
    have hle := hmono.monotone (Nat.le_of_not_lt hge)
    have hpos : F.infinity - 1 < m := by
      have := hF.one_lt_infinity
      omega
    linarith [h.below _ hpos]

end

end Format

end BrightLexer
