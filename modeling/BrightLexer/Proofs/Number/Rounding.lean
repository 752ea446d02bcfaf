import BrightLexer.Proofs.Number.Magnitude
import Mathlib.Data.Nat.Log
import Mathlib.Tactic.FieldSimp
import Mathlib.Tactic.Positivity

/-!
# Decimal numbers are rounded once, to the nearest value

`Binary.ofDecimal?` gives the finite value that is nearest to a decimal number, of two that are equally
near the one with the even significand (`Binary.IsNearest`); there is only one such value
(`Binary.IsNearest.unique`). It gives none if and only if the number has reached the middle between the
largest finite value and infinity (`Binary.ofDecimal?_of_lt`, `Binary.ofDecimal?_of_le`).

The number is scaled so that its whole part is a significand, and rounded there (`Format.rounds_block`).
For that the exponent has to be right: the scaled number is below `2 ^ precision`, and at least half of
that unless the exponent is the least one (`Format.exponentFor_spec`). Numbers that are out of range on
either side are not scaled at all; `8 ^ k ≤ 10 ^ k` is why they can be told beforehand
(`Format.roundDecimal_spec`).
-/

namespace BrightLexer

/-- The number that a decimal denotes. -/
def Decimal.value (d : Decimal) : ℚ := d.coefficient * 10 ^ d.exponent

/-- The number that a finite value stands for. -/
def Binary.value {F : Format} (x : Binary F) : ℚ :=
  (if x.negative then -1 else 1) * F.valueOf x.magnitude

/-- Of the finite values of a format, `x` is the one nearest to `q`, and of two that are equally near, the
one with the even significand. A zero has no minus sign. -/
structure Binary.IsNearest {F : Format} (x : Binary F) (q : ℚ) : Prop where
  finite : x.isFinite = true
  positive : x.negative = false
  nearest : ∀ y : Binary F, y.isFinite = true → |x.value - q| ≤ |y.value - q|
  even : ∀ y : Binary F, y.isFinite = true → y.value ≠ x.value →
    |y.value - q| = |x.value - q| → F.significand x.magnitude % 2 = 0

section
variable {num den : Nat}

/-- A power is the quotient of a power that is not negative and one that is not positive. -/
theorem zpow_eq_div (b : ℚ) (k : Int) : b ^ k = b ^ k.toNat / b ^ (-k).toNat := by
  obtain ⟨n, rfl | rfl⟩ := k.eq_nat_or_neg
  · simp
  · simp

/-- A power of two, as a rational number. -/
theorem cast_twoPow (n : Nat) : ((twoPow n : Nat) : ℚ) = 2 ^ n := by
  exact_mod_cast rfl

/-- A power of ten, as a rational number. -/
theorem cast_tenPow (n : Nat) : ((tenPow n : Nat) : ℚ) = 10 ^ n := by
  exact_mod_cast rfl

/-- A quotient with powers of two on either side is the quotient scaled by one of them. -/
theorem div_scaled (num den : Nat) (k : Int) :
    ((num * twoPow (-k).toNat : Nat) : ℚ) / (den * twoPow k.toNat : Nat) = num / den / 2 ^ k := by
  rw [zpow_eq_div 2 k]
  push_cast [cast_twoPow]
  field_simp

/-- The comparison that is made with whole numbers is the one with a power of two. -/
theorem scaled_le_iff (num : Nat) (hd : den ≠ 0) (k : Int) :
    den * twoPow k.toNat ≤ num * twoPow (-k).toNat ↔ (2 : ℚ) ^ k ≤ num / den := by
  have hden : (0 : ℚ) < den := Nat.cast_pos.2 (Nat.pos_of_ne_zero hd)
  have hpow : (0 : ℚ) < 2 ^ (-k).toNat := by positivity
  rw [zpow_eq_div 2 k, div_le_div_iff₀ hpow hden, mul_comm _ (den : ℚ), ← Nat.cast_le (α := ℚ)]
  push_cast [cast_twoPow]
  rfl

/-- A number lies between two neighbouring powers of two. -/
theorem two_zpow_log2 {n : Nat} (hn : n ≠ 0) :
    (2 : ℚ) ^ (n.log2 : Int) ≤ n ∧ (n : ℚ) < 2 ^ ((n.log2 : Int) + 1) := by
  constructor
  · rw [zpow_natCast]
    exact_mod_cast Nat.log2_self_le hn
  · rw [← Nat.cast_succ, zpow_natCast]
    exact_mod_cast Nat.lt_log2_self

/-- A rounded quotient is off by one half at most, and if it is, it is even. -/
theorem roundDiv_spec (num : Nat) (hd : 0 < den) :
    |(roundDiv num den : ℚ) - num / den| ≤ 1 / 2 ∧
      (|(roundDiv num den : ℚ) - num / den| = 1 / 2 → roundDiv num den % 2 = 0) := by
  have hden : (0 : ℚ) < den := Nat.cast_pos.2 hd
  have hsplit : (num / den : ℚ) = (num / den : Nat) + (num % den : Nat) / den := by
    have hdiv : (den : ℚ) * (num / den : Nat) + (num % den : Nat) = num := by
      exact_mod_cast Nat.div_add_mod num den
    rw [← hdiv]
    field_simp
  have hfrac : (0 : ℚ) ≤ (num % den : Nat) / den := by positivity
  have hone : ((num % den : Nat) : ℚ) / den < 1 :=
    (div_lt_one hden).2 (Nat.cast_lt.2 (Nat.mod_lt num hd))
  have hhalf : 2 * (((num % den : Nat) : ℚ) / den) = (2 * (num % den) : Nat) / den := by
    push_cast
    ring
  rw [hsplit, roundDiv]
  generalize num / den = q
  generalize ((num % den : Nat) : ℚ) / den = frac at *
  split
  · next hlt =>
    have hlow : 2 * frac < 1 := hhalf ▸ (div_lt_one hden).2 (Nat.cast_lt.2 hlt)
    rw [abs_of_nonpos (by linarith)]
    exact ⟨by linarith, fun heq => by linarith⟩
  split
  · next hgt =>
    have hhigh : 1 < 2 * frac := hhalf ▸ (one_lt_div hden).2 (Nat.cast_lt.2 hgt)
    push_cast
    rw [abs_of_nonneg (by linarith)]
    exact ⟨by linarith, fun heq => by linarith⟩
  · next hge hle =>
    have htie : 2 * frac = 1 := by
      rw [hhalf, Nat.le_antisymm (Nat.le_of_not_lt hle) (Nat.le_of_not_lt hge)]
      exact div_self hden.ne'
    refine ⟨?_, fun _ => by omega⟩
    rcases Nat.mod_two_eq_zero_or_one q with hq | hq
    · rw [hq, abs_of_nonpos (by push_cast; linarith)]
      push_cast
      linarith
    · rw [hq, abs_of_nonneg (by push_cast; linarith)]
      push_cast
      linarith

/-! ## Numbers out of range -/

namespace Decimal

variable {d : Decimal} {n : Int}

/-- A power of eight is a power of two. -/
theorem eight_zpow (e : Int) : (8 : ℚ) ^ e = 2 ^ (3 * e) := by
  rw [zpow_mul]
  norm_num

/-- Three binary digits of the exponent are no more than a decimal one. -/
theorem two_zpow_le_value (hd : d.coefficient ≠ 0) (hn : 0 ≤ n) (h : n ≤ 3 * d.exponent) :
    2 ^ n ≤ d.value := by
  have hone : (1 : ℚ) ≤ d.coefficient := by exact_mod_cast Nat.one_le_iff_ne_zero.2 hd
  calc (2 : ℚ) ^ n ≤ 2 ^ (3 * d.exponent) := zpow_le_zpow_right₀ one_le_two h
    _ = 8 ^ d.exponent := (eight_zpow _).symm
    _ ≤ 10 ^ d.exponent := zpow_le_zpow_left₀ (by omega) (by norm_num) (by norm_num)
    _ ≤ d.value := le_mul_of_one_le_left (by positivity) hone

/-- Below the point they are no less. -/
theorem two_mul_value_lt (hd : d.coefficient ≠ 0) (hn : n ≤ 0)
    (h : d.coefficient.log2 + 2 - n ≤ -(3 * d.exponent)) : 2 * d.value < 2 ^ n := by
  have hten : (10 : ℚ) ^ d.exponent ≤ 2 ^ (3 * d.exponent) := by
    have hpos : (8 : ℚ) ^ (-d.exponent) ≤ 10 ^ (-d.exponent) :=
      zpow_le_zpow_left₀ (by omega) (by norm_num) (by norm_num)
    rw [zpow_neg, zpow_neg] at hpos
    rw [← eight_zpow]
    exact (inv_le_inv₀ (by positivity) (by positivity)).1 hpos
  have hlog := (two_zpow_log2 hd).2
  calc 2 * d.value ≤ 2 * (d.coefficient * 2 ^ (3 * d.exponent)) :=
        mul_le_mul_of_nonneg_left (mul_le_mul_of_nonneg_left hten (Nat.cast_nonneg _)) zero_le_two
    _ < 2 * (2 ^ ((d.coefficient.log2 : Int) + 1) * 2 ^ (3 * d.exponent)) :=
        mul_lt_mul_of_pos_left (mul_lt_mul_of_pos_right hlog (by positivity)) zero_lt_two
    _ = 2 ^ ((d.coefficient.log2 : Int) + 2 + 3 * d.exponent) := by
        rw [← zpow_add₀ two_ne_zero, ← zpow_one_add₀ two_ne_zero]
        congr 1
        ring
    _ ≤ 2 ^ n := zpow_le_zpow_right₀ one_le_two (by omega)

end Decimal

/-! ## Rounding a quotient -/

namespace Format

variable {F : Format} {k s : Nat} {x y : ℚ}

/-- The binary logarithm of a quotient, up to one. -/
theorem div_bounds (hn : num ≠ 0) (hd : den ≠ 0) :
    (2 : ℚ) ^ ((num.log2 : Int) - den.log2 - 1) ≤ num / den ∧
      (num / den : ℚ) < 2 ^ ((num.log2 : Int) - den.log2 + 1) := by
  have hden : (0 : ℚ) < den := Nat.cast_pos.2 (Nat.pos_of_ne_zero hd)
  have hnum := two_zpow_log2 hn
  have hlog := two_zpow_log2 hd
  constructor
  · rw [le_div_iff₀ hden]
    calc (2 : ℚ) ^ ((num.log2 : Int) - den.log2 - 1) * den
        ≤ 2 ^ ((num.log2 : Int) - den.log2 - 1) * 2 ^ ((den.log2 : Int) + 1) :=
          mul_le_mul_of_nonneg_left hlog.2.le (by positivity)
      _ = 2 ^ (num.log2 : Int) := by
          rw [← zpow_add₀ two_ne_zero]
          congr 1
          ring
      _ ≤ num := hnum.1
  · rw [div_lt_iff₀ hden]
    calc (num : ℚ) < 2 ^ ((num.log2 : Int) + 1) := hnum.2
      _ = 2 ^ ((num.log2 : Int) - den.log2 + 1) * 2 ^ (den.log2 : Int) := by
          rw [← zpow_add₀ two_ne_zero]
          congr 1
          ring
      _ ≤ 2 ^ ((num.log2 : Int) - den.log2 + 1) * den :=
          mul_le_mul_of_nonneg_left hlog.1 (by positivity)

/-- The exponent for a quotient leaves `precision` binary digits before the point, or it is the least
one and leaves fewer. -/
theorem exponentFor_spec (F : Format) (hn : num ≠ 0) (hd : den ≠ 0) :
    F.leastExponent ≤ F.exponentFor num den ∧
      (num / den : ℚ) < 2 ^ (F.exponentFor num den + F.precision) ∧
      (F.exponentFor num den = F.leastExponent ∨
        (2 : ℚ) ^ (F.exponentFor num den + F.precision - 1) ≤ num / den) := by
  obtain ⟨hlow, hhigh⟩ := div_bounds hn hd
  have hscale := scaled_le_iff num hd ((num.log2 : Int) - den.log2)
  unfold exponentFor
  dsimp only
  generalize (num.log2 : Int) - den.log2 = k at *
  -- The quotient is compared with the power in the middle of the two bounds.
  have hreach : ∃ reach : Int, (if den * twoPow k.toNat ≤ num * twoPow (-k).toNat then k + 1 else k) = reach ∧
      (2 : ℚ) ^ (reach - 1) ≤ num / den ∧ (num / den : ℚ) < 2 ^ reach := by
    split
    · next hle => exact ⟨k + 1, rfl, by rw [add_sub_cancel_right]; exact hscale.1 hle, hhigh⟩
    · next hlt => exact ⟨k, rfl, hlow, lt_of_not_ge (mt hscale.2 hlt)⟩
  obtain ⟨reach, hr, hle, hlt⟩ := hreach
  rw [hr]
  refine ⟨Int.le_max_right _ _, lt_of_lt_of_le hlt ?_, ?_⟩
  · exact zpow_le_zpow_right₀ one_le_two (by omega)
  · rcases Int.le_total (reach - F.precision) F.leastExponent with hleast | hleast
    · exact .inl (Int.max_eq_right hleast)
    · rw [Int.max_eq_left hleast, sub_add_cancel]
      exact .inr hle

/-- Rounding to a whole number of units gives a magnitude of the block, or the end of it. -/
theorem rounds_block (hF : F.Regular) (hy : y < 2 * F.step) (hlow : k = 0 ∨ F.step ≤ y)
    (hx : x = y * 2 ^ (F.leastExponent + k))
    (hnear : |(s : ℚ) - y| ≤ 1 / 2) (heven : |(s : ℚ) - y| = 1 / 2 → s % 2 = 0) :
    F.Rounds (k * F.step + s) x := by
  have hu : (0 : ℚ) < 2 ^ (F.leastExponent + k) := zpow_pos (by norm_num) _
  have hstep := F.step_pos
  obtain ⟨hle, hge⟩ := abs_le.1 hnear
  have hs : s ≤ 2 * F.step := by
    have hlt : (s : ℚ) < (2 * F.step + 1 : Nat) := by push_cast; linarith
    exact Nat.le_of_lt_succ (Nat.cast_lt.1 hlt)
  have hk : k = 0 ∨ F.step ≤ s := by
    refine hlow.imp_right fun hlow => ?_
    have hlt : (F.step : ℚ) < (s + 1 : Nat) := by push_cast; linarith
    exact Nat.le_of_lt_succ (Nat.cast_lt.1 hlt)
  have hparity : (k * F.step + s) % 2 = s % 2 := by
    obtain ⟨half, hhalf⟩ := hF.two_dvd_step
    rw [hhalf, Nat.mul_left_comm]
    omega
  have hm := valueOf_block hs hk
  have hbelow (j : Nat) (hj : k * F.step + s = j + 1) :
      F.valueOf j + F.valueOf (k * F.step + s) ≤ 2 * x ∧
        (F.valueOf j + F.valueOf (k * F.step + s) = 2 * x → s % 2 = 0) := by
    by_cases hfirst : k = 0 ∨ F.step ≤ s - 1
    · have hpos : 1 ≤ s := by
        rcases hfirst with rfl | hfirst
        · omega
        · omega
      obtain rfl : j = k * F.step + (s - 1) := by omega
      rw [hm, valueOf_block (by omega) hfirst, hx, Nat.cast_sub hpos]
      have hle2 := mul_le_mul_of_nonneg_right (by linarith : (2 * s - 1 : ℚ) ≤ 2 * y) hu.le
      refine ⟨by push_cast; linarith, fun heq => heven ?_⟩
      have hy2 : (2 * s - 1 : ℚ) = 2 * y := mul_right_cancel₀ hu.ne' (by push_cast at heq; linarith)
      rw [abs_of_nonneg (by linarith)]
      linarith
    · -- At the start of a block other than the first, nothing is rounded up.
      rw [not_or] at hfirst
      have hstart : s = F.step := by
        have := hk.resolve_left hfirst.1
        omega
      have hj : F.valueOf j < F.valueOf (k * F.step + s) := F.strictMono_valueOf (by omega)
      have hge : F.valueOf (k * F.step + s) ≤ x := by
        rw [hm, hx, hstart]
        exact mul_le_mul_of_nonneg_right (hlow.resolve_left hfirst.1) hu.le
      exact ⟨by linarith, fun heq => by linarith⟩
  have habove : 2 * x ≤ F.valueOf (k * F.step + s) + F.valueOf (k * F.step + s + 1) ∧
      (F.valueOf (k * F.step + s + 1) + F.valueOf (k * F.step + s) = 2 * x → s % 2 = 0) := by
    rcases Nat.lt_or_eq_of_le hs with hlast | hend
    · rw [valueOf_succ hlast hk, hm, hx]
      have hle2 := mul_le_mul_of_nonneg_right (by linarith : 2 * y ≤ (2 * s + 1 : ℚ)) hu.le
      refine ⟨by linarith, fun heq => heven ?_⟩
      have hy2 : (2 * s + 1 : ℚ) = 2 * y := mul_right_cancel₀ hu.ne' (by linarith)
      rw [abs_of_nonpos (by linarith)]
      linarith
    · -- At the end of a block, nothing is rounded down.
      have hgrow : F.valueOf (k * F.step + s) < F.valueOf (k * F.step + s + 1) :=
        F.strictMono_valueOf (Nat.lt_succ_self _)
      have hlt : x < F.valueOf (k * F.step + s) := by
        rw [hm, hx, hend]
        push_cast
        exact mul_lt_mul_of_pos_right hy hu
      exact ⟨by linarith, fun heq => by linarith⟩
  refine .of_neighbours (fun j hj => (hbelow j hj).1) habove.1 fun j hj heq => ?_
  rw [hparity]
  rcases hj with hj | rfl
  · exact (hbelow j hj).2 heq
  · exact habove.2 heq

/-- A quotient is rounded to the nearest magnitude. -/
theorem rounds_roundRatio (hF : F.Regular) (num : Nat) (hd : den ≠ 0) :
    F.Rounds (F.roundRatio num den) (num / den) := by
  by_cases hn : num = 0
  · rw [roundRatio, if_pos hn, hn, Nat.cast_zero, zero_div]
    exact F.rounds_zero (by rw [valueOf_one, mul_zero]; positivity)
  obtain ⟨hleast, hlt, hge⟩ := F.exponentFor_spec hn hd
  rw [roundRatio, if_neg hn]
  generalize F.exponentFor num den = q at *
  have hq : F.leastExponent + ((q - F.leastExponent).toNat : Int) = q := by omega
  have hpos : 0 < den * twoPow q.toNat :=
    Nat.mul_pos (Nat.pos_of_ne_zero hd) (Nat.pow_pos (by decide))
  have hround := roundDiv_spec (num * twoPow (-q).toNat) hpos
  rw [div_scaled] at hround
  have hunit : (0 : ℚ) < 2 ^ q := by positivity
  refine rounds_block hF ?_ ?_ ?_ hround.1 hround.2
  · rw [div_lt_iff₀ hunit, hF.cast_two_mul_step, ← zpow_add₀ two_ne_zero, add_comm]
    exact hlt
  · refine hge.imp (fun he => by omega) fun hge => ?_
    have hhalf : (2 : ℚ) * 2 ^ (q + F.precision - 1) = 2 * F.step * 2 ^ q := by
      rw [hF.cast_two_mul_step, ← zpow_add₀ two_ne_zero, ← zpow_one_add₀ two_ne_zero]
      congr 1
      ring
    rw [le_div_iff₀ hunit]
    linarith
  · rw [hq]
    field_simp

/-- A decimal number is rounded to the nearest magnitude if that is finite, and it is finite exactly below
the middle before infinity. -/
theorem roundDecimal_spec (hF : F.Regular) (d : Decimal) :
    (F.roundDecimal d < F.infinity ↔ d.value < F.overflow) ∧
      (F.roundDecimal d < F.infinity → F.Rounds (F.roundDecimal d) d.value) := by
  have of_rounds {m : Nat} (h : F.Rounds m d.value) :
      (m < F.infinity ↔ d.value < F.overflow) ∧ (m < F.infinity → F.Rounds m d.value) :=
    ⟨h.lt_infinity_iff hF, fun _ => h⟩
  unfold roundDecimal
  split
  · next hzero =>
    refine of_rounds (F.rounds_zero ?_)
    rw [Decimal.value, hzero, valueOf_one, Nat.cast_zero, zero_mul, mul_zero]
    positivity
  split
  · next hne hlarge =>
    have hge := Decimal.two_zpow_le_value hne (Int.natCast_nonneg _) hlarge
    refine ⟨⟨fun hlt => absurd hlt (Nat.lt_irrefl _), fun hlt => ?_⟩, fun hlt => absurd hlt (Nat.lt_irrefl _)⟩
    have hover : F.overflow < 2 ^ (F.limit : Int) := by
      rw [overflow, zpow_natCast]
      exact sub_lt_self _ (by positivity)
    exact absurd hge (not_le.2 (hlt.trans hover))
  split
  · next hne hlarge hsmall =>
    refine of_rounds (F.rounds_zero ?_)
    rw [valueOf_one]
    exact Decimal.two_mul_value_lt hne hF.leastExponent_neg.le hsmall
  · have hvalue : ((d.coefficient * tenPow d.exponent.toNat : Nat) : ℚ) / (tenPow (-d.exponent).toNat : Nat) =
        d.value := by
      rw [Decimal.value, zpow_eq_div 10 d.exponent]
      push_cast [cast_tenPow]
      exact (mul_div_assoc ..)
    have hten : tenPow (-d.exponent).toNat ≠ 0 := (Nat.pow_pos (by decide)).ne'
    have hround := rounds_roundRatio hF (d.coefficient * tenPow d.exponent.toNat) hten
    rw [hvalue] at hround
    exact of_rounds hround

end Format

end

/-! ## The value of a decimal number -/

namespace Binary

variable {F : Format} {d : Decimal}

/-- A number that is not negative is its magnitude. -/
theorem value_of_not_negative {x : Binary F} (h : x.negative = false) :
    x.value = F.valueOf x.magnitude := by
  rw [value, h, if_neg nofun, one_mul]

/-- No value with a minus sign is nearer to a number that is not negative, and as near is only zero. -/
theorem isNearest_of_rounds (hF : F.Regular) {x : Binary F} {q : ℚ} (hfinite : x.isFinite = true)
    (hx : x.negative = false) (hq : 0 ≤ q) (h : F.Rounds x.magnitude q) : x.IsNearest q := by
  have hvalue := value_of_not_negative hx
  have hzero := h.nearest 0
  rw [Format.valueOf_zero, zero_sub, abs_neg, abs_of_nonneg hq] at hzero
  have hnegative (y : Binary F) (hy : y.negative = true) :
      |y.value - q| = F.valueOf y.magnitude + q := by
    have hpos := F.valueOf_nonneg y.magnitude
    rw [value, hy, if_pos rfl, abs_of_nonpos (by linarith)]
    ring
  refine ⟨hfinite, hx, fun y _ => ?_, fun y _ hne heq => ?_⟩
  · rw [hvalue]
    cases hy : y.negative with
    | false =>
      rw [value_of_not_negative hy]
      exact h.nearest _
    | true =>
      rw [hnegative y hy]
      linarith [F.valueOf_nonneg y.magnitude]
  · rw [hF.significand_mod_two]
    rw [hvalue] at hne heq
    cases hy : y.negative with
    | false =>
      rw [value_of_not_negative hy] at hne heq
      exact h.even_of_tie (fun he => hne (by rw [he])) heq
    | true =>
      rw [hnegative y hy] at heq
      have hvalue0 : F.valueOf y.magnitude = 0 := by
        linarith [F.valueOf_nonneg y.magnitude]
      have hm : (0 : Nat) ≠ x.magnitude := by
        intro he
        rw [value, hvalue0, ← he, Format.valueOf_zero, mul_zero] at hne
        exact hne rfl
      refine h.even_of_tie hm ?_
      rw [Format.valueOf_zero, zero_sub, abs_neg, abs_of_nonneg hq]
      linarith

/-- There is one nearest value. -/
theorem IsNearest.unique (hF : F.Regular) {x y : Binary F} {q : ℚ} (hx : x.IsNearest q)
    (hy : y.IsNearest q) : x = y := by
  wlog hle : x.magnitude ≤ y.magnitude generalizing x y
  · exact (this hy hx (Nat.le_of_not_le hle)).symm
  have hxvalue := value_of_not_negative hx.positive
  have hyvalue := value_of_not_negative hy.positive
  have hsame := le_antisymm (hx.nearest y hy.finite) (hy.nearest x hx.finite)
  rcases Nat.lt_or_eq_of_le hle with hlt | heq
  · have hmono := F.strictMono_valueOf
    have hne : y.value ≠ x.value := by
      rw [hxvalue, hyvalue]
      exact (hmono hlt).ne'
    -- Both magnitudes are even, so there is one between them, which would be nearer.
    have hxeven := hx.even y hy.finite hne hsame.symm
    have hyeven := hy.even x hx.finite hne.symm hsame
    rw [hF.significand_mod_two] at hxeven hyeven
    have hbetween : x.magnitude + 1 < y.magnitude := by omega
    have hfinite : x.magnitude + 1 < F.infinity := hbetween.trans (of_decide_eq_true hy.finite)
    let z : Binary F := ⟨false, x.magnitude + 1, hfinite.trans F.infinity_lt_codes⟩
    have hzvalue : z.value = F.valueOf (x.magnitude + 1) := value_of_not_negative rfl
    have hnearer := hx.nearest z (decide_eq_true hfinite)
    rw [hxvalue, hzvalue] at hnearer
    rw [hxvalue, hyvalue] at hsame
    have hlow := hmono (Nat.lt_succ_self x.magnitude)
    have hhigh := hmono hbetween
    have hmiddle : F.valueOf x.magnitude + F.valueOf y.magnitude = 2 * q := by
      rcases abs_eq_abs.1 hsame with he | he
      · linarith
      · linarith
    rw [abs_of_nonpos (by linarith : F.valueOf x.magnitude - q ≤ 0)] at hnearer
    rcases abs_cases (F.valueOf (x.magnitude + 1) - q) with ⟨he, -⟩ | ⟨he, -⟩
    · linarith
    · linarith
  · obtain ⟨negative, magnitude, _⟩ := x
    obtain ⟨negative', magnitude', _⟩ := y
    obtain rfl : negative = false := hx.positive
    obtain rfl : negative' = false := hy.positive
    obtain rfl : magnitude = magnitude' := heq
    rfl

/-- A decimal number below the middle before infinity has a finite value nearest to it. -/
theorem ofDecimal?_of_lt (hF : F.Regular) (hd : d.value < F.overflow) :
    ∃ x : Binary F, ofDecimal? false d = some x ∧ x.IsNearest d.value := by
  obtain ⟨hiff, hrounds⟩ := Format.roundDecimal_spec hF d
  have hlt := hiff.2 hd
  have hq : 0 ≤ d.value := mul_nonneg (Nat.cast_nonneg _) (by positivity)
  refine ⟨_, dif_pos hlt, ?_⟩
  exact isNearest_of_rounds hF (decide_eq_true hlt) rfl hq (hrounds hlt)

/-- Any other decimal number has none. -/
theorem ofDecimal?_of_le (hF : F.Regular) (hd : F.overflow ≤ d.value) :
    ofDecimal? (F := F) false d = none :=
  dif_neg fun hlt => absurd ((Format.roundDecimal_spec hF d).1.1 hlt) (not_lt.2 hd)

end Binary

end BrightLexer
