import BrightLexer.Proofs.Number.ShortestDecimal

/-!
# Shortest decimals are read back

Reading a decimal number gives the value whose magnitude it rounds to, and that with any number that is as
large (`Binary.ofDecimal?_eq_some_iff`). So a finite value is read back from its shortest decimal
(`Binary.ofDecimal?_shortest`).

A shortest decimal of a narrow format survives being read in a wide one and shortened there: both decimals
are points of the grid of the first (`Decimal.IsShortest.value_eq`), and it is too coarse for two different
points of it to round to the same wide value. The grid is known to be that coarse since a finer one would
have a point that rounds to the narrow value.
-/

namespace BrightLexer

section
variable {F G : Format} {m n : Nat} {c d e : Decimal}

/-- The grid of a shortest decimal is not finer than a twentieth of a unit. -/
theorem Decimal.IsShortest.unit_le (h : d.IsShortest F m) (hm : m ≠ 0) :
    F.unit m ≤ 20 * 10 ^ d.exponent := by
  by_contra hlt
  have hten : 2 * (10 : ℚ) ^ (d.exponent + 1) = 20 * 10 ^ d.exponent := by
    rw [zpow_add_one₀ (by norm_num)]
    ring
  obtain ⟨c, hc⟩ := Format.exists_rounds_of_lt hm (hten ▸ not_le.1 hlt)
  exact h.coarsest c _ (lt_add_one d.exponent) hc

/-- If a shortest decimal rounds to a value of a much finer format, then it denotes the same number as the
shortest decimal of that value. -/
theorem Decimal.IsShortest.value_eq (hd : d.IsShortest F m) (he : e.IsShortest G n) (hm : m ≠ 0)
    (hn : n ≠ 0) (hfine : 20 * G.unit n < F.unit m) (h : G.Rounds n d.value) : e.value = d.value := by
  have hten : (0 : ℚ) < 10 ^ d.exponent := by positivity
  have hexponent : d.exponent ≤ e.exponent := by
    by_contra hlt
    exact he.coarsest d.coefficient d.exponent (not_le.1 hlt) h
  obtain ⟨k, hk⟩ := Int.eq_ofNat_of_zero_le (Int.sub_nonneg.2 hexponent)
  have hgrid : e.value = (e.coefficient * 10 ^ k : Nat) * 10 ^ d.exponent := by
    have hsum : e.exponent = k + d.exponent := by omega
    rw [Decimal.value, hsum, zpow_add₀ (by norm_num), zpow_natCast]
    push_cast
    ring
  have hunit : G.unit n < 10 ^ d.exponent := by linarith [hd.unit_le hm]
  have hnear : |((e.coefficient * 10 ^ k : Nat) : ℚ) - d.coefficient| * 10 ^ d.exponent <
      1 * 10 ^ d.exponent := by
    rw [← abs_of_pos hten, ← abs_mul, abs_of_pos hten, sub_mul, ← hgrid, one_mul]
    change |e.value - d.value| < _
    have hdlow := h.sub_unit_le hn
    have hdhigh := h.lt_add_unit
    have helow := he.rounds.sub_unit_le hn
    have hehigh := he.rounds.lt_add_unit
    exact abs_lt.2 ⟨by linarith, by linarith⟩
  have hlt := lt_of_mul_lt_mul_right hnear hten.le
  have hcoefficient : e.coefficient * 10 ^ k = d.coefficient := by
    have hint : |((e.coefficient * 10 ^ k : Nat) : Int) - d.coefficient| < 1 := by exact_mod_cast hlt
    have hzero := Int.abs_lt_one_iff.1 hint
    omega
  rw [hgrid, hcoefficient, Decimal.value]

/-- Zero is written as zero. -/
theorem value_shortest_zero (F : Format) (tie : Tie) : (shortest F tie 0).value = 0 := by
  rw [shortest, if_pos rfl, Decimal.value, Nat.cast_zero, zero_mul]

/-! ## Reading -/

namespace Binary

variable {x : Binary F} {negative : Bool}

/-- A decimal number is read as the finite value whose magnitude it rounds to. -/
theorem ofDecimal?_eq_some_iff (hF : F.Regular) :
    ofDecimal? negative d = some x ↔
      x.negative = negative ∧ x.isFinite = true ∧ F.Rounds x.magnitude d.value := by
  obtain ⟨hiff, hrounds⟩ := Format.roundDecimal_spec hF d
  unfold ofDecimal?
  dsimp only
  constructor
  · intro h
    split at h
    · next hlt =>
      cases h
      exact ⟨rfl, decide_eq_true hlt, hrounds hlt⟩
    · cases h
  · rintro ⟨rfl, hfinite, hx⟩
    have hlt := hiff.2 ((hx.lt_infinity_iff hF).1 (of_decide_eq_true hfinite))
    obtain ⟨negative, magnitude, hcodes⟩ := x
    obtain rfl := (hrounds hlt).unique hx
    exact dif_pos hlt

/-- Decimal numbers that are as large are read alike. -/
theorem ofDecimal?_congr (hF : F.Regular) (negative : Bool) (h : d.value = e.value) :
    (ofDecimal? negative d : Option (Binary F)) = ofDecimal? negative e := by
  refine Option.ext fun x => ?_
  rw [ofDecimal?_eq_some_iff hF, ofDecimal?_eq_some_iff hF, h]

/-- A shortest decimal rounds to its value. -/
theorem rounds_shortest (hF : F.Moderate) (hx : x.isFinite = true) (tie : Tie) :
    F.Rounds x.magnitude (shortest F tie x.magnitude).value := by
  by_cases hm : x.magnitude = 0
  · rw [hm, value_shortest_zero]
    exact F.zero_rounds_zero
  · exact (Format.isShortest_shortest hF hm (of_decide_eq_true hx) tie).rounds

/-- A finite value is read back from any decimal that denotes the same number as the shortest one. -/
theorem ofDecimal?_shortest (hF : F.Moderate) (hx : x.isFinite = true) {tie : Tie}
    (hd : d.value = (shortest F tie x.magnitude).value) : ofDecimal? x.negative d = some x :=
  (ofDecimal?_eq_some_iff hF.toRegular).2 ⟨rfl, hx, hd ▸ rounds_shortest hF hx tie⟩

/-- A decimal number below the middle before infinity is read, with either sign. -/
theorem exists_ofDecimal? (hF : F.Regular) (negative : Bool) (h : d.value < F.overflow) :
    ∃ x : Binary F, ofDecimal? negative d = some x :=
  ⟨_, dif_pos ((Format.roundDecimal_spec hF d).1.2 h)⟩

end Binary

/-! ## A narrow value in a wide format -/

namespace Format

variable {x : ℚ}

/-- No exponent is less than the least one. -/
theorem leastExponent_le (F : Format) (m : Nat) : F.leastExponent ≤ F.exponent m :=
  Int.le_add_of_nonneg_right (Int.natCast_nonneg _)

/-- A unit is the least one, or there are as many units in the value as there are magnitudes in a step. -/
theorem exponent_eq_or_step_le (F : Format) (m : Nat) :
    F.exponent m = F.leastExponent ∨ F.step * F.unit m ≤ F.valueOf m := by
  obtain ⟨k, s, rfl, hs, hk⟩ := F.exists_block m
  obtain ⟨hsig, hexp⟩ := fields_block hs hk
  rcases hk with rfl | hk
  · exact .inl (by rw [hexp, Int.natCast_zero, Int.add_zero])
  · refine .inr ?_
    rw [valueOf, hsig]
    exact mul_le_mul_of_nonneg_right (Nat.cast_le.2 hk) (F.unit_pos _).le

/-- What rounds to a magnitude other than zero is half a unit or more. -/
theorem Rounds.unit_le (h : F.Rounds m x) (hm : m ≠ 0) : F.unit m ≤ 2 * x := by
  have hone : F.unit m ≤ F.valueOf m :=
    le_mul_of_one_le_left (F.unit_pos m).le (Nat.one_le_cast.2 (Nat.pos_of_ne_zero (F.significand_ne_zero hm)))
  linarith [h.sub_unit_le hm]

/-- What rounds to a single precision value other than zero is far from the ends of double precision. -/
theorem Rounds.in_binary64 (h : binary32.Rounds m x) (hm : m ≠ 0) (hfinite : m < binary32.infinity) :
    binary64.valueOf 1 < 2 * x ∧ x < binary64.overflow := by
  constructor
  · calc binary64.valueOf 1 = 2 ^ (-1074 : Int) := valueOf_one _
      _ < 2 ^ (-149 : Int) := zpow_lt_zpow_right₀ one_lt_two (by decide)
      _ ≤ binary32.unit m := zpow_le_zpow_right₀ one_le_two (binary32.leastExponent_le m)
      _ ≤ 2 * x := h.unit_le hm
  · calc x < 2 ^ binary32.reach m := h.lt_reach
      _ ≤ 2 ^ (128 : Int) := zpow_le_zpow_right₀ one_le_two (reach_bounds regular_binary32 hm hfinite).2
      _ < 2 ^ (1023 : Int) := zpow_lt_zpow_right₀ one_lt_two (by decide)
      _ ≤ binary64.overflow := by
        have hhalf : (2 : ℚ) ^ ((binary64.limit : Int) - binary64.precision - 1) ≤ 2 ^ (1023 : Int) :=
          zpow_le_zpow_right₀ one_le_two (by decide)
        have hdouble : (2 : ℚ) ^ binary64.limit = 2 * 2 ^ (1023 : Int) := by
          have hlimit : (binary64.limit : Int) = 1 + 1023 := rfl
          rw [← zpow_natCast, hlimit, zpow_one_add₀ two_ne_zero]
        rw [overflow, hdouble]
        linarith

/-- Near a single precision value, double precision values lie much closer to each other. -/
theorem unit_binary64_lt (hm : m ≠ 0) (hn : n ≠ 0) (hx : binary32.Rounds m x)
    (h : binary64.Rounds n x) : 20 * binary64.unit n < binary32.unit m := by
  have hleast : (-149 : Int) ≤ binary32.exponent m := binary32.leastExponent_le m
  have hfine : binary64.unit n ≤ 2 ^ (binary32.exponent m - 5) := by
    rcases binary64.exponent_eq_or_step_le n with hsmall | hstep
    · rw [unit, hsmall]
      exact zpow_le_zpow_right₀ one_le_two (by change (-1074 : Int) ≤ _; omega)
    · have hunit := binary64.unit_pos n
      have hlow := h.sub_unit_le hn
      have hhigh : x < 2 ^ (binary32.exponent m + 24) :=
        hx.lt_reach.trans_le (zpow_le_zpow_right₀ one_le_two (reach_le regular_binary32 hm))
      have hpower : (2 : ℚ) ^ (binary32.exponent m + 24) = 2 ^ (binary32.exponent m - 5) * 2 ^ 29 := by
        rw [← zpow_natCast, ← zpow_add₀ two_ne_zero]
        congr 1
        push_cast
        ring
      have hcount : (binary64.step : ℚ) = 2 ^ 52 := cast_twoPow 52
      rw [hpower] at hhigh
      rw [hcount] at hstep
      linarith
  have hpower : binary32.unit m = 2 ^ (binary32.exponent m - 5) * 2 ^ 5 := by
    rw [unit, ← zpow_natCast, ← zpow_add₀ two_ne_zero]
    congr 1
    push_cast
    ring
  have hpos : (0 : ℚ) < 2 ^ (binary32.exponent m - 5) := by positivity
  rw [hpower]
  linarith

end Format

/-- A finite single precision value, read in double precision from its shortest decimal, has a shortest
decimal there that denotes the same number. -/
theorem Binary.exists_widened {v : Binary32} (hv : v.isFinite = true) (tie tie' : Tie) :
    ∃ x : Binary64, ofDecimal? v.negative (shortest binary32 tie v.magnitude) = some x ∧
      x.negative = v.negative ∧ x.isFinite = true ∧
      (shortest binary64 tie' x.magnitude).value = (shortest binary32 tie v.magnitude).value := by
  have hfinite : v.magnitude < binary32.infinity := of_decide_eq_true hv
  have hrounds := rounds_shortest Format.moderate_binary32 hv tie
  by_cases hm : v.magnitude = 0
  · have hpos : (0 : Nat) < binary64.infinity :=
      Nat.lt_of_succ_lt Format.regular_binary64.one_lt_infinity
    rw [hm, value_shortest_zero]
    refine ⟨⟨v.negative, 0, binary64.codes_pos⟩, ?_, rfl, decide_eq_true hpos, value_shortest_zero _ _⟩
    rw [ofDecimal?_eq_some_iff Format.regular_binary64, value_shortest_zero]
    exact ⟨rfl, decide_eq_true hpos, binary64.zero_rounds_zero⟩
  obtain ⟨hlow, hhigh⟩ := hrounds.in_binary64 hm hfinite
  obtain ⟨x, hx⟩ := exists_ofDecimal? Format.regular_binary64 v.negative hhigh
  obtain ⟨hnegative, hxfinite, hxrounds⟩ := (ofDecimal?_eq_some_iff Format.regular_binary64).1 hx
  have hn : x.magnitude ≠ 0 := by
    intro hzero
    rw [hzero] at hxrounds
    have habove := hxrounds.above 1 Nat.one_pos
    rw [Format.valueOf_zero, zero_add] at habove
    linarith
  have hfine := Format.unit_binary64_lt hm hn hrounds hxrounds
  refine ⟨x, hx, hnegative, hxfinite, ?_⟩
  exact (Format.isShortest_shortest Format.moderate_binary32 hm hfinite tie).value_eq
    (Format.isShortest_shortest Format.moderate_binary64 hn (of_decide_eq_true hxfinite) tie') hm hn hfine
    hxrounds

end

end BrightLexer
