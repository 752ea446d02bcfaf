import BrightLexer.Number.Shortest
import BrightLexer.Proofs.Number.Rounding
import Mathlib.Data.Rat.Floor

/-!
# The shortest decimal

A decimal number is the shortest one for a magnitude (`Decimal.IsShortest`) if it rounds to the magnitude,
and nothing on a coarser grid of powers of ten does. `Format.isShortest_shortest` says that `shortest` finds
such a number, with either `Tie`.

The reals that round to a magnitude are those between its two middles (`Format.rounds_iff`), and these are
the ends of the interval that `shortest` searches (`Interval.contains_ofMagnitude`). If a point of a grid
lies in it, then so does one of the two neighbours of the value (`Interval.not_contains_of_onGrid?`), and so
the first grid with a hit is the coarsest of those that are tried. It remains that no grid above the first
one has a hit, and that there always is a hit before the last: the one is so since the first power of ten
is above the interval, the other since the last one is below half a unit of the value
(`tenPow_bounds`).
-/

namespace BrightLexer

/-- Of the decimal numbers that round to a magnitude, one on the coarsest grid. -/
structure Decimal.IsShortest (F : Format) (m : Nat) (d : Decimal) : Prop where
  rounds : F.Rounds m d.value
  coarsest : ∀ c k, d.exponent < k → ¬ F.Rounds m (Decimal.value ⟨c, k⟩)

/-- A real lies in an interval. -/
def Interval.Contains (i : Interval) (x : ℚ) : Prop :=
  if i.closed then (i.low / i.scale : ℚ) ≤ x ∧ x ≤ i.high / i.scale
  else (i.low / i.scale : ℚ) < x ∧ x < i.high / i.scale

/-! ## The reals that round to a magnitude -/

namespace Format

variable {F : Format} {m n : Nat} {x y z : ℚ}

/-- The distance from a value to the next one. -/
def unit (F : Format) (m : Nat) : ℚ := 2 ^ F.exponent m

/-- A unit is positive. -/
theorem unit_pos (F : Format) (m : Nat) : 0 < F.unit m := zpow_pos (by norm_num) _

/-- The value above is one unit larger. -/
theorem valueOf_add_one (F : Format) (m : Nat) : F.valueOf (m + 1) = F.valueOf m + F.unit m := by
  obtain ⟨k, s, rfl, hs, hk⟩ := F.exists_block m
  rw [valueOf_succ hs hk, unit, (fields_block hs hk).2]

/-- The value below is one unit smaller, or half a unit at the start of a block. -/
theorem valueOf_sub_one (F : Format) (hm : m ≠ 0) :
    F.valueOf (m - 1) + F.valueOf m = 2 * F.valueOf m -
      (if m % F.step = 0 ∧ 1 < m / F.step then 1 else 2 : Nat) * F.unit m / 2 := by
  have hpos := F.step_pos
  obtain ⟨k, s, rfl, hs, hk⟩ := F.exists_block m
  rw [unit, (fields_block hs hk).2, valueOf_block hs.le hk]
  by_cases hstart : k ≠ 0 ∧ s = F.step
  · obtain ⟨hk0, rfl⟩ := hstart
    obtain ⟨j, rfl⟩ := Nat.exists_eq_add_one_of_ne_zero hk0
    have hend : (j + 1) * F.step + F.step - 1 = j * F.step + (2 * F.step - 1) := by
      rw [Nat.succ_mul]
      omega
    have hdiv : ((j + 1) * F.step + F.step) / F.step = j + 2 := by
      rw [← Nat.succ_mul, Nat.mul_div_cancel _ hpos]
    have hmod : ((j + 1) * F.step + F.step) % F.step = 0 := by
      rw [← Nat.succ_mul, Nat.mul_mod_left]
    have hexp : F.leastExponent + ((j + 1 : Nat) : Int) = F.leastExponent + j + 1 := by
      push_cast
      ring
    rw [if_pos ⟨hmod, by omega⟩, hend, valueOf_block (by omega) (.inr (by omega)), hexp,
      zpow_add_one₀ (by norm_num), Nat.cast_sub (by omega)]
    push_cast
    ring
  · have hinside : ¬ ((k * F.step + s) % F.step = 0 ∧ 1 < (k * F.step + s) / F.step) := by
      rintro ⟨hmod, hdiv⟩
      rcases hk with rfl | hk
      · rw [Nat.zero_mul, Nat.zero_add] at hdiv
        have hlt := (Nat.div_lt_iff_lt_mul hpos).2 hs
        omega
      · refine hstart ⟨?_, ?_⟩
        · rintro rfl
          rw [Nat.zero_mul, Nat.zero_add] at hdiv
          have hlt := (Nat.div_lt_iff_lt_mul hpos).2 hs
          omega
        · rw [Nat.add_comm, Nat.add_mul_mod_self_right, Nat.mod_eq_sub_mod hk,
            Nat.mod_eq_of_lt (by omega)] at hmod
          omega
    have hs0 : 1 ≤ s := by
      rcases hk with rfl | hk
      · omega
      · omega
    have hprev : k * F.step + s - 1 = k * F.step + (s - 1) := by omega
    rw [if_neg hinside, hprev, valueOf_block (by omega) (by omega), Nat.cast_sub hs0]
    push_cast
    ring

/-- What rounds to a magnitude other than zero lies between its two middles, and is one of them only if the
magnitude is even. -/
theorem rounds_iff (hm : m ≠ 0) :
    F.Rounds m x ↔
      if m % 2 = 0 then
        F.valueOf (m - 1) + F.valueOf m ≤ 2 * x ∧ 2 * x ≤ F.valueOf m + F.valueOf (m + 1)
      else F.valueOf (m - 1) + F.valueOf m < 2 * x ∧ 2 * x < F.valueOf m + F.valueOf (m + 1) := by
  constructor
  · intro h
    have hbelow := h.below (m - 1) (by omega)
    have habove := h.above (m + 1) (Nat.lt_succ_self m)
    split
    · exact ⟨hbelow, habove⟩
    · next hodd =>
      refine ⟨lt_of_le_of_ne hbelow fun heq => hodd ?_, lt_of_le_of_ne habove fun heq => hodd ?_⟩
      · exact h.even (m - 1) (by omega) heq
      · exact h.even (m + 1) (by omega) (by rw [heq, add_comm])
  · intro h
    have hboth : F.valueOf (m - 1) + F.valueOf m ≤ 2 * x ∧
        2 * x ≤ F.valueOf m + F.valueOf (m + 1) := by
      split at h
      · exact h
      · exact ⟨h.1.le, h.2.le⟩
    refine .of_neighbours (fun j hj => ?_) hboth.2 fun j hj heq => ?_
    · obtain rfl : j = m - 1 := by omega
      exact hboth.1
    · by_contra hodd
      rw [if_neg hodd] at h
      rcases hj with hj | rfl
      · obtain rfl : j = m - 1 := by omega
        exact absurd heq h.1.ne
      · exact absurd heq (by rw [add_comm]; exact h.2.ne')

/-- There is one rounding. -/
theorem Rounds.unique (hm : F.Rounds m x) (hn : F.Rounds n x) : m = n := by
  wlog hle : m ≤ n generalizing m n
  · exact (this hn hm (Nat.le_of_not_le hle)).symm
  rcases Nat.lt_or_eq_of_le hle with hlt | rfl
  · have heq : F.valueOf m + F.valueOf n = 2 * x :=
      le_antisymm (hn.below m hlt) (hm.above n hlt)
    -- Both are even, so a magnitude between them is nearer.
    have hmeven := hm.even n hlt.ne' (by rw [add_comm, heq])
    have hneven := hn.even m hlt.ne heq
    have hnear := hm.above (m + 1) (Nat.lt_succ_self m)
    have hgrow : F.valueOf (m + 1) < F.valueOf n := F.strictMono_valueOf (by omega)
    linarith
  · rfl

/-- The value of a magnitude rounds to it. -/
theorem rounds_valueOf (F : Format) (m : Nat) : F.Rounds m (F.valueOf m) := by
  have hmono := F.strictMono_valueOf
  refine ⟨fun j hj => ?_, fun j hj => ?_, fun j hj heq => ?_⟩
  · linarith [hmono hj]
  · linarith [hmono hj]
  · exact absurd (hmono.injective (by linarith)) hj

/-- Zero rounds to zero. -/
theorem zero_rounds_zero (F : Format) : F.Rounds 0 0 := by
  have hzero := F.rounds_valueOf 0
  rwa [valueOf_zero] at hzero

/-- Only zero is rounded from zero. -/
theorem Rounds.ne_zero (h : F.Rounds m x) (hm : m ≠ 0) : x ≠ 0 := by
  rintro rfl
  exact hm (h.unique F.zero_rounds_zero)

/-- What rounds to a magnitude is less than a unit above its value. -/
theorem Rounds.lt_add_unit (h : F.Rounds m x) : 2 * x ≤ 2 * F.valueOf m + F.unit m := by
  have habove := h.above (m + 1) (Nat.lt_succ_self m)
  rw [valueOf_add_one] at habove
  linarith

/-- And not more than half of one below. -/
theorem Rounds.sub_unit_le (h : F.Rounds m x) (hm : m ≠ 0) : 2 * F.valueOf m - F.unit m ≤ 2 * x := by
  have hunit := F.unit_pos m
  have hbelow := h.below (m - 1) (by omega)
  rw [valueOf_sub_one F hm] at hbelow
  split at hbelow
  · push_cast at hbelow
    linarith
  · push_cast at hbelow
    linarith

/-- Only zero has the significand zero. -/
theorem significand_ne_zero (F : Format) (hm : m ≠ 0) : F.significand m ≠ 0 := by
  intro hzero
  have hvalue := F.strictMono_valueOf (Nat.pos_of_ne_zero hm)
  rw [F.valueOf_zero, valueOf, hzero, Nat.cast_zero, zero_mul] at hvalue
  exact lt_irrefl _ hvalue

/-- A significand is less than two steps. -/
theorem significand_lt (F : Format) (m : Nat) : F.significand m < 2 * F.step := by
  obtain ⟨k, s, rfl, hs, hk⟩ := F.exists_block m
  rw [(fields_block hs hk).1]
  exact hs

/-- A grid that is finer than half a unit has a point that rounds to the magnitude. -/
theorem exists_rounds_of_lt (hm : m ≠ 0) {k : Int} (hk : 2 * (10 : ℚ) ^ k < F.unit m) :
    ∃ c, F.Rounds m (Decimal.value ⟨c, k⟩) := by
  have hten : (0 : ℚ) < 10 ^ k := by positivity
  have hfloor := Nat.floor_le (div_nonneg (F.valueOf_nonneg m) hten.le)
  have hceil := Nat.lt_floor_add_one (F.valueOf m / 10 ^ k)
  rw [le_div_iff₀ hten] at hfloor
  rw [div_lt_iff₀ hten] at hceil
  refine ⟨⌊F.valueOf m / 10 ^ k⌋₊ + 1, (rounds_iff hm).2 ?_⟩
  have hlow := F.strictMono_valueOf (by omega : m - 1 < m)
  rw [valueOf_add_one, Decimal.value]
  push_cast
  split
  · constructor
    · linarith
    · linarith
  · constructor
    · linarith
    · linarith

end Format

/-! ## The interval of a magnitude -/

namespace Interval

variable {i : Interval} {tie : Tie} {c n : Nat} {k j : Int} {x y z : ℚ} {d : Decimal}

/-- An interval contains what lies between two reals in it. -/
theorem Contains.of_between (hx : i.Contains x) (hz : i.Contains z) (hxy : x ≤ y) (hyz : y ≤ z) :
    i.Contains y := by
  unfold Contains at *
  split at hx
  · next hclosed =>
    rw [if_pos hclosed] at hz ⊢
    exact ⟨hx.1.trans hxy, hyz.trans hz.2⟩
  · next hopen =>
    rw [if_neg hopen] at hz ⊢
    exact ⟨hx.1.trans_le hxy, hyz.trans_lt hz.2⟩

/-- A fraction is found in an interval just when the interval contains it. -/
theorem holds_iff (hs : i.scale ≠ 0) {num den : Nat} (hd : den ≠ 0) :
    i.holds num den = true ↔ i.Contains (num / den) := by
  have hscale : (0 : ℚ) < i.scale := Nat.cast_pos.2 (Nat.pos_of_ne_zero hs)
  have hden : (0 : ℚ) < den := Nat.cast_pos.2 (Nat.pos_of_ne_zero hd)
  rw [holds, Contains]
  split
  · rw [Bool.and_eq_true, decide_eq_true_iff, decide_eq_true_iff, div_le_div_iff₀ hscale hden,
      div_le_div_iff₀ hden hscale]
    norm_cast
  · rw [Bool.and_eq_true, decide_eq_true_iff, decide_eq_true_iff, div_lt_div_iff₀ hscale hden,
      div_lt_div_iff₀ hden hscale]
    norm_cast

/-- What is tested of a point of a grid is whether it lies in the interval. -/
theorem holds_grid (hs : i.scale ≠ 0) (c : Nat) (k : Int) :
    i.holds (c * tenPow k.toNat) (tenPow (-k).toNat) = true ↔ i.Contains (Decimal.value ⟨c, k⟩) := by
  have hten : tenPow (-k).toNat ≠ 0 := (Nat.pow_pos (by decide)).ne'
  rw [holds_iff hs hten, Decimal.value, zpow_eq_div 10 k]
  push_cast [cast_tenPow]
  rw [mul_div_assoc]

/-- The two neighbours of the value on a grid. -/
theorem grid_cell (hs : i.scale ≠ 0) (k : Int) :
    let c := i.middle * tenPow (-k).toNat / (i.scale * tenPow k.toNat)
    Decimal.value ⟨c, k⟩ ≤ i.middle / i.scale ∧ (i.middle / i.scale : ℚ) < Decimal.value ⟨c + 1, k⟩ := by
  intro c
  have hscale : (0 : ℚ) < i.scale := Nat.cast_pos.2 (Nat.pos_of_ne_zero hs)
  have hdown : (0 : ℚ) < (tenPow (-k).toNat : Nat) := Nat.cast_pos.2 (Nat.pow_pos (by decide))
  have hunit : 0 < i.scale * tenPow k.toNat :=
    Nat.mul_pos (Nat.pos_of_ne_zero hs) (Nat.pow_pos (by decide))
  have hvalue (n : Nat) : Decimal.value ⟨n, k⟩ = (n * tenPow k.toNat : Nat) / (tenPow (-k).toNat : Nat) := by
    rw [Decimal.value, zpow_eq_div 10 k]
    push_cast [cast_tenPow]
    rw [mul_div_assoc]
  have hlow : c * (i.scale * tenPow k.toNat) ≤ i.middle * tenPow (-k).toNat := Nat.div_mul_le_self _ _
  have hhigh : i.middle * tenPow (-k).toNat < (c + 1) * (i.scale * tenPow k.toNat) :=
    (Nat.div_lt_iff_lt_mul hunit).1 (Nat.lt_succ_self c)
  rw [hvalue, hvalue, div_le_div_iff₀ hdown hscale, div_lt_div_iff₀ hscale hdown]
  constructor
  · exact_mod_cast (by rw [Nat.mul_assoc, Nat.mul_comm (tenPow _)]; exact hlow)
  · exact_mod_cast (by rw [Nat.mul_assoc, Nat.mul_comm (tenPow _)]; exact hhigh)

/-- What is found on a grid lies in the interval. -/
theorem contains_of_onGrid? (hs : i.scale ≠ 0) (h : i.onGrid? tie k = some c) :
    i.Contains (Decimal.value ⟨c, k⟩) := by
  unfold onGrid? at h
  dsimp only at h
  generalize i.middle * tenPow (-k).toNat / (i.scale * tenPow k.toNat) = lower at h
  rw [← holds_grid hs]
  split at h
  · cases h
  · next hlower _ => cases h; exact hlower
  · next _ hupper => cases h; exact hupper
  · next hlower hupper =>
    have hboth : c = lower ∨ c = lower + 1 := by
      split at h
      · exact .inl (Option.some.inj h).symm
      split at h
      · exact .inr (Option.some.inj h).symm
      cases tie with
      | up => exact .inr (Option.some.inj h).symm
      | even =>
        have hc := Option.some.inj h
        omega
    rcases hboth with rfl | rfl
    · exact hlower
    · exact hupper

/-- Where nothing is found on a grid, nothing of it lies in the interval: on either side of the value, the
neighbour is the first that would. -/
theorem not_contains_of_onGrid? (hs : i.scale ≠ 0) (hmiddle : i.Contains (i.middle / i.scale))
    (h : i.onGrid? tie k = none) (n : Nat) : ¬ i.Contains (Decimal.value ⟨n, k⟩) := by
  intro hn
  obtain ⟨hlow, hhigh⟩ := grid_cell hs k
  unfold onGrid? at h
  dsimp only at h
  generalize i.middle * tenPow (-k).toNat / (i.scale * tenPow k.toNat) = lower at *
  have hmono {a b : Nat} (hab : a ≤ b) : Decimal.value ⟨a, k⟩ ≤ Decimal.value ⟨b, k⟩ :=
    mul_le_mul_of_nonneg_right (Nat.cast_le.2 hab) (by positivity)
  have hhit : i.holds (lower * tenPow k.toNat) (tenPow (-k).toNat) = true ∨
      i.holds ((lower + 1) * tenPow k.toNat) (tenPow (-k).toNat) = true := by
    rw [holds_grid hs, holds_grid hs]
    rcases Nat.lt_or_ge lower n with hlt | hge
    · exact .inr (hmiddle.of_between hn hhigh.le (hmono hlt))
    · exact .inl (hn.of_between hmiddle (hmono hge) hlow)
  split at h
  · next hlower hupper =>
    rw [hlower, hupper] at hhit
    rcases hhit with hhit | hhit <;> cases hhit
  · cases h
  · cases h
  · split at h
    · cases h
    split at h
    · cases h
    cases tie with
    | up => cases h
    | even => cases h

/-- What is found lies in the interval, and on one of the grids that are tried. -/
theorem contains_of_coarsest? (hs : i.scale ≠ 0) (h : i.coarsest? tie n k = some d) :
    i.Contains d.value ∧ k - n < d.exponent := by
  induction n generalizing k with
  | zero => cases h
  | succ n ih =>
    rw [coarsest?] at h
    split at h
    · next c hc =>
      cases h
      refine ⟨contains_of_onGrid? hs hc, ?_⟩
      dsimp only
      omega
    · obtain ⟨hd, hgrid⟩ := ih h
      exact ⟨hd, by omega⟩

/-- If a grid that is tried has a point in the interval, then something is found there or before. -/
theorem exists_coarsest? (hs : i.scale ≠ 0) (hmiddle : i.Contains (i.middle / i.scale))
    (hc : i.Contains (Decimal.value ⟨c, j⟩)) (hj : k - n < j) (hk : j ≤ k) :
    ∃ d, i.coarsest? tie n k = some d ∧ j ≤ d.exponent := by
  induction n generalizing k with
  | zero => omega
  | succ n ih =>
    rw [coarsest?]
    cases hgrid : i.onGrid? tie k with
    | some c => exact ⟨⟨c, k⟩, rfl, hk⟩
    | none =>
      have hne : j ≠ k := by
        rintro rfl
        exact not_contains_of_onGrid? hs hmiddle hgrid c hc
      exact ih (by omega) (by omega)

/-- The ends of an interval are counted in quarters of a unit. -/
theorem scaled_quarters (F : Format) (m a : Nat) :
    ((a * twoPow (F.exponent m - 2).toNat : Nat) : ℚ) / (twoPow (-(F.exponent m - 2)).toNat : Nat) =
      a * F.unit m / 4 := by
  have hquarter : (2 : ℚ) ^ (F.exponent m - 2) = F.unit m / 4 := by
    rw [Format.unit, zpow_sub₀ two_ne_zero]
    norm_num
  rw [mul_div_assoc, ← hquarter, zpow_eq_div 2]
  push_cast [cast_twoPow]
  rw [mul_div_assoc]

section
variable {F : Format} {m : Nat}

/-- The interval of a magnitude holds the reals that round to it. -/
theorem contains_ofMagnitude (hF : F.Regular) (hm : m ≠ 0) :
    (ofMagnitude F m).Contains x ↔ F.Rounds m x := by
  have hsig := F.significand_ne_zero hm
  have hlow : ((ofMagnitude F m).low / (ofMagnitude F m).scale : ℚ) =
      (F.valueOf (m - 1) + F.valueOf m) / 2 := by
    refine (scaled_quarters F m _).trans ?_
    rw [F.valueOf_sub_one hm, Nat.cast_sub (by split <;> omega), Format.valueOf, Format.unit]
    push_cast
    ring
  have hhigh : ((ofMagnitude F m).high / (ofMagnitude F m).scale : ℚ) =
      (F.valueOf m + F.valueOf (m + 1)) / 2 := by
    refine (scaled_quarters F m _).trans ?_
    rw [F.valueOf_add_one, Format.valueOf, Format.unit]
    push_cast
    ring
  have hclosed : (ofMagnitude F m).closed = true ↔ m % 2 = 0 := by
    rw [← hF.significand_mod_two]
    exact beq_iff_eq
  rw [Contains, hlow, hhigh, Format.rounds_iff hm]
  split
  · next h =>
    rw [if_pos (hclosed.1 h), div_le_iff₀ two_pos, le_div_iff₀ two_pos, mul_comm x]
  · next h =>
    rw [if_neg (mt hclosed.2 h), div_lt_iff₀ two_pos, lt_div_iff₀ two_pos, mul_comm x]

/-- The value is in the middle of its interval. -/
theorem contains_middle (hF : F.Regular) (hm : m ≠ 0) :
    (ofMagnitude F m).Contains ((ofMagnitude F m).middle / (ofMagnitude F m).scale) := by
  have hvalue : ((ofMagnitude F m).middle / (ofMagnitude F m).scale : ℚ) = F.valueOf m := by
    refine (scaled_quarters F m _).trans ?_
    rw [Format.valueOf, Format.unit]
    push_cast
    ring
  rw [contains_ofMagnitude hF hm, hvalue]
  exact F.rounds_valueOf m

/-- The bounds of the interval of a magnitude have a denominator. -/
theorem scale_ofMagnitude_ne_zero : (ofMagnitude F m).scale ≠ 0 := (Nat.pow_pos (by decide)).ne'

end

end Interval

/-! ## The grids that are tried -/

/-- If one power of `a` is at most one of `b`, then so are all those whose exponents are in no greater ratio. -/
theorem zpow_le_zpow_of_pow_le {a b p q : Nat} (hb : 1 ≤ b) (hp : p ≠ 0)
    (h : Nat.pow a p ≤ Nat.pow b q) {j k : Int} (hj : 0 ≤ j) (hjk : j * q ≤ k * p) :
    (a : ℚ) ^ j ≤ (b : ℚ) ^ k := by
  have hone : (1 : ℚ) ≤ b := Nat.one_le_cast.2 hb
  have hpow : (a : ℚ) ^ p ≤ (b : ℚ) ^ q := by exact_mod_cast h
  refine le_of_pow_le_pow_left₀ hp (by positivity) ?_
  calc ((a : ℚ) ^ j) ^ p = ((a : ℚ) ^ p) ^ j := by rw [← zpow_natCast, ← zpow_natCast, zpow_comm]
    _ ≤ ((b : ℚ) ^ q) ^ j := zpow_le_zpow_left₀ hj (by positivity) hpow
    _ = (b : ℚ) ^ (j * q) := by rw [← zpow_natCast, ← zpow_mul, mul_comm]
    _ ≤ (b : ℚ) ^ (k * p) := zpow_le_zpow_right₀ hone hjk
    _ = ((b : ℚ) ^ k) ^ p := by rw [← zpow_natCast, ← zpow_mul]

/-- Powers are compared by their inverses. -/
theorem zpow_le_zpow_of_neg {a b : ℚ} (ha : 0 < a) (hb : 0 < b) {j k : Int} (h : b ^ (-k) ≤ a ^ (-j)) :
    a ^ j ≤ b ^ k := by
  rwa [zpow_neg, zpow_neg, inv_le_inv₀ (by positivity) (by positivity)] at h

/-- Up to `2 ^ 1100` and down to `2 ^ -1100`, multiplying by `30103 / 100000` takes the exponent of a power of
two to that of a power of ten around it. The decimal logarithm of two is at most this ratio and at least
`8651 / 28738`. -/
theorem tenPow_bounds {e : Int} (hlow : -1100 ≤ e) (hhigh : e ≤ 1100) :
    (2 : ℚ) ^ e ≤ 10 ^ (e * 30103 / 100000 + 1) ∧ (10 : ℚ) ^ (e * 30103 / 100000) ≤ 2 ^ (e + 1) := by
  have habove {j k : Int} (hj : 0 ≤ j) (hjk : j * 30103 ≤ k * 100000) : (2 : ℚ) ^ j ≤ 10 ^ k :=
    zpow_le_zpow_of_pow_le (a := 2) (b := 10) (p := 100000) (q := 30103) (by norm_num) (by norm_num)
      (by decide +kernel) hj hjk
  have hbelow {j k : Int} (hj : 0 ≤ j) (hjk : j * 28738 ≤ k * 8651) : (10 : ℚ) ^ j ≤ 2 ^ k :=
    zpow_le_zpow_of_pow_le (a := 10) (b := 2) (p := 8651) (q := 28738) (by norm_num) (by norm_num)
      (by decide +kernel) hj hjk
  by_cases he : 0 ≤ e
  · exact ⟨habove he (by omega), hbelow (by omega) (by omega)⟩
  · exact ⟨zpow_le_zpow_of_neg two_pos (by norm_num) (hbelow (by omega) (by omega)),
      zpow_le_zpow_of_neg (by norm_num) two_pos (habove (by omega) (by omega))⟩

namespace Format

/-- A format that is not so wide that `30103 / 100000` is too coarse a logarithm. -/
structure Moderate (F : Format) : Prop extends F.Regular where
  leastExponent : -1100 ≤ F.leastExponent
  limit : F.limit ≤ 1100

/-- The narrow format is moderate. -/
theorem moderate_binary32 : binary32.Moderate := ⟨regular_binary32, by decide, by decide⟩

/-- The wide format is moderate. -/
theorem moderate_binary64 : binary64.Moderate := ⟨regular_binary64, by decide, by decide⟩

/-- The exponent of the power of two above a magnitude. -/
def reach (F : Format) (m : Nat) : Int := (F.significand m).log2 + F.exponent m + 1

section
variable {F : Format} {m : Nat} {x : ℚ}

/-- A magnitude reaches at most as far as its significand has digits. -/
theorem reach_le (hF : F.Regular) (hm : m ≠ 0) : F.reach m ≤ F.exponent m + F.precision := by
  have hlog : (F.significand m).log2 < F.precision := by
    rw [Nat.log2_lt (F.significand_ne_zero hm), ← hF.two_mul_step]
    exact F.significand_lt m
  rw [reach]
  omega

/-- Finite magnitudes lie between the least power of two and the one at which the format ends. -/
theorem reach_bounds (hF : F.Regular) (hm : m ≠ 0) (hfinite : m < F.infinity) :
    F.leastExponent ≤ F.reach m ∧ F.reach m ≤ F.limit := by
  have hreach := reach_le hF hm
  have hend := hF.leastExponent_add
  obtain ⟨k, s, rfl, hs, hk⟩ := F.exists_block m
  have hexponent := (fields_block hs hk).2
  have hblock : k ≤ 2 ^ F.exponentWidth - 3 := by
    rw [hF.infinity_eq] at hfinite
    rcases hk with rfl | hk
    · omega
    · by_contra hlt
      have hmul := Nat.mul_le_mul_right F.step (by omega : 2 ^ F.exponentWidth - 3 + 1 ≤ k)
      rw [Nat.succ_mul] at hmul
      omega
  refine ⟨?_, by omega⟩
  rw [reach]
  omega

/-- What rounds to a magnitude is below the power of two above it. -/
theorem Rounds.lt_reach (h : F.Rounds m x) : x < 2 ^ F.reach m := by
  have hunit := F.unit_pos m
  have hsucc : ((F.significand m : ℚ) + 1) ≤ 2 ^ ((F.significand m).log2 + 1) := by
    exact_mod_cast Nat.lt_log2_self
  have hpower : (2 : ℚ) ^ F.reach m = 2 ^ ((F.significand m).log2 + 1) * F.unit m := by
    rw [unit, ← zpow_natCast, ← zpow_add₀ two_ne_zero, reach]
    congr 1
    push_cast
    ring
  have hle := mul_le_mul_of_nonneg_right hsucc hunit.le
  have hx := h.lt_add_unit
  rw [valueOf, ← unit] at hx
  rw [hpower]
  linarith

/-- The first grid lies above all that rounds to the magnitude. -/
theorem Rounds.lt_gridAbove (hF : F.Moderate) (hm : m ≠ 0) (hfinite : m < F.infinity)
    (h : F.Rounds m x) : x < 10 ^ gridAbove F m := by
  have hleast := hF.leastExponent
  have hlimit := hF.limit
  obtain ⟨hlow, hhigh⟩ := reach_bounds hF.toRegular hm hfinite
  exact h.lt_reach.trans_le (tenPow_bounds (by omega) (by omega)).1

/-- The last grid is finer than half a unit. -/
theorem two_mul_lastGrid_lt (hF : F.Moderate) (hm : m ≠ 0) (hfinite : m < F.infinity) :
    2 * (10 : ℚ) ^ (gridAbove F m - (F.precision / 3 + 3 : Nat)) < F.unit m := by
  have hleast := hF.leastExponent
  have hlimit := hF.limit
  have hreach := reach_le hF.toRegular hm
  obtain ⟨hlow, hhigh⟩ := reach_bounds hF.toRegular hm hfinite
  have hpower : (2 : ℚ) ^ ((F.precision : Int) + 4) ≤ 10 ^ ((F.precision / 3 + 2 : Nat) : Int) := by
    calc (2 : ℚ) ^ ((F.precision : Int) + 4) ≤ 2 ^ (3 * ((F.precision / 3 + 2 : Nat) : Int)) :=
          zpow_le_zpow_right₀ one_le_two (by omega)
      _ = 8 ^ ((F.precision / 3 + 2 : Nat) : Int) := (Decimal.eight_zpow _).symm
      _ ≤ 10 ^ ((F.precision / 3 + 2 : Nat) : Int) :=
          zpow_le_zpow_left₀ (Int.natCast_nonneg _) (by norm_num) (by norm_num)
  have hgrid : (10 : ℚ) ^ (gridAbove F m - (F.precision / 3 + 3 : Nat)) ≤ 2 ^ (F.exponent m - 3) := by
    refine le_of_mul_le_mul_right ?_ (by positivity : (0 : ℚ) < 2 ^ ((F.precision : Int) + 4))
    calc (10 : ℚ) ^ (gridAbove F m - (F.precision / 3 + 3 : Nat)) * 2 ^ ((F.precision : Int) + 4)
        ≤ 10 ^ (gridAbove F m - (F.precision / 3 + 3 : Nat)) * 10 ^ ((F.precision / 3 + 2 : Nat) : Int) :=
          mul_le_mul_of_nonneg_left hpower (by positivity)
      _ = 10 ^ (F.reach m * 30103 / 100000) := by
          rw [← zpow_add₀ (by norm_num)]
          congr 1
          change F.reach m * 30103 / 100000 + 1 - _ + _ = _
          push_cast
          ring
      _ ≤ 2 ^ (F.reach m + 1) := (tenPow_bounds (by omega) (by omega)).2
      _ ≤ 2 ^ (F.exponent m - 3 + (F.precision + 4)) := zpow_le_zpow_right₀ one_le_two (by omega)
      _ = 2 ^ (F.exponent m - 3) * 2 ^ ((F.precision : Int) + 4) := zpow_add₀ two_ne_zero _ _
  calc 2 * (10 : ℚ) ^ (gridAbove F m - (F.precision / 3 + 3 : Nat)) ≤ 2 * 2 ^ (F.exponent m - 3) :=
        mul_le_mul_of_nonneg_left hgrid zero_le_two
    _ = 2 ^ (F.exponent m - 2) := by
        rw [← zpow_one_add₀ two_ne_zero]
        congr 1
        ring
    _ < F.unit m := zpow_lt_zpow_right₀ one_lt_two (by omega)

/-- The decimal number that is found is the shortest one. -/
theorem isShortest_shortest (hF : F.Moderate) (hm : m ≠ 0) (hfinite : m < F.infinity) (tie : Tie) :
    (shortest F tie m).IsShortest F m := by
  have hscale : (Interval.ofMagnitude F m).scale ≠ 0 := Interval.scale_ofMagnitude_ne_zero
  have hmiddle := Interval.contains_middle hF.toRegular hm
  have found {c : Nat} {j : Int} (hc : F.Rounds m (Decimal.value ⟨c, j⟩))
      (hj : gridAbove F m - (F.precision / 3 + 4 : Nat) < j) (hk : j ≤ gridAbove F m) :
      ∃ d, (Interval.ofMagnitude F m).coarsest? tie (F.precision / 3 + 4) (gridAbove F m) = some d ∧
        j ≤ d.exponent :=
    Interval.exists_coarsest? hscale hmiddle ((Interval.contains_ofMagnitude hF.toRegular hm).2 hc) hj hk
  obtain ⟨c, hc⟩ := exists_rounds_of_lt hm (two_mul_lastGrid_lt hF hm hfinite)
  obtain ⟨d, hd, -⟩ := found hc (by omega) (by omega)
  obtain ⟨hrounds, hlast⟩ := Interval.contains_of_coarsest? hscale hd
  rw [Interval.contains_ofMagnitude hF.toRegular hm] at hrounds
  have hshortest : shortest F tie m = d := by
    rw [shortest, if_neg hm, hd]
    rfl
  rw [hshortest]
  refine ⟨hrounds, fun c k hk hc => ?_⟩
  rcases lt_or_ge (gridAbove F m) k with habove | htried
  · have hlt := hc.lt_gridAbove hF hm hfinite
    have hne := hc.ne_zero hm
    have hone : (1 : ℚ) ≤ c := by
      refine Nat.one_le_cast.2 (Nat.pos_of_ne_zero ?_)
      rintro rfl
      rw [Decimal.value, Nat.cast_zero, zero_mul] at hne
      exact hne rfl
    have hge : (10 : ℚ) ^ gridAbove F m ≤ Decimal.value ⟨c, k⟩ :=
      calc (10 : ℚ) ^ gridAbove F m ≤ 10 ^ k := zpow_le_zpow_right₀ (by norm_num) habove.le
        _ ≤ c * 10 ^ k := le_mul_of_one_le_left (by positivity) hone
    exact absurd hlt (not_lt.2 hge)
  · obtain ⟨d', hd', hle⟩ := found hc (by omega) htried
    cases hd.symm.trans hd'
    omega

end

end Format

end BrightLexer
