import BrightLexer.Number.Binary

/-!
# The shortest decimal text of a binary value

A finite nonzero value stands for all the reals that round to it: an interval around it, whose ends
belong to it when its significand is even. `shortest` is the decimal number in that interval with the
fewest digits and, of those, the nearest to the value; where two are equally near, a `Tie` decides.

Grids are tried from the coarsest to the finest, and on each of them only the two neighbours of the
value, since if any point of a grid lies in the interval one of these two does. The first grid with a
hit holds the answer, and its coefficient does not end in a zero, for then a coarser grid would have
had it.
-/

namespace BrightLexer

/-- Which of two equally near decimal numbers is taken. -/
inductive Tie where
  /-- The larger one. -/
  | up
  /-- The one with the even last digit. -/
  | even
deriving DecidableEq

/-- The reals that round to one value, as `low / scale` to `high / scale` around `middle / scale`. -/
structure Interval where
  low : Nat
  middle : Nat
  high : Nat
  scale : Nat
  /-- Whether the two ends belong to it. -/
  closed : Bool

namespace Interval

/-- The reals that round to the finite nonzero magnitude `m`. Below a power of two the values lie
closer together, so there the interval is shorter on its lower side. -/
def ofMagnitude (F : Format) (m : Nat) : Interval :=
  let s := 4 * F.significand m
  let q := F.exponent m - 2
  let unit := twoPow q.toNat
  let below := if m % F.step = 0 ∧ 1 < m / F.step then 1 else 2
  ⟨(s - below) * unit, s * unit, (s + 2) * unit, twoPow (-q).toNat, F.significand m % 2 == 0⟩

/-- Whether `num / den` lies in the interval. -/
def holds (i : Interval) (num den : Nat) : Bool :=
  if i.closed then i.low * den ≤ num * i.scale && num * i.scale ≤ i.high * den
  else i.low * den < num * i.scale && num * i.scale < i.high * den

/-- The coefficient of the point of the grid of `10 ^ k` that stands for the interval, if one does. -/
def onGrid? (i : Interval) (tie : Tie) (k : Int) : Option Nat :=
  let up := tenPow k.toNat
  let down := tenPow (-k).toNat
  let value := i.middle * down
  let unit := i.scale * up
  let c := value / unit
  match i.holds (c * up) down, i.holds ((c + 1) * up) down with
  | false, false => none
  | true, false => some c
  | false, true => some (c + 1)
  | true, true =>
    let toLower := value - c * unit
    let toUpper := (c + 1) * unit - value
    if toLower < toUpper then some c
    else if toUpper < toLower then some (c + 1)
    else match tie with
      | .up => some (c + 1)
      | .even => some (c + c % 2)

/-- The decimal number on the coarsest of `n` grids, from that of `10 ^ k` downwards. -/
def coarsest? (i : Interval) (tie : Tie) : Nat → Int → Option Decimal
  | 0, _ => none
  | n + 1, k =>
    match i.onGrid? tie k with
    | some c => some ⟨c, k⟩
    | none => i.coarsest? tie n (k - 1)

end Interval

/-- A power of ten above every real that rounds to the finite nonzero magnitude `m`; `30103 / 100000`
is a little more than the decimal logarithm of two. -/
def gridAbove (F : Format) (m : Nat) : Int :=
  (((F.significand m).log2 : Int) + F.exponent m + 1) * 30103 / 100000 + 1

/-- The exact value of a finite magnitude: halving is multiplying by five and scaling by a tenth. -/
def exactDecimal (F : Format) (m : Nat) : Decimal :=
  let q := F.exponent m
  ⟨F.significand m * twoPow q.toNat * Nat.pow 5 (-q).toNat, min q 0⟩

/-- The decimal number with the fewest digits that rounds to the finite magnitude `m`. -/
def shortest (F : Format) (tie : Tie) (m : Nat) : Decimal :=
  if m = 0 then ⟨0, 0⟩
  else ((Interval.ofMagnitude F m).coarsest? tie (F.precision / 3 + 4) (gridAbove F m)).getD
    (exactDecimal F m)

end BrightLexer
