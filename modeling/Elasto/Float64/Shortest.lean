import Elasto.Float64.Word

/-! # Shortest decimals of doubles

Every real of the rounding interval of a double reads back as that double. Of the decimals
inside it, `shortest` takes those with the fewest significant digits, and of these the
nearest to the double, a tie going up. The search walks the grids `10^k` from coarse to
fine: a grid has a point inside the interval exactly when one of the double's two
neighbours on that grid lies inside. -/

namespace Elasto.Float64

/-- The decimal `digits · 10^exp10`. -/
structure Decimal where
  digits : Nat
  exp10 : Int
  deriving Repr

/-- The rounding interval of a positive double `mant · 2^exp`: its ends and centre,
scaled by `2^scale`, and whether the ends themselves read back. -/
structure Interval where
  lo : Nat
  mid : Nat
  hi : Nat
  scale : Int
  closed : Bool

namespace Interval

/-- The interval of `mant · 2^exp`; below a power of two the gap to the predecessor is
half the usual one. Round-to-even reads an end back exactly when `mant` is even. -/
def ofWord (mant : Nat) (exp : Int) : Interval :=
  let narrow := mant = Nat.pow 2 52 ∧ Word.minExp < exp
  { lo := if narrow then 4 * mant - 1 else 4 * mant - 2
    mid := 4 * mant
    hi := 4 * mant + 2
    scale := exp - 2
    closed := mant % 2 == 0 }

/-- `x · 2^scale / 10^k` as a fraction of naturals, numerator first. -/
def onGrid (x : Nat) (scale k : Int) : Nat × Nat :=
  (x * Nat.pow 2 scale.toNat * Nat.pow 10 (-k).toNat, Nat.pow 2 (-scale).toNat * Nat.pow 10 k.toNat)

/-- Whether `j · 10^k` lies in the interval. -/
def holds (I : Interval) (k : Int) (j : Nat) : Bool :=
  let (lo, b) := onGrid I.lo I.scale k
  let (hi, _) := onGrid I.hi I.scale k
  if I.closed then lo ≤ j * b && j * b ≤ hi else lo < j * b && j * b < hi

/-- The multiple of `10^k` inside the interval nearest to its centre, a tie going up. -/
def pick (I : Interval) (k : Int) : Option Nat :=
  let (a, b) := onGrid I.mid I.scale k
  let j := a / b
  let down := I.holds k j
  let up := I.holds k (j + 1)
  if up && (!down || b ≤ 2 * (a - j * b)) then some (j + 1)
  else if down then some j else none

/-- Walks the grids `10^k, 10^(k-1), …` until one has a point inside. -/
def search (I : Interval) : Nat → Int → Decimal
  | 0, k => ⟨I.mid, k⟩
  | fuel + 1, k =>
    match I.pick k with
    | some j => ⟨j, k⟩
    | none => I.search fuel (k - 1)

end Interval

/-- Drops trailing zeros of the digits into the exponent. -/
def Decimal.trim : Nat → Decimal → Decimal
  | 0, d => d
  | fuel + 1, d =>
    if d.digits ≠ 0 ∧ d.digits % 10 = 0 then Decimal.trim fuel ⟨d.digits / 10, d.exp10 + 1⟩ else d

/-- The shortest decimal reading back as the positive double `mant · 2^exp`. The first grid
tried lies above the double's magnitude; seventeen digits always suffice, so thirty grids
are enough. -/
def shortest (mant : Nat) (exp : Int) : Decimal :=
  let top : Int := (exp + mant.log2 + 1) * 30103 / 100000 + 2
  Decimal.trim 20 ((Interval.ofWord mant exp).search 32 top)

end Elasto.Float64
