/-! Short decimals that read back as a given binary number. The numbers that round to `m · 2 ^ q` form an interval,
and decimals are tried on grids of powers of ten, the coarsest first. The shortest decimal is on the first grid with a
point in the interval. The shortest rounded one is on the first grid whose point nearest to the number is in the
interval: next to a power of two, where the interval is lopsided, a point further off may be inside while the nearest
is not. -/
namespace PocketReader

/-- `digits · 10 ^ exponent`. -/
structure Decimal where
  digits : Nat
  exponent : Int

namespace Decimal

/-- A ratio of natural numbers; the denominator is never zero. -/
structure Ratio where
  num : Nat
  den : Nat

/-- `base ^ exponent`. -/
def Ratio.power (base : Nat) (exponent : Int) : Ratio :=
  if 0 ≤ exponent then ⟨base.pow exponent.toNat, 1⟩ else ⟨1, base.pow (-exponent).toNat⟩

/-- A positive number `m · 2 ^ q`. -/
structure Binary where
  mantissa : Nat
  exponent : Int

/-- The least mantissa of full length, `2 ^ 52`. -/
def fullMantissa : Nat := 0x10000000000000

/-- The number below is half as far away when the mantissa is the least of its exponent. -/
def Binary.lowerGap (b : Binary) : Nat :=
  if b.mantissa = fullMantissa ∧ -1074 < b.exponent then 1 else 2

/-- `num / den` compared with the interval that rounds to `b`, whose ends count when the mantissa is even. -/
def Binary.rounds (b : Binary) (r : Ratio) : Bool :=
  let unit := Ratio.power 2 (b.exponent - 2)
  let value := r.num * unit.den
  let low := (4 * b.mantissa - b.lowerGap) * unit.num * r.den
  let high := (4 * b.mantissa + 2) * unit.num * r.den
  if b.mantissa % 2 = 0 then decide (low ≤ value) && decide (value ≤ high)
  else decide (low < value) && decide (value < high)

def ratio (d : Decimal) : Ratio :=
  let unit := Ratio.power 10 d.exponent
  ⟨d.digits * unit.num, unit.den⟩

/-- A number between two neighbours on a grid. -/
structure Neighbours where
  below : Decimal
  above : Decimal
  /-- Which of the two is nearer: less when it is the one below. -/
  nearer : Ordering

def Binary.neighbours (b : Binary) (exponent : Int) : Neighbours :=
  let unit := Ratio.power 2 b.exponent
  let grid := Ratio.power 10 exponent
  let num := b.mantissa * unit.num * grid.den
  let den := unit.den * grid.num
  { below := ⟨num / den, exponent⟩
    above := ⟨num / den + 1, exponent⟩
    nearer := compare (2 * (num % den)) den }

/-- The nearer neighbour; the upper one when both are equally near. -/
def Neighbours.nearestUp (n : Neighbours) : Decimal := if n.nearer = .lt then n.below else n.above

/-- The nearer neighbour; the even one when both are equally near. -/
def Neighbours.nearestEven (n : Neighbours) : Decimal :=
  if n.nearer = .lt ∨ (n.nearer = .eq ∧ n.below.digits % 2 = 0) then n.below else n.above

/-- The neighbour that reads back, the nearer one if both do. -/
def Binary.inside? (b : Binary) (n : Neighbours) : Option Decimal :=
  match b.rounds n.below.ratio, b.rounds n.above.ratio with
  | true, true => some n.nearestUp
  | true, false => some n.below
  | false, true => some n.above
  | false, false => none

/-- The nearer neighbour, if it reads back. -/
def Binary.rounded? (b : Binary) (n : Neighbours) : Option Decimal :=
  if b.rounds n.nearestEven.ratio then some n.nearestEven else none

/-- The grids on which a number can be written, the coarsest first. -/
def grids : List Int := (List.range 634).map fun (n : Nat) => (309 : Int) - n

/-- The shortest decimal that reads back. -/
def Binary.shortest (b : Binary) : Decimal :=
  (grids.findSome? fun exponent => b.inside? (b.neighbours exponent)).getD ⟨b.mantissa, 0⟩

/-- The shortest decimal that reads back among those to which the number rounds. -/
def Binary.shortestRounded (b : Binary) : Decimal :=
  (grids.findSome? fun exponent => b.rounded? (b.neighbours exponent)).getD ⟨b.mantissa, 0⟩

end Decimal
end PocketReader
