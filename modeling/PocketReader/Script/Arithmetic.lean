import PocketReader.Script.Native
import PocketReader.Script.Numeral

/-! What functions of the script language compute. -/
namespace PocketReader.Script

/-- The whole number nearest to a number; of two, the upper one. -/
def roundUp (x : Float) : Float := if x - x.floor < 0.5 then x.floor else x.ceil

def Arithmetic.apply (x : Float) : Arithmetic → Float
  | .abs => x.abs
  | .ceil => x.ceil
  | .floor => x.floor
  | .round => roundUp x
  | .sign => if 0 < x then 1 else if x < 0 then -1 else x
  | .sqrt => x.sqrt
  | .trunc => if x < 0 then x.ceil else x.floor

/-- The larger of two numbers, or the smaller one; of two zeros, the one with a minus is smaller. -/
def extremeOf (largest : Bool) (x y : Float) : Float :=
  if x.isNaN || y.isNaN then notANumber
  else if x == y then if (1 / x < 0) == largest then y else x
  else if (x < y) == largest then y
  else x

/-- The base that numbers are read in; none if there is no such base. -/
def baseOf? (x : Float) : Option Nat :=
  let base := if x.isNaN || x.isInf then 0 else x.toInt32.toInt
  if base = 0 then some 0 else if 2 ≤ base ∧ base ≤ 36 then some base.toNat else none

end PocketReader.Script
