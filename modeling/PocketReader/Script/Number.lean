import PocketReader.Decimal.Shortest

/-! The two ways a number is written: on the console always in full, and inside a text of a script with an exponent
when it is very large or very small. -/
namespace PocketReader.Script

open PocketReader.Decimal

/-- A number taken apart. -/
inductive Shape where
  | nan
  | infinite (negative : Bool)
  | zero (negative : Bool)
  | finite (negative : Bool) (magnitude : Binary)

def Shape.ofFloat (x : Float) : Shape :=
  let bits := x.toBits.toNat
  let negative := 0x8000000000000000 ≤ bits
  let exponent := bits / fullMantissa % 2048
  let fraction := bits % fullMantissa
  if exponent = 2047 then if fraction = 0 then .infinite negative else .nan
  else if exponent = 0 then if fraction = 0 then .zero negative else .finite negative ⟨fraction, -1074⟩
  else .finite negative ⟨fraction + fullMantissa, Int.ofNat exponent - 1075⟩

def zeros (n : Nat) : List Char := List.replicate n '0'

def withSign (negative : Bool) (s : List Char) : List Char := if negative then '-' :: s else s

/-- The digits of a number, and where the point stands: the number of digits before it. -/
structure Digits where
  digits : List Char
  point : Int

/-- Zeros at the end belong to the exponent. -/
def Digits.ofDecimal (d : Decimal) : Digits :=
  let digits := Nat.toDigits 10 d.digits
  { digits := (digits.reverse.dropWhile (· == '0')).reverse, point := digits.length + d.exponent }

/-- With all its places, however many. -/
def Digits.positional (d : Digits) : List Char :=
  if d.point ≤ 0 then '0' :: '.' :: (zeros (-d.point).toNat ++ d.digits)
  else if d.digits.length ≤ d.point.toNat then d.digits ++ zeros (d.point.toNat - d.digits.length)
  else d.digits.take d.point.toNat ++ '.' :: d.digits.drop d.point.toNat

/-- One digit before the point, and the exponent with its sign. -/
def Digits.exponential (d : Digits) : List Char :=
  let exponent := d.point - 1
  let mantissa := match d.digits with
    | [] => []
    | [c] => [c]
    | c :: rest => c :: '.' :: rest
  mantissa ++ 'e' :: (if exponent < 0 then '-' else '+') :: Nat.toDigits 10 exponent.natAbs

def consoleNumber (x : Float) : List Char :=
  match Shape.ofFloat x with
  | .nan => "NaN".toList
  | .infinite negative => withSign negative "inf".toList
  | .zero negative => withSign negative ['0']
  | .finite negative b => withSign negative (Digits.ofDecimal b.shortest).positional

/-- A number as text: an exponent from 10 ^ 21 on and below 10 ^ -6, and no sign for zero. -/
def numberText (x : Float) : List Char :=
  match Shape.ofFloat x with
  | .nan => "NaN".toList
  | .infinite negative => withSign negative "Infinity".toList
  | .zero _ => ['0']
  | .finite negative b =>
    let d := Digits.ofDecimal b.shortestRounded
    withSign negative (if -6 < d.point ∧ d.point ≤ 21 then d.positional else d.exponential)

end PocketReader.Script
