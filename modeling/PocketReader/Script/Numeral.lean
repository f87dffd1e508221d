import PocketReader.Script.Token

/-! Numbers read from texts while a script runs. -/
namespace PocketReader.Script

open PocketReader.Text

def notANumber : Float := 0 / 0

def infinity : Float := 1 / 0

def withMinus (negative : Bool) (x : Float) : Float := if negative then -x else x

def signed : List Char → Bool × List Char
  | '-' :: rest => (true, rest)
  | '+' :: rest => (false, rest)
  | s => (false, s)

/-- The longest decimal number at the front, without a sign, and what follows. -/
def decimalFront? (s : List Char) : Option (Float × List Char) :=
  let (whole, afterWhole) := s.span Char.isDigit
  let (places, rest) := match afterWhole with
    | '.' :: rest => rest.span Char.isDigit
    | rest => ([], rest)
  if whole.isEmpty && places.isEmpty then none
  else
    let (exponent, rest) := exponentFront rest
    some (numberOf (digitsValue (whole ++ places)) (exponent - places.length), rest)
where
  /-- The exponent at the front, if one is there, and what follows. -/
  exponentFront : List Char → Int × List Char
    | c :: rest =>
      if c = 'e' ∨ c = 'E' then
        let (negative, unsigned) := signed rest
        let (value, after) := unsigned.span Char.isDigit
        if value.isEmpty then (0, c :: rest)
        else (if negative then -digitsValue value else digitsValue value, after)
      else (0, c :: rest)
    | [] => (0, [])

/-- Text without what separates tokens at its ends. -/
def trimmed (s : List Char) : List Char := ((s.dropWhile separates).reverse.dropWhile separates).reverse

def infinityWord : List Char := "Infinity".toList

def parseNumber (s : List Char) : Float :=
  let (negative, unsigned) := signed (s.dropWhile separates)
  if infinityWord.isPrefixOf unsigned then withMinus negative infinity
  else
    match decimalFront? unsigned with
    | none => notANumber
    | some (x, _) => withMinus negative x

/-- The rest after `0x`. -/
def hexadecimal? : List Char → Option (List Char)
  | '0' :: c :: rest => if c = 'x' ∨ c = 'X' then some rest else none
  | _ => none

/-- The integer at the front of a text; base 0 is ten, or sixteen after `0x`. -/
def parseInteger (base : Nat) (s : List Char) : Float :=
  let (negative, unsigned) := signed (s.dropWhile separates)
  let (base, s) :=
    match hexadecimal? unsigned with
    | some rest => if base = 0 ∨ base = 16 then (16, rest) else (base, unsigned)
    | none => (if base = 0 then 10 else base, unsigned)
  match s.takeWhile (isDigitIn base) with
  | [] => notANumber
  | digits => withMinus negative (numberOf (valueIn base digits) 0)

def readNumber (u : Units) : Float :=
  match u.toString? with
  | none => notANumber
  | some text =>
    match trimmed text.toList with
    | [] => 0
    | s =>
      match marked? s with
      | some x => x
      | none =>
        let (negative, unsigned) := signed s
        if unsigned = infinityWord then withMinus negative infinity
        else
          match decimalFront? unsigned with
          | some (x, []) => withMinus negative x
          | _ => notANumber
where
  /-- A number in another base than ten. -/
  marked? : List Char → Option Float
    | '0' :: c :: rest =>
      (baseMark? c).map fun base =>
        if rest.isEmpty || !rest.all (isDigitIn base) then notANumber else numberOf (valueIn base rest) 0
    | _ => none

end PocketReader.Script
