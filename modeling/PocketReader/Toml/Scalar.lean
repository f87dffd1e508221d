import PocketReader.Toml.Value

/-! Numbers, truth values and dates: whatever is written without quotes or brackets. -/
namespace PocketReader.Toml

def isHex (c : Char) : Bool := c.isDigit || ('a' ≤ c && c ≤ 'f') || ('A' ≤ c && c ≤ 'F')

def digitValue (c : Char) : Nat :=
  if c.isDigit then c.toNat - '0'.toNat
  else if 'a' ≤ c ∧ c ≤ 'f' then c.toNat - 'a'.toNat + 10
  else c.toNat - 'A'.toNat + 10

def valueOf (base : Nat) (digits : List Char) : Nat := digits.foldl (fun n c => n * base + digitValue c) 0

/-- Digits with single underscores between them, the underscores left out. -/
def digits? (isDigit : Char → Bool) : List Char → Option (List Char)
  | [] => none
  | [c] => if isDigit c then some [c] else none
  | c :: '_' :: rest => if isDigit c then (digits? isDigit rest).map (c :: ·) else none
  | c :: rest => if isDigit c then (digits? isDigit rest).map (c :: ·) else none

/-- Digits of a whole number, with no zero in front of others. -/
def whole? (s : List Char) : Option (List Char) :=
  (digits? Char.isDigit s).filter fun digits => digits.head? != some '0' || digits.length == 1

def signed : List Char → Bool × List Char
  | '-' :: rest => (true, rest)
  | '+' :: rest => (false, rest)
  | s => (false, s)

/-- A number behind its sign. -/
def negated (negative : Bool) (n : Nat) : Int := if negative then -n else n

def integer? (s : List Char) : Option Int :=
  match s with
  | '0' :: 'x' :: rest => (digits? isHex rest).map fun digits => (valueOf 16 digits : Int)
  | '0' :: 'o' :: rest => (digits? (fun c => '0' ≤ c && c ≤ '7') rest).map fun digits => (valueOf 8 digits : Int)
  | '0' :: 'b' :: rest => (digits? (fun c => c == '0' || c == '1') rest).map fun digits => (valueOf 2 digits : Int)
  | s =>
    (whole? (signed s).2).map fun digits => negated (signed s).1 (valueOf 10 digits)

/-- An exponent with its mark; it may have a sign and zeros in front. -/
def exponent? : List Char → Option Int
  | [] => some 0
  | _ :: s => (digits? Char.isDigit (signed s).2).map fun digits => negated (signed s).1 (valueOf 10 digits)

def fraction? : List Char → Option (List Char)
  | [] => some []
  | _ :: s => digits? Char.isDigit s

def isMark (c : Char) : Bool := c == 'e' || c == 'E'

def decimal? (s : List Char) : Option Value :=
  let mantissa := (signed s).2.takeWhile fun c => !isMark c
  let mark := (signed s).2.dropWhile fun c => !isMark c
  let point := mantissa.dropWhile (· != '.')
  if point.isEmpty && mark.isEmpty then none
  else do
    let whole ← whole? (mantissa.takeWhile (· != '.'))
    let places ← fraction? point
    let exponent ← exponent? mark
    some (.decimal (signed s).1 (valueOf 10 (whole ++ places)) (exponent - places.length))

def isExtreme (s : List Char) : Bool := (signed s).2 == "inf".toList || (signed s).2 == "nan".toList

/-- Exactly so many digits, and what follows them. -/
def fixed? (count : Nat) (s : List Char) : Option (Nat × List Char) :=
  let digits := s.take count
  if digits.length = count ∧ digits.all Char.isDigit then some (valueOf 10 digits, s.drop count) else none

def isLeapYear (year : Nat) : Bool := year % 4 == 0 && (year % 100 != 0 || year % 400 == 0)

def daysIn (year month : Nat) : Nat :=
  if month = 2 then if isLeapYear year then 29 else 28
  else if month = 4 ∨ month = 6 ∨ month = 9 ∨ month = 11 then 30
  else 31

def expect? (c : Char) : List Char → Option (List Char)
  | d :: rest => if d = c then some rest else none
  | [] => none

def date? (s : List Char) : Option (List Char) := do
  let (year, s) ← fixed? 4 s
  let s ← expect? '-' s
  let (month, s) ← fixed? 2 s
  let s ← expect? '-' s
  let (day, s) ← fixed? 2 s
  if 1 ≤ month ∧ month ≤ 12 ∧ 1 ≤ day ∧ day ≤ daysIn year month then some s else none

def hourMinute? (s : List Char) : Option (List Char) := do
  let (hour, s) ← fixed? 2 s
  let s ← expect? ':' s
  let (minute, s) ← fixed? 2 s
  if hour ≤ 23 ∧ minute ≤ 59 then some s else none

/-- A time of the day, whose seconds may be missing, and what follows. -/
def time? (s : List Char) : Option (List Char) := do
  let s ← hourMinute? s
  match s with
  | ':' :: s =>
    let (second, s) ← fixed? 2 s
    if 60 < second then none
    else
      match s with
      | '.' :: s => if s.head?.any Char.isDigit then some (s.dropWhile Char.isDigit) else none
      | s => some s
  | s => some s

/-- Nothing, or the distance from universal time. -/
def isOffset : List Char → Bool
  | [] => true
  | ['Z'] | ['z'] => true
  | '+' :: s | '-' :: s => hourMinute? s == some []
  | _ => false

def isMoment (s : List Char) : Bool :=
  match date? s with
  | some [] => true
  | some (c :: rest) => (c == 'T' || c == 't' || c == ' ') && (time? rest).any isOffset
  | none => time? s == some []

def scalar? (s : List Char) : Option Value :=
  if s == "true".toList then some (.boolean true)
  else if s == "false".toList then some (.boolean false)
  else
    match integer? s, decimal? s with
    | some n, _ => some (.integer n)
    | none, some v => some v
    | none, none =>
      if isExtreme s then some (.extreme (String.ofList s))
      else if isMoment s then some (.moment (String.ofList s))
      else none

end PocketReader.Toml
