/-! The values a TOML text can hold, and which numbers among them are too large to be held once they are looked at. -/
namespace PocketReader.Toml

inductive Value where
  | text (s : String)
  | integer (n : Int)
  | boolean (b : Bool)
  /-- `digits · 10 ^ exponent`, with its sign. -/
  | decimal (negative : Bool) (digits : Nat) (exponent : Int)
  /-- Infinity, or no number at all, as it is written. -/
  | extreme (written : String)
  /-- A date, a time or both, as it is written. -/
  | moment (written : String)
  | array (items : List Value)
  | table (entries : List (String × Value))

/-- Integers are held in at most 128 bits. -/
def fits (n : Int) : Bool :=
  decide (-0x80000000000000000000000000000000 ≤ n) && decide (n ≤ 0xffffffffffffffffffffffffffffffff)

/-- From here on a decimal is nearer to infinity than to the largest binary number of 64 bits:
`(2 ^ 54 - 1) · 2 ^ 970`. -/
def tooLarge : Nat := 0x3fffffffffffff <<< 970

/-- Whether a decimal is near a finite number. Where the first digit stands decides, except in the largest decade. -/
def isFinite (digits : Nat) (exponent : Int) : Bool :=
  let point := (Nat.toDigits 10 digits).length + exponent
  if digits = 0 ∨ point < 309 then true
  else if 309 < point then false
  else
    match exponent with
    | .ofNat n => decide (digits * Nat.pow 10 n < tooLarge)
    | .negSucc n => decide (digits < tooLarge * Nat.pow 10 (n + 1))

mutual

/-- Whether every number inside can be held. -/
def Value.isSound : Value → Bool
  | .integer n => fits n
  | .decimal _ digits exponent => isFinite digits exponent
  | .array items => allSound items
  | .table entries => entriesSound entries
  | _ => true

def allSound : List Value → Bool
  | [] => true
  | v :: rest => v.isSound && allSound rest

def entriesSound : List (String × Value) → Bool
  | [] => true
  | (_, v) :: rest => v.isSound && entriesSound rest

end

end PocketReader.Toml
