import PocketReader.Text.Units

/-! Bytes read as text, when not all of them have to be text. -/
namespace PocketReader.Text

/-- What a byte, or some bytes together, stand for. -/
inductive Piece where
  | char (c : Char)
  /-- A surrogate, written the way a character is. -/
  | surrogate (u : UInt16)
  /-- A byte that is part of neither. -/
  | stray

namespace Piece

/-- The bytes that can only continue what another byte starts. -/
def isTail (b : UInt8) : Bool := 0x80 ≤ b && b < 0xc0

/-- The number of `start` and the next `count` bytes, of which each gives six bits. There have to be so many, and a
number that fewer bytes could give is none. -/
def tailed? (start count least : Nat) (rest : List UInt8) : Option (Nat × Nat) :=
  let tail := rest.take count
  let n := tail.foldl (fun n b => n * 64 + b.toNat % 64) start
  if tail.length = count ∧ tail.all isTail ∧ least ≤ n ∧ n < 0x110000 then some (n, count) else none

/-- The number a byte stands for together with bytes after it, and how many of them that takes. -/
def number? (lead : UInt8) (rest : List UInt8) : Option (Nat × Nat) :=
  if lead < 0x80 then some (lead.toNat, 0)
  else if lead < 0xc0 then none
  else if lead < 0xe0 then tailed? (lead.toNat - 0xc0) 1 0x80 rest
  else if lead < 0xf0 then tailed? (lead.toNat - 0xe0) 2 0x800 rest
  else tailed? (lead.toNat - 0xf0) 3 0x10000 rest

def ofNumber (n : Nat) : Piece :=
  if 0xd800 ≤ n ∧ n < 0xe000 then .surrogate (UInt16.ofNat n) else .char (Char.ofNat n)

/-- The pieces of some bytes, of which the first `taken` belong to the piece before. -/
def ofBytes : Nat → List UInt8 → List Piece
  | _, [] => []
  | taken + 1, _ :: rest => ofBytes taken rest
  | 0, lead :: rest =>
    match number? lead rest with
    | some (n, count) => ofNumber n :: ofBytes count rest
    | none => .stray :: ofBytes 0 rest

def replacement : Char := '\ufffd'

/-- A piece as text, where half a character is one that is not there. -/
def shown : Piece → Char
  | .char c => c
  | _ => replacement

/-- A piece in words of sixteen bits, which hold half a character as it is. -/
def units : Piece → Units
  | .char c => Units.ofChar c
  | .surrogate u => [u]
  | .stray => Units.ofChar replacement

/-- Whether this is a character with a property. -/
def isChar (p : Char → Bool) : Piece → Bool
  | .char c => p c
  | _ => false

/-- The characters with a property at the front, and what follows. -/
def span (p : Char → Bool) : List Piece → List Char × List Piece
  | [] => ([], [])
  | .char c :: rest =>
    if p c then
      let (s, after) := span p rest
      (c :: s, after)
    else ([], .char c :: rest)
  | piece :: rest => ([], piece :: rest)

theorem span_fst (p : Char → Bool) (s : List Piece) : (span p s).1.map Piece.char = s.takeWhile (isChar p) := by
  induction s with
  | nil => rfl
  | cons piece rest ih =>
    cases piece with
    | char c => by_cases h : p c <;> simp [span, isChar, h, ih]
    | surrogate u => simp [span, isChar]
    | stray => simp [span, isChar]

theorem span_snd (p : Char → Bool) (s : List Piece) : (span p s).2 = s.dropWhile (isChar p) := by
  induction s with
  | nil => rfl
  | cons piece rest ih =>
    cases piece with
    | char c => by_cases h : p c <;> simp [span, isChar, h, ih]
    | surrogate u => simp [span, isChar]
    | stray => simp [span, isChar]

end Piece
end PocketReader.Text
