import PocketReader.Script.Error
import PocketReader.Text.Blank
import PocketReader.Text.Piece

/-! Scripts cut into tokens. Blanks and comments only separate, but a line break among them may end a statement. -/
namespace PocketReader.Script

open PocketReader.Text

inductive Lexeme where
  | word (s : String)
  | number (x : Float)
  | text (u : Units)
  | sign (c : Char)
  /-- Plus and equals in one. -/
  | plusEquals
  /-- The end of the script. -/
  | stop
  /-- What cannot be read; nothing after it is. -/
  | unreadable (fault : Fault)

structure Token where
  lexeme : Lexeme
  /-- Whether the token is the first on its line. -/
  first : Bool
  /-- The source from the token on. -/
  source : List Piece
  /-- The source after the token. -/
  rest : List Piece

def upTo (source rest : List Piece) : List Piece := source.take (source.length - rest.length)

def Token.text (t : Token) : String := String.ofList ((upTo t.source t.rest).map Piece.shown)

def isLineBreak (c : Char) : Bool := c == '\n' || c == '\x0d' || c == '\u2028' || c == '\u2029'

/-- Characters that separate tokens: the blanks but U+0085, and the mark of a byte order. -/
def separates (c : Char) : Bool := (isBlank c && c != '\u0085') || c == '\ufeff'

def startsWord (c : Char) : Bool := c.isAlpha || c == '_' || c == '$' || (0xa0 ≤ c.toNat && !separates c)

def continuesWord (c : Char) : Bool := startsWord c || c.isDigit

/-- The rest after a comment that ends in `*/`, and whether it went over a line break; `none` when it does not end. -/
def blockComment? : List Piece → Option (List Piece × Bool)
  | [] => none
  | .char '*' :: .char '/' :: rest => some (rest, false)
  | piece :: rest => (blockComment? rest).map fun (s, broken) => (s, broken || piece.isChar isLineBreak)

def hexDigit? (c : Char) : Option Nat :=
  if c.isDigit then some (c.toNat - '0'.toNat)
  else if 'a' ≤ c ∧ c ≤ 'f' then some (c.toNat - 'a'.toNat + 10)
  else if 'A' ≤ c ∧ c ≤ 'F' then some (c.toNat - 'A'.toNat + 10)
  else none

/-- The number a run of hexadecimal digits stands for. -/
def hex? (s : List Char) : Option Nat :=
  s.foldl (fun value? c => value?.bind fun value => (hexDigit? c).map (value * 16 + ·)) (some 0)

/-- The number of a character, which may be half of one, in words of sixteen bits. -/
def unitsOf? (n : Nat) : Option Units := if n < 0x110000 then some (Piece.ofNumber n).units else none

/-- What a backslash and one more character mean; most characters only mean themselves. -/
def simpleEscape (c : Char) : Units :=
  match c with
  | 'n' => [10]
  | 't' => [9]
  | 'r' => [13]
  | 'b' => [8]
  | 'f' => [12]
  | 'v' => [11]
  | c => if isLineBreak c then [] else Units.ofChar c

/-- What stands for a character given by its number, with the count of what it takes. -/
def numberedEscape (value? : Option Nat) (taken : Nat) : Except Fault (Units × Nat) :=
  match value?.bind unitsOf? with
  | some units => .ok (units, taken)
  | none => .error .escape

/-- What a backslash and what follows stand for, with the count of what it takes after the backslash. -/
def escape : List Piece → Except Fault (Units × Nat)
  | [] => .error .openText
  | .stray :: _ => .error .encoding
  | .surrogate u :: _ => .ok ([u], 1)
  | .char 'u' :: .char '\x7b' :: rest =>
    let (number, after) := Piece.span (fun c => (hexDigit? c).isSome) rest
    if number.isEmpty || !after.head?.any (Piece.isChar (· == '\x7d')) then .error .escape
    else numberedEscape (hex? number) (number.length + 3)
  | .char 'u' :: .char a :: .char b :: .char c :: .char d :: _ => numberedEscape (hex? [a, b, c, d]) 5
  | .char 'x' :: .char a :: .char b :: _ => numberedEscape (hex? [a, b]) 3
  | .char '\x0d' :: .char '\n' :: _ => .ok ([], 2)
  | .char c :: rest =>
    if c = 'u' ∨ c = 'x' ∨ c = '8' ∨ c = '9' then .error .escape
    else if c = '0' ∧ !rest.head?.any (Piece.isChar Char.isDigit) then .ok ([0], 1)
    else if c.isDigit then .error .escapedDigit
    else .ok (simpleEscape c, 1)

/-- The rest of a text up to its closing quote, and what follows; the first pieces, as many as the number says, belong
to what was read before. -/
def quotedText (quote : Char) : Nat → List Piece → Except Fault (Units × List Piece)
  | _, [] => .error .openText
  | taken + 1, _ :: rest => quotedText quote taken rest
  | 0, .char '\\' :: rest => do
    let (units, count) ← escape rest
    let (text, after) ← quotedText quote count rest
    return (units ++ text, after)
  | 0, .surrogate u :: rest => (quotedText quote 0 rest).map fun (text, after) => (u :: text, after)
  | 0, .stray :: _ => .error .encoding
  | 0, .char c :: rest =>
    if c = quote then .ok ([], rest)
    else if c = '\n' ∨ c = '\x0d' then .error .openText
    else (quotedText quote 0 rest).map fun (text, after) => (Units.ofChar c ++ text, after)

def digitsValue (s : List Char) : Nat := s.foldl (fun n c => n * 10 + (c.toNat - '0'.toNat)) 0

def digits (s : List Piece) : List Char × List Piece := Piece.span Char.isDigit s

def fraction : List Piece → List Char × List Piece
  | .char '.' :: rest => digits rest
  | s => ([], s)

/-- The exponent of a number, without its mark, and what follows; `none` when the mark stands alone. -/
def exponent? : List Piece → Option (Int × List Piece)
  | .char 'e' :: rest | .char 'E' :: rest =>
    let (negative, unsigned) := match rest with
      | .char '-' :: unsigned => (true, unsigned)
      | .char '+' :: unsigned => (false, unsigned)
      | unsigned => (false, unsigned)
    let (value, after) := digits unsigned
    if value.isEmpty then none else some (if negative then -digitsValue value else digitsValue value, after)
  | s => some (0, s)

/-- `digits · 10 ^ exponent`, rounded once. -/
def numberOf (digits : Nat) (exponent : Int) : Float :=
  Float.ofScientific digits (decide (exponent < 0)) exponent.natAbs

/-- The base that the mark after a zero stands for. -/
def baseMark? : Char → Option Nat
  | 'x' | 'X' => some 16
  | 'o' | 'O' => some 8
  | 'b' | 'B' => some 2
  | _ => none

/-- The value of a digit in bases up to 36. -/
def digitOf? (c : Char) : Option Nat :=
  if c.isDigit then some (c.toNat - '0'.toNat)
  else if c.isLower then some (c.toNat - 'a'.toNat + 10)
  else if c.isUpper then some (c.toNat - 'A'.toNat + 10)
  else none

def isDigitIn (base : Nat) (c : Char) : Bool := (digitOf? c).any (· < base)

def valueIn (base : Nat) (digits : List Char) : Nat :=
  digits.foldl (fun n c => n * base + (digitOf? c).getD 0) 0

def decimal? (s : List Piece) : Option (Float × List Piece) := do
  let (whole, afterWhole) := digits s
  let (places, afterPlaces) := fraction afterWhole
  let (exponent, rest) ← exponent? afterPlaces
  some (numberOf (digitsValue (whole ++ places)) (exponent - places.length), rest)

/-- A whole number at the front of a text, after a zero and the mark of a base. -/
def based? : List Piece → Option (Float × List Piece)
  | .char '0' :: .char c :: rest => do
    let base ← baseMark? c
    let (digits, after) := Piece.span (isDigitIn base) rest
    if digits.isEmpty then none else some (numberOf (valueIn base digits) 0, after)
  | _ => none

def hasLeadingZero : List Piece → Bool
  | .char '0' :: .char c :: _ => c.isDigit
  | _ => false

/-- A number at the front of a text, after which no word follows at once. -/
def number (s : List Piece) : Except Fault (Float × List Piece) :=
  if hasLeadingZero s then .error .leadingZero
  else
    match (based? s).or (decimal? s) with
    | none => .error .number
    | some (x, rest) => if rest.head?.any (Piece.isChar startsWord) then .error .number else .ok (x, rest)

/-- Whether a text starts with a number: with a digit, or with a point and a digit. -/
def startsNumber : List Piece → Bool
  | .char '.' :: .char c :: _ => c.isDigit
  | .char c :: _ => c.isDigit
  | _ => false

/-- One token at the front of a text that starts with none of the separators. -/
def lexeme : List Piece → Except Fault (Lexeme × List Piece)
  | [] => .ok (.stop, [])
  | .stray :: _ => .error .encoding
  | .surrogate _ :: _ => .error .character
  | .char c :: rest =>
    if c = '\x27' ∨ c = '"' then (quotedText c 0 rest).map fun (text, after) => (.text text, after)
    else if startsNumber (.char c :: rest) then
      (number (.char c :: rest)).map fun (x, after) => (.number x, after)
    else if startsWord c then
      let (word, after) := Piece.span continuesWord rest
      .ok (.word (String.ofList (c :: word)), after)
    else if c = '+' ∧ rest.head?.any (Piece.isChar (· == '=')) then .ok (.plusEquals, rest.drop 1)
    else if c.toNat < 0x80 then .ok (.sign c, rest)
    else .error .character

/-- All tokens, up to the end or to what cannot be read; `fuel` bounds their number with that of the separators. -/
def tokensFrom : Nat → Bool → List Piece → List Token
  | 0, first, source => [{ lexeme := .stop, first, source, rest := [] }]
  | _, first, [] => [{ lexeme := .stop, first, source := [], rest := [] }]
  | fuel + 1, first, .char '/' :: .char '/' :: rest =>
    tokensFrom fuel first (rest.dropWhile fun piece => !piece.isChar isLineBreak)
  | fuel + 1, first, source@(.char '/' :: .char '*' :: rest) =>
    match blockComment? rest with
    | none => [{ lexeme := .unreadable .openComment, first, source, rest := [] }]
    | some (after, broken) => tokensFrom fuel (first || broken) after
  | fuel + 1, first, source@(piece :: after) =>
    if piece.isChar separates then tokensFrom fuel (first || piece.isChar isLineBreak) after
    else
      match lexeme source with
      | .error fault => [{ lexeme := .unreadable fault, first, source, rest := [] }]
      | .ok (lexeme, rest) => { lexeme, first, source, rest } :: tokensFrom fuel false rest

/-- Every token and separator takes at least one character or byte. -/
def tokens (s : List Piece) : List Token := tokensFrom (s.length + 1) true s

end PocketReader.Script
