import PocketReader.Toml.Scalar
import PocketReader.Toml.Table

/-! TOML texts read line by line. -/
namespace PocketReader.Toml

abbrev Parser (α : Type) := List Char → Option (α × List Char)

def isGap (c : Char) : Bool := c == ' ' || c == '\t'

/-- Characters that stand for themselves in comments and texts of one line. -/
def isPrintable (c : Char) : Bool := c == '\t' || (0x20 ≤ c.toNat && c.toNat != 0x7f)

def skipGaps (s : List Char) : List Char := s.dropWhile isGap

def lineBreak? : List Char → Option (List Char)
  | '\n' :: rest | '\x0d' :: '\n' :: rest => some rest
  | _ => none

def skipComment : List Char → List Char
  | '#' :: rest => rest.dropWhile isPrintable
  | s => s

/-- Nothing but a comment up to the end of the line, and what follows it. -/
def lineEnd? (s : List Char) : Option (List Char) :=
  match skipComment (skipGaps s) with
  | [] => some []
  | s => lineBreak? s

/-- Gaps, comments and line breaks between the parts of a value; `fuel` bounds the number of lines. -/
def skipLines? : Nat → List Char → Option (List Char)
  | 0, s => some (skipGaps s)
  | fuel + 1, s =>
    match skipGaps s with
    | '#' :: rest => (lineEnd? ('#' :: rest)).bind (skipLines? fuel)
    | s =>
      match lineBreak? s with
      | some rest => skipLines? fuel rest
      | none => some s

def scalarOf? (n : Nat) : Option Char :=
  if n < 0xd800 ∨ (0xe000 ≤ n ∧ n < 0x110000) then some (Char.ofNat n) else none

def codePoint? (count : Nat) (s : List Char) : Option (Char × List Char) :=
  let digits := s.take count
  if digits.length = count ∧ digits.all isHex then
    (scalarOf? (valueOf 16 digits)).map fun c => (c, s.drop count)
  else none

def escape? : Parser Char
  | 'b' :: rest => some ('\x08', rest)
  | 't' :: rest => some ('\t', rest)
  | 'n' :: rest => some ('\n', rest)
  | 'f' :: rest => some ('\x0c', rest)
  | 'r' :: rest => some ('\x0d', rest)
  | 'e' :: rest => some ('\x1b', rest)
  | '"' :: rest => some ('"', rest)
  | '\\' :: rest => some ('\\', rest)
  | 'x' :: rest => codePoint? 2 rest
  | 'u' :: rest => codePoint? 4 rest
  | 'U' :: rest => codePoint? 8 rest
  | _ => none

def basic? : Nat → Parser (List Char)
  | 0, _ => none
  | fuel + 1, s =>
    match s with
    | '"' :: rest => some ([], rest)
    | '\\' :: rest => do
      let (c, rest) ← escape? rest
      let (text, rest) ← basic? fuel rest
      some (c :: text, rest)
    | c :: rest => if isPrintable c then (basic? fuel rest).map fun (text, rest) => (c :: text, rest) else none
    | [] => none

/-- A text on one line, up to its single quote, in which nothing is escaped. -/
def literal? (s : List Char) : Option (List Char × List Char) :=
  match s.dropWhile fun c => isPrintable c && c != '\x27' with
  | '\x27' :: rest => some (s.takeWhile fun c => isPrintable c && c != '\x27', rest)
  | _ => none

/-- A run of quotes inside a text of several lines: three of them end it, and two may stand before those. -/
def closing? (quote : Char) (s : List Char) : Option (Option (List Char × List Char)) :=
  let run := s.takeWhile (· == quote)
  let rest := s.dropWhile (· == quote)
  if run.length < 3 then none
  else if 5 < run.length then some none
  else some (some (run.drop 3, rest))

def skipBreaks : List Char → List Char
  | '\x0d' :: '\n' :: rest => skipBreaks rest
  | c :: rest => if isGap c || c == '\n' then skipBreaks rest else c :: rest
  | [] => []

/-- A text of several lines, up to three quotes; only between double quotes does a backslash mean anything, and at the
end of a line it joins the next words to it. Line breaks stay as they are. -/
def lines? (quote : Char) : Nat → Parser (List Char)
  | 0, _ => none
  | fuel + 1, s =>
    match closing? quote s with
    | some end? => end?
    | none =>
      match s with
      | [] => none
      | '\\' :: rest =>
        if quote = '"' then
          match lineBreak? (skipGaps rest) with
          | some after => lines? quote fuel (skipBreaks after)
          | none => do
            let (c, rest) ← escape? rest
            let (text, rest) ← lines? quote fuel rest
            some (c :: text, rest)
        else (lines? quote fuel rest).map fun (text, rest) => ('\\' :: text, rest)
      | '\x0d' :: '\n' :: rest => (lines? quote fuel rest).map fun (text, rest) => ('\x0d' :: '\n' :: text, rest)
      | c :: rest =>
        if c == '\n' || isPrintable c then
          (lines? quote fuel rest).map fun (text, rest) => (c :: text, rest)
        else none

/-- A line break right after the opening quotes does not count. -/
def afterOpening (s : List Char) : List Char := (lineBreak? s).getD s

def text? : Parser String
  | '"' :: '"' :: '"' :: rest =>
    (lines? '"' (rest.length + 1) (afterOpening rest)).map fun (s, rest) => (String.ofList s, rest)
  | '\x27' :: '\x27' :: '\x27' :: rest =>
    (lines? '\x27' (rest.length + 1) (afterOpening rest)).map fun (s, rest) => (String.ofList s, rest)
  | '"' :: rest => (basic? (rest.length + 1) rest).map fun (s, rest) => (String.ofList s, rest)
  | '\x27' :: rest => (literal? rest).map fun (s, rest) => (String.ofList s, rest)
  | _ => none

def isBare (c : Char) : Bool := c.isAlphanum || c == '_' || c == '-'

def name? (s : List Char) : Option (String × List Char) :=
  match s with
  | '"' :: rest => (basic? (rest.length + 1) rest).map fun (s, rest) => (String.ofList s, rest)
  | '\x27' :: rest => (literal? rest).map fun (s, rest) => (String.ofList s, rest)
  | s => if s.head?.any isBare then some (String.ofList (s.takeWhile isBare), s.dropWhile isBare) else none

/-- Brackets and braces are nested no deeper, and no key has more names. -/
def deepest : Nat := 80

/-- At most so many names with dots between them: those before the last, and the last. -/
def key? : Nat → Parser (List String × String)
  | 0, _ => none
  | count + 1, s => do
    let (name, rest) ← name? s
    match skipGaps rest with
    | '.' :: rest =>
      let ((path, last), rest) ← key? count (skipGaps rest)
      some ((name :: path, last), rest)
    | rest => some (([], name), rest)

/-- Characters a number or a date can be made of. -/
def isPlain (c : Char) : Bool := c.isAlphanum || c == '_' || c == '-' || c == '+' || c == '.' || c == ':'

/-- A number, truth value or date. A date may be followed by a time after one space. -/
def plain? (s : List Char) : Option (Value × List Char) :=
  let word := s.takeWhile isPlain
  match s.dropWhile isPlain with
  | ' ' :: rest =>
    if date? word == some [] && (hourMinute? (rest.take 5)).isSome then
      (scalar? (word ++ ' ' :: rest.takeWhile isPlain)).map fun v => (v, rest.dropWhile isPlain)
    else (scalar? word).map fun v => (v, ' ' :: rest)
  | rest => (scalar? word).map fun v => (v, rest)

mutual

/-- A value; `depth` is how much deeper brackets may go. -/
def value? : Nat → Nat → Parser Value
  | 0, _, _ => none
  | fuel + 1, depth, s =>
    match s with
    | '"' :: _ | '\x27' :: _ => (text? s).map fun (s, rest) => (.text s, rest)
    | '[' :: rest =>
      if depth = 0 then none else (items? fuel (depth - 1) rest).map fun (items, rest) => (.array items, rest)
    | '{' :: rest =>
      if depth = 0 then none
      else (pairs? fuel (depth - 1) [] rest).map fun (entries, rest) => (.table (entryValues entries), rest)
    | s => plain? s

/-- The items of an array, up to its bracket; the last may have a comma behind it. -/
def items? : Nat → Nat → Parser (List Value)
  | 0, _, _ => none
  | fuel + 1, depth, s => do
    match ← skipLines? s.length s with
    | ']' :: rest => some ([], rest)
    | s =>
      let (v, rest) ← value? fuel depth s
      match ← skipLines? rest.length rest with
      | ',' :: rest =>
        let (others, rest) ← items? fuel depth rest
        some (v :: others, rest)
      | ']' :: rest => some ([v], rest)
      | _ => none

def pairs? : Nat → Nat → Entries → Parser Entries
  | 0, _, _, _ => none
  | fuel + 1, depth, entries, s => do
    match ← skipLines? s.length s with
    | '}' :: rest => some (entries, rest)
    | s =>
      let ((path, name), rest) ← key? deepest s
      match ← skipLines? rest.length rest with
      | '=' :: rest =>
        let (v, rest) ← value? fuel depth (← skipLines? rest.length rest)
        let entries ← assign path name v entries
        match ← skipLines? rest.length rest with
        | ',' :: rest => pairs? fuel depth entries rest
        | '}' :: rest => some (entries, rest)
        | _ => none
      | _ => none

end

/-- A text that is partly read: the tables so far, and the names of the header in force. -/
structure State where
  root : Entries := []
  header : List String := []

/-- One line that is not blank: a header, or a key with its value. -/
def State.line? (st : State) (s : List Char) : Option (State × List Char) :=
  match s with
  | '[' :: '[' :: rest => do
    let ((path, name), rest) ← key? deepest (skipGaps rest)
    let rest ← expect? ']' (skipGaps rest)
    let rest ← expect? ']' rest
    let root ← openElement path name st.root
    some ({ root, header := path ++ [name] }, rest)
  | '[' :: rest => do
    let ((path, name), rest) ← key? deepest (skipGaps rest)
    let rest ← expect? ']' (skipGaps rest)
    let root ← openTable path name st.root
    some ({ root, header := path ++ [name] }, rest)
  | s => do
    let ((path, name), rest) ← key? deepest s
    let rest ← expect? '=' (skipGaps rest)
    let (v, rest) ← value? (2 * rest.length + 2) deepest (skipGaps rest)
    let root ← within st.header (assign path name v) st.root
    some ({ st with root }, rest)

/-- All lines; each takes at least one character. -/
def lines : Nat → State → List Char → Option State
  | fuel, st, s =>
    match skipGaps s with
    | [] => some st
    | c :: rest =>
      match fuel with
      | 0 => none
      | fuel + 1 =>
        match lineEnd? (c :: rest) with
        | some after => lines fuel st after
        | none => do
          let (st, rest) ← st.line? (c :: rest)
          let rest ← lineEnd? rest
          lines fuel st rest

/-- The entries of a text; the mark of a byte order may stand in front. -/
def parse? (text : String) : Option (List (String × Value)) :=
  let s := match text.toList with
    | '\ufeff' :: rest => rest
    | s => s
  (lines (s.length + 1) {} s).map fun st => entryValues st.root

end PocketReader.Toml
