import PocketReader.Text.Blank

/-! Greedy line breaking. A word that fits goes on the current line; a word longer than any line is cut into full
pieces, of which the last, shorter or full, opens the next line. -/
namespace PocketReader.Text

/-- How many full pieces come off the front of a word before what is left fits on a line. -/
def surplus (width : Nat) (word : List Char) : Nat := (word.length - 1) / width

/-- The full pieces of a word too long for a line. -/
def pieces (width : Nat) (word : List Char) : List (List Char) :=
  (List.range (surplus width word)).map fun i => (word.drop (i * width)).take width

/-- What is left of a word after its full pieces. -/
def remnant (width : Nat) (word : List Char) : List Char := word.drop (surplus width word * width)

/-- Lines filled from words; `line` is the one being filled. -/
def fill (width : Nat) (line : List Char) : List (List Char) → List (List Char)
  | [] => if line.isEmpty then [] else [line]
  | word :: rest =>
    if line.isEmpty then pieces width word ++ fill width (remnant width word) rest
    else if line.length + 1 + word.length ≤ width then fill width (line ++ ' ' :: word) rest
    else line :: (pieces width word ++ fill width (remnant width word) rest)

/-- A text broken into lines of at most `width` characters; a width of zero counts as one. -/
def wrap (text : String) (width : Nat) : List String :=
  (fill (max width 1) [] (words text.toList)).map String.ofList

end PocketReader.Text
