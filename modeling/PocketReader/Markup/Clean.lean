import PocketReader.Markup.Parser
import PocketReader.Text.Wrap

/-! Trees made fit to be shown: text is broken into lines, links and buttons can be selected, and a node that shows
the text of its first child has a text for its first child. -/
namespace PocketReader.Markup

/-- The characters of a line of text at its usual size on a panel of 320 pixels. -/
def lineWidth : Nat := 26

def startsWithText (f : Forest Content) : Bool := f.head?.any fun c => c.kind == .text

/-- Supplies the text that a node of some kinds shows. -/
def withLeadingText (kind : Kind) (children : Forest Content) : Forest Content :=
  if kind.bearsText && !startsWithText children then .node { kind := .text } .nil children else children

def clean (width : Nat) : Forest Content → Forest Content
  | .nil => .nil
  | .node c kids rest =>
    if c.kind = .text then .node { c with lines := Text.wrap (" ".intercalate c.lines) width } kids (clean width rest)
    else
      .node { c with selectable := c.selectable || c.kind.isInteractive } (withLeadingText c.kind (clean width kids))
        (clean width rest)

def read (source : String) (width : Nat := lineWidth) : Except MarkupError (Forest Content) :=
  (parse source).map (clean width)

/-- A way to read markup as trees and to make each of these fit to be shown. -/
structure Parser where
  parse : String → Except MarkupError (Forest Content)
  /-- What a tree becomes, given as the content of its root and the trees below. -/
  clean : Content → Forest Content → Content × Forest Content

namespace Parser

variable (p : Parser)

def cleanAll : Forest Content → Forest Content
  | .nil => .nil
  | .node c kids rest => .node (p.clean c kids).1 (p.clean c kids).2 (cleanAll rest)

def read (source : String) : Except MarkupError (Forest Content) := (p.parse source).map p.cleanAll

def readBytes (bytes : ByteArray) : Except MarkupError (Forest Content) :=
  match String.fromUTF8? bytes with
  | none => .error .invalidEncoding
  | some source => p.read source

end Parser

/-- Reads tags that nest, and breaks text into lines of some width. -/
def tagParser (width : Nat := lineWidth) : Parser where
  parse := parse
  clean c kids :=
    if c.kind = .text then ({ c with lines := Text.wrap (" ".intercalate c.lines) width }, kids)
    else ({ c with selectable := c.selectable || c.kind.isInteractive }, withLeadingText c.kind (clean width kids))

theorem cleanAll_tagParser (width : Nat) (f : Forest Content) : (tagParser width).cleanAll f = clean width f := by
  induction f with
  | nil => rfl
  | node c kids rest _ ih =>
    rw [Parser.cleanAll, ih, clean, tagParser]
    dsimp only
    split <;> rfl

theorem read_tagParser (width : Nat) (source : String) : (tagParser width).read source = read source width :=
  congrArg (fun cleaned => (parse source).map cleaned) (funext (cleanAll_tagParser width))

end PocketReader.Markup
