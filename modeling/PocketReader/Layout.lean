import PocketReader.Display
import PocketReader.Focus
import PocketReader.Page.Lookup

/-! Where everything on a page goes. Laying out a forest gives the list of steps a frame consists of, drawing requests
and extents of selectable nodes in the order they come about, and does not look at the display. -/
namespace PocketReader.Layout

/-- The space above everything that is drawn. -/
def gap : Nat := 4

def textScale : UInt8 := 2

def headingScale : UInt8 := 3

def textAdvance : Nat := 18

def headingAdvance : Nat := 26

def textLeft : Int32 := 2

/-- Between the border of a button and its label. -/
def padding : Nat := 5

def labelLeft : Int32 := 7

/-- Below the border of a button. -/
def margin : Nat := 2

/-- The part of the page that is looked at. -/
structure Window where
  /-- The height of the bar above it. -/
  statusBar : Nat
  offset : Nat
  selected? : Option Handle := none
  /-- Nodes that start below this line are passed over. -/
  cutoff? : Option Nat := none
  deriving DecidableEq

/-- Where a position on the page is on the panel. -/
def Window.screenY (w : Window) (position : Nat) : Int32 :=
  Int32.ofNat (w.statusBar + position) - Int32.ofNat w.offset

def Window.passesOver (w : Window) (position : Nat) : Bool := w.cutoff?.any (· < position)

/-- How far a pass has come: down the page, and in the list of selectable nodes. -/
structure Cursor where
  position : Nat := 0
  index : Nat := 0
  deriving DecidableEq

inductive Step where
  | draw (op : DrawOp)
  /-- The selectable node with this place in the list has been given its extent. -/
  | mark (place : Nat) (node : Handle) (extent : Extent)
  deriving DecidableEq

def column (w : Window) (left : Int32) (style : TextStyle) (advance : Nat) (position : Nat) :
    List String → List DrawOp
  | [] => []
  | line :: rest =>
    .text left (w.screenY position) line style :: column w left style advance (position + advance) rest

def plain (scale : UInt8) : TextStyle := ⟨.text, .background, scale⟩

/-- A link stands out by its colour, a selected one by the colour behind it. -/
def linkStyle (selected : Bool) : TextStyle :=
  if selected then ⟨.text, .accent, textScale⟩ else ⟨.accent, .background, textScale⟩

def borderColor (selected : Bool) : Color := if selected then .accent else .text

def longest (lines : List String) : Nat := lines.foldl (fun n line => max n line.length) 0

/-- The border of a button is a box around its label; lengths are words of sixteen bits. -/
def boxWidth (lines : List String) : UInt16 :=
  UInt16.ofNat (longest lines * (plain textScale).cellWidth + 2 * padding)

def boxHeight (lines : List String) : Nat := lines.length * textAdvance + 8

def box (w : Window) (color : Color) (top : Nat) (lines : List String) : List DrawOp :=
  let y := w.screenY top
  let width := boxWidth lines
  let height := boxHeight lines
  [ .horizontal textLeft y width color,
    .horizontal textLeft (y + Int32.ofNat height) width color,
    .vertical textLeft y (UInt16.ofNat height) color,
    .vertical (textLeft + Int32.ofNat width.toNat) y (UInt16.ofNat height) color ]

/-- What is drawn for a node that is no container, and the extent it takes up. -/
structure Leaf where
  ops : List DrawOp
  extent : Extent
  deriving DecidableEq

/-- A node that is no container, placed below what has been laid out. Scripts, titles and heads take no room. -/
def leaf (w : Window) (kind : Kind) (selected : Bool) (lines : List String) (position : Nat) : Leaf :=
  let top := position + gap
  match kind with
  | .text => ⟨column w textLeft (plain textScale) textAdvance top lines, ⟨top, top + lines.length * textAdvance⟩⟩
  | .heading =>
    ⟨column w textLeft (plain headingScale) headingAdvance top lines, ⟨top, top + lines.length * headingAdvance⟩⟩
  | .link => ⟨column w textLeft (linkStyle selected) textAdvance top lines, ⟨top, top + lines.length * textAdvance⟩⟩
  | .button =>
    ⟨box w (borderColor selected) top lines ++ column w labelLeft (plain textScale) textAdvance (top + padding) lines,
      ⟨top, top + boxHeight lines + margin⟩⟩
  | _ => ⟨[], ⟨position, position⟩⟩

/-- One for a selectable node. -/
def places (selectable : Bool) : Nat := if selectable then 1 else 0

/-- The selectable nodes of a forest. -/
def selectables : Forest Located → Nat
  | .nil => 0
  | .node n kids rest => places n.content.selectable + selectables kids + selectables rest

def markIf (selectable : Bool) (place : Nat) (node : Handle) (extent : Extent) : List Step :=
  if selectable then [.mark place node extent] else []

/-- Lays out trees one below the other. A container has its place in the list before those of its children, and its
extent after them; what is below any other node is not laid out, only counted. -/
def steps (w : Window) : Forest Located → Cursor → List Step × Cursor
  | .nil, c => ([], c)
  | .node n kids rest, c =>
    if w.passesOver c.position then steps w rest c
    else if n.content.kind.isContainer then
      let (inner, below) := steps w kids { c with index := c.index + places n.content.selectable }
      let (after, last) := steps w rest below
      (inner ++ markIf n.content.selectable c.index n.handle ⟨c.position, below.position⟩ ++ after, last)
    else
      let lines := n.content.shownLines (kids.head?.map Located.content)
      let l := leaf w n.content.kind (w.selected? == some n.handle) lines c.position
      let below : Cursor :=
        { position := l.extent.bottom, index := c.index + places n.content.selectable + selectables kids }
      let (after, last) := steps w rest below
      (l.ops.map .draw ++ markIf n.content.selectable c.index n.handle l.extent ++ after, last)

end PocketReader.Layout
