import PocketReader.Display

/-! A panel that keeps what was drawn since the screen was last filled. Two things make it refuse: a flush while it is
not ready, and a supply of calls that has run out. -/
namespace PocketReader

structure Panel where
  width : UInt16
  height : UInt16
  ops : List DrawOp := []
  frames : Nat := 0
  ready : Bool := true
  /-- How many more calls succeed; `none` when there is no limit. -/
  supply? : Option Nat := none

namespace Panel

/-- Filling the screen starts the record anew. -/
def record (op : DrawOp) (ops : List DrawOp) : List DrawOp :=
  match op with
  | .screen _ => [op]
  | _ => ops ++ [op]

/-- One call less to give; `none` when no call is left. -/
def spend (p : Panel) : Option Panel :=
  match p.supply? with
  | none => some p
  | some 0 => none
  | some (n + 1) => some { p with supply? := some n }

def draw (op : DrawOp) (p : Panel) : Except DisplayError Unit × Panel :=
  match p.spend with
  | none => (.error .busy, p)
  | some p => (.ok (), { p with ops := record op p.ops })

def flush (p : Panel) : Except DisplayError Unit × Panel :=
  match p.spend with
  | none => (.error .busy, p)
  | some p => if p.ready then (.ok (), { p with frames := p.frames + 1 }) else (.error .busy, p)

/-- The lines of text on the panel, in the order they were drawn. -/
def texts (p : Panel) : List String := p.ops.filterMap DrawOp.line?

/-- The first text request that draws exactly this line. -/
def findText? (p : Panel) (line : String) : Option DrawOp := p.ops.find? (·.line? == some line)

instance : Display Panel where
  draw := draw
  flush := flush
  isReady := Panel.ready

end Panel
end PocketReader
