import PocketReader.Color

/-! What a reader can ask of a display. Coordinates are signed words: content scrolled off the top is still drawn,
and the display clips it. A refusal is a value, and the display that refused is still there afterwards. -/
namespace PocketReader

/-- How a line of text is drawn; `scale` multiplies a cell of six by eight pixels. -/
structure TextStyle where
  foreground : Color
  background : Color
  scale : UInt8
  deriving DecidableEq

namespace TextStyle

def cellWidth (style : TextStyle) : Nat := 6 * style.scale.toNat

def cellHeight (style : TextStyle) : Nat := 8 * style.scale.toNat

end TextStyle

inductive DrawOp where
  | screen (color : Color)
  | rectangle (x y : Int32) (width height : UInt16) (color : Color)
  | horizontal (x y : Int32) (length : UInt16) (color : Color)
  | vertical (x y : Int32) (length : UInt16) (color : Color)
  | text (x y : Int32) (line : String) (style : TextStyle)
  deriving DecidableEq

def DrawOp.line? : DrawOp → Option String
  | .text _ _ line _ => some line
  | _ => none

/-- A display refuses a request only while an earlier frame is still on its way. -/
inductive DisplayError where
  | busy
  deriving DecidableEq

/-- A display answers every request with its verdict and its next state. -/
class Display (δ : Type) where
  draw : DrawOp → δ → Except DisplayError Unit × δ
  flush : δ → Except DisplayError Unit × δ
  isReady : δ → Bool

end PocketReader
