import PocketReader.Page.Document

/-! The nodes that can take the focus, in reading order, each with the extent it had when it was last painted. -/
namespace PocketReader

/-- A vertical range of the page, in pixels from its top. -/
structure Extent where
  top : Nat := 0
  bottom : Nat := 0
  deriving DecidableEq

/-- An extent shows when all of it, edges included, lies in the window. -/
def Extent.isVisible (e : Extent) (offset viewport : Nat) : Bool :=
  decide (offset ≤ e.top) && decide (e.bottom ≤ offset + viewport)

namespace Focus

structure Entry where
  node : Handle
  extent : Extent := {}
  deriving DecidableEq

/-- Every selectable node, whatever is above it, with nothing known of its extent. -/
def index (d : Document) : List Entry :=
  (d.walk.filter fun (_, node) => node.content.selectable).map fun (h, _) => { node := h }

end Focus
end PocketReader
