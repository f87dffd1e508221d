import PocketReader.Page.Document

/-! What is asked of a document: a node by its name, the root of the page, the lines shown for a node, and the whole
document read back as trees. -/
namespace PocketReader

structure Located where
  handle : Handle
  content : Content
  deriving DecidableEq

namespace Document

/-- Takes the waiting handles in turn; the children of a node wait behind all others. -/
def searchById? (d : Document) (id : String) : Nat → List Handle → Option Handle
  | _, [] => none
  | 0, _ :: _ => none
  | budget + 1, h :: waiting =>
    match d.get? h with
    | none => d.searchById? id budget waiting
    | some node =>
      if node.content.id? = some id then some h else d.searchById? id budget (waiting ++ node.children)

/-- The first node of this name, level by level from the top. -/
def findById? (d : Document) (id : String) : Option Handle := d.searchById? id d.slots.size d.top

def pageRoot? (d : Document) : Option Handle :=
  d.top.find? fun h => (d.get? h).any fun node => node.content.kind == .body

/-- The lines shown for a node; none for a handle that finds nothing. -/
def textLines (d : Document) (h : Handle) : List String :=
  match d.get? h with
  | none => []
  | some node => node.content.shownLines ((node.children.head?.bind d.get?).map Node.content)

/-- The trees under some handles, to a given depth. -/
def treesAt (d : Document) : Nat → List Handle → Forest Located
  | 0, _ => .nil
  | depth + 1, handles =>
    handles.foldr (fun h right =>
      match d.get? h with
      | none => right
      | some node => .node ⟨h, node.content⟩ (d.treesAt depth node.children) right) .nil

/-- The document as trees whose nodes know their handles; no tree is deeper than there are slots. -/
def located (d : Document) : Forest Located := d.treesAt d.slots.size d.top

def forest (d : Document) : Forest Content := d.located.map Located.content

end Document
end PocketReader
