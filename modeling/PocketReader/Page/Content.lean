import PocketReader.Page.Forest
import PocketReader.Page.Kind

/-! What one node of a page says of itself, apart from its place in the tree. -/
namespace PocketReader

structure Content where
  kind : Kind
  id? : Option String := none
  /-- In the order they were written; a look-up takes the first of a name. -/
  attributes : List (String × String) := []
  selectable : Bool := false
  lines : List String := []
  deriving DecidableEq

namespace Content

def text (lines : List String) : Content := { kind := .text, lines }

def attribute? (c : Content) (name : String) : Option String := c.attributes.lookup name

/-- The first attribute named `id` names the node. -/
def withAttribute (c : Content) (name value : String) : Content :=
  { c with
    id? := if name = "id" then c.id?.or (some value) else c.id?
    attributes := c.attributes ++ [(name, value)] }

theorem attribute?_withAttribute (c : Content) (name value query : String) :
    (c.withAttribute name value).attribute? query =
      (c.attribute? query).or (if query == name then some value else none) := by
  simp only [attribute?, withAttribute, List.lookup_append]
  cases h : query == name <;> simp [List.lookup_cons, h]

/-- The lines shown for a node: its own, or else those of its first child. -/
def shownLines (c : Content) (firstChild? : Option Content) : List String :=
  if c.lines.isEmpty then (firstChild?.map lines).getD [] else c.lines

end Content
end PocketReader
