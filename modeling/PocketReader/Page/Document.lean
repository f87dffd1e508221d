import PocketReader.Page.Content

/-! The nodes of one page, kept in slots that are used again. A handle names a slot and the generation of its tenant;
a slot that is vacated moves on to the next generation, so a handle to a removed node finds nothing, also after
another node has moved in. -/
namespace PocketReader

structure Handle where
  /-- A word of 32 bits, where memory is; `Document.store` assumes that there are fewer than `2 ^ 32` slots. -/
  index : Nat
  generation : UInt32
  deriving DecidableEq

structure Node where
  content : Content
  children : List Handle
  deriving DecidableEq

structure Slot where
  generation : UInt32
  node? : Option Node
  deriving DecidableEq

structure Document where
  slots : Array Slot := #[]
  /-- The slots without a node, the one to be used next in front. -/
  free : List Nat := []
  top : List Handle := []
  deriving DecidableEq

namespace Document

def get? (d : Document) (h : Handle) : Option Node :=
  (d.slots[h.index]?).bind fun slot => if slot.generation = h.generation then slot.node? else none

def children (d : Document) (h : Handle) : List Handle := ((d.get? h).map Node.children).getD []

def size (d : Document) : Nat := d.slots.size - d.free.length

def isEmpty (d : Document) : Bool := d.size == 0

/-- Puts a node into the slot vacated last, or into a new one. -/
def store (d : Document) (node : Node) : Document × Handle :=
  match d.free with
  | [] => ({ d with slots := d.slots.push ⟨0, some node⟩ }, ⟨d.slots.size, 0⟩)
  | index :: free =>
    let generation := ((d.slots[index]?).map Slot.generation).getD 0
    ({ d with slots := d.slots.setIfInBounds index ⟨generation, some node⟩, free }, ⟨index, generation⟩)

/-- Stores trees, children before their parent, and names the roots. -/
def insert (d : Document) : Forest Content → Document × List Handle
  | .nil => (d, [])
  | .node content kids rest =>
    let (d, children) := d.insert kids
    let (d, h) := d.store ⟨content, children⟩
    let (d, siblings) := d.insert rest
    (d, h :: siblings)

def ofForest (forest : Forest Content) : Document :=
  let (d, top) := insert {} forest
  { d with top }

/-- The nodes met when the handles waiting are taken one by one and the children of each node go in front of those
still waiting; `budget` bounds the number of handles taken. -/
def visit (d : Document) : Nat → List Handle → List (Handle × Node)
  | _, [] => []
  | 0, _ :: _ => []
  | budget + 1, h :: waiting =>
    match d.get? h with
    | none => d.visit budget waiting
    | some node => (h, node) :: d.visit budget (node.children ++ waiting)

/-- All nodes, each before its children and children left to right. -/
def walk (d : Document) : List (Handle × Node) := d.visit d.slots.size d.top

/-- Empties the slot of a node; the next tenant belongs to the next generation. -/
def vacate (d : Document) (h : Handle) : Document :=
  match d.get? h with
  | none => d
  | some _ => { d with slots := d.slots.setIfInBounds h.index ⟨h.generation + 1, none⟩, free := h.index :: d.free }

/-- Vacates the nodes met when the handles waiting are taken one by one and the children of each node, the last one
first, go in front of those still waiting; `budget` bounds the number of handles taken. -/
def clear (d : Document) : Nat → List Handle → Document
  | _, [] => d
  | 0, _ :: _ => d
  | budget + 1, h :: waiting =>
    match d.get? h with
    | none => d.clear budget waiting
    | some node => (d.vacate h).clear budget (node.children.reverse ++ waiting)

def adopt (d : Document) (h : Handle) (children : List Handle) : Document :=
  match d.get? h with
  | none => d
  | some node => { d with slots := d.slots.setIfInBounds h.index ⟨h.generation, some { node with children }⟩ }

/-- Replaces all that is below a node by new trees; `none` when the handle finds no node. The node lets go of its
children before they are removed, and has none until the new ones are stored. -/
def replaceChildren? (d : Document) (parent : Handle) (forest : Forest Content) : Option Document :=
  (d.get? parent).map fun node =>
    let (d, children) := ((d.adopt parent []).clear d.slots.size node.children).insert forest
    d.adopt parent children

end Document
end PocketReader
