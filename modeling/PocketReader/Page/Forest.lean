/-! Ordered forests: nothing, or a first tree, given by its root and the forest below it, and the trees to its
right. -/
namespace PocketReader

inductive Forest (α : Type u) where
  | nil
  | node (root : α) (children rest : Forest α)
  deriving DecidableEq

namespace Forest

def single (root : α) (children : Forest α) : Forest α := .node root children .nil

def append : Forest α → Forest α → Forest α
  | .nil, g => g
  | .node a kids rest, g => .node a kids (rest.append g)

instance : Append (Forest α) := ⟨append⟩

def map (f : α → β) : Forest α → Forest β
  | .nil => .nil
  | .node a kids rest => .node (f a) (kids.map f) (rest.map f)

/-- Reading order: a root before the forest below it, left before right. -/
def preorder : Forest α → List α
  | .nil => []
  | .node a kids rest => a :: (kids.preorder ++ rest.preorder)

def roots : Forest α → List α
  | .nil => []
  | .node a _ rest => a :: rest.roots

def head? : Forest α → Option α
  | .nil => none
  | .node a _ _ => some a

def size : Forest α → Nat
  | .nil => 0
  | .node _ kids rest => kids.size + rest.size + 1

@[simp] theorem nil_append (g : Forest α) : (.nil : Forest α) ++ g = g := rfl

@[simp] theorem node_append (a : α) (kids rest g : Forest α) :
    .node a kids rest ++ g = .node a kids (rest ++ g) := rfl

@[simp] theorem append_nil (f : Forest α) : f ++ .nil = f := by
  induction f with
  | nil => rfl
  | node a kids rest _ ih => simp only [node_append, ih]

theorem append_assoc (f g h : Forest α) : f ++ g ++ h = f ++ (g ++ h) := by
  induction f with
  | nil => rfl
  | node a kids rest _ ih => simp only [node_append, ih]

@[simp] theorem map_append (p : α → β) (f g : Forest α) : (f ++ g).map p = f.map p ++ g.map p := by
  induction f with
  | nil => rfl
  | node a kids rest _ ih => simp only [node_append, map, ih]

theorem map_eq_nil {p : α → β} {f : Forest α} (same : f.map p = .nil) : f = .nil := by
  cases f with
  | nil => rfl
  | node a kids rest => cases same

theorem map_eq_node {p : α → β} {f : Forest α} {b : β} {below right : Forest β}
    (same : f.map p = .node b below right) :
    ∃ a kids rest, f = .node a kids rest ∧ p a = b ∧ kids.map p = below ∧ rest.map p = right := by
  cases f with
  | nil => cases same
  | node a kids rest =>
    cases same
    exact ⟨a, kids, rest, rfl, rfl, rfl, rfl⟩

theorem head?_map (p : α → β) (f : Forest α) : (f.map p).head? = f.head?.map p := by
  cases f <;> rfl

@[simp] theorem preorder_append (f g : Forest α) : (f ++ g).preorder = f.preorder ++ g.preorder := by
  induction f with
  | nil => rfl
  | node a kids rest _ ih => simp only [node_append, preorder, ih, List.cons_append, List.append_assoc]

@[simp] theorem preorder_map (p : α → β) (f : Forest α) : (f.map p).preorder = f.preorder.map p := by
  induction f with
  | nil => rfl
  | node a kids rest ihk ihr => simp only [map, preorder, ihk, ihr, List.map_cons, List.map_append]

theorem length_preorder (f : Forest α) : f.preorder.length = f.size := by
  induction f with
  | nil => rfl
  | node a kids rest ihk ihr => simp only [preorder, size, List.length_cons, List.length_append, ihk, ihr]

end Forest
end PocketReader
