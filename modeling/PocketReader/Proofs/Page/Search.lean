import PocketReader.Proofs.Page.Reachable

/-! The search for a node by its name. The handles waiting are the rest of one level of the trees and what has been
met of the next, so the levels are gone through one after another, each from left to right. -/
namespace PocketReader

namespace Forest

/-- The nodes in reading order, each with the number of nodes it is below. -/
def ranked : Forest α → List (Nat × α)
  | .nil => []
  | .node a kids rest => (0, a) :: ((kids.ranked.map fun (depth, b) => (depth + 1, b)) ++ rest.ranked)

theorem map_snd_ranked (f : Forest α) : f.ranked.map Prod.snd = f.preorder := by
  induction f with
  | nil => rfl
  | node a kids rest ihk ihr =>
    simp only [ranked, preorder, List.map_cons, List.map_append, List.map_map, ihr, ← ihk]
    rfl

theorem ranked_append (f g : Forest α) : (f ++ g).ranked = f.ranked ++ g.ranked := by
  induction f with
  | nil => rfl
  | node a kids rest _ ih => simp only [node_append, ranked, ih, List.cons_append, List.append_assoc]

/-- The nodes a search has still to pass, in reading order: from what has been met of the next level downwards, and
then from the rest of this one downwards. -/
def spanned (level next : Forest α) : List (Nat × α) :=
  (next.ranked.map fun (depth, b) => (depth + 1, b)) ++ level.ranked

end Forest

/-- What is looked for in a list of nodes with their depths: of those that fit the least deep, and the first of
these. -/
inductive Nearest {α : Type} (fits : α → Prop) : List (Nat × α) → Option α → Prop
  | none {nodes : List (Nat × α)} : (∀ entry ∈ nodes, ¬ fits entry.2) → Nearest fits nodes none
  | some {before after : List (Nat × α)} {depth : Nat} {a : α} : fits a →
      (∀ entry ∈ before, fits entry.2 → depth < entry.1) → (∀ entry ∈ after, fits entry.2 → depth ≤ entry.1) →
      Nearest fits (before ++ (depth, a) :: after) (some a)

namespace Nearest

variable {α : Type} {fits : α → Prop} {nodes before after : List (Nat × α)} {result : Option α}

theorem eq_none_iff (nearest : Nearest fits nodes result) : result = .none ↔ ∀ entry ∈ nodes, ¬ fits entry.2 := by
  cases nearest with
  | none unfit => exact iff_of_true rfl unfit
  | @some before after depth a fit _ _ =>
    refine iff_of_false nofun fun unfit => unfit (depth, a) ?_ fit
    exact List.mem_append_right before List.mem_cons_self

theorem mem {a : α} (nearest : Nearest fits nodes (.some a)) : fits a ∧ ∃ depth, (depth, a) ∈ nodes := by
  cases nearest with
  | some fit _ _ => exact ⟨fit, _, List.mem_append_right _ List.mem_cons_self⟩

/-- Below another level all is one deeper. -/
theorem deepen (nearest : Nearest fits nodes result) :
    Nearest fits (nodes.map fun (depth, b) => (depth + 1, b)) result := by
  cases nearest with
  | none unfit => exact .none (List.forall_mem_map.mpr unfit)
  | some fit first least =>
    rw [List.map_append, List.map_cons]
    refine .some fit (List.forall_mem_map.mpr ?_) (List.forall_mem_map.mpr ?_)
    · exact fun entry there fits => Nat.succ_lt_succ (first entry there fits)
    · exact fun entry there fits => Nat.succ_le_succ (least entry there fits)

/-- A node that does not fit makes no difference. -/
theorem insert {entry : Nat × α} (unfit : ¬ fits entry.2) (nearest : Nearest fits (before ++ after) result) :
    Nearest fits (before ++ entry :: after) result := by
  generalize whole : before ++ after = nodes at nearest
  cases nearest with
  | none others =>
    subst whole
    rw [List.forall_mem_append] at others
    exact .none (List.forall_mem_append.mpr ⟨others.1, List.forall_mem_cons.mpr ⟨unfit, others.2⟩⟩)
  | @some front back depth a fit first least =>
    have earlier (gap : List (Nat × α)) (left : front = before ++ gap) (right : after = gap ++ (depth, a) :: back) :
        Nearest fits (before ++ entry :: after) (.some a) := by
      subst left right
      rw [List.forall_mem_append] at first
      have passed : ∀ e ∈ before ++ entry :: gap, fits e.2 → depth < e.1 :=
        List.forall_mem_append.mpr ⟨first.1, List.forall_mem_cons.mpr ⟨fun fits => absurd fits unfit, first.2⟩⟩
      have skipped := Nearest.some fit passed least
      rwa [List.append_assoc, List.cons_append] at skipped
    rcases List.append_eq_append_iff.mp whole with ⟨gap, left, right⟩ | ⟨gap, left, right⟩
    · exact earlier gap left right
    · cases gap with
      | nil =>
        rw [List.append_nil] at left
        exact earlier [] (by rw [left, List.append_nil]) right.symm
      | cons _ gap =>
        obtain ⟨rfl, rfl⟩ := List.cons_eq_cons.mp right
        obtain ⟨near, far⟩ := List.forall_mem_append.mp least
        have passed : ∀ e ∈ gap ++ entry :: after, fits e.2 → depth ≤ e.1 :=
          List.forall_mem_append.mpr ⟨near, List.forall_mem_cons.mpr ⟨fun fits => absurd fits unfit, far⟩⟩
        rw [left, List.append_assoc, List.cons_append]
        exact .some fit first passed

end Nearest

namespace Document

variable {d : Document} {f g : Forest Located}

/-- The first handle waiting is that of the first node of the level, or of the next one when this level is done. -/
theorem exists_first {h : Handle} {waiting : List Handle} (level : d.Holds f) (next : d.Holds g)
    (all : f.rootHandles ++ g.rootHandles = h :: waiting) (fits : Located → Prop) :
    ∃ n kids rest met, d.Holds (.node n kids rest) ∧ d.Holds met ∧ n.handle = h ∧
      rest.rootHandles ++ met.rootHandles = waiting ∧
      ∀ result, Nearest fits (Forest.spanned (.node n kids rest) met) result → Nearest fits (f.spanned g) result := by
  cases f with
  | node n kids rest =>
    rw [Forest.rootHandles_node, List.cons_append, List.cons_eq_cons] at all
    exact ⟨n, kids, rest, g, level, next, all.1, all.2, fun _ nearest => nearest⟩
  | nil =>
    cases g with
    | nil => cases all
    | node n kids rest =>
      rw [Forest.rootHandles_node, Forest.rootHandles_nil, List.nil_append, List.cons_eq_cons] at all
      refine ⟨n, kids, rest, .nil, next, level, all.1, by rw [Forest.rootHandles_nil, List.append_nil, all.2], ?_⟩
      intro result nearest
      rw [Forest.spanned, Forest.ranked, List.append_nil]
      exact nearest.deepen

/-- A search over the rest of a level and what has been met of the next ends at the nearest node of the name. -/
theorem Searches.nearest {id : String} {waiting : List Handle} {result : Option Handle}
    (run : d.Searches id waiting result) (level : d.Holds f) (next : d.Holds g)
    (all : f.rootHandles ++ g.rootHandles = waiting) :
    ∃ found : Option Located, found.map Located.handle = result ∧
      Nearest (fun n => n.content.id? = some id) (f.spanned g) found := by
  induction run generalizing f g with
  | done =>
    cases f with
    | node n kids rest => cases all
    | nil =>
      cases g with
      | node n kids rest => cases all
      | nil => exact ⟨none, rfl, .none fun _ member => absurd member List.not_mem_nil⟩
  | stale lost _ _ =>
    obtain ⟨n, kids, rest, met, held, -, rfl, -, -⟩ := exists_first level next all fun _ => True
    rw [held.1] at lost
    cases lost
  | found here named =>
    obtain ⟨n, kids, rest, met, held, -, rfl, -, widen⟩ :=
      exists_first level next all fun n => n.content.id? = some id
    obtain rfl := Option.some.inj (held.1.symm.trans here)
    refine ⟨some n, rfl, widen _ (.some named (List.forall_mem_map.mpr ?_) fun _ _ _ => Nat.zero_le _)⟩
    exact fun entry _ _ => Nat.succ_pos entry.1
  | @passed h node waiting result here other _ ih =>
    obtain ⟨n, kids, rest, met, held, more, rfl, left, widen⟩ :=
      exists_first level next all fun n => n.content.id? = some id
    obtain rfl := Option.some.inj (held.1.symm.trans here)
    have children : rest.rootHandles ++ (met ++ kids).rootHandles = waiting ++ kids.rootHandles := by
      rw [Forest.rootHandles_append, ← List.append_assoc, left]
    -- Its children join the next level where they stand in reading order, so all that changes is that it is gone.
    obtain ⟨found, same, nearest⟩ := ih held.2.2 (more.append held.2.1) children
    refine ⟨found, same, widen _ (.insert other ?_)⟩
    rwa [Forest.spanned, Forest.ranked_append, List.map_append, List.append_assoc] at nearest

theorem findById?_nearest (reachable : d.Reachable) (id : String) :
    ∃ found : Option Located, found.map Located.handle = d.findById? id ∧
      Nearest (fun n => n.content.id? = some id) d.located.ranked found := by
  have represents := reachable.represents
  have whole : d.located.rootHandles ++ Forest.rootHandles .nil = d.top := by
    rw [represents.top, Forest.rootHandles_nil, List.append_nil]
  exact (represents.searches id).nearest (g := .nil) represents.holds trivial whole

end Document
end PocketReader
