import PocketReader.Proofs.Page.Refinement

/-! How the generations of slots grow. A replacement vacates each slot at most once, and a slot that is vacated goes
on to the next generation. So as long as there are fewer replacements than generations, the generations only grow, and
a handle whose slot has gone on finds nothing again. -/
namespace PocketReader.Document

def generation? (d : Document) (index : Nat) : Option UInt32 := (d.slots[index]?).map Slot.generation

theorem generation?_of_get? {d : Document} {h : Handle} {node : Node} (found : d.get? h = some node) :
    d.generation? h.index = some h.generation := by
  rw [generation?, get?_eq_some.mp found, Option.map_some]

/-- A slot is as it was, or its tenant was removed from it once. -/
inductive Emptied : Option Slot → Option Slot → Prop
  | same (slot? : Option Slot) : Emptied slot? slot?
  | vacated (generation : UInt32) (node : Node) :
      Emptied (some ⟨generation, some node⟩) (some ⟨generation + 1, none⟩)

/-- A slot is of the generation it was, or it is new. -/
inductive Tenanted : Option UInt32 → Option UInt32 → Prop
  | same (generation? : Option UInt32) : Tenanted generation? generation?
  | new : Tenanted none (some 0)

/-- A slot is of the generation it was or of the next one, or it is new. -/
inductive Turned : Option UInt32 → Option UInt32 → Prop
  | same (generation? : Option UInt32) : Turned generation? generation?
  | next (generation : UInt32) : Turned (some generation) (some (generation + 1))
  | new : Turned none (some 0)

/-- An empty slot cannot be vacated again. -/
theorem Emptied.trans {first second third : Option Slot} (early : Emptied first second)
    (late : Emptied second third) :
    Emptied first third := by
  cases early with
  | same => exact late
  | vacated generation node =>
    cases late with
    | same => exact .vacated generation node

theorem emptied_vacate (d : Document) (h : Handle) (index : Nat) :
    Emptied d.slots[index]? (d.vacate h).slots[index]? := by
  unfold vacate
  cases found : d.get? h with
  | none => exact .same _
  | some node =>
    by_cases here : h.index = index
    · subst here
      rw [get?_eq_some.mp found, Array.getElem?_setIfInBounds_self_of_lt (index_lt_of_get? found)]
      exact .vacated _ _
    · rw [Array.getElem?_setIfInBounds_ne here]
      exact .same _

theorem emptied_clear (budget : Nat) (d : Document) (handles : List Handle) (index : Nat) :
    Emptied d.slots[index]? (d.clear budget handles).slots[index]? := by
  induction budget generalizing d handles with
  | zero => cases handles <;> exact .same _
  | succ budget ih =>
    cases handles with
    | nil => exact .same _
    | cons h waiting =>
      rw [clear]
      cases d.get? h with
      | none => exact ih d waiting
      | some node => exact (d.emptied_vacate h index).trans (ih (d.vacate h) _)

theorem Tenanted.trans {first second third : Option UInt32} (early : Tenanted first second)
    (late : Tenanted second third) : Tenanted first third := by
  cases early with
  | same => exact late
  | new =>
    cases late with
    | same => exact .new

theorem tenanted_store (d : Document) (node : Node) (index : Nat) :
    Tenanted (d.generation? index) ((d.store node).1.generation? index) := by
  unfold store
  split
  · rw [generation?, generation?, Array.getElem?_push]
    split
    · rename_i last
      rw [last, Array.getElem?_eq_none (Nat.le_refl _)]
      exact .new
    · exact .same _
  · rename_i free rest listed
    dsimp only [generation?]
    by_cases here : free = index
    · subst here
      cases there : d.slots[free]? with
      | none =>
        have outside : d.slots.size ≤ free := Array.getElem?_eq_none_iff.mp there
        rw [Array.setIfInBounds_eq_of_size_le outside, there]
        exact .same _
      | some slot =>
        obtain ⟨bound, -⟩ := Array.getElem?_eq_some_iff.mp there
        rw [Array.getElem?_setIfInBounds_self_of_lt bound]
        exact .same _
    · rw [Array.getElem?_setIfInBounds_ne here]
      exact .same _

theorem tenanted_insert (d : Document) (forest : Forest Content) (index : Nat) :
    Tenanted (d.generation? index) ((d.insert forest).1.generation? index) := by
  induction forest generalizing d with
  | nil => exact .same _
  | node content kids rest ihk ihr => exact ((ihk d).trans (tenanted_store _ _ index)).trans (ihr _)

theorem generation?_adopt (d : Document) (h : Handle) (children : List Handle) (index : Nat) :
    (d.adopt h children).generation? index = d.generation? index := by
  unfold adopt
  cases found : d.get? h with
  | none => rfl
  | some node =>
    dsimp only [generation?]
    by_cases here : h.index = index
    · subst here
      rw [get?_eq_some.mp found, Array.getElem?_setIfInBounds_self_of_lt (index_lt_of_get? found)]
      rfl
    · rw [Array.getElem?_setIfInBounds_ne here]

theorem Emptied.turned {before after : Option Slot} (emptied : Emptied before after) :
    Turned (before.map Slot.generation) (after.map Slot.generation) := by
  cases emptied with
  | same => exact .same _
  | vacated generation node => exact .next generation

theorem Turned.tenanted {first second third : Option UInt32} (early : Turned first second)
    (late : Tenanted second third) : Turned first third := by
  cases early with
  | same =>
    cases late with
    | same => exact .same _
    | new => exact .new
  | next generation =>
    cases late with
    | same => exact .next generation
  | new =>
    cases late with
    | same => exact .new

/-- A replacement lets each slot go on by one generation at most. -/
theorem turned_replaceChildren? (d : Document) (p : Handle) (forest : Forest Content) (index : Nat) :
    Turned (d.generation? index) (((d.replaceChildren? p forest).getD d).generation? index) := by
  unfold replaceChildren?
  cases d.get? p with
  | none => exact .same _
  | some node =>
    rw [Option.map_some, Option.getD_some, generation?_adopt, ← generation?_adopt d p []]
    have emptied := emptied_clear d.slots.size (d.adopt p []) node.children index
    exact emptied.turned.tenanted (tenanted_insert _ forest index)

/-- No slot has gone through more generations than that. -/
def Young (d : Document) (count : Nat) : Prop := ∀ index g, d.generation? index = some g → g.toNat ≤ count

theorem young_ofForest (forest : Forest Content) : (ofForest forest).Young 0 := by
  intro index g there
  have stored : Tenanted none ((ofForest forest).generation? index) := tenanted_insert {} forest index
  rw [there] at stored
  cases stored
  exact Nat.le_refl _

theorem Young.mono {d : Document} {count more : Nat} (young : d.Young count) (le : count ≤ more) : d.Young more :=
  fun index g there => Nat.le_trans (young index g there) le

theorem Young.replace {d : Document} {count : Nat} (young : d.Young count) (p : Handle) (forest : Forest Content) :
    ((d.replaceChildren? p forest).getD d).Young (count + 1) := by
  intro index g there
  have turned := d.turned_replaceChildren? p forest index
  rw [there] at turned
  generalize before : d.generation? index = generation? at turned
  cases turned with
  | same => exact Nat.le_succ_of_le (young index g before)
  | next generation =>
    have le := young index generation before
    rw [UInt32.toNat_add]
    exact Nat.le_trans (Nat.mod_le _ _) (Nat.succ_le_succ le)
  | new => exact Nat.zero_le _

/-- The slot a handle names is of a later generation. -/
def Outlived (d : Document) (h : Handle) : Prop := ∃ g, d.generation? h.index = some g ∧ h.generation.toNat < g.toNat

theorem Outlived.get?_eq_none {d : Document} {h : Handle} (outlived : d.Outlived h) : d.get? h = none := by
  cases found : d.get? h with
  | none => rfl
  | some node =>
    obtain ⟨g, there, later⟩ := outlived
    rw [generation?_of_get? found, Option.some.injEq] at there
    rw [there] at later
    exact absurd later (Nat.lt_irrefl _)

/-- A node that is removed leaves its slot to the next generation. -/
theorem Reachable.generation?_of_removed {d : Document} (reachable : d.Reachable) {p h : Handle}
    (forest : Forest Content) (below : h ∈ (d.located.under p).handles) :
    ((d.replaceChildren? p forest).getD d).generation? h.index = some (h.generation + 1) := by
  have represents := reachable.represents
  obtain ⟨node, found⟩ := represents.holds.exists_get? (Forest.under_subset _ below)
  cases there : d.get? p with
  | none =>
    rw [Forest.under_of_notMem (represents.holds.notMem there)] at below
    cases below
  | some target =>
    obtain ⟨after, g, result, replaced⟩ := represents.replace there forest
    obtain ⟨slot, now, other⟩ := replaced.spent h below
    have generation : after.generation? h.index = some slot.generation := by
      rw [Document.generation?, now, Option.map_some]
    have turned := d.turned_replaceChildren? p forest h.index
    rw [result, Option.getD_some, generation] at turned ⊢
    rw [generation?_of_get? found] at turned
    generalize slot.generation = later at other turned ⊢
    cases turned with
    | same => exact absurd rfl other
    | next => rfl

theorem toNat_succ {g : UInt32} {count : Nat} (le : g.toNat ≤ count) (few : count + 1 < UInt32.size) :
    (g + 1).toNat = g.toNat + 1 := by
  rw [UInt32.toNat_add]
  exact Nat.mod_eq_of_lt (Nat.lt_of_le_of_lt (Nat.succ_le_succ le) few)

section

variable {d : Document} {count : Nat} (young : d.Young count) (few : count + 1 < UInt32.size)

include young few

theorem Outlived.replace {h : Handle} (outlived : d.Outlived h) (p : Handle) (forest : Forest Content) :
    ((d.replaceChildren? p forest).getD d).Outlived h := by
  obtain ⟨g, there, later⟩ := outlived
  have turned := d.turned_replaceChildren? p forest h.index
  have le := young h.index g there
  rw [there] at turned
  generalize after : ((d.replaceChildren? p forest).getD d).generation? h.index = generation? at turned
  cases turned with
  | same => exact ⟨g, after, later⟩
  | next => exact ⟨g + 1, after, by rw [toNat_succ le few]; exact Nat.lt_succ_of_lt later⟩

theorem outlived_of_lost (reachable : d.Reachable) {h : Handle} {node : Node} (found : d.get? h = some node)
    (p : Handle) (forest : Forest Content) (lost : ((d.replaceChildren? p forest).getD d).get? h = none) :
    ((d.replaceChildren? p forest).getD d).Outlived h := by
  have below : h ∈ (d.located.under p).handles := by
    by_contra above
    obtain ⟨next, still, -⟩ := reachable.get?_of_kept forest found above
    rw [lost] at still
    cases still
  have le := young h.index h.generation (generation?_of_get? found)
  exact ⟨h.generation + 1, reachable.generation?_of_removed forest below, by
    rw [toNat_succ le few]; exact Nat.lt_succ_self _⟩

end

end PocketReader.Document
