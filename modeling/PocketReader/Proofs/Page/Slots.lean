import PocketReader.Page.Document

/-! What each operation on the slots of a document does to what handles find. A document is seen through `get?` alone;
the list of free slots has to be exact for a stored node to land in an empty slot. -/
namespace PocketReader.Document

theorem get?_eq_some {d : Document} {h : Handle} {node : Node} :
    d.get? h = some node ↔ d.slots[h.index]? = some ⟨h.generation, some node⟩ := by
  unfold get?
  cases found : d.slots[h.index]? with
  | none => simp
  | some slot =>
    obtain ⟨generation, node?⟩ := slot
    by_cases same : generation = h.generation <;> simp [same]

theorem index_lt_of_get? {d : Document} {h : Handle} {node : Node} (found : d.get? h = some node) :
    h.index < d.slots.size := by
  have slot := get?_eq_some.mp found
  exact (Array.getElem?_eq_some_iff.mp slot).1

/-- At most one handle of a slot finds a node. -/
theorem handle_eq_of_index_eq {d : Document} {h k : Handle} {node other : Node} (found : d.get? h = some node)
    (also : d.get? k = some other) (same : h.index = k.index) : h = k := by
  have first := get?_eq_some.mp found
  have second := get?_eq_some.mp also
  rw [same, second] at first
  obtain ⟨index, generation⟩ := h
  cases same
  cases first
  rfl

theorem get?_eq_none_of_tenant {d : Document} {h k : Handle} {node : Node} (found : d.get? h = some node)
    (same : k.index = h.index) (other : k ≠ h) : d.get? k = none := by
  cases also : d.get? k with
  | none => rfl
  | some _ => exact absurd (handle_eq_of_index_eq also found same) other

/-- The slot is there, and nobody lives in it. -/
def Vacant (d : Document) (index : Nat) : Prop := ∃ slot, d.slots[index]? = some slot ∧ slot.node? = none

theorem Vacant.get?_eq_none {d : Document} {h : Handle} (vacant : d.Vacant h.index) : d.get? h = none := by
  obtain ⟨slot, there, empty⟩ := vacant
  simp [get?, there, empty]

theorem not_vacant_of_get? {d : Document} {h : Handle} {node : Node} (found : d.get? h = some node) :
    ¬ d.Vacant h.index := by
  intro vacant
  rw [vacant.get?_eq_none] at found
  cases found

theorem Vacant.lt_size {d : Document} {index : Nat} (vacant : d.Vacant index) : index < d.slots.size := by
  obtain ⟨slot, there, -⟩ := vacant
  exact (Array.getElem?_eq_some_iff.mp there).1

/-- The free slots are the empty ones, each listed once. -/
structure FreeExact (d : Document) : Prop where
  nodup : d.free.Nodup
  mem_iff : ∀ index, index ∈ d.free ↔ d.Vacant index

/-- The slot a handle names has gone on to another generation, so nothing that moves in is found by it. -/
def Spent (d : Document) (h : Handle) : Prop :=
  ∃ slot, d.slots[h.index]? = some slot ∧ slot.generation ≠ h.generation

theorem Spent.get?_eq_none {d : Document} {h : Handle} (spent : d.Spent h) : d.get? h = none := by
  obtain ⟨slot, there, other⟩ := spent
  simp [get?, there, other]

theorem Spent.lt_size {d : Document} {h : Handle} (spent : d.Spent h) : h.index < d.slots.size := by
  obtain ⟨slot, there, -⟩ := spent
  exact (Array.getElem?_eq_some_iff.mp there).1

theorem generation_succ_ne (g : UInt32) : g + 1 ≠ g := by
  intro same
  have : (g + 1).toNat = g.toNat := congrArg UInt32.toNat same
  have := UInt32.toNat_lt g
  simp only [UInt32.toNat_add, UInt32.reduceToNat] at *
  omega

/-! Writing one slot. -/

section

variable {d : Document} {index : Nat} {slot : Slot} (bound : index < d.slots.size) (free : List Nat)

include bound

theorem get?_write (h : Handle) :
    get? ⟨d.slots.setIfInBounds index slot, free, d.top⟩ h =
      if h.index = index then (if slot.generation = h.generation then slot.node? else none) else d.get? h := by
  by_cases here : h.index = index
  · simp [get?, here, bound]
  · simp [get?, here, Ne.symm here]

theorem vacant_write (other : Nat) :
    Vacant ⟨d.slots.setIfInBounds index slot, free, d.top⟩ other ↔
      if other = index then slot.node? = none else d.Vacant other := by
  by_cases here : other = index
  · simp [Vacant, here, bound]
  · simp [Vacant, here, Ne.symm here]

end

/-! Storing a node. -/

/-- A node is put into a new slot, or into an empty one at its present generation. -/
theorem store_cases {d : Document} (free : d.FreeExact) (node : Node) :
    (d.free = [] ∧ d.store node = ({ d with slots := d.slots.push ⟨0, some node⟩ }, ⟨d.slots.size, 0⟩)) ∨
    ∃ index rest generation, d.free = index :: rest ∧ d.slots[index]? = some ⟨generation, none⟩ ∧
      d.store node =
        ({ d with slots := d.slots.setIfInBounds index ⟨generation, some node⟩, free := rest },
          ⟨index, generation⟩) := by
  cases listed : d.free with
  | nil => exact .inl ⟨rfl, by simp only [store, listed]⟩
  | cons index rest =>
    obtain ⟨⟨generation, node?⟩, there, empty⟩ := (free.mem_iff index).mp (by rw [listed]; exact List.mem_cons_self)
    cases empty
    exact .inr ⟨index, rest, generation, rfl, there, by
      simp only [store, listed, there, Option.map_some, Option.getD_some]⟩

@[simp] theorem store_top (d : Document) (node : Node) : (d.store node).1.top = d.top := by
  unfold store
  split <;> rfl

section

variable {d : Document} (free : d.FreeExact) (node : Node)

include free

/-- The handle of a stored node is a new one. -/
theorem get?_store_snd : d.get? (d.store node).2 = none := by
  obtain ⟨-, stored⟩ | ⟨slot, rest, present, -, there, stored⟩ := store_cases free node
  · simp [stored, get?]
  · simp [stored, get?, there]

theorem get?_store (h : Handle) :
    (d.store node).1.get? h = if h = (d.store node).2 then some node else d.get? h := by
  have fresh := get?_store_snd free node
  obtain ⟨index, generation⟩ := h
  obtain ⟨-, stored⟩ | ⟨slot, rest, present, -, there, stored⟩ := store_cases free node
  · rw [stored]
    by_cases new : index = d.slots.size
    · by_cases first : generation = 0
      · simp [get?, new, first]
      · simp [get?, new, first, Ne.symm first]
    · simp [get?, Array.getElem?_push, new]
  · have bound := (Array.getElem?_eq_some_iff.mp there).1
    have vacant : d.Vacant slot := ⟨_, there, rfl⟩
    rw [stored, get?_write bound]
    by_cases here : index = slot
    · subst here
      by_cases now : generation = present
      · simp [now]
      · simp [now, Ne.symm now, vacant.get?_eq_none (h := ⟨index, generation⟩)]
    · simp [here]

theorem Spent.store {h : Handle} (spent : d.Spent h) : (d.store node).1.Spent h := by
  have bound := spent.lt_size
  obtain ⟨slot, there, other⟩ := spent
  obtain ⟨-, stored⟩ | ⟨index, rest, present, -, empty, stored⟩ := store_cases free node
  · rw [stored]
    refine ⟨slot, ?_, other⟩
    rw [Array.getElem?_push, if_neg (Nat.ne_of_lt bound), there]
  · rw [stored]
    by_cases here : index = h.index
    · subst here
      rw [there] at empty
      cases empty
      exact ⟨⟨present, some node⟩, by simp [bound], other⟩
    · exact ⟨slot, by simpa [here] using there, other⟩

theorem FreeExact.store : (d.store node).1.FreeExact := by
  obtain ⟨none, stored⟩ | ⟨slot, rest, present, listed, there, stored⟩ := store_cases free node
  · rw [stored]
    refine ⟨free.nodup, fun index => (free.mem_iff index).trans ?_⟩
    by_cases new : index = d.slots.size <;> simp [Vacant, Array.getElem?_push, new]
  · have bound := (Array.getElem?_eq_some_iff.mp there).1
    have once := free.nodup
    rw [listed, List.nodup_cons] at once
    rw [stored]
    refine ⟨once.2, fun index => ?_⟩
    rw [vacant_write bound]
    by_cases here : index = slot
    · simp [here, once.1]
    · have before := free.mem_iff index
      rw [listed, List.mem_cons] at before
      simpa [here] using before

end

/-! Vacating a slot. -/

theorem get?_vacate (d : Document) (h k : Handle) : (d.vacate h).get? k = if k = h then none else d.get? k := by
  unfold vacate
  cases found : d.get? h with
  | none =>
    by_cases same : k = h
    · simp [same, found]
    · simp [same]
  | some node =>
    simp only [get?_write (index_lt_of_get? found)]
    by_cases here : k.index = h.index
    · by_cases same : k = h
      · simp [same]
      · simp [here, same, get?_eq_none_of_tenant found here same]
    · have other : k ≠ h := fun same => here (congrArg Handle.index same)
      simp [here, other]

/-- A removed node leaves its slot empty and in the next generation. -/
theorem spent_vacate {d : Document} {h : Handle} {node : Node} (found : d.get? h = some node) :
    (d.vacate h).Spent h ∧ (d.vacate h).Vacant h.index := by
  have bound := index_lt_of_get? found
  have slot : (d.vacate h).slots[h.index]? = some ⟨h.generation + 1, none⟩ := by simp [vacate, found, bound]
  exact ⟨⟨_, slot, generation_succ_ne _⟩, ⟨_, slot, rfl⟩⟩

/-- An empty slot is left as it is. -/
theorem slot_vacate_of_vacant {d : Document} {index : Nat} (vacant : d.Vacant index) (h : Handle) :
    (d.vacate h).slots[index]? = d.slots[index]? := by
  unfold vacate
  cases found : d.get? h with
  | none => rfl
  | some node =>
    have other : h.index ≠ index := by
      rintro rfl
      exact not_vacant_of_get? found vacant
    simp [other]

theorem FreeExact.vacate {d : Document} (free : d.FreeExact) (h : Handle) : (d.vacate h).FreeExact := by
  unfold Document.vacate
  cases found : d.get? h with
  | none => exact free
  | some node =>
    have unlisted : h.index ∉ d.free := fun listed => not_vacant_of_get? found ((free.mem_iff _).mp listed)
    refine ⟨List.nodup_cons.mpr ⟨unlisted, free.nodup⟩, fun index => ?_⟩
    rw [vacant_write (index_lt_of_get? found)]
    by_cases here : index = h.index
    · simp [here]
    · simpa [here] using free.mem_iff index

@[simp] theorem vacate_top (d : Document) (h : Handle) : (d.vacate h).top = d.top := by
  unfold vacate
  split <;> rfl

/-! Giving a node other children. -/

theorem get?_adopt (d : Document) (h k : Handle) (children : List Handle) :
    (d.adopt h children).get? k =
      if k = h then (d.get? h).map fun node => { node with children } else d.get? k := by
  unfold adopt
  cases found : d.get? h with
  | none =>
    by_cases same : k = h
    · simp [same, found]
    · simp [same]
  | some node =>
    simp only [get?_write (index_lt_of_get? found)]
    by_cases here : k.index = h.index
    · by_cases same : k = h
      · simp [same]
      · have moved : h.generation ≠ k.generation := fun now => same (by cases k; cases h; cases here; cases now; rfl)
        simp [here, same, moved, get?_eq_none_of_tenant found here same]
    · have other : k ≠ h := fun same => here (congrArg Handle.index same)
      simp [here, other]

theorem FreeExact.adopt {d : Document} (free : d.FreeExact) (h : Handle) (children : List Handle) :
    (d.adopt h children).FreeExact := by
  unfold Document.adopt
  cases found : d.get? h with
  | none => exact free
  | some node =>
    refine ⟨free.nodup, fun index => ?_⟩
    rw [vacant_write (index_lt_of_get? found), free.mem_iff]
    by_cases here : index = h.index
    · simp [here, not_vacant_of_get? found]
    · simp [here]

theorem Spent.adopt {d : Document} {k : Handle} (spent : d.Spent k) (h : Handle) (children : List Handle) :
    (d.adopt h children).Spent k := by
  unfold Document.adopt
  cases found : d.get? h with
  | none => exact spent
  | some node =>
    obtain ⟨slot, there, moved⟩ := spent
    by_cases here : h.index = k.index
    · rw [← here, get?_eq_some.mp found, Option.some.injEq] at there
      subst there
      exact ⟨⟨h.generation, some { node with children }⟩, by simp [← here, index_lt_of_get? found], moved⟩
    · exact ⟨slot, by simpa [here] using there, moved⟩

@[simp] theorem adopt_top (d : Document) (h : Handle) (children : List Handle) :
    (d.adopt h children).top = d.top := by
  unfold adopt
  split <;> rfl

@[simp] theorem size_adopt (d : Document) (h : Handle) (children : List Handle) :
    (d.adopt h children).slots.size = d.slots.size := by
  unfold adopt
  split <;> simp

end PocketReader.Document
