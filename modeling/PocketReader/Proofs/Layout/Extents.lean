import PocketReader.Proofs.Layout.Cutoff
import PocketReader.Proofs.Layout.Visits

/-! The extents that are on record beside those of the page laid out as a whole. A pass with a cutoff notes the extent
of a leaf as it is. Of a container it notes the right top, and a bottom that is too high only where both lie beyond
the cutoff. What it does not note at all begins beyond the cutoff. -/
namespace PocketReader

/-- What an extent on record says of the true one: its top, and its bottom unless that is beyond some line; there a
container may end higher on record than it does, but not before the line. -/
structure Extent.Agrees (seen whole : Extent) (beyond : Nat → Prop) (container : Prop) : Prop where
  top : seen.top = whole.top
  top_le : seen.top ≤ seen.bottom
  bottom_le : seen.bottom ≤ whole.bottom
  bottom : seen.bottom = whole.bottom ∨ container ∧ beyond seen.bottom

namespace Extent.Agrees

variable {seen whole : Extent} {beyond beyond' : Nat → Prop} {container container' : Prop}

theorem imp (agrees : seen.Agrees whole beyond container) (line : ∀ position, beyond position → beyond' position)
    (kind : container → container') : seen.Agrees whole beyond' container' := by
  refine ⟨agrees.top, agrees.top_le, agrees.bottom_le, ?_⟩
  exact agrees.bottom.imp_right fun cut => ⟨kind cut.1, line _ cut.2⟩

/-- On record for another line, it still agrees if it begins beyond the new one. -/
theorem of_top (agrees : seen.Agrees whole beyond container) (further : ∀ {p q}, p ≤ q → beyond' p → beyond' q)
    (below : beyond' whole.top) : seen.Agrees whole beyond' container := by
  refine ⟨agrees.top, agrees.top_le, agrees.bottom_le, ?_⟩
  have past : beyond' seen.bottom := further (agrees.top ▸ agrees.top_le) below
  exact agrees.bottom.imp_right fun cut => ⟨cut.1, past⟩

/-- Both show, or neither does. -/
theorem isVisible_eq {offset viewport : Nat} (agrees : seen.Agrees whole (offset + viewport < ·) container) :
    seen.isVisible offset viewport = whole.isVisible offset viewport := by
  unfold Extent.isVisible
  rw [agrees.top]
  congr 1
  rcases agrees.bottom with same | ⟨-, past⟩
  · rw [same]
  · have short := agrees.bottom_le
    rw [decide_eq_decide]
    omega

end Extent.Agrees

namespace Layout

variable {w : Window}

theorem bounds_marks (f : Forest Located) (c : Cursor) {m : Mark} (member : m ∈ marks (steps w f c).1) :
    c.position ≤ m.extent.top ∧ m.extent.top ≤ m.extent.bottom ∧
      m.extent.bottom ≤ (steps w f c).2.position := by
  obtain ⟨v, visited, -, rfl⟩ := (mem_marks_iff f c m).mp member
  exact bounds_visits f c visited

/-- The node of a handle in some trees is a container. -/
def OpenIn (f : Forest Located) (h : Handle) : Prop :=
  ∃ n ∈ f.preorder, n.handle = h ∧ n.content.kind.isContainer

/-- What a pass with a cutoff notes, the same pass without one notes for the same node, and the two agree. -/
theorem agrees_marks (f : Forest Located) (c : Cursor) {m : Mark} (member : m ∈ marks (steps w f c).1) :
    ∃ e, ⟨m.place, m.node, e⟩ ∈ marks (steps w.whole f c).1 ∧
      m.extent.Agrees e (fun position => w.passesOver position) (OpenIn f m.node) := by
  induction f generalizing c with
  | nil => cases member
  | node n kids rest ihk ihr =>
    have widen : ∀ {g : Forest Located}, (∀ k ∈ g.preorder, k ∈ (Forest.node n kids rest).preorder) →
        OpenIn g m.node → OpenIn (.node n kids rest) m.node := by
      rintro g among ⟨k, listed, same, container⟩
      exact ⟨k, among k listed, same, container⟩
    have left : ∀ k ∈ kids.preorder, k ∈ (Forest.node n kids rest).preorder := fun k listed =>
      List.mem_cons_of_mem _ (List.mem_append_left _ listed)
    have right : ∀ k ∈ rest.preorder, k ∈ (Forest.node n kids rest).preorder := fun k listed =>
      List.mem_cons_of_mem _ (List.mem_append_right _ listed)
    by_cases here : w.passesOver c.position
    · rw [steps_of_passesOver here] at member
      cases member
    · by_cases container : n.content.kind.isContainer
      · rw [steps_container here container] at member
        rw [steps_container (not_passesOver_whole _) container]
        generalize inner : ({ c with index := c.index + places n.content.selectable } : Cursor) = start at member ⊢
        simp only [marks_append, List.mem_append, mem_marks_markIf] at member ⊢
        rcases member with (inside | ⟨selectable, rfl⟩) | beside
        · obtain ⟨e, noted, agrees⟩ := ihk start inside
          exact ⟨e, .inl (.inl noted), agrees.imp (fun _ past => past) (widen left)⟩
        · -- The container itself ends where its children do, which is too soon if one of them is passed over.
          refine ⟨⟨c.position, (steps w.whole kids start).2.position⟩, .inl (.inr ⟨selectable, rfl⟩), rfl, ?_,
            position_steps_le_whole kids start, ?_⟩
          · have above : c.position = start.position := by rw [← inner]
            change c.position ≤ _
            rw [above]
            exact position_le_steps kids start
          · by_cases ahead : w.passesOver (steps w kids start).2.position
            · exact .inr ⟨⟨n, List.mem_cons_self, rfl, container⟩, ahead⟩
            · rw [steps_whole_of_ahead kids start ahead]
              exact .inl rfl
        · by_cases ahead : w.passesOver (steps w kids start).2.position
          · rw [steps_of_passesOver ahead] at beside
            cases beside
          · rw [steps_whole_of_ahead kids start ahead]
            obtain ⟨e, noted, agrees⟩ := ihr _ beside
            exact ⟨e, .inr noted, agrees.imp (fun _ past => past) (widen right)⟩
      · rw [steps_leaf here container] at member
        rw [steps_leaf (not_passesOver_whole _) container, leaf_whole]
        simp only [marks_append, marks_draw, List.nil_append, List.mem_append, mem_marks_markIf] at member ⊢
        rcases member with ⟨selectable, rfl⟩ | beside
        · exact ⟨_, .inl ⟨selectable, rfl⟩, rfl, (bounds_leaf _ _ _ _).2, Nat.le_refl _, .inl rfl⟩
        · obtain ⟨e, noted, agrees⟩ := ihr _ beside
          exact ⟨e, .inr noted, agrees.imp (fun _ past => past) (widen right)⟩

/-- What only the pass without a cutoff notes begins beyond the cutoff. -/
theorem noted_or_beyond (f : Forest Located) (c : Cursor) {m : Mark} (member : m ∈ marks (steps w.whole f c).1) :
    (∃ e, ⟨m.place, m.node, e⟩ ∈ marks (steps w f c).1) ∨ w.passesOver m.extent.top := by
  induction f generalizing c with
  | nil => cases member
  | node n kids rest ihk ihr =>
    by_cases here : w.passesOver c.position
    · exact .inr (passesOver_of_le (bounds_marks _ c member).1 here)
    · by_cases container : n.content.kind.isContainer
      · rw [steps_container (not_passesOver_whole _) container] at member
        rw [steps_container here container]
        generalize inner : ({ c with index := c.index + places n.content.selectable } : Cursor) = start at member ⊢
        simp only [marks_append, List.mem_append, mem_marks_markIf] at member ⊢
        rcases member with (inside | ⟨selectable, rfl⟩) | beside
        · exact (ihk start inside).imp_left fun ⟨e, noted⟩ => ⟨e, .inl (.inl noted)⟩
        · exact .inl ⟨_, .inl (.inr ⟨selectable, rfl⟩)⟩
        · by_cases ahead : w.passesOver (steps w kids start).2.position
          · have further := Nat.le_trans (position_steps_le_whole kids start) (bounds_marks rest _ beside).1
            exact .inr (passesOver_of_le further ahead)
          · rw [steps_whole_of_ahead kids start ahead] at beside
            exact (ihr _ beside).imp_left fun ⟨e, noted⟩ => ⟨e, .inr noted⟩
      · rw [steps_leaf (not_passesOver_whole _) container, leaf_whole] at member
        rw [steps_leaf here container]
        simp only [marks_append, marks_draw, List.nil_append, List.mem_append, mem_marks_markIf] at member ⊢
        rcases member with ⟨selectable, rfl⟩ | beside
        · exact .inl ⟨_, .inl ⟨selectable, rfl⟩⟩
        · exact (ihr _ beside).imp_left fun ⟨e, noted⟩ => ⟨e, .inr noted⟩

end Layout

/-- Where a selectable node is on the page laid out as a whole. -/
def Document.extent? (d : Document) (h : Handle) : Option Extent :=
  ((Layout.marks d.layout.1).find? (·.node == h)).map Layout.Mark.extent

/-- The node of a handle is a container. -/
def Document.Open (d : Document) (h : Handle) : Prop :=
  ∃ node, d.get? h = some node ∧ node.content.kind.isContainer

namespace Document.Represents

open Layout

variable {d : Document} (represents : d.Represents d.located)

include represents

/-- A node is noted once. -/
theorem mark_unique {m m' : Mark} (member : m ∈ marks d.layout.1) (member' : m' ∈ marks d.layout.1)
    (same : m.node = m'.node) : m = m' := by
  have aligned := aligned_steps (w := { statusBar := 0, offset := 0 }) d.located {}
  obtain ⟨i, place, there⟩ := aligned.named m member
  obtain ⟨j, place', there'⟩ := aligned.named m' member'
  have one : i = j := by
    refine (List.getElem?_inj (List.getElem?_eq_some_iff.mp there).1 represents.nodup_focusable).mp ?_
    rw [there, there', same]
  exact List.inj_on_of_nodup_map aligned.once member member' (by omega)

theorem extent?_eq_some_iff (h : Handle) (e : Extent) :
    d.extent? h = some e ↔ ∃ place, ⟨place, h, e⟩ ∈ marks d.layout.1 := by
  rw [Document.extent?, Option.map_eq_some_iff]
  have of_find? : ∀ {m}, (marks d.layout.1).find? (·.node == h) = some m → m.node = h := by
    intro m found
    have test := List.find?_some found
    exact eq_of_beq test
  constructor
  · rintro ⟨m, found, rfl⟩
    have node : m.node = h := of_find? found
    exact ⟨m.place, node ▸ List.mem_of_find?_eq_some found⟩
  · rintro ⟨place, noted⟩
    have met : ((marks d.layout.1).find? (·.node == h)).isSome := by
      rw [List.find?_isSome]
      exact ⟨_, noted, beq_self_eq_true h⟩
    obtain ⟨m, found⟩ := Option.isSome_iff_exists.mp met
    have node : m.node = h := of_find? found
    exact ⟨m, found, congrArg Mark.extent
      (represents.mark_unique (List.mem_of_find?_eq_some found) noted node)⟩

/-- Every selectable node that is exposed is laid out. -/
theorem exists_extent {h : Handle} (listed : h ∈ d.located.focusable) (exposed : d.Exposed h) :
    ∃ e, d.extent? h = some e := by
  have shown : h ∈ (d.located.exposed.filter (·.content.selectable)).map Located.handle := by
    rw [Forest.mem_exposed_selectable_iff represents.nodup]
    exact ⟨listed, (represents.exposed_iff h).mp exposed⟩
  have nodes := marks_perm_exposed (w := { statusBar := 0, offset := 0 }) rfl d.located {}
  obtain ⟨m, noted, node⟩ := List.mem_map.mp (nodes.mem_iff.mpr shown)
  exact ⟨m.extent, (represents.extent?_eq_some_iff h m.extent).mpr ⟨m.place, node ▸ noted⟩⟩

/-- The page as a whole reaches down to the end of each extent. -/
theorem bottom_le_height {h : Handle} {e : Extent} (extent : d.extent? h = some e) : e.bottom ≤ d.height := by
  obtain ⟨place, noted⟩ := (represents.extent?_eq_some_iff h e).mp extent
  exact (bounds_marks d.located {} noted).2.2

theorem open_of_openIn {h : Handle} (openIn : OpenIn d.located h) : d.Open h := by
  obtain ⟨n, listed, rfl, container⟩ := openIn
  obtain ⟨children, found, -⟩ := represents.holds.get? listed
  exact ⟨_, found, container⟩

end Document.Represents

namespace Layout

theorem getElem?_apply (m : Mark) (entries : List Focus.Entry) (i : Nat) :
    (m.apply entries)[i]? =
      entries[i]?.map fun entry => if m.place = i then { entry with extent := m.extent } else entry := by
  rw [Mark.apply, List.getElem?_modify]
  rfl

theorem getElem?_foldl_apply_of_notMem {ms : List Mark} {i : Nat} (unnoted : ∀ m ∈ ms, m.place ≠ i)
    (entries : List Focus.Entry) : (ms.foldl Mark.apply entries)[i]? = entries[i]? := by
  induction ms generalizing entries with
  | nil => rfl
  | cons m ms ih =>
    rw [List.forall_mem_cons] at unnoted
    rw [List.foldl_cons, ih unnoted.2, getElem?_apply]
    simp only [if_neg unnoted.1, Option.map_id']

theorem getElem?_foldl_apply_of_mem {ms : List Mark} (once : (ms.map Mark.place).Nodup) {m : Mark} (member : m ∈ ms)
    (entries : List Focus.Entry) :
    (ms.foldl Mark.apply entries)[m.place]? =
      entries[m.place]?.map fun entry => { entry with extent := m.extent } := by
  induction ms generalizing entries with
  | nil => cases member
  | cons first ms ih =>
    rw [List.map_cons, List.nodup_cons] at once
    rw [List.foldl_cons]
    rcases List.mem_cons.mp member with rfl | later
    · have apart : ∀ m' ∈ ms, m'.place ≠ m.place := fun m' other same => once.1 (same ▸ List.mem_map_of_mem other)
      rw [getElem?_foldl_apply_of_notMem apart, getElem?_apply]
      simp only [if_true]
    · have apart : first.place ≠ m.place := fun same => once.1 (same ▸ List.mem_map_of_mem later)
      rw [ih once.2 later, getElem?_apply]
      simp only [if_neg apart, Option.map_id']

/-- After a frame an entry has the extent noted for its node, or none was noted and it is as it was. -/
theorem mem_foldl_apply {ms : List Mark} {entries : List Focus.Entry} (once : (ms.map Mark.place).Nodup)
    (nodup : (entries.map Focus.Entry.node).Nodup)
    (named : ∀ m ∈ ms, (entries.map Focus.Entry.node)[m.place]? = some m.node) {entry : Focus.Entry}
    (member : entry ∈ ms.foldl Mark.apply entries) :
    (∃ m ∈ ms, m.node = entry.node ∧ m.extent = entry.extent) ∨
      entry ∈ entries ∧ ∀ m ∈ ms, m.node ≠ entry.node := by
  obtain ⟨i, there⟩ := List.mem_iff_getElem?.mp member
  by_cases noted : ∃ m ∈ ms, m.place = i
  · obtain ⟨m, among, rfl⟩ := noted
    rw [getElem?_foldl_apply_of_mem once among, Option.map_eq_some_iff] at there
    obtain ⟨old, found, rfl⟩ := there
    have node := named m among
    rw [List.getElem?_map, found, Option.map_some, Option.some.injEq] at node
    exact .inl ⟨m, among, node.symm, rfl⟩
  · have unnoted : ∀ m ∈ ms, m.place ≠ i := fun m among place => noted ⟨m, among, place⟩
    rw [getElem?_foldl_apply_of_notMem unnoted] at there
    refine .inr ⟨List.mem_of_getElem? there, fun m among same => unnoted m among ?_⟩
    have here : (entries.map Focus.Entry.node)[i]? = some m.node := by
      rw [List.getElem?_map, there, Option.map_some, same]
    have inside := (List.getElem?_eq_some_iff.mp (named m among)).1
    exact (List.getElem?_inj inside nodup).mp ((named m among).trans here.symm)

end Layout
end PocketReader
