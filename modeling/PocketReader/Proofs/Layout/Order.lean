import Mathlib.Data.List.Pairwise
import PocketReader.Display.Panel
import PocketReader.Proofs.Layout.Extents
import PocketReader.Proofs.Layout.Rows

/-! How extents lie on the page. Of two nodes that are laid out one is inside the other, and then so is its extent, or
they lie one above the other in the order they are read. What is drawn for a leaf begins inside its extent, and so
inside the extent of no other leaf. -/
namespace PocketReader

/-- The extents of the exposed nodes are in the order of the index, and one node has its extent inside that of another
exactly as the trees have it below the other. -/
structure Focus.Arranged (d : Document) (entries : List Focus.Entry) (height : Nat) : Prop where
  bounded : ∀ a ∈ entries, d.Exposed a.node → a.extent.top ≤ a.extent.bottom ∧ a.extent.bottom ≤ height
  ordered : entries.Pairwise fun a b => d.Exposed a.node → d.Exposed b.node →
    a.extent.top ≤ b.extent.top ∧
      if b.node ∈ (d.located.under a.node).handles then b.extent.bottom ≤ a.extent.bottom
      else a.extent.bottom ≤ b.extent.top

/-- A row of the page that an extent takes up. -/
def Extent.Holds (e : Extent) (row : Int) : Prop := e.top ≤ row ∧ row < e.bottom

namespace Layout

/-- The row of the page that is shown at a row of the panel. -/
def pageRow (settings : PageSettings) (scroll : Scroll) (y : Int32) : Int :=
  y.toInt - settings.statusBar.toNat + scroll.offset

/-- How a visit stands to one that ends after it. -/
inductive Visit.Precedes (f : Forest Located) (v v' : Visit) : Prop
  | inside (other : v.node.handle ≠ v'.node.handle) (below : v.node.handle ∈ (f.under v'.node.handle).handles)
      (container : v'.node.content.kind.isContainer) (top : v'.extent.top ≤ v.extent.top)
      (bottom : v.extent.bottom ≤ v'.extent.bottom)
      (places : v.node.content.selectable → v'.node.content.selectable → v'.place < v.place)
  | beside (other : v.node.handle ≠ v'.node.handle) (apart : v.node.handle ∉ (f.under v'.node.handle).handles)
      (apart' : v'.node.handle ∉ (f.under v.node.handle).handles) (order : v.extent.bottom ≤ v'.extent.top)
      (places : v.node.content.selectable → v'.node.content.selectable → v.place < v'.place)

namespace Visit.Precedes

variable {f g : Forest Located} {v v' : Visit}

theorem other (precedes : v.Precedes f v') : v.node.handle ≠ v'.node.handle := by
  cases precedes with
  | inside other => exact other
  | beside other => exact other

theorem congr (same : f.under v.node.handle = g.under v.node.handle)
    (same' : f.under v'.node.handle = g.under v'.node.handle) (precedes : v.Precedes f v') : v.Precedes g v' := by
  cases precedes with
  | inside other below container top bottom places => exact .inside other (same' ▸ below) container top bottom places
  | beside other apart apart' order places => exact .beside other (same' ▸ apart) (same ▸ apart') order places

end Visit.Precedes

variable {w : Window}

theorem place_visits (f : Forest Located) (c : Cursor) {v : Visit} (member : v ∈ visits w f c)
    (selectable : v.node.content.selectable) : c.index ≤ v.place ∧ v.place < c.index + selectables f := by
  have noted : v.mark ∈ marks (steps w f c).1 := (mem_marks_iff f c v.mark).mpr ⟨v, member, selectable, rfl⟩
  rw [← length_focusable]
  exact (aligned_steps f c).bound noted

section

variable {n : Located} {kids rest : Forest Located} (nodup : (Forest.node n kids rest).handles.Nodup)

include nodup

/-- The first tree comes before the trees to its right. -/
theorem precedes_of_beside {below : Cursor} {v v' : Visit}
    (left : v.node.handle = n.handle ∨ v.node.handle ∈ kids.handles) (right : v' ∈ visits w rest below)
    (bottom : v.extent.bottom ≤ below.position) (place : v.node.content.selectable → v.place < below.index) :
    v.Precedes (.node n kids rest) v' := by
  obtain ⟨-, before, -, -, apart⟩ := Forest.nodup_node nodup
  have member := handle_visits rest below right
  have absent : v.node.handle ∉ rest.handles := left.elim (fun root => root ▸ before) (apart _)
  have inner : ((Forest.node n kids rest).under v.node.handle).handles ⊆ kids.handles := by
    rcases left with root | child
    · rw [root, Forest.under_root]
      exact fun _ inside => inside
    · rw [Forest.under_of_mem_children nodup child]
      exact Forest.under_subset kids
  refine .beside (fun same => absent (same ▸ member)) ?_ (fun inside => apart _ (inner inside) member) ?_ ?_
  · rw [Forest.under_of_mem_rest nodup member]
    exact fun inside => absent (Forest.under_subset rest inside)
  · exact Nat.le_trans bottom (bounds_visits rest below right).1
  · exact fun selectable selectable' =>
      Nat.lt_of_lt_of_le (place selectable) (place_visits rest below right selectable').1

theorem precedes_of_inside (c : Cursor) (container : n.content.kind.isContainer) {v : Visit}
    (member : v ∈ visits w kids { c with index := c.index + places n.content.selectable }) :
    v.Precedes (.node n kids rest) ⟨n, c.index, [], ⟨c.position,
      (steps w kids { c with index := c.index + places n.content.selectable }).2.position⟩⟩ := by
  obtain ⟨above, -, -, -, -⟩ := Forest.nodup_node nodup
  have inside := handle_visits kids _ member
  obtain ⟨top, -, bottom⟩ := bounds_visits kids _ member
  refine .inside (fun same => above (same ▸ inside)) ?_ container top bottom fun selectable selectable' => ?_
  · rwa [Forest.under_root]
  · have place := (place_visits kids _ member selectable).1
    rw [places, if_pos selectable'] at place
    exact place

end

theorem precedes_visits {f : Forest Located} (nodup : f.handles.Nodup) (c : Cursor) :
    (visits w f c).Pairwise (Visit.Precedes f) := by
  induction f generalizing c with
  | nil => exact .nil
  | node n kids rest ihk ihr =>
    obtain ⟨-, -, left, right, -⟩ := Forest.nodup_node nodup
    have among : ∀ below : Cursor, (visits w rest below).Pairwise (Visit.Precedes (.node n kids rest)) := by
      refine fun below => (ihr right below).imp_of_mem fun member member' precedes => precedes.congr ?_ ?_
      · exact (Forest.under_of_mem_rest nodup (handle_visits rest below member)).symm
      · exact (Forest.under_of_mem_rest nodup (handle_visits rest below member')).symm
    by_cases here : w.passesOver c.position
    · rw [visits_of_passesOver here]
      exact .nil
    · by_cases container : n.content.kind.isContainer
      · rw [visits_container here container]
        generalize begin : ({ c with index := c.index + places n.content.selectable } : Cursor) = start
        -- If the pass goes on beside the container, it has counted all that is inside.
        have counted : ∀ {v}, v ∈ visits w rest (steps w kids start).2 →
            (steps w kids start).2.index = start.index + selectables kids := by
          intro v beside
          refine index_steps kids start fun passed => ?_
          rw [visits_of_passesOver passed] at beside
          cases beside
        rw [List.pairwise_append, List.pairwise_cons]
        refine ⟨?_, ⟨fun v beside => ?_, among _⟩, fun v inside v' later => ?_⟩
        · refine (ihk left start).imp_of_mem fun member member' precedes => precedes.congr ?_ ?_
          · exact (Forest.under_of_mem_children nodup (handle_visits kids start member)).symm
          · exact (Forest.under_of_mem_children nodup (handle_visits kids start member')).symm
        · refine precedes_of_beside nodup (.inl rfl) beside (Nat.le_refl _) fun selectable => ?_
          rw [counted beside, ← begin, places, if_pos selectable]
          exact Nat.lt_add_right _ (Nat.lt_succ_self c.index)
        · rcases List.mem_cons.mp later with rfl | beside
          · subst begin
            exact precedes_of_inside nodup c container inside
          · refine precedes_of_beside nodup (.inr (handle_visits kids start inside)) beside
              (bounds_visits kids start inside).2.2 fun selectable => ?_
            rw [counted beside]
            exact (place_visits kids start inside selectable).2
      · rw [visits_leaf here container, List.pairwise_cons]
        refine ⟨fun v beside => ?_, among _⟩
        refine precedes_of_beside nodup (.inl rfl) beside (Nat.le_refl _) fun selectable => ?_
        rw [places, if_pos selectable]
        exact Nat.lt_add_right _ (Nat.lt_succ_self c.index)

/-- Of two visits one precedes the other. -/
theorem precedes_or_precedes {f : Forest Located} (nodup : f.handles.Nodup) {c : Cursor} {v v' : Visit}
    (member : v ∈ visits w f c) (member' : v' ∈ visits w f c) (apart : v ≠ v') :
    v.Precedes f v' ∨ v'.Precedes f v := by
  let Either := fun v v' : Visit => v.Precedes f v' ∨ v'.Precedes f v
  have symm : Std.Symm Either := ⟨fun _ _ => Or.symm⟩
  have either : (visits w f c).Pairwise Either := (precedes_visits nodup c).imp Or.inl
  exact either.forall member member' apart

theorem nodup_visits {f : Forest Located} (nodup : f.handles.Nodup) (c : Cursor) :
    ((visits w f c).map (·.node.handle)).Nodup :=
  List.pairwise_map.mpr ((precedes_visits nodup c).imp Visit.Precedes.other)

section

variable {δ : Type} [Display δ] {d : Document} {entries : List Focus.Entry} {settings : PageSettings}
    {scroll : Scroll}
  {display : δ} (represents : d.Represents d.located)
  (rebuilt : entries.map Focus.Entry.node = d.located.focusable)
  (whole : frame settings d scroll entries =
    (steps (windowOf settings scroll.beginFrame entries).whole d.located {}).1)
  (complete : (paint settings d scroll entries display).outcome = .ok ())

include represents rebuilt whole complete

/-- After a complete frame that passes nothing over, the entry of an exposed node has the extent of its visit. -/
theorem exists_visit {i : Nat} {a : Focus.Entry}
    (there : (paint settings d scroll entries display).entries[i]? = some a) (exposed : d.Exposed a.node) :
    ∃ v ∈ visits (windowOf settings scroll.beginFrame entries) d.located {},
      v.node.content.selectable ∧ v.place = i ∧ v.node.handle = a.node ∧ v.extent = a.extent := by
  rw [entries_paint complete] at there
  have here : (entries.map Focus.Entry.node)[i]? = some a.node := by
    rw [← map_node_foldl, List.getElem?_map, there, Option.map_some]
  have listed : a.node ∈ d.located.focusable := rebuilt ▸ List.mem_of_getElem? here
  obtain ⟨e, laid⟩ := represents.exists_extent listed exposed
  obtain ⟨place, noted⟩ := (represents.extent?_eq_some_iff _ e).mp laid
  rw [← (steps_whole_geometry (windowOf settings scroll.beginFrame entries) d).1, ← whole] at noted
  obtain rfl : place = i := place_frame represents rebuilt settings scroll noted here
  obtain ⟨v, visited, selectable, same⟩ := (mem_marks_iff _ _ _).mp noted
  obtain ⟨place, node, extent⟩ := Mark.mk.inj same
  refine ⟨v, visited, selectable, place.symm, node.symm, extent.symm.trans ?_⟩
  have written := getElem?_foldl_apply_of_mem (aligned_steps d.located {}).once noted entries
  rw [frame] at there
  rw [there, eq_comm, Option.map_eq_some_iff] at written
  obtain ⟨_, -, kept⟩ := written
  exact congrArg Focus.Entry.extent kept

theorem arranged_paint :
    Focus.Arranged d (paint settings d scroll entries display).entries
      (paint settings d scroll entries display).scroll.height := by
  have visit := @exists_visit _ _ _ _ _ _ _ represents rebuilt whole complete
  have reach : (steps (windowOf settings scroll.beginFrame entries) d.located {}).2.position ≤
      (paint settings d scroll entries display).scroll.height := by
    rw [scroll_paint complete]
    exact Nat.le_max_right _ _
  constructor
  · intro a member exposed
    obtain ⟨i, there⟩ := List.mem_iff_getElem?.mp member
    obtain ⟨v, visited, -, -, -, extent⟩ := visit there exposed
    obtain ⟨-, order, bottom⟩ := bounds_visits d.located {} visited
    rw [← extent]
    exact ⟨order, Nat.le_trans bottom reach⟩
  · refine List.pairwise_iff_getElem.mpr fun i j hi hj before exposed exposed' => ?_
    obtain ⟨v, visited, selectable, rfl, node, extent⟩ := visit (List.getElem?_eq_getElem hi) exposed
    obtain ⟨v', visited', selectable', rfl, node', extent'⟩ := visit (List.getElem?_eq_getElem hj) exposed'
    rw [← node, ← node', ← extent, ← extent']
    have bounds := bounds_visits d.located {} visited
    have apart : v ≠ v' := fun same => Nat.ne_of_lt before (congrArg Visit.place same)
    -- The places in the index tell which of the two is above the other, or around it.
    rcases precedes_or_precedes represents.nodup visited visited' apart with
      (⟨-, -, -, -, -, places⟩ | ⟨-, -, outside, order, -⟩) | (⟨-, below, -, top, bottom, -⟩ | ⟨-, -, -, -, places⟩)
    · exact absurd (places selectable selectable') (Nat.lt_asymm before)
    · rw [if_neg outside]
      exact ⟨Nat.le_trans bounds.2.1 order, order⟩
    · rw [if_pos below]
      exact ⟨top, bottom⟩
    · exact absurd (places selectable' selectable) (Nat.lt_asymm before)

/-- As long as the words can hold where rows are, what is drawn for a leaf begins inside its extent and no other's. -/
theorem holds_row_iff (low : settings.statusBar.toNat +
    (paint settings d scroll entries display).scroll.height < 2 ^ 31)
    (near : (paint settings d scroll entries display).scroll.offset < 2 ^ 31) {v : Visit}
    (visited : v ∈ visits (windowOf settings scroll.beginFrame entries) d.located {}) {op : DrawOp}
    (drawn : op ∈ v.ops) :
    ∃ y, op.row? = some y ∧ ∀ b ∈ (paint settings d scroll entries display).entries, d.Exposed b.node →
      ¬ d.Open b.node →
      (b.extent.Holds (pageRow settings (paint settings d scroll entries display).scroll y) ↔
        b.node = v.node.handle) := by
  obtain ⟨position, row, above, below⟩ := inside_visits d.located {} visited op drawn
  have bottom := (bounds_visits d.located {} visited).2.2
  rw [scroll_paint complete] at low near ⊢
  have reach := Nat.le_max_right scroll.beginFrame.height
    (steps (windowOf settings scroll.beginFrame entries) d.located {}).2.position
  change settings.statusBar.toNat + max _ _ < _ at low
  have held : (windowOf settings scroll.beginFrame entries).statusBar + position < 2 ^ 31 :=
    Nat.lt_of_le_of_lt (Nat.add_le_add_left (by omega) _) low
  refine ⟨_, row, fun b member exposed closed => ?_⟩
  have shown : pageRow settings (scroll.beginFrame.finishLayout
      (steps (windowOf settings scroll.beginFrame entries) d.located {}).2.position)
      ((windowOf settings scroll.beginFrame entries).screenY position) = position := by
    rw [pageRow, toInt_screenY _ held near]
    change ((settings.statusBar.toNat + position : Nat) : Int) - (scroll.beginFrame.offset : Int) -
      (settings.statusBar.toNat : Int) + (scroll.beginFrame.offset : Int) = position
    omega
  rw [shown]
  obtain ⟨i, there⟩ := List.mem_iff_getElem?.mp member
  obtain ⟨v', visited', -, -, node, extent⟩ := exists_visit represents rebuilt whole complete there exposed
  rw [← node, ← extent, Extent.Holds, Int.ofNat_le, Int.ofNat_lt]
  constructor
  · rintro ⟨above', below'⟩
    by_contra other
    -- Neither visit can be to a container, and extents one above the other share no row.
    have apart : v ≠ v' := fun same => other (congrArg (·.node.handle) same.symm)
    rcases precedes_or_precedes represents.nodup visited visited' apart with
      (⟨-, -, container, -, -, -⟩ | ⟨-, -, -, order, -⟩) | (⟨-, -, container, -, -, -⟩ | ⟨-, -, -, order, -⟩)
    · have listed := d.located.exposed_subset (node_visits d.located {} visited')
      exact closed (node ▸ represents.open_of_openIn ⟨v'.node, listed, rfl, container⟩)
    · omega
    · rcases visit_cases d.located {} visited with ⟨-, nothing⟩ | ⟨leaf, -⟩
      · rw [nothing] at drawn
        cases drawn
      · exact leaf container
    · omega
  · intro same
    rw [List.inj_on_of_nodup_map (nodup_visits represents.nodup {}) visited' visited same]
    exact ⟨above, below⟩

end

theorem frame_whole_of_unmeasured (settings : PageSettings) (d : Document) {scroll : Scroll}
    (unmeasured : scroll.measured = false) (entries : List Focus.Entry) :
    frame settings d scroll entries = (steps (windowOf settings scroll.beginFrame entries).whole d.located {}).1 := by
  have full : (windowOf settings scroll.beginFrame entries).whole = windowOf settings scroll.beginFrame entries := by
    simp [Window.whole, windowOf, Scroll.beginFrame, unmeasured]
  rw [full, frame]

/-- A complete frame that passes nothing over, as the first of a page does, leaves the extents of the exposed nodes on
record as the nodes lie on the page. Whatever it draws, it draws for some node, and what it draws for a node that is
no container begins at a row of this node's extent, and of no other such node's. -/
theorem paint_arranges {d : Document} (reachable : d.Reachable) {entries : List Focus.Entry}
    (rebuilt : entries.map Focus.Entry.node = (Focus.index d).map Focus.Entry.node) (settings : PageSettings)
    (scroll : Scroll) {δ : Type} [Display δ] (display : δ)
    (whole : frame settings d scroll entries =
      (steps (windowOf settings scroll.beginFrame entries).whole d.located {}).1)
    (complete : (paint settings d scroll entries display).outcome = .ok ()) :
    let made := visits (windowOf settings scroll.beginFrame entries) d.located {}
    let painted := paint settings d scroll entries display
    Focus.Arranged d painted.entries painted.scroll.height ∧
      draws (frame settings d scroll entries) = made.flatMap Visit.ops ∧
      (settings.statusBar.toNat + painted.scroll.height < 2 ^ 31 → painted.scroll.offset < 2 ^ 31 →
        ∀ v ∈ made, ∀ op ∈ v.ops, ∃ y, op.row? = some y ∧
          ∀ b ∈ painted.entries, d.Exposed b.node → ¬ d.Open b.node →
            (b.extent.Holds (pageRow settings painted.scroll y) ↔ b.node = v.node.handle)) := by
  intro made painted
  have represents := reachable.represents
  rw [represents.map_node_index] at rebuilt
  refine ⟨arranged_paint represents rebuilt whole complete, (flatMap_ops_visits _ _ _).symm, ?_⟩
  intro low near v visited op drawn
  exact holds_row_iff represents rebuilt whole complete low near visited drawn

/-- A selectable division holds a link and a button of two lines, and another link is below it. The division begins
with the first link and ends with the button. -/
theorem paint_arranges_division :
    let node := fun kind lines kids => Forest.single { kind, lines, selectable := true : Content } kids
    let division := node .container [] (node .link ["on"] .nil ++ node .button ["yes", "no"] .nil)
    let d := Document.ofForest (.single { kind := .body } (division ++ node .link ["back"] .nil))
    let entries := Focus.index d
    let scroll : Scroll := { viewport := 150, step := 40 }
    let panel : Panel := { width := 320, height := 170 }
    let made := visits (windowOf {} scroll.beginFrame entries) d.located {}
    let painted := paint {} d scroll entries panel
    (d.Reachable ∧ scroll.measured = false ∧ painted.outcome = .ok ()) ∧
      painted.entries.map Focus.Entry.extent = [⟨0, 72⟩, ⟨4, 22⟩, ⟨26, 72⟩, ⟨76, 94⟩] ∧
      Focus.Arranged d painted.entries painted.scroll.height ∧
      draws (frame {} d scroll entries) = made.flatMap Visit.ops ∧
      ∀ v ∈ made, ∀ op ∈ v.ops, ∃ y, op.row? = some y ∧
        ∀ b ∈ painted.entries, d.Exposed b.node → ¬ d.Open b.node →
          (b.extent.Holds (pageRow {} painted.scroll y) ↔ b.node = v.node.handle) := by
  intro node division d entries scroll panel made painted
  have reachable : d.Reachable := .ofForest _
  have complete : painted.outcome = .ok () := by decide +kernel
  obtain ⟨arranged, drawn, rows⟩ := paint_arranges reachable rfl {} scroll panel
    (frame_whole_of_unmeasured {} d rfl entries) complete
  exact ⟨⟨reachable, rfl, complete⟩, by decide +kernel, arranged, drawn, rows (by decide +kernel) (by decide +kernel)⟩

end Layout
end PocketReader
