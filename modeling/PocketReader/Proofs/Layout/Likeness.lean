import PocketReader.Display.Panel
import PocketReader.Proofs.Layout.Rows
import PocketReader.Proofs.Page.Refinement

/-! A frame depends on the trees of a page and not on how they are stored. Two documents that read back as the same
trees keep them under different handles, and a pass compares handles only to find the selected node; as each handle
occurs once, the pass finds it at the same place of both. So the two frames draw the same and note the same
extents. -/
namespace PocketReader

namespace Forest

/-- The nodes at the same places of two forests. -/
def sideBySide (f g : Forest Located) : List (Located × Located) := f.preorder.zip g.preorder

section

variable {f g : Forest Located} (same : f.map Located.content = g.map Located.content)

include same

theorem length_preorder_congr : f.preorder.length = g.preorder.length := by
  have contents := congrArg List.length (congrArg preorder same)
  simpa only [preorder_map, List.length_map] using contents

theorem map_fst_sideBySide : (f.sideBySide g).map Prod.fst = f.preorder :=
  List.map_fst_zip (Nat.le_of_eq (length_preorder_congr same))

theorem map_snd_sideBySide : (f.sideBySide g).map Prod.snd = g.preorder :=
  List.map_snd_zip (Nat.le_of_eq (length_preorder_congr same).symm)

theorem content_sideBySide {p : Located × Located} (member : p ∈ f.sideBySide g) : p.1.content = p.2.content := by
  have contents := congrArg preorder same
  rw [preorder_map, preorder_map, ← map_fst_sideBySide same, ← map_snd_sideBySide same, List.map_map, List.map_map]
    at contents
  exact List.map_inj_left.mp contents p member

theorem focusable_sideBySide :
    f.focusable = ((f.sideBySide g).filter (·.1.content.selectable)).map (·.1.handle) ∧
      g.focusable = ((f.sideBySide g).filter (·.1.content.selectable)).map (·.2.handle) := by
  have alike : ∀ p ∈ f.sideBySide g, p.2.content.selectable = p.1.content.selectable := fun p member =>
    congrArg Content.selectable (content_sideBySide same member).symm
  constructor
  · rw [focusable, ← map_fst_sideBySide same, List.filter_map, List.map_map]
    rfl
  · rw [focusable, ← map_snd_sideBySide same, List.filter_map, List.map_map, ← List.filter_congr alike]
    rfl

/-- The i-th selectable node is at the same place of both forests. -/
theorem focused_sideBySide (nodup : f.handles.Nodup) (nodup' : g.handles.Nodup) (i : Nat) {p : Located × Located}
    (member : p ∈ f.sideBySide g) : f.focusable[i]? = some p.1.handle ↔ g.focusable[i]? = some p.2.handle := by
  obtain ⟨left, right⟩ := focusable_sideBySide same
  have once : ((f.sideBySide g).map (·.1.handle)).Nodup := by
    rwa [handles, ← map_fst_sideBySide same, List.map_map] at nodup
  have once' : ((f.sideBySide g).map (·.2.handle)).Nodup := by
    rwa [handles, ← map_snd_sideBySide same, List.map_map] at nodup'
  rw [left, right, List.getElem?_map, List.getElem?_map]
  cases found : ((f.sideBySide g).filter (·.1.content.selectable))[i]? with
  | none => simp only [Option.map_none, reduceCtorEq]
  | some q =>
    have listed : q ∈ f.sideBySide g := (List.mem_filter.mp (List.mem_of_getElem? found)).1
    rw [Option.map_some, Option.map_some, Option.some.injEq, Option.some.injEq]
    constructor
    · intro here
      rw [List.inj_on_of_nodup_map once listed member here]
    · intro here
      rw [List.inj_on_of_nodup_map once' listed member here]

end

theorem sideBySide_node {n m : Located} {kids kids' rest rest' : Forest Located}
    (below : kids.map Located.content = kids'.map Located.content) :
    (node n kids rest).sideBySide (node m kids' rest') =
      (n, m) :: (kids.sideBySide kids' ++ rest.sideBySide rest') := by
  rw [sideBySide, preorder, preorder, List.zip_cons_cons, List.zip_append (length_preorder_congr below)]
  rfl

end Forest

namespace Layout

/-- A step that does not say which node it is about. -/
def Step.unnamed : Step → Step
  | .draw op => .draw op
  | .mark place _ extent => .mark place ⟨0, 0⟩ extent

theorem selectables_eq_countP (f : Forest Located) :
    selectables f = (f.map Located.content).preorder.countP Content.selectable := by
  induction f with
  | nil => rfl
  | node n kids rest ihk ihr =>
    rw [selectables, ihk, ihr, Forest.map, Forest.preorder, List.countP_cons, List.countP_append, places]
    omega

theorem unnamed_markIf (selectable : Bool) (place : Nat) (node node' : Handle) (extent : Extent) :
    (markIf selectable place node extent).map Step.unnamed =
      (markIf selectable place node' extent).map Step.unnamed := by
  cases selectable <;> rfl

/-- Two passes over forests that hold the same at the same places, and that find the selected node at the same
place. -/
theorem unnamed_steps {w : Window} {selected? : Option Handle} {f g : Forest Located}
    (same : f.map Located.content = g.map Located.content)
    (selected : ∀ p ∈ f.sideBySide g, w.selected? = some p.1.handle ↔ selected? = some p.2.handle) (c : Cursor) :
    (steps w f c).1.map Step.unnamed = (steps { w with selected? } g c).1.map Step.unnamed ∧
      (steps w f c).2 = (steps { w with selected? } g c).2 := by
  induction f generalizing g c with
  | nil =>
    cases g with
    | nil => exact ⟨rfl, rfl⟩
    | node m kids' rest' => cases same
  | node n kids rest ihk ihr =>
    cases g with
    | nil => cases same
    | node m kids' rest' =>
      obtain ⟨content, below, right⟩ := Forest.node.inj same
      rw [Forest.sideBySide_node below, List.forall_mem_cons, List.forall_mem_append] at selected
      obtain ⟨here, inside, beside⟩ := selected
      by_cases passed : w.passesOver c.position
      · rw [steps_of_passesOver passed, steps_of_passesOver (w := { w with selected? }) passed]
        exact ⟨rfl, rfl⟩
      · by_cases container : n.content.kind.isContainer
        · rw [steps_container passed container,
            steps_container (w := { w with selected? }) passed (content ▸ container)]
          obtain ⟨inner, last⟩ := ihk below inside { c with index := c.index + places n.content.selectable }
          obtain ⟨after, final⟩ :=
            ihr right beside (steps w kids ⟨c.position, c.index + places n.content.selectable⟩).2
          rw [content] at inner last after final
          simp only [List.map_append, content, inner, ← last, after, final,
            unnamed_markIf _ _ n.handle m.handle, and_self]
        · rw [steps_leaf passed container, steps_leaf (w := { w with selected? }) passed (content ▸ container)]
          have highlighted : (w.selected? == some n.handle) = (selected? == some m.handle) := by
            rw [Bool.eq_iff_iff, beq_iff_eq, beq_iff_eq]
            exact here
          have lines : kids.head?.map Located.content = kids'.head?.map Located.content := by
            rw [← Forest.head?_map, ← Forest.head?_map, below]
          have rows : w.screenY = ({ w with selected? } : Window).screenY := rfl
          have counted : selectables kids = selectables kids' := by
            rw [selectables_eq_countP, selectables_eq_countP, below]
          simp only [highlighted, lines, counted, content]
          rw [leaf_congr rows]
          generalize leaf _ _ _ _ _ = l
          obtain ⟨after, final⟩ := ihr right beside
            ⟨l.extent.bottom, c.index + places m.content.selectable + selectables kids'⟩
          simp only [List.map_append, after, final, unnamed_markIf _ _ n.handle m.handle, and_self]

theorem map_extent_apply (entries : List Focus.Entry) (m : Mark) :
    (m.apply entries).map Focus.Entry.extent =
      (entries.map Focus.Entry.extent).modify m.place fun _ => m.extent := by
  refine List.ext_getElem? fun i => ?_
  rw [Mark.apply, List.getElem?_map, List.getElem?_modify, List.getElem?_modify, List.getElem?_map]
  cases entries[i]? with
  | none => rfl
  | some entry => by_cases here : m.place = i <;> simp [here]

section

variable {δ : Type} [Display δ]

/-- Which nodes the steps are about is nothing to the display, nor to the extents on record. -/
theorem carryOut_unnamed {todo todo' : List Step} (same : todo.map Step.unnamed = todo'.map Step.unnamed)
    {entries entries' : List Focus.Entry}
    (extents : entries.map Focus.Entry.extent = entries'.map Focus.Entry.extent) (display : δ) :
    (carryOut todo entries display).1 = (carryOut todo' entries' display).1 ∧
      (carryOut todo entries display).2.1.map Focus.Entry.extent =
        (carryOut todo' entries' display).2.1.map Focus.Entry.extent ∧
      (carryOut todo entries display).2.2 = (carryOut todo' entries' display).2.2 := by
  induction todo generalizing todo' entries entries' display with
  | nil =>
    rw [List.map_nil] at same
    rw [List.map_eq_nil_iff.mp same.symm]
    exact ⟨rfl, extents, rfl⟩
  | cons step todo ih =>
    cases todo' with
    | nil => cases same
    | cons step' todo' =>
      obtain ⟨head, tail⟩ := List.cons.inj same
      cases step with
      | draw op =>
        cases step' with
        | mark place' node' extent' => cases head
        | draw op' =>
          obtain rfl := Step.draw.inj head
          rcases answer : Display.draw op display with ⟨outcome, next⟩
          cases outcome with
          | ok =>
            simp only [carryOut, answer]
            exact ih tail extents next
          | error e =>
            simp only [carryOut, answer, extents, and_self]
      | mark place node extent =>
        cases step' with
        | draw op' => cases head
        | mark place' node' extent' =>
          obtain ⟨rfl, -, rfl⟩ := Step.mark.inj head
          refine ih tail ?_ display
          have noted := map_extent_apply entries ⟨place, node, extent⟩
          rwa [extents, ← map_extent_apply entries' ⟨place, node', extent⟩] at noted

end

theorem draws_unnamed (todo : List Step) : draws (todo.map Step.unnamed) = draws todo := by
  rw [draws, draws, List.filterMap_map]
  refine List.filterMap_congr fun step _ => ?_
  cases step <;> rfl

section

variable {d d' : Document} (reachable : d.Reachable) (reachable' : d'.Reachable) (same : d.forest = d'.forest)
  {entries entries' : List Focus.Entry}
  (rebuilt : entries.map Focus.Entry.node = (Focus.index d).map Focus.Entry.node)
  (rebuilt' : entries'.map Focus.Entry.node = (Focus.index d').map Focus.Entry.node)

include reachable reachable' same rebuilt rebuilt'

/-- The selected node is at the same place of both documents. -/
theorem selectedNode?_sideBySide (scroll : Scroll) {p : Located × Located}
    (member : p ∈ d.located.sideBySide d'.located) :
    scroll.selectedNode? entries = some p.1.handle ↔ scroll.selectedNode? entries' = some p.2.handle := by
  have represents := reachable.represents
  have represents' := reachable'.represents
  rw [represents.map_node_index] at rebuilt
  rw [represents'.map_node_index] at rebuilt'
  cases selected : scroll.selected? with
  | none => simp only [Scroll.selectedNode?, selected, Option.bind_none, reduceCtorEq]
  | some i =>
    simp only [Scroll.selectedNode?, selected, Option.bind_some, ← List.getElem?_map, rebuilt, rebuilt']
    exact Forest.focused_sideBySide same represents.nodup represents'.nodup i member

theorem unnamed_frame (settings : PageSettings) (scroll : Scroll) :
    (frame settings d scroll entries).map Step.unnamed = (frame settings d' scroll entries').map Step.unnamed ∧
      (steps (windowOf settings scroll.beginFrame entries) d.located {}).2 =
        (steps (windowOf settings scroll.beginFrame entries') d'.located {}).2 :=
  unnamed_steps (w := windowOf settings scroll.beginFrame entries) same
    (fun _ member => selectedNode?_sideBySide reachable reachable' same rebuilt rebuilt' scroll.beginFrame member) {}

/-- With the same extents on record, the two frames come to the same on any display. -/
theorem paint_alike {δ : Type} [Display δ]
    (extents : entries.map Focus.Entry.extent = entries'.map Focus.Entry.extent)
    (settings : PageSettings) (scroll : Scroll) (display : δ) :
    let painted := paint settings d scroll entries display
    let painted' := paint settings d' scroll entries' display
    (painted.outcome = painted'.outcome ∧ painted.display = painted'.display) ∧
      painted.entries.map Focus.Entry.extent = painted'.entries.map Focus.Entry.extent ∧
      painted.scroll = painted'.scroll := by
  obtain ⟨unnamed, last⟩ := unnamed_frame reachable reachable' same rebuilt rebuilt' settings scroll
  obtain ⟨outcome, noted, shown⟩ := carryOut_unnamed unnamed extents display
  rcases result : carryOut (frame settings d scroll entries) entries display with ⟨answer, changed, next⟩
  rcases result' : carryOut (frame settings d' scroll entries') entries' display with ⟨answer', changed', next'⟩
  rw [result, result'] at outcome noted shown
  dsimp only at outcome noted shown
  subst outcome shown
  rw [frame] at result result'
  cases answer with
  | ok => simp only [paint, result, result', noted, last, and_self]
  | error e => simp only [paint, result, result', noted, and_self]

end

theorem map_extent_index (d : Document) :
    (Focus.index d).map Focus.Entry.extent = List.replicate (Focus.index d).length {} := by
  rw [Focus.index, List.map_map, List.length_map]
  exact List.map_const'

theorem length_index {d : Document} {f : Forest Located} (represents : d.Represents f) :
    (Focus.index d).length = selectables f := by
  rw [← length_focusable, ← represents.map_node_index, List.length_map]

/-- What a frame draws, what extents it leaves and how it moves the page is settled by the trees of the page, the
scroll position and the place of the selection, and not by how the document came about or where it keeps its nodes. -/
theorem paint_of_forest_eq {d d' : Document} (reachable : d.Reachable) (reachable' : d'.Reachable)
    (same : d.forest = d'.forest) (settings : PageSettings) (scroll : Scroll) {δ : Type} [Display δ] (display : δ) :
    let painted := paint settings d scroll (Focus.index d) display
    let painted' := paint settings d' scroll (Focus.index d') display
    draws (frame settings d scroll (Focus.index d)) = draws (frame settings d' scroll (Focus.index d')) ∧
      (painted.outcome = painted'.outcome ∧ painted.display = painted'.display) ∧
      painted.entries.map Focus.Entry.extent = painted'.entries.map Focus.Entry.extent ∧
      painted.scroll = painted'.scroll := by
  intro painted painted'
  have unnamed := (unnamed_frame reachable reachable' same rfl rfl settings scroll).1
  have drawn := congrArg draws unnamed
  rw [draws_unnamed, draws_unnamed] at drawn
  have extents : (Focus.index d).map Focus.Entry.extent = (Focus.index d').map Focus.Entry.extent := by
    rw [map_extent_index, map_extent_index, length_index reachable.represents, length_index reachable'.represents,
      selectables_eq_countP, selectables_eq_countP, ← Document.forest, ← Document.forest, same]
  exact ⟨drawn, paint_alike reachable reachable' same rfl rfl extents settings scroll display⟩

/-- A division was filled twice before it came to hold two links; the same page is made at once. The second link has
the focus, under another handle, and is drawn alike. -/
theorem paint_of_forest_eq_refilled :
    let link := fun rest => Forest.node { kind := .link, selectable := true, lines := ["on"] } .nil rest
    let page := fun filling => Forest.single { kind := .body } (.single { kind := .container } filling)
    let text := Forest.single (Content.text ["line"]) .nil
    let refill := fun (d : Document) filling => (d.replaceChildren? ⟨2, 0⟩ filling).getD d
    let d := refill (refill (Document.ofForest (page (text ++ text))) (text ++ link text)) (link (link .nil))
    let d' := Document.ofForest (page (link (link .nil)))
    let scroll : Scroll := { viewport := 150, step := 40, selected? := some 1 }
    let panel : Panel := { width := 320, height := 170 }
    let painted := paint {} d scroll (Focus.index d) panel
    let painted' := paint {} d' scroll (Focus.index d') panel
    (d.Reachable ∧ d'.Reachable ∧ d.forest = d'.forest) ∧
      (scroll.selectedNode? (Focus.index d) = some ⟨0, 2⟩ ∧ scroll.selectedNode? (Focus.index d') = some ⟨1, 0⟩) ∧
      (draws (frame {} d' scroll (Focus.index d')) =
          [.text 2 24 "on" (linkStyle false), .text 2 46 "on" (linkStyle true)] ∧
        painted'.outcome = .ok () ∧ painted'.entries.map Focus.Entry.extent = [⟨4, 22⟩, ⟨26, 44⟩] ∧
        painted'.scroll = { scroll with height := 44, measured := true }) ∧
      draws (frame {} d scroll (Focus.index d)) = draws (frame {} d' scroll (Focus.index d')) ∧
      (painted.outcome = painted'.outcome ∧ painted.display = painted'.display) ∧
      painted.entries.map Focus.Entry.extent = painted'.entries.map Focus.Entry.extent ∧
      painted.scroll = painted'.scroll := by
  intro link page text refill d d' scroll panel painted painted'
  have reachable : d.Reachable := .replace _ _ (.replace _ _ (.ofForest _))
  have reachable' : d'.Reachable := .ofForest _
  have same : d.forest = d'.forest := by decide +kernel
  exact ⟨⟨reachable, reachable', same⟩, by decide +kernel, by decide +kernel,
    paint_of_forest_eq reachable reachable' same {} scroll panel⟩

end Layout
end PocketReader
