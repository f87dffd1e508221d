import Mathlib.Data.List.Forall2
import PocketReader.Display.Panel
import PocketReader.Proofs.Layout.Rows

/-! Two passes over one page that differ in the selection. They visit the same nodes, place them alike and draw the
same requests in the same order; only what they draw for a selected link or button can be in another colour. So as
long as colours are nothing to the display, both come to the same. -/
namespace PocketReader

namespace DrawOp

/-- The request without its colours. -/
def uncolored : DrawOp → DrawOp
  | .screen _ => .screen default
  | .rectangle x y width height _ => .rectangle x y width height default
  | .horizontal x y length _ => .horizontal x y length default
  | .vertical x y length _ => .vertical x y length default
  | .text x y line style => .text x y line ⟨default, default, style.scale⟩

/-- What the focus can change in a request for a node of some kind: of a link its text, of a button its border. -/
inductive Recolored : Kind → DrawOp → DrawOp → Prop
  | link (x y : Int32) (line : String) {style style' : TextStyle} (scale : style.scale = style'.scale) :
    Recolored .link (.text x y line style) (.text x y line style')
  | horizontal (x y : Int32) (length : UInt16) (color color' : Color) :
    Recolored .button (.horizontal x y length color) (.horizontal x y length color')
  | vertical (x y : Int32) (length : UInt16) (color color' : Color) :
    Recolored .button (.vertical x y length color) (.vertical x y length color')

theorem Recolored.uncolored_eq {kind : Kind} {op op' : DrawOp} (recolored : Recolored kind op op') :
    op.uncolored = op'.uncolored := by
  cases recolored with
  | link x y line scale => rw [uncolored, uncolored, scale]
  | horizontal => rfl
  | vertical => rfl

/-- Text on the accent colour, or a line of it. -/
def Accented : DrawOp → Prop
  | .screen _ | .rectangle _ _ _ _ _ => False
  | .horizontal _ _ _ color | .vertical _ _ _ color => color = .accent
  | .text _ _ _ style => style.background = .accent

end DrawOp

/-- Displays that are alike give the same answers, and stay alike, when they are asked for the same but for the
colours. -/
structure Display.Colorblind {δ : Type} [Display δ] (Alike : δ → δ → Prop) : Prop where
  draw : ∀ {op op' display display'}, op.uncolored = op'.uncolored → Alike display display' →
    (Display.draw op display).1 = (Display.draw op' display').1 ∧
      Alike (Display.draw op display).2 (Display.draw op' display').2

/-- A panel looks only at how many calls it can still answer. -/
theorem Panel.colorblind : Display.Colorblind fun p q : Panel => p.supply? = q.supply? where
  draw := by
    intro op op' p q _ alike
    simp only [Display.draw, Panel.draw, Panel.spend, alike]
    rcases q.supply? with _ | _ | n
    · exact ⟨rfl, alike⟩
    · exact ⟨rfl, alike⟩
    · exact ⟨rfl, rfl⟩

namespace Layout

section

variable (w : Window)

theorem mem_column {left : Int32} {style : TextStyle} {advance position : Nat} {lines : List String} {op : DrawOp}
    (member : op ∈ column w left style advance position lines) : ∃ y line, op = .text left y line style := by
  induction lines generalizing position with
  | nil => cases member
  | cons line rest ih =>
    rw [column, List.mem_cons] at member
    rcases member with rfl | later
    · exact ⟨_, _, rfl⟩
    · exact ih later

theorem accented_box {color : Color} {top : Nat} {lines : List String} :
    ∀ op ∈ box w color top lines, op.Accented → color = .accent := by
  simp only [box, List.forall_mem_cons]
  exact ⟨id, id, id, id, fun _ member => (List.not_mem_nil member).elim⟩

theorem accented_leaf {kind : Kind} {selected : Bool} {lines : List String} {position : Nat} {op : DrawOp}
    (member : op ∈ (leaf w kind selected lines position).ops) (accented : op.Accented) : selected = true := by
  have behind : Color.background ≠ .accent := by decide
  have around : Color.text ≠ .accent := by decide
  cases kind with
  | text | heading =>
    obtain ⟨y, line, rfl⟩ := mem_column w member
    exact absurd accented behind
  | link =>
    obtain ⟨y, line, rfl⟩ := mem_column w member
    cases selected with
    | false => exact absurd accented behind
    | true => rfl
  | button =>
    rcases List.mem_append.mp member with border | label
    · cases selected with
      | false => exact absurd (accented_box w op border accented) around
      | true => rfl
    · obtain ⟨y, line, rfl⟩ := mem_column w label
      exact absurd accented behind
  | container | body | head | script | title => cases member

/-- The focus changes a leaf at most in its colours. -/
theorem recolored_leaf (kind : Kind) (selected selected' : Bool) (lines : List String) (position : Nat) :
    List.Forall₂ (fun op op' => op = op' ∨ selected ≠ selected' ∧ DrawOp.Recolored kind op op')
      (leaf w kind selected lines position).ops (leaf w kind selected' lines position).ops := by
  have same : ∀ ops : List DrawOp,
      List.Forall₂ (fun op op' => op = op' ∨ selected ≠ selected' ∧ DrawOp.Recolored kind op op') ops ops :=
    fun ops => List.forall₂_same.mpr fun _ _ => .inl rfl
  by_cases unmoved : selected = selected'
  · rw [unmoved] at same ⊢
    exact same _
  · cases kind with
    | text | heading | container | body | head | script | title => exact same _
    | link =>
      simp only [leaf]
      generalize position + gap = top
      have scale : (linkStyle selected).scale = (linkStyle selected').scale := by
        cases selected <;> cases selected' <;> rfl
      induction lines generalizing top with
      | nil => exact .nil
      | cons line rest ih => exact .cons (.inr ⟨unmoved, .link _ _ _ scale⟩) (ih _)
    | button =>
      refine List.rel_append ?_ (same _)
      exact .cons (.inr ⟨unmoved, .horizontal _ _ _ _ _⟩) (.cons (.inr ⟨unmoved, .horizontal _ _ _ _ _⟩)
        (.cons (.inr ⟨unmoved, .vertical _ _ _ _ _⟩) (.cons (.inr ⟨unmoved, .vertical _ _ _ _ _⟩) .nil)))

end

/-- One request, with the node it is made for. -/
structure Call where
  node : Located
  op : DrawOp
  deriving DecidableEq

def Visit.calls (v : Visit) : List Call := v.ops.map (Call.mk v.node)

/-- The requests of a pass. -/
def calls (w : Window) (f : Forest Located) (c : Cursor) : List Call := (visits w f c).flatMap Visit.calls

theorem map_op_calls (w : Window) (f : Forest Located) (c : Cursor) :
    (calls w f c).map Call.op = draws (steps w f c).1 := by
  rw [← flatMap_ops_visits, calls, List.map_flatMap]
  refine List.flatMap_congr fun v _ => ?_
  rw [Visit.calls, List.map_map]
  exact List.map_id v.ops

/-- The same request for the same node, but for the colours if the node is one of those in the focus. -/
def Call.Recolored (focused : Handle → Prop) (call call' : Call) : Prop :=
  call.node = call'.node ∧
    (call.op = call'.op ∨ focused call.node.handle ∧ DrawOp.Recolored call.node.content.kind call.op call'.op)

structure Visit.Recolored (focused : Handle → Prop) (v v' : Visit) : Prop where
  node : v.node = v'.node
  mark : v.mark = v'.mark
  calls : List.Forall₂ (Call.Recolored focused) v.calls v'.calls

variable {w w' : Window}

/-- Windows that show the same part of the page, and pass over the same. -/
structure Window.SameView (w w' : Window) : Prop where
  rows : w.screenY = w'.screenY
  cutoff : w.cutoff? = w'.cutoff?

def Focused (w w' : Window) (h : Handle) : Prop := w.selected? = some h ∨ w'.selected? = some h

theorem extent_leafAt (w w' : Window) (n : Located) (kids : Forest Located) (position : Nat) :
    (leafAt w n kids position).extent = (leafAt w' n kids position).extent := extent_leaf w w' _ _ _ _ _

theorem recolored_leafAt (same : w.SameView w') (n : Located) (kids : Forest Located) (place position : Nat) :
    Visit.Recolored (Focused w w') ⟨n, place, (leafAt w n kids position).ops, (leafAt w n kids position).extent⟩
      ⟨n, place, (leafAt w' n kids position).ops, (leafAt w' n kids position).extent⟩ := by
  refine ⟨rfl, congrArg (Mark.mk place n.handle) (extent_leafAt w w' n kids position), ?_⟩
  rw [Visit.calls, Visit.calls, List.forall₂_map_left_iff, List.forall₂_map_right_iff, leafAt, leafAt,
    ← leaf_congr same.rows]
  refine (recolored_leaf w _ _ _ _ _).imp fun op op' alike => ⟨rfl, alike.imp_right fun differ => ⟨?_, differ.2⟩⟩
  -- If neither window has the focus on the node, both draw it without.
  by_contra neither
  obtain ⟨here, there⟩ := not_or.mp neither
  exact differ.1 (by rw [beq_eq_false_iff_ne.mpr here, beq_eq_false_iff_ne.mpr there])

theorem recolored_visits (same : w.SameView w') (f : Forest Located) (c : Cursor) :
    List.Forall₂ (Visit.Recolored (Focused w w')) (visits w f c) (visits w' f c) := by
  induction f generalizing c with
  | nil => exact .nil
  | node n kids rest ihk ihr =>
    have passes : w.passesOver c.position = w'.passesOver c.position := by
      rw [Window.passesOver, Window.passesOver, same.cutoff]
    by_cases here : w.passesOver c.position
    · rw [visits_of_passesOver here, visits_of_passesOver (passes ▸ here)]
      exact .nil
    · by_cases container : n.content.kind.isContainer
      · rw [visits_container here container, visits_container (passes ▸ here) container]
        -- Both passes leave the container at the same place, and go on from there.
        simp only [← (geometry_steps same.cutoff kids _).2]
        exact List.rel_append (ihk _) (.cons ⟨rfl, rfl, .nil⟩ (ihr _))
      · rw [visits_leaf here container, visits_leaf (passes ▸ here) container]
        refine .cons (recolored_leafAt same n kids c.index c.position) ?_
        rw [extent_leafAt w w' n kids c.position]
        exact ihr _

theorem recolored_calls (same : w.SameView w') (f : Forest Located) (c : Cursor) :
    List.Forall₂ (Call.Recolored (Focused w w')) (calls w f c) (calls w' f c) :=
  List.rel_flatMap (recolored_visits same f c) fun _ _ recolored => recolored.calls

theorem node_calls (f : Forest Located) (c : Cursor) {call : Call} (member : call ∈ calls w f c) :
    call.node ∈ f.preorder := by
  obtain ⟨v, visited, among⟩ := List.mem_flatMap.mp member
  obtain ⟨op, -, rfl⟩ := List.mem_map.mp among
  exact f.exposed_subset (node_visits f c visited)

theorem accented_calls (f : Forest Located) (c : Cursor) {call : Call} (member : call ∈ calls w f c)
    (accented : call.op.Accented) : w.selected? = some call.node.handle := by
  obtain ⟨v, visited, among⟩ := List.mem_flatMap.mp member
  obtain ⟨op, drawn, rfl⟩ := List.mem_map.mp among
  rcases visit_cases f c visited with ⟨-, nothing⟩ | ⟨-, kids, position, ops, -⟩
  · rw [nothing] at drawn
    cases drawn
  · rw [ops] at drawn
    exact eq_of_beq (accented_leaf w drawn accented)

def Step.uncolored : Step → Step
  | .draw op => .draw op.uncolored
  | .mark place node extent => .mark place node extent

theorem map_uncolored_draw (ops : List DrawOp) :
    (ops.map Step.draw).map Step.uncolored = (ops.map DrawOp.uncolored).map Step.draw := by
  rw [List.map_map, List.map_map]
  rfl

theorem draws_uncolored (todo : List Step) :
    draws (todo.map Step.uncolored) = (draws todo).map DrawOp.uncolored := by
  rw [draws, draws, List.filterMap_map, List.map_filterMap]
  refine List.filterMap_congr fun step _ => ?_
  cases step <;> rfl

theorem Visit.Recolored.uncolored_steps {focused : Handle → Prop} {v v' : Visit}
    (recolored : v.Recolored focused v') :
    v.steps.map Step.uncolored = v'.steps.map Step.uncolored := by
  have ops : v.ops.map DrawOp.uncolored = v'.ops.map DrawOp.uncolored := by
    have alike := recolored.calls
    rw [Visit.calls, Visit.calls, List.forall₂_map_left_iff, List.forall₂_map_right_iff] at alike
    rw [← List.forall₂_eq_eq_eq, List.forall₂_map_left_iff, List.forall₂_map_right_iff]
    refine alike.imp fun op op' same => ?_
    rcases same.2 with same | ⟨-, recolored⟩
    · exact congrArg DrawOp.uncolored same
    · exact recolored.uncolored_eq
  obtain ⟨place, -, extent⟩ := Mark.mk.inj recolored.mark
  rw [steps, steps, List.map_append, List.map_append, map_uncolored_draw, map_uncolored_draw, ops,
    recolored.node, place, extent]

theorem uncolored_steps (same : w.SameView w') (f : Forest Located) (c : Cursor) :
    (steps w f c).1.map Step.uncolored = (steps w' f c).1.map Step.uncolored := by
  rw [← flatMap_steps_visits, ← flatMap_steps_visits, List.map_flatMap, List.map_flatMap, ← List.forall₂_eq_eq_eq]
  refine List.rel_flatMap (recolored_visits same f c) fun v v' recolored => ?_
  rw [recolored.uncolored_steps, List.forall₂_eq_eq_eq]

section

variable {δ : Type} [Display δ]

theorem accepted_uncolored {Alike : δ → δ → Prop} (blind : Display.Colorblind Alike) {ops ops' : List DrawOp}
    (same : ops.map DrawOp.uncolored = ops'.map DrawOp.uncolored) {display display' : δ}
    (alike : Alike display display') :
    accepted ops display = accepted ops' display' := by
  induction ops generalizing ops' display display' with
  | nil => rw [List.map_eq_nil_iff.mp same.symm, accepted, accepted]
  | cons op ops ih =>
    cases ops' with
    | nil => cases same
    | cons op' ops' =>
      obtain ⟨head, tail⟩ := List.cons.inj same
      obtain ⟨answers, still⟩ := blind.draw head alike
      rcases answer : Display.draw op display with ⟨outcome, next⟩
      rcases answer' : Display.draw op' display' with ⟨outcome', next'⟩
      rw [answer, answer'] at answers still
      dsimp only at answers still
      subst answers
      cases outcome with
      | ok => simp only [accepted, answer, answer', ih tail still]
      | error e => simp only [accepted, answer, answer']

/-- If two displays take equally many requests, passes that differ in colours come to the same on them. -/
theorem carryOut_uncolored {todo todo' : List Step} (same : todo.map Step.uncolored = todo'.map Step.uncolored)
    (entries : List Focus.Entry) {display display' : δ}
    (even : accepted (draws todo) display = accepted (draws todo') display') :
    (carryOut todo entries display).1 = (carryOut todo' entries display').1 ∧
      (carryOut todo entries display).2.1 = (carryOut todo' entries display').2.1 := by
  induction todo generalizing todo' entries display display' with
  | nil =>
    rw [List.map_eq_nil_iff.mp same.symm]
    exact ⟨rfl, rfl⟩
  | cons step todo ih =>
    cases todo' with
    | nil => cases same
    | cons step' todo' =>
      obtain ⟨head, tail⟩ := List.cons.inj same
      cases step with
      | draw op =>
        cases step' with
        | mark place' node' extent' => cases head
        | draw op' =>
          change accepted (op :: draws todo) display = accepted (op' :: draws todo') display' at even
          rcases answer : Display.draw op display with ⟨verdict, next⟩
          rcases answer' : Display.draw op' display' with ⟨verdict', next'⟩
          simp only [accepted, answer, answer'] at even
          simp only [carryOut, answer, answer']
          cases verdict with
          | ok =>
            cases verdict' with
            | ok => exact ih tail entries (Nat.succ.inj even)
            | error e' => cases even
          | error e =>
            cases verdict' with
            | ok => cases even
            | error e' =>
              -- There is only one way to refuse.
              cases e
              cases e'
              exact ⟨rfl, rfl⟩
      | mark place node extent =>
        cases step' with
        | draw op' => cases head
        | mark place' node' extent' =>
          obtain ⟨rfl, rfl, rfl⟩ := Step.mark.inj head
          exact ih tail _ even

section

variable (settings : PageSettings) (d : Document) (scroll : Scroll) (selected? : Option Nat)
    (entries : List Focus.Entry)

theorem sameView_select :
    (windowOf settings scroll.beginFrame entries).SameView
      (windowOf settings ({ scroll with selected? } : Scroll).beginFrame entries) := by
  rw [Scroll.beginFrame_select scroll selected?]
  exact ⟨rfl, rfl⟩

theorem selected?_windowOf :
    (windowOf settings scroll.beginFrame entries).selected? = scroll.selectedNode? entries := by
  rw [windowOf, Scroll.selectedNode?, Scroll.selected?_beginFrame, Scroll.selectedNode?]

theorem paint_select {display display' : δ}
    (even : accepted (draws (frame settings d scroll entries)) display =
      accepted (draws (frame settings d { scroll with selected? } entries)) display') :
    let painted := paint settings d scroll entries display
    let painted' := paint settings d { scroll with selected? } entries display'
    painted.outcome = painted'.outcome ∧ painted.entries = painted'.entries ∧
      painted'.scroll = { painted.scroll with selected? } := by
  have same := sameView_select settings scroll selected? entries
  have unlike := uncolored_steps same d.located {}
  have last := (geometry_steps same.cutoff d.located {}).2
  obtain ⟨outcome, noted⟩ := carryOut_uncolored unlike entries even
  obtain ⟨answer, left⟩ := paint_frame settings d scroll entries display
  obtain ⟨answer', left'⟩ := paint_frame settings d { scroll with selected? } entries display'
  have alike : (paint settings d scroll entries display).outcome =
      (paint settings d { scroll with selected? } entries display').outcome :=
    answer.trans (outcome.trans answer'.symm)
  refine ⟨alike, left.trans (noted.trans left'.symm), ?_⟩
  cases done : (paint settings d scroll entries display).outcome with
  | ok =>
    rw [scroll_paint done, scroll_paint (alike.symm.trans done), ← last, Scroll.beginFrame_select scroll selected?]
    rfl
  | error e =>
    rw [scroll_paint_of_error done, scroll_paint_of_error (alike.symm.trans done),
      Scroll.beginFrame_select scroll selected?]

/-- The selection only recolours. Two frames that differ in nothing but what is selected ask the display for the same,
one request after the other and each for the same node of the document. Only a request for a node that is selected in
one of them can be in another colour, and only if it is the text of a link or the border of a button. In either frame
there is text on the accent colour, and there are lines of it, for the selected node alone. If the display takes
equally many of the requests, as one does to which colours are nothing, the same extents come about, the same height
and the same outcome. -/
theorem paint_selection_recolors {d : Document} (reachable : d.Reachable) (settings : PageSettings) (scroll : Scroll)
    (selected? : Option Nat) (entries : List Focus.Entry) {δ : Type} [Display δ] :
    let scroll' : Scroll := { scroll with selected? }
    let made := frame settings d scroll entries
    let made' := frame settings d scroll' entries
    let asked := calls (windowOf settings scroll.beginFrame entries) d.located {}
    let asked' := calls (windowOf settings scroll'.beginFrame entries) d.located {}
    (asked.map Call.op = draws made ∧ asked'.map Call.op = draws made') ∧
      (∀ call ∈ asked, ∃ node, d.get? call.node.handle = some node ∧ node.content = call.node.content) ∧
      List.Forall₂ (Call.Recolored fun h => scroll.selectedNode? entries = some h ∨
        scroll'.selectedNode? entries = some h) asked asked' ∧
      ((∀ call ∈ asked, call.op.Accented → scroll.selectedNode? entries = some call.node.handle) ∧
        ∀ call ∈ asked', call.op.Accented → scroll'.selectedNode? entries = some call.node.handle) ∧
      (∀ display display' : δ, accepted (draws made) display = accepted (draws made') display' →
        let painted := paint settings d scroll entries display
        let painted' := paint settings d scroll' entries display'
        painted.outcome = painted'.outcome ∧ painted.entries = painted'.entries ∧
          painted'.scroll = { painted.scroll with selected? }) ∧
      ∀ Alike : δ → δ → Prop, Display.Colorblind Alike → ∀ display display', Alike display display' →
        accepted (draws made) display = accepted (draws made') display' := by
  intro scroll' made made' asked asked'
  have same := sameView_select settings scroll selected? entries
  have here := selected?_windowOf settings scroll entries
  have there := selected?_windowOf settings scroll' entries
  refine ⟨⟨map_op_calls _ _ _, map_op_calls _ _ _⟩, ?_, ?_, ⟨?_, ?_⟩, ?_, ?_⟩
  · intro call member
    obtain ⟨children, found, -⟩ := reachable.represents.holds.get? (node_calls d.located {} member)
    exact ⟨_, found, rfl⟩
  · have recolored := recolored_calls same d.located {}
    unfold Focused at recolored
    rwa [here, there] at recolored
  · intro call member accented
    exact here ▸ accented_calls d.located {} member accented
  · intro call member accented
    exact there ▸ accented_calls d.located {} member accented
  · exact fun display display' even => paint_select settings d scroll selected? entries even
  · intro Alike blind display display' alike
    have unlike := congrArg draws (uncolored_steps same d.located {})
    rw [draws_uncolored, draws_uncolored] at unlike
    exact accepted_uncolored blind unlike alike

end

end

/-- The selection goes from a link to the button below it, on a panel that breaks off in the border of the button.
Both frames get as far. They differ in the text of the link and in the border of the button, and in nothing that
follows. -/
theorem paint_selection_recolors_button :
    let node := fun kind => Forest.single { kind, lines := ["on"], selectable := true : Content } .nil
    let d := Document.ofForest (.single { kind := .body } (node .link ++ node .button ++ node .heading))
    let entries := Focus.index d
    let scroll : Scroll := { viewport := 150, step := 40, selected? := some 0 }
    let scroll' : Scroll := { scroll with selected? := some 1 }
    let asked := calls (windowOf {} scroll.beginFrame entries) d.located {}
    let asked' := calls (windowOf {} scroll'.beginFrame entries) d.located {}
    let panel : Panel := { width := 320, height := 170, supply? := some 4 }
    let painted := paint {} d scroll entries panel
    let painted' := paint {} d scroll' entries panel
    d.Reachable ∧ ((asked.zip asked').map fun (call, call') => decide (call.op = call'.op)) =
        [false, false, false, false, false, true, true] ∧
      List.Forall₂ (Call.Recolored fun h => scroll.selectedNode? entries = some h ∨
        scroll'.selectedNode? entries = some h) asked asked' ∧
      painted.outcome = .error .busy ∧ painted'.outcome = .error .busy ∧ painted.entries = painted'.entries ∧
      painted'.scroll = { painted.scroll with selected? := some 1 } := by
  intro node d entries scroll scroll' asked asked' panel painted painted'
  have reachable : d.Reachable := .ofForest _
  obtain ⟨-, -, recolored, -, alike, blind⟩ :=
    paint_selection_recolors (δ := Panel) reachable {} scroll (some 1) entries
  have broken : painted.outcome = .error .busy := by decide +kernel
  obtain ⟨outcome, noted, moved⟩ := alike panel panel (blind _ Panel.colorblind panel panel rfl)
  exact ⟨reachable, by decide +kernel, recolored, broken, outcome.symm.trans broken, noted, moved⟩

end Layout
end PocketReader
