import PocketReader.Proofs.Layout.Likeness
import PocketReader.Proofs.Layout.Visits

/-! A frame as it is drawn: from handle to handle, one request at a time, with what is marked and how far the pass has
come kept beside the display. A document need not be read back as trees for that. All the same the requests and marks
are those of laying out its trees, up to the first request that is refused. -/
namespace PocketReader.Layout

/-- What a pass works on. -/
structure Pass (δ : Type) where
  display : δ
  entries : List Focus.Entry
  cursor : Cursor := {}

/-- A part of a pass; a display that refuses ends all of it. -/
abbrev Painting (δ : Type) := ExceptT DisplayError (StateM (Pass δ))

namespace Painting

variable {δ : Type}

def position : Painting δ Nat := return (← get).cursor.position

def goTo (position : Nat) : Painting δ Unit :=
  modify fun p => { p with cursor := { p.cursor with position } }

def advance (distance : Nat) : Painting δ Unit :=
  modify fun p => { p with cursor := { p.cursor with position := p.cursor.position + distance } }

/-- Leaves out places in the list of selectable nodes. -/
def skip (count : Nat) : Painting δ Unit :=
  modify fun p => { p with cursor := { p.cursor with index := p.cursor.index + count } }

/-- Takes the next place in the list of selectable nodes. -/
def claim : Painting δ Nat := do
  let place := (← get).cursor.index
  skip 1
  return place

/-- Gives the entry at a place the extent from a top to where the pass has come. -/
def mark (place top : Nat) : Painting δ Unit :=
  modify fun p => { p with
    entries := p.entries.modify place fun entry => { entry with extent := ⟨top, p.cursor.position⟩ } }

/-- A node that can be selected takes its place when all of it has been drawn. -/
def listed (selectable : Bool) (top : Nat) : Painting δ Unit :=
  if selectable then do
    let place ← claim
    mark place top
  else return

variable [Display δ]

def draw (op : DrawOp) : Painting δ Unit := fun p =>
  let (outcome, display) := Display.draw op p.display
  (outcome, { p with display })

variable (w : Window)

/-- Lines one below the other; the pass goes on before each is drawn. -/
def lines (style : TextStyle) (height : Nat) : List String → Painting δ Unit
  | [] => return
  | line :: rest => do
    let top ← position
    advance height
    draw (.text textLeft (w.screenY top) line style)
    lines style height rest

/-- The lines inside a button, each but the first with some space above it. -/
def label (style : TextStyle) (space : Nat) : List String → Painting δ Unit
  | [] => return
  | line :: rest => do
    advance space
    draw (.text labelLeft (w.screenY (← position)) line style)
    advance style.cellHeight
    label style (textAdvance - style.cellHeight) rest

def button (highlighted : Bool) (top : Nat) (shown : List String) : Painting δ Unit := do
  (box w (borderColor highlighted) top shown).forM draw
  advance padding
  label w (plain textScale) 0 shown
  goTo (top + boxHeight shown + margin)

/-- What is shown of a node that is no container. -/
def content (kind : Kind) (highlighted : Bool) (top : Nat) (shown : List String) : Painting δ Unit :=
  match kind with
  | .text => lines w (plain textScale) textAdvance shown
  | .heading => lines w (plain headingScale) headingAdvance shown
  | .link => lines w (linkStyle highlighted) textAdvance shown
  | .button => button w highlighted top shown
  | _ => return

variable (d : Document)

/-- The selectable nodes met when the handle put down last is taken until none is left, and the children of each node
are put down on those still waiting; `budget` bounds the number of handles taken. -/
def countBelow : Nat → List Handle → Nat
  | _, [] => 0
  | 0, _ :: _ => 0
  | budget + 1, h :: waiting =>
    match d.get? h with
    | none => countBelow budget waiting
    | some node => places node.content.selectable + countBelow budget (node.children.reverse ++ waiting)

/-- A container has its place before those of its children. -/
def container (below : List Handle → Painting δ Unit) (node : Node) : Painting δ Unit :=
  if node.content.selectable then do
    let place ← claim
    let top ← position
    below node.children
    mark place top
  else below node.children

/-- Whether there is a space above what is shown of a node. -/
def isSpaced : Kind → Bool
  | .text | .heading | .link | .button => true
  | .container | .body | .head | .script | .title => false

/-- What is below a node that is no container is counted, not drawn. -/
def leafNode (h : Handle) (c : Content) : Painting δ Unit := do
  advance (if isSpaced c.kind then gap else 0)
  let top ← position
  content w c.kind (w.selected? == some h) top (d.textLines h)
  listed c.selectable top
  skip (countBelow d d.slots.size (d.children h).reverse)

def node (below : List Handle → Painting δ Unit) (h : Handle) : Painting δ Unit := do
  if w.passesOver (← position) then return
  match d.get? h with
  | none => return
  | some node => if node.content.kind.isContainer then container below node else leafNode w d h node.content

/-- The nodes under some handles, to a given depth. -/
def nodes : Nat → List Handle → Painting δ Unit
  | 0, _ => return
  | depth + 1, handles => handles.forM (node w d (nodes depth))

end Painting

/-- Draws the part of a page that is looked at, from handle to handle. -/
def paintByHandles {δ : Type} [Display δ] (settings : PageSettings) (d : Document) (scroll : Scroll)
    (entries : List Focus.Entry) (display : δ) : Painted δ :=
  let scroll := scroll.beginFrame
  let pass := Painting.nodes (windowOf settings scroll entries) d d.slots.size d.top
  match pass.run.run { display, entries } with
  | (.ok _, p) => ⟨.ok (), scroll.finishLayout p.cursor.position, p.entries, p.display⟩
  | (.error e, p) => ⟨.error e, scroll, p.entries, p.display⟩

section

variable {δ : Type} [Display δ]

theorem carryOut_append (todo later : List Step) (entries : List Focus.Entry) (display : δ) :
    carryOut (todo ++ later) entries display =
      match carryOut todo entries display with
      | (.ok _, entries, display) => carryOut later entries display
      | (.error e, entries, display) => (.error e, entries, display) := by
  induction todo generalizing entries display with
  | nil => rfl
  | cons step todo ih =>
    cases step with
    | draw op =>
      simp only [List.cons_append, carryOut]
      rcases Display.draw op display with ⟨outcome, next⟩
      cases outcome with
      | ok _ => exact ih entries next
      | error e => rfl
    | mark place node extent => exact ih _ display

omit [Display δ] in
theorem Painting.run_bind {α β : Type} (task : Painting δ α) (next : α → Painting δ β) (p : Pass δ) :
    (task >>= next).run.run p =
      match task.run.run p with
      | (.ok a, after) => (next a).run.run after
      | (.error e, after) => (.error e, after) := by
  change (task.run >>= ExceptT.bindCont next).run p = _
  rw [StateT.run_bind]
  rcases task.run.run p with ⟨outcome, after⟩
  cases outcome <;> rfl

/-- Whatever is drawn on and whatever is marked, a part of a pass that has come to `c` carries out these steps and
comes to `last` with this result, or it ends with the first request that is refused. -/
def Does {α : Type} (task : Painting δ α) (c : Cursor) (todo : List Step) (a : α) (last : Cursor) : Prop :=
  ∀ (entries : List Focus.Entry) (display : δ),
    match carryOut todo entries display with
    | (.ok _, marked, after) => task.run.run ⟨display, entries, c⟩ = (.ok a, ⟨after, marked, last⟩)
    | (.error e, marked, after) => ∃ here, task.run.run ⟨display, entries, c⟩ = (.error e, ⟨after, marked, here⟩)

namespace Does

variable {α β : Type} {task : Painting δ α} {c mid last : Cursor} {todo later : List Step} {a : α} {b : β}

theorem bind (does : Does task c todo a mid) {next : α → Painting δ β} (more : Does (next a) mid later b last) :
    Does (task >>= next) c (todo ++ later) b last := by
  intro entries display
  have first := does entries display
  rw [carryOut_append, Painting.run_bind]
  rcases carried : carryOut todo entries display with ⟨outcome, marked, after⟩
  rw [carried] at first
  cases outcome with
  | ok _ =>
    dsimp only at first ⊢
    rw [first]
    exact more marked after
  | error e =>
    obtain ⟨here, ended⟩ := first
    dsimp only
    rw [ended]
    exact ⟨here, rfl⟩

/-- A part that neither draws nor marks. -/
theorem silent (ran : ∀ (entries : List Focus.Entry) (display : δ),
    task.run.run ⟨display, entries, c⟩ = (.ok a, ⟨display, entries, last⟩)) : Does task c [] a last := ran

theorem seq {task : Painting δ Unit} {next : Painting δ β} (does : Does task c todo () mid)
    (more : Does next mid later b last) : Does (task >>= fun _ => next) c (todo ++ later) b last := does.bind more

theorem pure (a : α) (c : Cursor) : Does (pure a : Painting δ α) c [] a c := silent fun _ _ => rfl

theorem position (c : Cursor) : Does (Painting.position : Painting δ Nat) c [] c.position c := silent fun _ _ => rfl

theorem goTo (position : Nat) (c : Cursor) :
    Does (Painting.goTo position : Painting δ Unit) c [] () { c with position } :=
  silent fun _ _ => rfl

theorem advance (distance : Nat) (c : Cursor) :
    Does (Painting.advance distance : Painting δ Unit) c [] () { c with position := c.position + distance } :=
  silent fun _ _ => rfl

theorem skip (count : Nat) (c : Cursor) :
    Does (Painting.skip count : Painting δ Unit) c [] () { c with index := c.index + count } := silent fun _ _ => rfl

theorem claim (c : Cursor) :
    Does (Painting.claim : Painting δ Nat) c [] c.index { c with index := c.index + 1 } := silent fun _ _ => rfl

theorem mark (place top : Nat) (node : Handle) (c : Cursor) :
    Does (Painting.mark place top : Painting δ Unit) c [.mark place node ⟨top, c.position⟩] () c := fun _ _ => rfl

theorem draw (op : DrawOp) (c : Cursor) : Does (Painting.draw op : Painting δ Unit) c [.draw op] () c := by
  intro entries display
  have ran : (Painting.draw op : Painting δ Unit).run.run ⟨display, entries, c⟩ =
      ((Display.draw op display).1, ⟨(Display.draw op display).2, entries, c⟩) := rfl
  rw [ran]
  unfold carryOut
  rcases Display.draw op display with ⟨outcome, after⟩
  cases outcome with
  | ok _ => rfl
  | error e => exact ⟨c, rfl⟩

theorem drawAll (ops : List DrawOp) (c : Cursor) :
    Does (ops.forM Painting.draw : Painting δ PUnit) c (ops.map .draw) () c := by
  induction ops with
  | nil => exact .pure _ c
  | cons op ops ih => exact (draw op c).seq ih

variable (w : Window)

theorem lines (style : TextStyle) (height : Nat) (shown : List String) (c : Cursor) :
    Does (Painting.lines w style height shown : Painting δ Unit) c
      ((column w textLeft style height c.position shown).map .draw) ()
      { c with position := c.position + shown.length * height } := by
  induction shown generalizing c with
  | nil =>
    rw [List.length_nil, Nat.zero_mul, Nat.add_zero]
    exact .pure _ c
  | cons line shown ih =>
    have rest := ih { c with position := c.position + height }
    have far : c.position + height + shown.length * height = c.position + (line :: shown).length * height := by
      rw [List.length_cons, Nat.succ_mul]
      omega
    rw [← far]
    exact (position c).bind ((advance height c).seq ((draw _ _).seq rest))

/-- The cell and the space below it are as high as a line. -/
theorem label (space : Nat) (shown : List String) (c : Cursor) :
    ∃ last : Nat, Does (Painting.label w (plain textScale) space shown : Painting δ Unit) c
      ((column w labelLeft (plain textScale) textAdvance (c.position + space) shown).map .draw) ()
      { c with position := last } := by
  induction shown generalizing c space with
  | nil => exact ⟨c.position, .pure _ c⟩
  | cons line shown ih =>
    have cell : (plain textScale).cellHeight = 16 := rfl
    obtain ⟨last, rest⟩ := ih 2 { c with position := c.position + space + 16 }
    refine ⟨last, ?_⟩
    have moved := advance (δ := δ) space c
    exact moved.seq ((position _).bind ((draw _ _).seq ((advance 16 _).seq rest)))

theorem button (highlighted : Bool) (top : Nat) (shown : List String) (c : Cursor) (here : c.position = top) :
    Does (Painting.button w highlighted top shown : Painting δ Unit) c
      ((box w (borderColor highlighted) top shown ++
        column w labelLeft (plain textScale) textAdvance (top + padding) shown).map .draw) ()
      { c with position := top + boxHeight shown + margin } := by
  obtain ⟨last, label⟩ := label (δ := δ) w 0 shown { c with position := c.position + padding }
  rw [List.map_append, ← here]
  have ended := goTo (δ := δ) (top + boxHeight shown + margin) { c with position := last }
  rw [← List.append_nil (List.map _ (column _ _ _ _ _ _))]
  exact (drawAll _ c).seq ((advance padding c).seq (label.seq (here ▸ ended)))

theorem content (kind : Kind) (selected : Bool) (shown : List String) (c : Cursor) :
    let top := c.position + if Painting.isSpaced kind then gap else 0
    let l := leaf w kind selected shown c.position
    Does (Painting.content w kind selected top shown : Painting δ Unit) { c with position := top }
      (l.ops.map .draw) () { c with position := l.extent.bottom } ∧ l.extent.top = top := by
  cases kind with
  | text | heading | link => exact ⟨lines w _ _ shown _, rfl⟩
  | button => exact ⟨button w selected _ shown _ rfl, rfl⟩
  | container | body | head | script | title => exact ⟨.pure _ _, rfl⟩

theorem listed (selectable : Bool) (top : Nat) (node : Handle) (c : Cursor) :
    Does (Painting.listed selectable top : Painting δ Unit) c (markIf selectable c.index node ⟨top, c.position⟩) ()
      { c with index := c.index + places selectable } := by
  cases selectable with
  | true => exact (claim c).bind (mark c.index top node _)
  | false => exact .pure _ c

end Does

/-! Trees that stand in the document. -/

theorem selectables_append (f g : Forest Located) : selectables (f ++ g) = selectables f + selectables g := by
  simp only [selectables_eq_countP, Forest.map_append, Forest.preorder_append, List.countP_append]

theorem selectables_reverse (f : Forest Located) : selectables f.reverse = selectables f := by
  induction f with
  | nil => rfl
  | node n kids rest _ ih =>
    simp only [Forest.reverse, Forest.single, selectables_append, ih, selectables]
    omega

variable {w : Window} {d : Document}

/-- The nodes of trees are counted in another order than they stand in. -/
theorem countBelow_rootHandles {f : Forest Located} (holds : d.Holds f) {budget : Nat} (enough : f.size ≤ budget) :
    Painting.countBelow d budget f.rootHandles = selectables f := by
  induction budget generalizing f with
  | zero =>
    cases f with
    | nil => rfl
    | node n kids rest => exact absurd enough (Nat.not_succ_le_zero _)
  | succ budget ih =>
    cases f with
    | nil => rfl
    | node n kids rest =>
      obtain ⟨here, inside, right⟩ := holds
      have less : (kids.reverse ++ rest).size ≤ budget := by
        simp only [Forest.size, Forest.size_append, Forest.size_reverse] at enough ⊢
        omega
      have counted := ih (inside.reverse.append right) less
      rw [Forest.rootHandles_append, Forest.rootHandles_reverse, selectables_append, selectables_reverse] at counted
      rw [Forest.rootHandles_node, Painting.countBelow, here]
      dsimp only
      rw [counted, selectables, Nat.add_assoc]

namespace Does

variable {n : Located} {kids : Forest Located} {c : Cursor}

theorem leafNode (here : d.get? n.handle = some ⟨n.content, kids.rootHandles⟩) (inside : d.Holds kids)
    (room : kids.size ≤ d.slots.size) :
    let l := leafAt w n kids c.position
    Does (Painting.leafNode w d n.handle n.content : Painting δ Unit) c
      (l.ops.map .draw ++ markIf n.content.selectable c.index n.handle l.extent) ()
      ⟨l.extent.bottom, c.index + places n.content.selectable + selectables kids⟩ := by
  intro l
  have counted : Painting.countBelow d d.slots.size (d.children n.handle).reverse = selectables kids := by
    have reversed : Painting.countBelow d d.slots.size kids.reverse.rootHandles = selectables kids.reverse :=
      countBelow_rootHandles inside.reverse (by rwa [Forest.size_reverse])
    rw [Forest.rootHandles_reverse, selectables_reverse] at reversed
    rw [Document.children, here]
    exact reversed
  have shown : d.textLines n.handle = n.content.shownLines (kids.head?.map Located.content) := by
    have stands : d.Holds (.single n kids) := ⟨here, inside, trivial⟩
    exact stands.textLines
  obtain ⟨drawn, top⟩ := content (δ := δ) w n.content.kind (w.selected? == some n.handle)
    (n.content.shownLines (kids.head?.map Located.content)) c
  have marked := listed (δ := δ) n.content.selectable l.extent.top n.handle ⟨l.extent.bottom, c.index⟩
  have skipped := skip (δ := δ) (selectables kids) ⟨l.extent.bottom, c.index + places n.content.selectable⟩
  unfold Painting.leafNode
  rw [counted, shown]
  rw [← List.append_nil (markIf _ _ _ _)]
  refine (advance _ c).seq ((position _).bind (drawn.seq ?_))
  rw [← top]
  exact marked.seq skipped

theorem container {below : List Handle → Painting δ Unit} {inner : Cursor} {todo : List Step}
    (does : Does (below kids.rootHandles) { c with index := c.index + places n.content.selectable } todo () inner) :
    Does (Painting.container below ⟨n.content, kids.rootHandles⟩) c
      (todo ++ markIf n.content.selectable c.index n.handle ⟨c.position, inner.position⟩) () inner := by
  unfold Painting.container
  dsimp only
  cases selectable : n.content.selectable with
  | true =>
    rw [selectable] at does
    rw [if_pos rfl]
    exact (claim c).bind ((position _).bind (does.seq (mark c.index c.position n.handle inner)))
  | false =>
    rw [selectable] at does
    rw [if_neg Bool.false_ne_true, markIf, if_neg Bool.false_ne_true, List.append_nil]
    exact does

/-- What a pass does from handle to handle is what laying out the trees says. -/
theorem nodes {f : Forest Located} (holds : d.Holds f) (room : f.size ≤ d.slots.size) (depth : Nat)
    (enough : f.depth ≤ depth) (c : Cursor) :
    Does (Painting.nodes w d depth f.rootHandles : Painting δ Unit) c (steps w f c).1 () (steps w f c).2 := by
  induction f generalizing depth c with
  | nil =>
    cases depth with
    | zero => exact .pure _ c
    | succ depth => exact .pure _ c
  | node n kids rest ihk ihr =>
    obtain ⟨here, inside, right⟩ := holds
    simp only [Forest.depth, Forest.size] at enough room
    cases depth with
    | zero => omega
    | succ depth =>
      have beside := ihr right (by omega) (depth + 1) (by omega)
      have met : ∀ {last : Cursor} {todo : List Step},
          Does (Painting.node w d (Painting.nodes w d depth) n.handle : Painting δ Unit) c todo () last →
          Does (Painting.nodes w d (depth + 1) (n.handle :: rest.rootHandles) : Painting δ Unit) c
            (todo ++ (steps w rest last).1) () (steps w rest last).2 := fun does => does.seq (beside _)
      rw [Forest.rootHandles_node]
      by_cases passed : w.passesOver c.position
      · have still : Does (Painting.node w d (Painting.nodes w d depth) n.handle : Painting δ Unit) c [] () c := by
          refine (position c).bind ?_
          rw [if_pos passed]
          exact .pure _ c
        have after := met still
        rw [steps_of_passesOver passed] at after ⊢
        exact after
      · have ahead : ∀ {last : Cursor} {todo : List Step},
            Does (if n.content.kind.isContainer then
                Painting.container (Painting.nodes w d depth) ⟨n.content, kids.rootHandles⟩
              else Painting.leafNode w d n.handle n.content : Painting δ Unit) c todo () last →
            Does (Painting.node w d (Painting.nodes w d depth) n.handle : Painting δ Unit) c todo () last := by
          intro last todo does
          refine (position c).bind ?_
          rw [if_neg passed, here]
          exact does
        by_cases closed : n.content.kind.isContainer
        · rw [if_pos closed] at ahead
          have below := ihk inside (by omega) depth (by omega)
            { c with index := c.index + places n.content.selectable }
          rw [steps_container passed closed]
          exact met (ahead (container below))
        · rw [if_neg closed] at ahead
          rw [steps_leaf passed closed]
          exact met (ahead (leafNode here inside (by omega)))

end Does

/-- A frame of a document that came about in any way is the same whether its nodes are reached from handle to handle
or it is read back as trees: the display is asked for the same, as much is marked when it refuses, and the page is
found to be as high. -/
theorem paint_eq_byHandles (reachable : d.Reachable) (settings : PageSettings) (scroll : Scroll)
    (entries : List Focus.Entry) (display : δ) :
    paint settings d scroll entries display = paintByHandles settings d scroll entries display := by
  have represents := reachable.represents
  have depth := Nat.le_trans (Forest.depth_le_size d.located) represents.size_le
  have pass := Does.nodes (δ := δ) (w := windowOf settings scroll.beginFrame entries) represents.holds
    represents.size_le _ depth {} entries display
  rw [represents.top] at pass
  unfold paint paintByHandles
  dsimp only
  rcases carried : carryOut (steps (windowOf settings scroll.beginFrame entries) d.located {}).1 entries display with
    ⟨outcome, marked, after⟩
  rw [carried] at pass
  cases outcome with
  | ok _ =>
    dsimp only at pass ⊢
    rw [pass]
  | error e =>
    obtain ⟨here, ended⟩ := pass
    dsimp only
    rw [ended]

end
end PocketReader.Layout
