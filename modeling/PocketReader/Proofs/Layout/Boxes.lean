import PocketReader.Proofs.Layout.Order

/-! What a pass takes up on the panel. All that is drawn for a node lies in the rows of its extent, so what is drawn
for one node and what is drawn for another have no row in common. The border of a button is the outline of a box, and
its label lies inside the box. -/
namespace PocketReader

namespace DrawOp

/-- The rows a request takes up, counted on past the edges of the panel. -/
def TakesRow : DrawOp → Int → Prop
  | .screen _, _ => True
  | .rectangle _ y _ height _, row => y.toInt ≤ row ∧ row < y.toInt + height.toNat
  | .horizontal _ y _ _, row => row = y.toInt
  | .vertical _ y length _, row => y.toInt ≤ row ∧ row < y.toInt + length.toNat
  | .text _ y _ style, row => y.toInt ≤ row ∧ row < y.toInt + style.cellHeight

/-- The columns a request takes up; the cells of a line of text stand side by side. -/
def TakesColumn : DrawOp → Int → Prop
  | .screen _, _ => True
  | .rectangle x _ width _ _, column => x.toInt ≤ column ∧ column < x.toInt + width.toNat
  | .horizontal x _ length _, column => x.toInt ≤ column ∧ column < x.toInt + length.toNat
  | .vertical x _ _ _, column => column = x.toInt
  | .text x _ line style, column => x.toInt ≤ column ∧ column < x.toInt + line.length * style.cellWidth

/-- All rows of the one come before all rows of the other. -/
def Above (op op' : DrawOp) : Prop := ∀ row row', op.TakesRow row → op'.TakesRow row' → row < row'

end DrawOp

/-- The columns and rows of the panel in which the sides of a box are. -/
structure Box where
  left : Int
  right : Int
  top : Int
  bottom : Int

/-- The sides of a box as they are asked for. -/
inductive Box.Outlined (b : Box) : List DrawOp → Prop
  | sides {x x' y y' : Int32} {width height : UInt16} {color : Color} :
    x.toInt = b.left → x'.toInt = b.right → y.toInt = b.top → y'.toInt = b.bottom →
    (width.toNat : Int) = b.right - b.left → (height.toNat : Int) = b.bottom - b.top →
    Outlined b [.horizontal x y width color, .horizontal x y' width color, .vertical x y height color,
      .vertical x' y height color]

namespace Layout

/-- A box with some lines of text inside, one below the other. -/
structure Labelled (b : Box) (lines : List String) (border label : List DrawOp) : Prop where
  outlined : b.Outlined border
  width : b.right - b.left = longest lines * 12 + 10
  height : b.bottom - b.top = lines.length * 18 + 8
  texts : label.map DrawOp.line? = lines.map some
  cells : ∀ op ∈ label, ∃ x y line style, op = .text x y line style ∧ style.cellWidth = 12 ∧ style.cellHeight = 16
  columns : ∀ op ∈ label, ∀ column, op.TakesColumn column → b.left < column ∧ column < b.right
  rows : ∀ op ∈ label, ∀ row, op.TakesRow row → b.top < row ∧ row < b.bottom
  apart : label.Pairwise DrawOp.Above

/-- The box around the label of a button that has its upper side at a position of the page. -/
def boxAt (w : Window) (position : Nat) (lines : List String) : Box where
  left := 2
  right := 2 + (longest lines * 12 + 10)
  top := (w.screenY position).toInt
  bottom := (w.screenY position).toInt + (lines.length * 18 + 8)

/-- The row of the page that is shown at a row of the panel. -/
def Window.pageRow (w : Window) (row : Int) : Int := row - w.statusBar + w.offset

/-- All rows of a request show rows of an extent. -/
def Within (w : Window) (e : Extent) (op : DrawOp) : Prop := ∀ row, op.TakesRow row → e.Holds (w.pageRow row)

theorem longest_le_iff (lines : List String) (n : Nat) : longest lines ≤ n ↔ ∀ line ∈ lines, line.length ≤ n := by
  have general : ∀ start, lines.foldl (fun n line => max n line.length) start ≤ n ↔
      start ≤ n ∧ ∀ line ∈ lines, line.length ≤ n := by
    induction lines with
    | nil => simp
    | cons line rest ih =>
      intro start
      rw [List.foldl_cons, ih, Nat.max_le, List.forall_mem_cons, and_assoc]
  rw [longest, general]
  exact and_iff_right (Nat.zero_le n)

variable (w : Window)

theorem column_eq_mapIdx (left : Int32) (style : TextStyle) (advance position : Nat) (lines : List String) :
    column w left style advance position lines =
      lines.mapIdx fun i line => .text left (w.screenY (position + i * advance)) line style := by
  induction lines generalizing position with
  | nil => rfl
  | cons line rest ih =>
    rw [column, ih, List.mapIdx_cons, Nat.zero_mul, Nat.add_zero]
    simp only [Nat.succ_mul, Nat.add_assoc, Nat.add_comm advance]

theorem exists_of_mem_column {left : Int32} {style : TextStyle} {advance position : Nat} {lines : List String}
    {op : DrawOp} (member : op ∈ column w left style advance position lines) :
    ∃ i line, i < lines.length ∧ line ∈ lines ∧ op = .text left (w.screenY (position + i * advance)) line style := by
  rw [column_eq_mapIdx, List.mem_mapIdx] at member
  obtain ⟨i, inside, rfl⟩ := member
  exact ⟨i, lines[i], inside, List.getElem_mem inside, rfl⟩

theorem map_line?_column (left : Int32) (style : TextStyle) (advance position : Nat) (lines : List String) :
    (column w left style advance position lines).map DrawOp.line? = lines.map some := by
  induction lines generalizing position with
  | nil => rfl
  | cons line rest ih =>
    rw [column, List.map_cons, List.map_cons, ih]
    rfl

section

variable {w} (near : w.offset < 2 ^ 31)

include near

theorem pageRow_screenY {position : Nat} (low : w.statusBar + position < 2 ^ 31) :
    w.pageRow (w.screenY position).toInt = position := by
  rw [Window.pageRow, toInt_screenY w low near]
  omega

theorem within_column (left : Int32) {style : TextStyle} {advance position : Nat} {lines : List String} {e : Extent}
    (low : w.statusBar + e.bottom ≤ 2 ^ 31) (tall : 0 < advance) (fits : style.cellHeight ≤ advance)
    (top : e.top ≤ position) (bottom : position + lines.length * advance ≤ e.bottom) :
    ∀ op ∈ column w left style advance position lines, Within w e op := by
  intro op member row taken
  obtain ⟨i, line, inside, -, rfl⟩ := exists_of_mem_column w member
  have step : i * advance + advance ≤ lines.length * advance := by
    rw [← Nat.succ_mul]
    exact Nat.mul_le_mul_right advance inside
  have shown := pageRow_screenY near (show w.statusBar + (position + i * advance) < 2 ^ 31 by omega)
  simp only [DrawOp.TakesRow] at taken
  simp only [Window.pageRow, Extent.Holds] at shown ⊢
  omega

theorem within_box (color : Color) {top : Nat} {lines : List String} {e : Extent}
    (low : w.statusBar + e.bottom ≤ 2 ^ 31) (above : e.top ≤ top) (below : top + boxHeight lines < e.bottom) :
    ∀ op ∈ box w color top lines, Within w e op := by
  have upper := pageRow_screenY near (show w.statusBar + top < 2 ^ 31 by omega)
  have lower := pageRow_screenY near (show w.statusBar + (top + boxHeight lines) < 2 ^ 31 by omega)
  -- A side that is too long for a word comes out shorter, never longer.
  have short : (UInt16.ofNat (boxHeight lines)).toNat ≤ boxHeight lines := Nat.mod_le _ _
  simp only [box, List.forall_mem_cons, screenY_add, Within, DrawOp.TakesRow, Extent.Holds]
  simp only [Window.pageRow] at upper lower ⊢
  refine ⟨fun row taken => ?_, fun row taken => ?_, fun row taken => ?_, fun row taken => ?_,
    fun _ member => (List.not_mem_nil member).elim⟩ <;> omega

/-- Whatever the kind, no row of what is drawn for a leaf is outside its extent. -/
theorem within_leaf (kind : Kind) (selected : Bool) (lines : List String) (position : Nat)
    (low : w.statusBar + (leaf w kind selected lines position).extent.bottom ≤ 2 ^ 31) :
    ∀ op ∈ (leaf w kind selected lines position).ops, Within w (leaf w kind selected lines position).extent op := by
  intro op member
  cases kind with
  | text => exact within_column near _ low (by decide) (by decide) (Nat.le_refl _) (Nat.le_refl _) op member
  | heading => exact within_column near _ low (by decide) (by decide) (Nat.le_refl _) (Nat.le_refl _) op member
  | link =>
    have fits : (linkStyle selected).cellHeight ≤ textAdvance := by cases selected <;> decide
    exact within_column near _ low (by decide) fits (Nat.le_refl _) (Nat.le_refl _) op member
  | button =>
    rcases List.mem_append.mp member with border | label
    · exact within_box near _ low (Nat.le_refl _) (Nat.lt_add_of_pos_right (by decide)) op border
    · refine within_column near _ low (by decide) (by decide) (Nat.le_add_right _ _) ?_ op label
      simp only [leaf, boxHeight, padding, margin]
      omega
  | container | body | head | script | title => exact (List.not_mem_nil member).elim

theorem within_visits (f : Forest Located) (c : Cursor) (low : w.statusBar + (steps w f c).2.position ≤ 2 ^ 31)
    {v : Visit} (member : v ∈ visits w f c) : ∀ op ∈ v.ops, Within w v.extent op := by
  have bottom := (bounds_visits f c member).2.2
  rcases visit_cases f c member with ⟨-, nothing⟩ | ⟨-, kids, position, ops, extent⟩
  · rw [nothing]
    exact fun _ drawn => (List.not_mem_nil drawn).elim
  · rw [extent] at bottom ⊢
    rw [ops]
    exact within_leaf near _ _ _ _ (Nat.le_trans (Nat.add_le_add_left bottom _) low)

/-- What is drawn for two nodes has no row in common. -/
theorem apart_visits {f : Forest Located} (nodup : f.handles.Nodup) (c : Cursor)
    (low : w.statusBar + (steps w f c).2.position ≤ 2 ^ 31) {v v' : Visit} (member : v ∈ visits w f c)
    (member' : v' ∈ visits w f c) (other : v ≠ v') {op op' : DrawOp} (drawn : op ∈ v.ops) (drawn' : op' ∈ v'.ops) :
    ¬ ∃ row, op.TakesRow row ∧ op'.TakesRow row := by
  have empty : ∀ {u : Visit}, u ∈ visits w f c → u.node.content.kind.isContainer → u.ops = [] := by
    intro u visited container
    rcases visit_cases f c visited with ⟨-, nothing⟩ | ⟨closed, -⟩
    · exact nothing
    · exact absurd container closed
  rintro ⟨row, taken, taken'⟩
  obtain ⟨above, below⟩ := within_visits near f c low member op drawn row taken
  obtain ⟨above', below'⟩ := within_visits near f c low member' op' drawn' row taken'
  rcases precedes_or_precedes nodup member member' other with
    (⟨-, -, container, -, -, -⟩ | ⟨-, -, -, order, -⟩) | (⟨-, -, container, -, -, -⟩ | ⟨-, -, -, order, -⟩)
  · rw [empty member' container] at drawn'
    cases drawn'
  · omega
  · rw [empty member container] at drawn
    cases drawn
  · omega

theorem outlined_box {lines : List String} (few : lines.length ≤ 3640) (short : ∀ line ∈ lines, line.length ≤ 5460)
    (color : Color) {top : Nat} (low : w.statusBar + top + boxHeight lines < 2 ^ 31) :
    (boxAt w top lines).Outlined (box w color top lines) := by
  have narrow : longest lines ≤ 5460 := (longest_le_iff lines 5460).mpr short
  have tall : boxHeight lines = lines.length * 18 + 8 := rfl
  have width : (boxWidth lines).toNat = longest lines * 12 + 10 :=
    Nat.mod_eq_of_lt (show longest lines * 12 + 10 < 2 ^ 16 by omega)
  have height : (UInt16.ofNat (boxHeight lines)).toNat = boxHeight lines :=
    Nat.mod_eq_of_lt (show boxHeight lines < 2 ^ 16 by omega)
  have right : (textLeft + Int32.ofNat (boxWidth lines).toNat).toInt = 2 + (longest lines * 12 + 10 : Nat) := by
    rw [width, Int32.toInt_add, Int32.toInt_ofNat_of_lt (by omega)]
    exact Int.bmod_eq_of_le_mul_two (by change _ ≤ (2 + _ : Int) * 2; omega) (by change (2 + _ : Int) * 2 < _; omega)
  have upper := toInt_screenY w (show w.statusBar + top < 2 ^ 31 by omega) near
  have lower := toInt_screenY w (show w.statusBar + (top + boxHeight lines) < 2 ^ 31 by omega) near
  rw [box, screenY_add]
  refine .sides rfl (by rw [right]; rfl) rfl ?_ ?_ ?_
  · change _ = (w.screenY top).toInt + _
    omega
  · change _ = (2 + (_ + 10) - 2 : Int)
    omega
  · change _ = (w.screenY top).toInt + _ - (w.screenY top).toInt
    omega

/-- Lines of text one below the other have no row in common. -/
theorem above_column (left : Int32) {style : TextStyle} {advance position : Nat} {lines : List String}
    (low : w.statusBar + position + lines.length * advance ≤ 2 ^ 31) (tall : 0 < advance)
    (fits : style.cellHeight ≤ advance) :
    (column w left style advance position lines).Pairwise DrawOp.Above := by
  induction lines generalizing position with
  | nil => exact .nil
  | cons line rest ih =>
    rw [List.length_cons, Nat.succ_mul] at low
    rw [column, List.pairwise_cons]
    refine ⟨fun op member row row' taken taken' => ?_, ih (by omega)⟩
    obtain ⟨i, line', inside, -, rfl⟩ := exists_of_mem_column w member
    have step : i * advance + advance ≤ rest.length * advance := by
      rw [← Nat.succ_mul]
      exact Nat.mul_le_mul_right advance inside
    have here := toInt_screenY w (show w.statusBar + position < 2 ^ 31 by omega) near
    have there := toInt_screenY w (show w.statusBar + (position + advance + i * advance) < 2 ^ 31 by omega) near
    simp only [DrawOp.TakesRow] at taken taken'
    omega

/-- As long as words of sixteen bits can hold its sides, the box of a button encloses the label. -/
theorem labelled_button {lines : List String} (few : lines.length ≤ 3640) (short : ∀ line ∈ lines, line.length ≤ 5460)
    (color : Color) {top : Nat} (low : w.statusBar + top + boxHeight lines < 2 ^ 31) :
    Labelled (boxAt w top lines) lines (box w color top lines)
      (column w labelLeft (plain textScale) textAdvance (top + padding) lines) := by
  have tall : boxHeight lines = lines.length * 18 + 8 := rfl
  have placed : ∀ op ∈ column w labelLeft (plain textScale) textAdvance (top + padding) lines,
      ∃ i line, i < lines.length ∧ line ∈ lines ∧
        op = .text labelLeft (w.screenY (top + 5 + i * 18)) line (plain textScale) :=
    fun op member => exists_of_mem_column w member
  refine ⟨outlined_box near few short color low, ?_, ?_, map_line?_column w _ _ _ _ _, ?_, ?_, ?_, ?_⟩
  · change (2 + (_ + 10) - 2 : Int) = _
    omega
  · change (w.screenY top).toInt + _ - (w.screenY top).toInt = _
    omega
  · intro op member
    obtain ⟨i, line, -, -, rfl⟩ := placed op member
    exact ⟨_, _, _, _, rfl, rfl, rfl⟩
  · intro op member column taken
    obtain ⟨i, line, -, among, rfl⟩ := placed op member
    have enclosed : line.length ≤ longest lines := (longest_le_iff lines _).mp (Nat.le_refl _) line among
    have cells : (7 : Int) ≤ column ∧ column < 7 + line.length * 12 := taken
    change (2 : Int) < column ∧ column < 2 + (longest lines * 12 + 10)
    omega
  · intro op member row taken
    obtain ⟨i, line, inside, -, rfl⟩ := placed op member
    have upper := toInt_screenY w (show w.statusBar + top < 2 ^ 31 by omega) near
    have here := toInt_screenY w (show w.statusBar + (top + 5 + i * 18) < 2 ^ 31 by omega) near
    have cells : (w.screenY (top + 5 + i * 18)).toInt ≤ row ∧ row < (w.screenY (top + 5 + i * 18)).toInt + 16 := taken
    change (w.screenY top).toInt < row ∧ row < (w.screenY top).toInt + (lines.length * 18 + 8)
    omega
  · refine above_column near _ ?_ (by decide) (by decide)
    change w.statusBar + (top + 5) + lines.length * 18 ≤ _
    omega

/-- The box around the label takes up the extent of a button, all but the margin below. -/
theorem labelled_leaf {lines : List String} (few : lines.length ≤ 3640) (short : ∀ line ∈ lines, line.length ≤ 5460)
    (selected : Bool) (position : Nat) {ops : List DrawOp} {e : Extent}
    (drawn : ops = (leaf w .button selected lines position).ops)
    (placed : e = (leaf w .button selected lines position).extent) (low : w.statusBar + e.bottom < 2 ^ 31) :
    ∃ b border label, ops = border ++ label ∧ Labelled b lines border label ∧
      (∀ row, b.top ≤ row → row ≤ b.bottom → e.Holds (w.pageRow row)) ∧
      w.pageRow b.top = e.top ∧ w.pageRow b.bottom + margin = e.bottom := by
  obtain ⟨top, start⟩ : ∃ top, top = position + gap := ⟨_, rfl⟩
  have tall : boxHeight lines = lines.length * 18 + 8 := rfl
  rw [leaf, ← start] at placed drawn
  subst placed
  have held : w.statusBar + top + boxHeight lines < 2 ^ 31 := by
    change w.statusBar + (top + boxHeight lines + margin) < 2 ^ 31 at low
    omega
  have shown := pageRow_screenY near (show w.statusBar + top < 2 ^ 31 by omega)
  refine ⟨_, _, _, drawn, labelled_button near few short (borderColor selected) held, fun row above under => ?_,
    shown, ?_⟩
  · have first : (w.screenY top).toInt ≤ row := above
    have last : row ≤ (w.screenY top).toInt + (lines.length * 18 + 8) := under
    change (top : Int) ≤ row - w.statusBar + w.offset ∧
      row - w.statusBar + w.offset < (top + boxHeight lines + 2 : Nat)
    rw [Window.pageRow] at shown
    omega
  · change (w.screenY top).toInt + (lines.length * 18 + 8) - w.statusBar + w.offset + margin =
      (top + boxHeight lines + margin : Nat)
    rw [Window.pageRow] at shown
    omega

end

section

variable {w}

/-- A visit to a leaf shows the lines that the document shows for its node. -/
theorem leaf_visits {d : Document} {f : Forest Located} (holds : d.Holds f) (c : Cursor) {v : Visit}
    (member : v ∈ visits w f c) (closed : ¬ v.node.content.kind.isContainer) :
    ∃ selected position, v.ops = (leaf w v.node.content.kind selected (d.textLines v.node.handle) position).ops ∧
      v.extent = (leaf w v.node.content.kind selected (d.textLines v.node.handle) position).extent := by
  induction f generalizing c with
  | nil => cases member
  | node n kids rest ihk ihr =>
    have shown := Document.Holds.textLines holds
    obtain ⟨-, inside, right⟩ := holds
    by_cases here : w.passesOver c.position
    · rw [visits_of_passesOver here] at member
      cases member
    · by_cases container : n.content.kind.isContainer
      · rw [visits_container here container, List.mem_append, List.mem_cons] at member
        rcases member with below | rfl | beside
        · exact ihk inside _ below
        · exact absurd container closed
        · exact ihr right _ beside
      · rw [visits_leaf here container, List.mem_cons] at member
        rcases member with rfl | beside
        · exact ⟨w.selected? == some n.handle, c.position, by rw [shown]; rfl, by rw [shown]; rfl⟩
        · exact ihr right _ beside

/-- Where nothing is passed over, the nodes that are exposed are visited. -/
theorem visits_perm_exposed (full : w.cutoff? = none) (f : Forest Located) (c : Cursor) :
    ((visits w f c).map Visit.node).Perm f.exposed := by
  have ahead : ∀ position, ¬ w.passesOver position := by
    intro position passed
    simp [Window.passesOver, full] at passed
  induction f generalizing c with
  | nil => exact .nil
  | node n kids rest ihk ihr =>
    rw [Forest.exposed]
    by_cases container : n.content.kind.isContainer
    · rw [visits_container (ahead _) container, if_pos container, List.map_append, List.map_cons]
      exact List.perm_middle.trans (((ihk _).append (ihr _)).cons n)
    · rw [visits_leaf (ahead _) container, if_neg container, List.map_cons, List.nil_append]
      exact (ihr _).cons n

end

/-- A frame asks for what is drawn for the nodes it comes to, and where nothing is passed over it comes to all that
are exposed. As long as the words can hold where rows are, and how long the sides of its box are, a button that a
frame comes to is drawn as a box with the lines of its label inside, one below the other. The box, its sides included,
is in the rows of the extent that the button is given, and none of these is a row of what is drawn for another
node. -/
theorem box_encloses_label {d : Document} (reachable : d.Reachable) (settings : PageSettings) (scroll : Scroll)
    (entries : List Focus.Entry) (low : settings.statusBar.toNat + d.height < 2 ^ 31)
    (near : scroll.beginFrame.offset < 2 ^ 31) :
    let w := windowOf settings scroll.beginFrame entries
    let made := visits w d.located {}
    draws (frame settings d scroll entries) = made.flatMap Visit.ops ∧
      (w.cutoff? = none → ∀ h, d.Exposed h ↔ h ∈ made.map (·.node.handle)) ∧
      ∀ v ∈ made, v.node.content.kind = .button →
        (d.textLines v.node.handle).length ≤ 3640 → (∀ line ∈ d.textLines v.node.handle, line.length ≤ 5460) →
        (∃ b border label, v.ops = border ++ label ∧ Labelled b (d.textLines v.node.handle) border label ∧
          (∀ row, b.top ≤ row → row ≤ b.bottom → v.extent.Holds (w.pageRow row)) ∧
          w.pageRow b.top = v.extent.top ∧ w.pageRow b.bottom + margin = v.extent.bottom) ∧
        ∀ v' ∈ made, v'.node.handle ≠ v.node.handle → ∀ op ∈ v.ops, ∀ op' ∈ v'.ops,
          ¬ ∃ row, op.TakesRow row ∧ op'.TakesRow row := by
  intro w made
  have represents := reachable.represents
  have reach : w.statusBar + (steps w d.located {}).2.position < 2 ^ 31 := by
    have further := position_steps_le_whole (w := w) d.located {}
    rw [(steps_whole_geometry w d).2] at further
    exact Nat.lt_of_le_of_lt (Nat.add_le_add_left further _) low
  refine ⟨(flatMap_ops_visits _ _ _).symm, fun full h => ?_, fun v member button few short => ⟨?_, ?_⟩⟩
  · rw [represents.exposed_iff, ← ((visits_perm_exposed full d.located {}).map Located.handle).mem_iff, List.map_map]
    rfl
  · have closed : ¬ v.node.content.kind.isContainer := by
      rw [button]
      decide
    obtain ⟨selected, position, ops, extent⟩ := leaf_visits represents.holds {} member closed
    rw [button] at ops extent
    have bottom := (bounds_visits d.located {} member).2.2
    refine labelled_leaf near few short selected position ops extent ?_
    exact Nat.lt_of_le_of_lt (Nat.add_le_add_left bottom _) reach
  · intro v' member' other op drawn op' drawn'
    exact apart_visits near represents.nodup {} (Nat.le_of_lt reach) member member'
      (fun same => other (same ▸ rfl)) drawn drawn'

/-- A button of two lines below a heading, on a page that is ten rows down; a link is below it. -/
theorem box_encloses_label_cancel :
    let node := fun kind lines => Forest.single { kind, lines, selectable := true : Content } .nil
    let d := Document.ofForest
      (.single { kind := .body } (node .heading ["sure"] ++ node .button ["ok", "cancel"] ++ node .link ["back"]))
    let scroll : Scroll := { viewport := 150, step := 40, offset := 10 }
    let w := windowOf {} scroll.beginFrame []
    let made := visits w d.located {}
    (d.Reachable ∧ ({} : PageSettings).statusBar.toNat + d.height < 2 ^ 31 ∧ scroll.beginFrame.offset < 2 ^ 31) ∧
      made.map Visit.extent = [⟨4, 30⟩, ⟨34, 80⟩, ⟨84, 102⟩, ⟨0, 102⟩] ∧
      ∃ v ∈ made, v.extent = ⟨34, 80⟩ ∧
        (∃ b border label, v.ops = border ++ label ∧ Labelled b ["ok", "cancel"] border label ∧
          w.pageRow b.top = 34 ∧ w.pageRow b.bottom = 78) ∧
        ∀ v' ∈ made, v'.node.handle ≠ v.node.handle → ∀ op ∈ v.ops, ∀ op' ∈ v'.ops,
          ¬ ∃ row, op.TakesRow row ∧ op'.TakesRow row := by
  intro node d scroll w made
  have reachable : d.Reachable := .ofForest _
  have low : ({} : PageSettings).statusBar.toNat + d.height < 2 ^ 31 := by decide +kernel
  have near : scroll.beginFrame.offset < 2 ^ 31 := by decide
  obtain ⟨-, -, boxes⟩ := box_encloses_label reachable {} scroll [] low near
  obtain ⟨v, there⟩ : ∃ v, made[1]? = some v := ⟨_, rfl⟩
  have extent : v.extent = ⟨34, 80⟩ := by
    cases there
    decide +kernel
  have lines : d.textLines v.node.handle = ["ok", "cancel"] := by
    cases there
    decide +kernel
  have button : v.node.content.kind = .button := by
    cases there
    decide +kernel
  obtain ⟨⟨b, border, label, ops, labelled, -, top, bottom⟩, apart⟩ :=
    boxes v (List.mem_of_getElem? there) button (by rw [lines]; decide) (by rw [lines]; decide)
  rw [lines] at labelled
  rw [extent] at top bottom
  have lower : w.pageRow b.bottom + 2 = 80 := bottom
  refine ⟨⟨reachable, low, near⟩, by decide +kernel, v, List.mem_of_getElem? there, extent, ?_, apart⟩
  exact ⟨b, border, label, ops, labelled, top, by omega⟩

end Layout
end PocketReader
