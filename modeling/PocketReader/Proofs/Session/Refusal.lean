import PocketReader.Proofs.Layout.Order
import PocketReader.Proofs.Session.Survey

/-! Frames that are broken off. A display that refuses a request has taken those before it and gets no more. The page
has moved as it does before any frame, and nothing else is known of it than before: some extents are those of this
frame, and the others are as they were. So a page of which no frame was completed is laid out as a whole each time. -/
namespace PocketReader

namespace Layout

section

variable {δ : Type} [Display δ]

theorem send_of_all_accepted {ops : List DrawOp} {display : δ} (all : accepted ops display = ops.length) :
    (send ops display).1 = .ok () := by
  induction ops generalizing display with
  | nil => rfl
  | cons op ops ih =>
    rcases answer : Display.draw op display with ⟨outcome, next⟩
    cases outcome with
    | ok =>
      simp only [accepted, send, answer, List.length_cons, Nat.succ.injEq] at all ⊢
      exact ih all
    | error e =>
      simp only [accepted, answer, List.length_cons] at all
      omega

/-- The request that is refused comes after all that were accepted, and no other comes after it. -/
theorem send_of_refused {ops : List DrawOp} {display : δ} (short : accepted ops display < ops.length) :
    ∃ op next, ops[accepted ops display]? = some op ∧
      send (ops.take (accepted ops display)) display = (.ok (), next) ∧
      (send ops display).1 = .error .busy ∧ Display.draw op next = (.error .busy, (send ops display).2) := by
  induction ops generalizing display with
  | nil => exact absurd short (Nat.lt_irrefl 0)
  | cons op ops ih =>
    rcases answer : Display.draw op display with ⟨outcome, next⟩
    cases outcome with
    | ok =>
      simp only [accepted, answer, List.length_cons, Nat.add_lt_add_iff_right] at short
      obtain ⟨refused, last, there, taken, broken, final⟩ := ih short
      simp only [accepted, send, answer, List.take_succ_cons, List.getElem?_cons_succ]
      exact ⟨refused, last, there, taken, broken, final⟩
    | error e =>
      cases e
      simp only [accepted, send, answer, List.take_zero, List.getElem?_cons_zero]
      exact ⟨op, display, rfl, rfl, trivial, answer⟩

end

/-- A panel takes as many requests as it has calls to give. -/
theorem accepted_panel (ops : List DrawOp) (panel : Panel) :
    accepted ops panel = panel.supply?.elim ops.length (min · ops.length) := by
  induction ops generalizing panel with
  | nil => cases panel.supply? <;> simp [accepted]
  | cons op ops ih =>
    cases supply : panel.supply? with
    | none => simp [accepted, Display.draw, Panel.draw, Panel.spend, supply, ih]
    | some k =>
      cases k with
      | zero => simp [accepted, Display.draw, Panel.draw, Panel.spend, supply]
      | succ k => simp [accepted, Display.draw, Panel.draw, Panel.spend, supply, ih]

/-- What a panel has taken is on its record, if it is nothing that fills the screen. -/
theorem ops_send_panel {ops : List DrawOp} (rows : ∀ op ∈ ops, op.row?.isSome) (panel : Panel) :
    (send ops panel).2.ops = panel.ops ++ ops.take (accepted ops panel) := by
  induction ops generalizing panel with
  | nil => simp [send]
  | cons op ops ih =>
    rw [List.forall_mem_cons] at rows
    have kept : Panel.record op panel.ops = panel.ops ++ [op] := by
      cases op with
      | screen color => cases rows.1
      | rectangle | horizontal | vertical | text => rfl
    have onward : ∀ p : Panel, p.ops = panel.ops ++ [op] →
        (send ops p).2.ops = panel.ops ++ (op :: ops).take (accepted ops p + 1) := by
      intro p record
      rw [ih rows.2, record, List.append_assoc]
      rfl
    cases supply : panel.supply? with
    | none =>
      simp only [send, accepted, Display.draw, Panel.draw, Panel.spend, supply]
      exact onward _ kept
    | some k =>
      cases k with
      | zero => simp [send, accepted, Display.draw, Panel.draw, Panel.spend, supply]
      | succ k =>
        simp only [send, accepted, Display.draw, Panel.draw, Panel.spend, supply]
        exact onward _ kept

/-- With the first of some marks noted, each entry is as it was or as it is with all of them noted. -/
theorem getElem?_foldl_apply_of_prefix {first all : List Mark} (once : (all.map Mark.place).Nodup)
    (front : first <+: all) (entries : List Focus.Entry) (i : Nat) :
    (first.foldl Mark.apply entries)[i]? = entries[i]? ∨
      (first.foldl Mark.apply entries)[i]? = (all.foldl Mark.apply entries)[i]? := by
  by_cases noted : ∃ m ∈ first, m.place = i
  · obtain ⟨m, among, rfl⟩ := noted
    right
    rw [getElem?_foldl_apply_of_mem (once.sublist (front.sublist.map _)) among,
      getElem?_foldl_apply_of_mem once (front.subset among)]
  · left
    exact getElem?_foldl_apply_of_notMem (fun m among place => noted ⟨m, among, place⟩) entries

end Layout

namespace Session

/-- What commands, and frames that are broken off, make of a session. -/
inductive Stumbles (d : Document) : Session → Session → Prop
  | refl (s : Session) : Stumbles d s s
  | command {s t : Session} (c : Command) : Stumbles d s t → Stumbles d s (t.apply d c)
  | frame {s t : Session} {δ : Type} [Display δ] (settings : PageSettings) (display : δ) : Stumbles d s t →
      ¬ t.Completes settings d display → Stumbles d s (t.paint settings d display)

/-- No more is known of the height of a page, however many frames are broken off. -/
theorem Stumbles.known {d : Document} {s t : Session} (stumbles : s.Stumbles d t) :
    t.scroll.measured = s.scroll.measured ∧ t.scroll.height = s.scroll.height := by
  induction stumbles with
  | refl => exact ⟨rfl, rfl⟩
  | @command t c _ ih =>
    obtain ⟨-, -, height, measured⟩ := alike_apply t d c
    rw [height, measured]
    exact ih
  | @frame t _ _ settings display _ broken ih =>
    have moved : (t.paint settings d display).scroll = t.scroll.beginFrame := by
      rcases Layout.scroll_paint_cases settings d t.scroll t.entries display with ⟨complete, -⟩ | ⟨-, moved⟩
      · exact absurd complete broken
      · exact moved
    rw [moved, Scroll.measured_beginFrame, Scroll.height_beginFrame]
    exact ih

end Session

namespace Layout

/-- Nothing that is drawn on a page fills the screen. -/
theorem row?_frame (settings : PageSettings) (d : Document) (scroll : Scroll) (entries : List Focus.Entry) :
    ∀ op ∈ draws (frame settings d scroll entries), op.row?.isSome := by
  intro op drawn
  obtain ⟨position, row, -, -⟩ := between_steps d.located {} op drawn
  rw [row]
  rfl

/-- A frame on a display that takes `k` requests and refuses the next, beside the same frame on one that takes them
all. It is broken off if there are more than `k` requests, and then the display has taken the first `k` of them and
has refused the one after. The page has moved, and what is known of its height and the selection are as they were.
Each entry is for the node it was for, with the extent it had or the one of the complete frame. A page that is not
measured is laid out as a whole, however many frames on it were broken off. -/
theorem paint_refused (settings : PageSettings) (d : Document) (scroll : Scroll) (entries : List Focus.Entry)
    {δ ε : Type} [Display δ] [Display ε] {display : δ} {willing : ε} {k : Nat}
    (takes : accepted (draws (frame settings d scroll entries)) display =
      min k (draws (frame settings d scroll entries)).length)
    (complete : (paint settings d scroll entries willing).outcome = .ok ()) :
    let made := draws (frame settings d scroll entries)
    let whole := paint settings d scroll entries willing
    let painted := paint settings d scroll entries display
    send made willing = (.ok (), whole.display) ∧
    (painted.outcome = .error .busy ↔ k < made.length) ∧
    (painted.outcome = .error .busy →
      (∃ op next, made[k]? = some op ∧ send (made.take k) display = (.ok (), next) ∧
        Display.draw op next = (.error .busy, painted.display)) ∧
      painted.scroll = { scroll with offset := scroll.beginFrame.offset, target := scroll.beginFrame.target }) ∧
    painted.entries.map Focus.Entry.node = entries.map Focus.Entry.node ∧
    (∀ i : Nat, painted.entries[i]? = entries[i]? ∨ painted.entries[i]? = whole.entries[i]?) ∧
    (∀ panel : Panel, accepted made panel = panel.supply?.elim made.length (min · made.length) ∧
      (paint settings d scroll entries panel).display.ops = panel.ops ++ made.take (accepted made panel)) ∧
    ∀ s t : Session, s.scroll.measured = false → s.Stumbles d t →
      frame settings d t.scroll t.entries =
        (steps (windowOf settings t.scroll.beginFrame t.entries).whole d.located {}).1 := by
  intro made whole painted
  have sent : send made display = (painted.outcome, painted.display) := send_paint settings d scroll entries display
  have outcome : painted.outcome = .error .busy ↔ k < made.length := by
    constructor
    · intro broken
      by_contra enough
      have all := send_of_all_accepted (takes.trans (Nat.min_eq_right (Nat.le_of_not_lt enough)))
      rw [sent, broken] at all
      cases all
    · intro more
      obtain ⟨-, -, -, -, broken, -⟩ :=
        send_of_refused (takes.trans_lt (Nat.lt_of_le_of_lt (Nat.min_le_left _ _) more))
      rwa [sent] at broken
  refine ⟨?_, outcome, fun broken => ⟨?_, ?_⟩, map_node_paint settings d scroll entries display, fun i => ?_,
    fun panel => ⟨accepted_panel made panel, ?_⟩, fun s t unmeasured stumbles => ?_⟩
  · rw [← complete]
    exact send_paint settings d scroll entries willing
  · have more := outcome.mp broken
    have all : accepted made display = k := takes.trans (Nat.min_eq_left (Nat.le_of_lt more))
    obtain ⟨op, next, there, taken, -, refused⟩ := send_of_refused (all.trans_lt more)
    rw [all] at there taken
    rw [sent] at refused
    exact ⟨op, next, there, taken, refused⟩
  · exact (scroll_paint_of_error broken).trans scroll.beginFrame_eq
  · obtain ⟨-, left⟩ := paint_frame settings d scroll entries display
    obtain ⟨changed, front, -⟩ := carryOut_eq_noted (frame settings d scroll entries) entries display
    rw [left.trans changed, entries_paint complete]
    exact getElem?_foldl_apply_of_prefix (aligned_steps d.located {}).once front entries i
  · have record := ops_send_panel (row?_frame settings d scroll entries) panel
    rwa [send_paint] at record
  · refine frame_whole_of_unmeasured settings d ?_ t.entries
    rw [stumbles.known.1, unmeasured]

/-- Two frames are broken off in the border of a button. The link above it has its extent after the first of them, and
the button has none; the third frame is laid out as a whole. -/
theorem paint_refused_button :
    let node := fun kind => Forest.single { kind, lines := ["on"], selectable := true : Content } .nil
    let d := Document.ofForest (.single { kind := .body } (node .link ++ node .button))
    let s := (Session.ofSettings {}).resetForLoad d
    let panel : Panel := { width := 320, height := 170 }
    let tired : Panel := { panel with supply? := some 3 }
    let made := draws (frame {} d s.scroll s.entries)
    let whole := paint {} d s.scroll s.entries panel
    let painted := paint {} d s.scroll s.entries tired
    let t := (s.paint {} d tired).paint {} d tired
    (accepted made tired = min 3 made.length ∧ whole.outcome = .ok () ∧ made.length = 6) ∧
      painted.outcome = .error .busy ∧ painted.display.ops = made.take 3 ∧ painted.scroll = s.scroll ∧
      painted.entries.map Focus.Entry.extent = [⟨4, 22⟩, ⟨0, 0⟩] ∧
      whole.entries.map Focus.Entry.extent = [⟨4, 22⟩, ⟨26, 54⟩] ∧
      (∀ i : Nat, painted.entries[i]? = s.entries[i]? ∨ painted.entries[i]? = whole.entries[i]?) ∧
      (s.scroll.measured = false ∧ s.Stumbles d t) ∧
      frame {} d t.scroll t.entries = (steps (windowOf {} t.scroll.beginFrame t.entries).whole d.located {}).1 := by
  intro node d s panel tired made whole painted t
  have takes : accepted made tired = min 3 made.length := accepted_panel made tired
  have complete : whole.outcome = .ok () := Session.completes_panel s {} d rfl
  obtain ⟨-, outcome, broken, -, extents, record, again⟩ := paint_refused {} d s.scroll s.entries takes complete
  have six : made.length = 6 := by decide +kernel
  have refused : painted.outcome = .error .busy := outcome.mpr (by rw [six]; decide)
  have twice : s.Stumbles d t := by
    refine .frame {} tired (.frame {} tired (.refl s) ?_) ?_
    · exact fun done => by cases refused.symm.trans done
    · have later : (paint {} d (s.paint {} d tired).scroll (s.paint {} d tired).entries tired).outcome =
          .error .busy := by
        decide +kernel
      exact fun done => by cases later.symm.trans done
  refine ⟨⟨takes, complete, six⟩, refused, ?_, (broken refused).2, by decide +kernel, by decide +kernel, extents,
    ⟨rfl, twice⟩, again s t rfl twice⟩
  have taken := (record tired).2
  rwa [takes, six] at taken

end Layout
end PocketReader
