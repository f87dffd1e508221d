import PocketReader.Proofs.Session.Survey

/-! Where a page comes to rest. From the loading of a page on, its target is an offset that fills the window, and each
frame without a command brings the page closer to it. A command that moves the focus sends the page to the entry only
if the entry does not show where the page is now; so an entry that shows now comes to rest in view only if it also
shows where the page was going anyway. -/
namespace PocketReader

namespace Scroll

theorem clamped_focus {s : Scroll} (clamped : s.Clamped) (index : Nat) (extent : Extent) :
    (s.focus index extent).Clamped := by
  unfold focus
  dsimp only
  split
  · exact clamped
  · exact clamped_clamp _

theorem Moves.clamped {s t : Scroll} {entries : List Focus.Entry} (moves : s.Moves entries t) (clamped : s.Clamped) :
    t.Clamped := by
  cases moves with
  | stay => exact clamped
  | focus => exact clamped_focus clamped _ _
  | nudge distance => exact clamped_clamp _

/-- Whatever gets selected has taken the focus. -/
theorem Moves.eq_focus {s t : Scroll} {entries : List Focus.Entry} (moves : s.Moves entries t) {i : Nat}
    (selected : t.selected? = some i) (new : s.selected? ≠ some i) :
    ∃ entry, entries[i]? = some entry ∧ t = s.focus i entry.extent := by
  cases moves with
  | stay => exact absurd selected new
  | focus there =>
    rw [selected?_focus, Option.some.injEq] at selected
    subst selected
    exact ⟨_, there, rfl⟩
  | nudge distance =>
    rw [selected?_nudge] at selected
    exact absurd selected new

theorem clamped_finishLayout {s : Scroll} (clamped : s.Clamped) (reached : Nat) :
    (s.finishLayout reached).Clamped := by
  obtain ⟨low, high⟩ := clamped
  refine ⟨low, ?_⟩
  simp only [finishLayout, limit] at high ⊢
  omega

theorem Clamped.target_eq_zero {s : Scroll} (clamped : s.Clamped) (unknown : s.height = 0) : s.target = 0 := by
  obtain ⟨low, high⟩ := clamped
  rw [limit, unknown] at high
  omega

end Scroll

namespace Session

/-- A page on its way to a target that is in reach, and still at its top as long as it is not measured. -/
structure Poised (s : Session) (d : Document) : Prop where
  surveys : s.Surveys d
  clamped : s.scroll.Clamped
  top : s.scroll.measured = false → s.scroll.offset = 0

theorem poised_resetForLoad (s : Session) (d : Document) : (s.resetForLoad d).Poised d :=
  ⟨surveys_resetForLoad s d, ⟨Int.le_refl _, Int.natCast_nonneg _⟩, fun _ => rfl⟩

namespace Poised

variable {s : Session} {d : Document} (poised : s.Poised d)

include poised

theorem target_of_not_measured (unmeasured : s.scroll.measured = false) : s.scroll.target = 0 := by
  have unknown := poised.surveys.height
  rw [unmeasured, if_neg Bool.false_ne_true] at unknown
  exact poised.clamped.target_eq_zero unknown

theorem apply (c : Command) : (s.apply d c).Poised d := by
  obtain ⟨offset, -, -, measured⟩ := alike_apply s d c
  refine ⟨poised.surveys.apply c, (s.moves_apply d c).clamped poised.clamped, ?_⟩
  rw [offset, measured]
  exact poised.top

section

variable {δ : Type} [Display δ] {settings : PageSettings} {display : δ} (complete : s.Completes settings d display)

include complete

theorem paint (represents : d.Represents d.located) : (s.paint settings d display).Poised d := by
  have after : (s.paint settings d display).scroll = _ := Layout.scroll_paint complete
  refine ⟨poised.surveys.paint represents complete, ?_, ?_⟩
  · rw [after]
    apply Scroll.clamped_finishLayout
    cases measured : s.scroll.measured with
    | false =>
      rw [Scroll.beginFrame_of_not_measured measured]
      exact poised.clamped
    | true =>
      rw [Scroll.beginFrame_of_clamped measured poised.clamped]
      exact poised.clamped
  · intro unmeasured
    rw [measured_paint complete] at unmeasured
    cases unmeasured

/-- A frame keeps the target, and comes closer to it. -/
theorem nearer :
    (s.paint settings d display).scroll.target = s.scroll.target ∧
      (s.paint settings d display).scroll.viewport = s.scroll.viewport ∧
      Nat.dist (s.paint settings d display).scroll.offset s.scroll.target.toNat ≤
        Nat.dist s.scroll.offset s.scroll.target.toNat - 1 := by
  have after : (s.paint settings d display).scroll = _ := Layout.scroll_paint complete
  rw [after]
  cases measured : s.scroll.measured with
  | false =>
    rw [Scroll.beginFrame_of_not_measured measured]
    refine ⟨rfl, rfl, ?_⟩
    simp only [Scroll.finishLayout, poised.top measured, poised.target_of_not_measured measured]
    decide
  | true =>
    rw [Scroll.beginFrame_of_clamped measured poised.clamped]
    exact ⟨rfl, rfl, Scroll.dist_approach_le _ _⟩

end

theorem runs (represents : d.Represents d.located) {t : Session} (runs : Runs d s t) : t.Poised d := by
  induction runs with
  | refl => exact poised
  | command c _ ih => exact ih.apply c
  | frame settings display _ complete ih => exact ih.paint complete represents

end Poised

/-- So many complete frames, with no command between them. -/
inductive Frames (d : Document) : Nat → Session → Session → Prop
  | none (s : Session) : Frames d 0 s s
  | next {n : Nat} {s t : Session} {δ : Type} [Display δ] (settings : PageSettings) (display : δ) : Frames d n s t →
      t.Completes settings d display → Frames d (n + 1) s (t.paint settings d display)

theorem Poised.frames {s t : Session} {d : Document} (poised : s.Poised d) (represents : d.Represents d.located)
    {n : Nat} (frames : Frames d n s t) :
    t.Poised d ∧ t.scroll.target = s.scroll.target ∧ t.scroll.viewport = s.scroll.viewport ∧
      Nat.dist t.scroll.offset s.scroll.target.toNat ≤ Nat.dist s.scroll.offset s.scroll.target.toNat - n := by
  induction frames with
  | none => exact ⟨poised, rfl, rfl, Nat.le_refl _⟩
  | @next n s t δ _ settings display _ complete ih =>
    obtain ⟨still, target, viewport, near⟩ := ih poised
    obtain ⟨target', viewport', near'⟩ := still.nearer complete
    rw [target] at target' near'
    exact ⟨still.paint complete represents, target', viewport'.trans viewport, by omega⟩

/-- After as many frames as there are pixels to go, the page is at its target, and it stays there. -/
theorem Poised.settles {s t : Session} {d : Document} (poised : s.Poised d) (represents : d.Represents d.located)
    {n : Nat} (long : Nat.dist s.scroll.offset s.scroll.target.toNat ≤ n) (frames : Frames d n s t) :
    t.scroll.offset = s.scroll.target.toNat ∧ t.scroll.viewport = s.scroll.viewport := by
  obtain ⟨-, -, viewport, near⟩ := poised.frames represents frames
  exact ⟨Nat.eq_of_dist_eq_zero (by omega), viewport⟩

theorem exists_frames (d : Document) (n : Nat) (s : Session) : ∃ t, Frames d n s t := by
  induction n with
  | zero => exact ⟨s, .none s⟩
  | succ n ih =>
    obtain ⟨t, frames⟩ := ih
    let panel : Panel := { width := 320, height := 170 }
    exact ⟨_, .next {} panel frames (completes_panel t {} d rfl)⟩

/-- With no command, all of an extent shows from some frame on. -/
def ComesToShow (s : Session) (d : Document) (e : Extent) : Prop :=
  ∃ enough, ∀ n t, enough ≤ n → Frames d n s t →
    t.scroll.offset ≤ e.top ∧ e.bottom ≤ t.scroll.offset + t.scroll.viewport

/-- What comes to show is what shows at the target. -/
theorem Poised.comesToShow_iff {s : Session} {d : Document} (poised : s.Poised d)
    (represents : d.Represents d.located)
    (e : Extent) : s.ComesToShow d e ↔ e.isVisible s.scroll.target.toNat s.scroll.viewport = true := by
  rw [Extent.isVisible, Bool.and_eq_true, decide_eq_true_eq, decide_eq_true_eq]
  let far := Nat.dist s.scroll.offset s.scroll.target.toNat
  constructor
  · rintro ⟨enough, shows⟩
    obtain ⟨t, frames⟩ := exists_frames d (max enough far) s
    obtain ⟨rest, viewport⟩ := poised.settles represents (Nat.le_max_right enough far) frames
    have inside := shows _ t (Nat.le_max_left enough far) frames
    rwa [rest, viewport] at inside
  · intro inside
    refine ⟨far, ?_⟩
    intro n t long frames
    obtain ⟨rest, viewport⟩ := poised.settles represents long frames
    rwa [rest, viewport]

section

variable {s : Session} {d : Document} (poised : s.Poised d) (measured : s.scroll.measured = true) {i : Nat}
  {entry : Focus.Entry} (there : s.entries[i]? = some entry) (exposed : d.Exposed entry.node) {e : Extent}
  (extent : d.extent? entry.node = some e)

include poised measured there exposed extent

theorem Poised.agrees : entry.extent.Agrees e (s.scroll.bottom < ·) (d.Open entry.node) := by
  obtain ⟨e', noted, agrees⟩ := poised.surveys.extents measured entry (List.mem_of_getElem? there) exposed
  rw [extent, Option.some.injEq] at noted
  rwa [noted]

theorem Poised.target_focus_of_shown (shown : e.isVisible s.scroll.offset s.scroll.viewport = true) :
    (s.scroll.focus i entry.extent).target = s.scroll.target := by
  have agrees := poised.agrees measured there exposed extent
  rw [Scroll.focus, agrees.isVisible_eq, if_pos shown]

/-- Selecting an entry that does not show sends the page to the entry's top, or as near to it as the page goes; the
entry shows from there. -/
theorem Poised.shows_at_target_focus (represents : d.Represents d.located)
    (fits : e.bottom ≤ e.top + s.scroll.viewport) (hidden : e.isVisible s.scroll.offset s.scroll.viewport = false) :
    e.isVisible (s.scroll.focus i entry.extent).target.toNat s.scroll.viewport = true := by
  have agrees := poised.agrees measured there exposed extent
  have seen : entry.extent.isVisible s.scroll.offset s.scroll.viewport = false := agrees.isVisible_eq.trans hidden
  have height : s.scroll.height = d.height := by
    rw [poised.surveys.height, measured, if_pos rfl]
  have inside : e.bottom ≤ d.height := represents.bottom_le_height extent
  have target : (s.scroll.focus i entry.extent).target =
      max 0 (min (e.top : Int) (d.height - s.scroll.viewport : Nat)) := by
    simp only [Scroll.focus, seen, Bool.false_eq_true, if_false, Scroll.target_clamp, Scroll.limit,
      agrees.top, height]
  rw [target, Extent.isVisible, Bool.and_eq_true, decide_eq_true_eq, decide_eq_true_eq]
  omega

end

/-- What the focus moves to comes into view, unless it was left where it is because it shows there, on a page that was
going somewhere else. The page goes to an entry that does not show; where one shows, the page goes on to its
target. -/
theorem focused_comes_into_view {d : Document} (reachable : d.Reachable) {any s : Session}
    (before : Runs d (any.resetForLoad d) s) {c : Command} {i : Nat} {entry : Focus.Entry} {e : Extent}
    (moved : (s.apply d c).scroll.selected? = some i) (new : s.scroll.selected? ≠ some i)
    (there : s.entries[i]? = some entry) (exposed : d.Exposed entry.node) (extent : d.extent? entry.node = some e)
    (fits : e.bottom ≤ e.top + s.scroll.viewport)
    (aimed : s.scroll.measured = true ∧ e.isVisible s.scroll.offset s.scroll.viewport = false ∨
      e.isVisible s.scroll.target.toNat s.scroll.viewport = true) :
    (s.apply d c).ComesToShow d e := by
  have represents := reachable.represents
  have poised : s.Poised d := (poised_resetForLoad any d).runs represents before
  have view := alike_apply s d c
  rw [(poised.apply c).comesToShow_iff represents, view.viewport]
  cases measured : s.scroll.measured with
  | false =>
    -- Nothing is known of the page, so it stays at its top whatever is selected.
    have shown := aimed.resolve_left fun seen => by rw [measured] at seen; cases seen.1
    rwa [poised.target_of_not_measured measured,
      ← (poised.apply c).target_of_not_measured (view.measured.trans measured)] at shown
  | true =>
    obtain ⟨focused, found, scroll⟩ := (s.moves_apply d c).eq_focus moved new
    rw [there, Option.some.injEq] at found
    subst found
    rw [scroll]
    cases seen : e.isVisible s.scroll.offset s.scroll.viewport with
    | false => exact poised.shows_at_target_focus measured there exposed extent represents fits seen
    | true =>
      have shown := aimed.resolve_left fun hidden => by rw [seen] at hidden; cases hidden.2
      rwa [poised.target_focus_of_shown measured there exposed extent seen]

/-- The page goes down to a link below the window, and the link shows at the end of the page. -/
theorem focused_comes_into_view_below :
    let link := fun rest => Forest.node { kind := .link, selectable := true, lines := ["on"] } .nil rest
    let line := fun rest => Forest.node (Content.text ["line"]) .nil rest
    let d := Document.ofForest (.single { kind := .body } (link (line^[12] (link .nil))))
    let panel : Panel := { width := 320, height := 170 }
    let first := (ofSettings {}).resetForLoad d
    let s := (first.paint {} d panel).apply d .selectNext
    let entry : Focus.Entry := { node := ⟨13, 0⟩, extent := ⟨290, 308⟩ }
    (d.Reachable ∧ Runs d first s ∧ d.Exposed entry.node) ∧
      ((s.apply d .selectNext).scroll.selected? = some 1 ∧ s.scroll.selected? ≠ some 1 ∧ s.entries[1]? = some entry ∧
        d.extent? entry.node = some entry.extent ∧ entry.extent.bottom ≤ entry.extent.top + s.scroll.viewport) ∧
      (s.scroll.measured = true ∧ entry.extent.isVisible s.scroll.offset s.scroll.viewport = false) ∧
      (s.apply d .selectNext).scroll.target = 158 ∧ (s.apply d .selectNext).ComesToShow d entry.extent := by
  intro link line d panel first s entry
  have reachable : d.Reachable := .ofForest _
  have before : Runs d first s := .command _ (.frame {} panel (.refl _) (completes_panel _ _ _ rfl))
  have exposed : d.Exposed entry.node := .child (.top List.mem_cons_self) rfl rfl (by decide +kernel)
  have moved : (s.apply d .selectNext).scroll.selected? = some 1 ∧ s.scroll.selected? ≠ some 1 ∧
      s.entries[1]? = some entry ∧ d.extent? entry.node = some entry.extent ∧
      entry.extent.bottom ≤ entry.extent.top + s.scroll.viewport := by decide +kernel
  have hidden : s.scroll.measured = true ∧ entry.extent.isVisible s.scroll.offset s.scroll.viewport = false := by
    decide +kernel
  have ⟨selected, new, there, extent, fits⟩ := moved
  exact ⟨⟨reachable, before, exposed⟩, moved, hidden, by decide +kernel,
    focused_comes_into_view reachable before selected new there exposed extent fits (.inl hidden)⟩

/-- Two pages on which the focus comes to rest out of view. The first was moving on past its last link when the link
before was selected, which still showed. On the second, a link far below was selected before the first frame. -/
theorem focused_out_of_view :
    let link := fun rest => Forest.node { kind := .link, selectable := true, lines := ["on"] } .nil rest
    let line := fun rest => Forest.node (Content.text ["line"]) .nil rest
    let panel : Panel := { width := 320, height := 170 }
    (let d := Document.ofForest (.single { kind := .body } (link (link (line^[12] .nil))))
      let first := (ofSettings {}).resetForLoad d
      let s := (((first.paint {} d panel).apply d .selectNext).apply d .selectNext).apply d .selectNext
      let entry : Focus.Entry := { node := ⟨0, 0⟩, extent := ⟨4, 22⟩ }
      (d.Reachable ∧ Runs d first s ∧ d.Exposed entry.node) ∧
        ((s.apply d .selectPrevious).scroll.selected? = some 0 ∧ s.scroll.selected? = some 1 ∧
          s.entries[0]? = some entry ∧ d.extent? entry.node = some ⟨4, 22⟩ ∧ 22 ≤ 4 + s.scroll.viewport) ∧
        (s.scroll.measured = true ∧ (s.apply d .selectPrevious).scroll.target = 40) ∧
        ¬(s.apply d .selectPrevious).ComesToShow d ⟨4, 22⟩) ∧
    (let d := Document.ofForest (.single { kind := .body } (link (line^[12] (link .nil))))
      let first := (ofSettings {}).resetForLoad d
      let s := first.apply d .selectNext
      let entry : Focus.Entry := { node := ⟨13, 0⟩ }
      (d.Reachable ∧ Runs d first s ∧ d.Exposed entry.node) ∧
        ((s.apply d .selectNext).scroll.selected? = some 1 ∧ s.scroll.selected? = some 0 ∧
          s.entries[1]? = some entry ∧ d.extent? entry.node = some ⟨290, 308⟩ ∧ 308 ≤ 290 + s.scroll.viewport) ∧
        (s.scroll.measured = false ∧ (s.apply d .selectNext).scroll.target = 0) ∧
        ¬(s.apply d .selectNext).ComesToShow d ⟨290, 308⟩) := by
  intro link line panel
  constructor
  · intro d first s entry
    have reachable : d.Reachable := .ofForest _
    have before : Runs d first s :=
      .command _ (.command _ (.command _ (.frame {} panel (.refl _) (completes_panel _ _ _ rfl))))
    have exposed : d.Exposed entry.node := .child (.top List.mem_cons_self) rfl rfl (by decide +kernel)
    have poised : (s.apply d .selectPrevious).Poised d :=
      ((poised_resetForLoad _ d).runs reachable.represents before).apply _
    refine ⟨⟨reachable, before, exposed⟩, by decide +kernel, by decide +kernel, ?_⟩
    rw [poised.comesToShow_iff reachable.represents]
    decide +kernel
  · intro d first s entry
    have reachable : d.Reachable := .ofForest _
    have before : Runs d first s := .command _ (.refl _)
    have exposed : d.Exposed entry.node := .child (.top List.mem_cons_self) rfl rfl (by decide +kernel)
    have poised : (s.apply d .selectNext).Poised d :=
      ((poised_resetForLoad _ d).runs reachable.represents before).apply _
    refine ⟨⟨reachable, before, exposed⟩, by decide +kernel, by decide +kernel, ?_⟩
    rw [poised.comesToShow_iff reachable.represents]
    decide +kernel

end Session
end PocketReader
