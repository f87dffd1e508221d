import PocketReader.Display.Panel
import PocketReader.Proofs.Layout.Extents
import PocketReader.Proofs.Scroll
import PocketReader.Proofs.Session

/-! What a session knows of a page that does not change. The first complete frame measures it, and the frames after
it, which pass over what is below the window, leave on record what a frame without a cutoff would: the height of the
page, and for each node that is laid out an extent that answers as the true one does when it is asked whether it
shows. -/
namespace PocketReader

/-- The extents on record agree with the true ones, as far as some line. -/
def Focus.Surveyed (d : Document) (entries : List Focus.Entry) (beyond : Nat → Prop) : Prop :=
  ∀ entry ∈ entries, d.Exposed entry.node →
    ∃ e, d.extent? entry.node = some e ∧ entry.extent.Agrees e beyond (d.Open entry.node)

namespace Layout

variable {δ : Type} [Display δ]

/-- A complete frame leaves the extents of this frame on record, and older ones only of nodes beyond its cutoff. -/
theorem surveyed_paint {d : Document} (represents : d.Represents d.located) {entries : List Focus.Entry}
    (rebuilt : entries.map Focus.Entry.node = d.located.focusable) {settings : PageSettings} {scroll : Scroll}
    {display : δ} (before : scroll.measured → Focus.Surveyed d entries (scroll.bottom < ·))
    (complete : (paint settings d scroll entries display).outcome = .ok ()) :
    Focus.Surveyed d (paint settings d scroll entries display).entries (scroll.beginFrame.bottom < ·) := by
  intro entry member exposed
  rw [entries_paint complete] at member
  have nodup : (entries.map Focus.Entry.node).Nodup := by
    rw [rebuilt]
    exact represents.nodup_focusable
  have named : ∀ m ∈ marks (frame settings d scroll entries),
      (entries.map Focus.Entry.node)[m.place]? = some m.node := fun m noted =>
    named_frame rebuilt settings scroll noted
  have past := passesOver_windowOf_iff settings scroll.beginFrame entries
  have listed : ∀ old ∈ entries, old.node ∈ d.located.focusable := by
    intro old among
    rw [← rebuilt]
    exact List.mem_map_of_mem among
  rcases mem_foldl_apply (aligned_steps d.located {}).once nodup named member with
    ⟨m, noted, node, extent⟩ | ⟨old, unnoted⟩
  · obtain ⟨e, whole, agrees⟩ := agrees_marks d.located {} noted
    rw [(steps_whole_geometry _ d).1, node] at whole
    refine ⟨e, (represents.extent?_eq_some_iff _ e).mpr ⟨_, whole⟩, ?_⟩
    rw [← extent, ← node]
    exact agrees.imp (fun position passed => ((past position).mp passed).2) represents.open_of_openIn
  · -- Not noted in this frame, the node begins below the window, where the older extent still agrees.
    obtain ⟨e, there⟩ := represents.exists_extent (listed entry old) exposed
    obtain ⟨place, whole⟩ := (represents.extent?_eq_some_iff _ e).mp there
    rw [← (steps_whole_geometry (windowOf settings scroll.beginFrame entries) d).1] at whole
    rcases noted_or_beyond d.located {} whole with ⟨seen, noted⟩ | passed
    · exact absurd rfl (unnoted _ noted)
    · obtain ⟨measured, below⟩ := (past e.top).mp passed
      rw [Scroll.measured_beginFrame] at measured
      obtain ⟨e', there', agrees⟩ := before measured entry old exposed
      rw [there, Option.some.injEq] at there'
      subst there'
      exact ⟨e, there, agrees.of_top (fun le above => Nat.lt_of_lt_of_le above le) below⟩

/-- No frame reaches further down than the page as a whole, and the first one reaches as far. -/
theorem position_frame_le (settings : PageSettings) (d : Document) (scroll : Scroll) (entries : List Focus.Entry) :
    (steps (windowOf settings scroll entries) d.located {}).2.position ≤ d.height := by
  have whole := congrArg Cursor.position (steps_whole_geometry (windowOf settings scroll entries) d).2
  exact Nat.le_trans (position_steps_le_whole d.located {}) (Nat.le_of_eq whole)

theorem position_first_frame (settings : PageSettings) (d : Document) {scroll : Scroll}
    (unmeasured : scroll.measured = false) (entries : List Focus.Entry) :
    (steps (windowOf settings scroll entries) d.located {}).2.position = d.height := by
  have whole := congrArg Cursor.position (steps_whole_geometry (windowOf settings scroll entries) d).2
  have full : (windowOf settings scroll entries).whole = windowOf settings scroll entries := by
    simp [Window.whole, windowOf, unmeasured]
  rwa [full] at whole

/-- The height on record is that of the page once it is measured, and nothing before. -/
def Gauges (scroll : Scroll) (d : Document) : Prop := scroll.height = if scroll.measured then d.height else 0

section

variable {scroll : Scroll} {d : Document} (gauges : Gauges scroll d)

include gauges

theorem finishLayout_of_measured (settings : PageSettings) (entries : List Focus.Entry)
    (measured : scroll.measured = true) :
    scroll.finishLayout (steps (windowOf settings scroll entries) d.located {}).2.position = scroll := by
  have reach := position_frame_le settings d scroll entries
  rw [Gauges, measured, if_pos rfl] at gauges
  rw [Scroll.finishLayout, gauges, Nat.max_eq_left reach, ← gauges, ← measured]

theorem finishLayout_of_not_measured (settings : PageSettings) (entries : List Focus.Entry)
    (unmeasured : scroll.measured = false) :
    scroll.finishLayout (steps (windowOf settings scroll entries) d.located {}).2.position =
      { scroll with height := d.height, measured := true } := by
  rw [Gauges, unmeasured, if_neg Bool.false_ne_true] at gauges
  rw [Scroll.finishLayout, gauges, position_first_frame settings d unmeasured, Nat.zero_max]

theorem gauges_beginFrame : Gauges scroll.beginFrame d := by
  rw [Gauges, Scroll.height_beginFrame, Scroll.measured_beginFrame]
  exact gauges

end

/-- Complete or not, a frame leaves on record what is known of the height. -/
theorem gauges_paint (settings : PageSettings) {d : Document} {scroll : Scroll} (display : δ)
    (gauges : Gauges scroll d)
    (entries : List Focus.Entry) : Gauges (paint settings d scroll entries display).scroll d := by
  rcases scroll_paint_cases settings d scroll entries display with ⟨-, moved⟩ | ⟨-, moved⟩
  · rw [moved]
    cases measured : scroll.beginFrame.measured with
    | true =>
      rw [finishLayout_of_measured (gauges_beginFrame gauges) settings entries measured]
      exact gauges_beginFrame gauges
    | false =>
      rw [finishLayout_of_not_measured (gauges_beginFrame gauges) settings entries measured]
      rfl
  · rw [moved]
    exact gauges_beginFrame gauges

end Layout

namespace Scroll

/-- The same window on the same page, whatever is selected and wherever it is going. -/
structure Alike (s t : Scroll) : Prop where
  offset : s.offset = t.offset
  viewport : s.viewport = t.viewport
  height : s.height = t.height
  measured : s.measured = t.measured

theorem alike_clamp (s : Scroll) : s.clamp.Alike s :=
  ⟨s.offset_clamp, s.viewport_clamp, s.height_clamp, s.measured_clamp⟩

theorem alike_nudge (s : Scroll) (distance : Int) : (s.nudge distance).Alike s := by
  obtain ⟨offset, viewport, height, measured⟩ := alike_clamp { s with target := s.target + distance }
  exact ⟨offset, viewport, height, measured⟩

theorem alike_focus (s : Scroll) (index : Nat) (extent : Extent) : (s.focus index extent).Alike s := by
  unfold focus
  dsimp only
  split
  · exact ⟨rfl, rfl, rfl, rfl⟩
  · obtain ⟨offset, viewport, height, measured⟩ :=
      alike_clamp { s with selected? := some index, target := extent.top }
    exact ⟨offset, viewport, height, measured⟩

theorem Moves.alike {s t : Scroll} {entries : List Focus.Entry} (moves : s.Moves entries t) : t.Alike s := by
  cases moves with
  | stay => exact ⟨rfl, rfl, rfl, rfl⟩
  | focus => exact alike_focus _ _ _
  | nudge distance => exact alike_nudge _ _

end Scroll

namespace Session

/-- The session after a frame. -/
def paint {δ : Type} [Display δ] (s : Session) (settings : PageSettings) (d : Document) (display : δ) : Session :=
  let painted := Layout.paint settings d s.scroll s.entries display
  { s with scroll := painted.scroll, entries := painted.entries }

/-- The frame is not broken off. -/
def Completes {δ : Type} [Display δ] (s : Session) (settings : PageSettings) (d : Document) (display : δ) : Prop :=
  (Layout.paint settings d s.scroll s.entries display).outcome = .ok ()

theorem alike_apply (s : Session) (d : Document) (c : Command) : (s.apply d c).scroll.Alike s.scroll :=
  (s.moves_apply d c).alike

/-- What is known of a page: all of its height once it is measured, and nothing before, and extents that agree with
the true ones down to the lower edge of the window. -/
structure Surveys (s : Session) (d : Document) : Prop where
  indexes : s.Indexes d
  height : s.scroll.height = if s.scroll.measured then d.height else 0
  extents : s.scroll.measured → Focus.Surveyed d s.entries (s.scroll.bottom < ·)

theorem surveys_resetForLoad (s : Session) (d : Document) : (s.resetForLoad d).Surveys d :=
  ⟨indexes_resetForLoad s d, rfl, fun measured => by cases measured⟩

theorem surveys_refresh (s : Session) (d : Document) : (s.refresh d).Surveys d :=
  ⟨indexes_refresh s d, rfl, fun measured => by cases measured⟩

namespace Surveys

variable {s : Session} {d : Document} (surveys : s.Surveys d)

include surveys

theorem apply (c : Command) : (s.apply d c).Surveys d := by
  obtain ⟨offset, viewport, height, measured⟩ := alike_apply s d c
  refine ⟨surveys.indexes.apply c, ?_, ?_⟩
  · rw [height, measured, surveys.height]
  · rw [measured, entries_apply, Scroll.bottom, offset, viewport]
    exact surveys.extents

theorem paint (represents : d.Represents d.located) {δ : Type} [Display δ] {settings : PageSettings} {display : δ}
    (complete : s.Completes settings d display) : (s.paint settings d display).Surveys d := by
  have rebuilt := surveys.indexes.nodes
  rw [represents.map_node_index] at rebuilt
  have after : (s.paint settings d display).scroll = _ := Layout.scroll_paint complete
  refine ⟨surveys.indexes.paint settings display, ?_, fun _ => ?_⟩
  · exact Layout.gauges_paint settings display surveys.height s.entries
  · rw [after]
    exact Layout.surveyed_paint represents rebuilt surveys.extents complete

end Surveys

/-- What commands and complete frames make of a session while its page stays as it is. -/
inductive Runs (d : Document) : Session → Session → Prop
  | refl (s : Session) : Runs d s s
  | command {s t : Session} (c : Command) : Runs d s t → Runs d s (t.apply d c)
  | frame {s t : Session} {δ : Type} [Display δ] (settings : PageSettings) (display : δ) : Runs d s t →
      t.Completes settings d display → Runs d s (t.paint settings d display)

theorem Surveys.runs {d : Document} (represents : d.Represents d.located) {s t : Session} (surveys : s.Surveys d)
    (runs : Runs d s t) : t.Surveys d := by
  induction runs with
  | refl => exact surveys
  | command c _ ih => exact ih.apply c
  | frame settings display _ complete ih => exact ih.paint represents complete

theorem measured_paint {s : Session} {settings : PageSettings} {d : Document} {δ : Type} [Display δ] {display : δ}
    (complete : s.Completes settings d display) : (s.paint settings d display).scroll.measured = true := by
  have after : (s.paint settings d display).scroll = _ := Layout.scroll_paint complete
  rw [after]
  rfl

theorem Runs.measured {d : Document} {s t : Session} (runs : Runs d s t) (measured : s.scroll.measured) :
    t.scroll.measured := by
  induction runs with
  | refl => exact measured
  | @command t c _ ih =>
    rw [(alike_apply t d c).measured]
    exact ih
  | frame settings display _ complete _ => exact measured_paint complete

/-- From a complete frame on, whatever commands and complete frames follow, a session has the height of its page and
the extents of what is laid out as a frame without a cutoff gives them. Only a container may end too high on record,
and whether an entry shows is answered as its true extent would answer. -/
theorem geometry_from_first_frame {d : Document} (reachable : d.Reachable) {first s t : Session}
    (fresh : ∃ any : Session, first = any.resetForLoad d ∨ first = any.refresh d) (before : Runs d first s) {δ : Type}
    [Display δ] {settings : PageSettings} {display : δ} (complete : s.Completes settings d display)
    (onward : Runs d (s.paint settings d display) t) :
    t.scroll.height = d.height ∧
      ∀ entry ∈ t.entries, d.Exposed entry.node →
        ∃ e node, d.extent? entry.node = some e ∧ d.get? entry.node = some node ∧ entry.extent.top = e.top ∧
          (node.content.kind.isContainer = false → entry.extent.bottom = e.bottom) ∧
          entry.extent.bottom ≤ e.bottom ∧
          entry.extent.isVisible t.scroll.offset t.scroll.viewport =
            e.isVisible t.scroll.offset t.scroll.viewport := by
  have represents := reachable.represents
  have start : first.Surveys d := by
    obtain ⟨any, rfl | rfl⟩ := fresh
    · exact surveys_resetForLoad any d
    · exact surveys_refresh any d
  have surveys : t.Surveys d := ((start.runs represents before).paint represents complete).runs represents onward
  have measured : t.scroll.measured = true := onward.measured (measured_paint complete)
  refine ⟨by rw [surveys.height, if_pos measured], fun entry member exposed => ?_⟩
  obtain ⟨e, there, agrees⟩ := surveys.extents measured entry member exposed
  have listed : entry.node ∈ d.located.focusable := by
    rw [← represents.map_node_index, ← surveys.indexes.nodes]
    exact List.mem_map_of_mem member
  obtain ⟨node, found, -⟩ := (represents.mem_focusable_iff entry.node).mp listed
  refine ⟨e, node, there, found, agrees.top, fun closed => ?_, agrees.bottom_le, agrees.isVisible_eq⟩
  refine agrees.bottom.resolve_right ?_
  rintro ⟨⟨other, same, container⟩, -⟩
  rw [found, Option.some.injEq] at same
  rw [← same, closed] at container
  cases container

end Session

/-- A panel without a limit takes every request. -/
theorem Layout.carryOut_panel (todo : List Step) (entries : List Focus.Entry) {panel : Panel}
    (unlimited : panel.supply? = none) : (carryOut todo entries panel).1 = .ok () := by
  induction todo generalizing entries panel with
  | nil => rfl
  | cons step todo ih =>
    cases step with
    | draw op =>
      have taken : Display.draw op panel = (.ok (), { panel with ops := Panel.record op panel.ops }) := by
        simp only [Display.draw, Panel.draw, Panel.spend, unlimited]
      simp only [carryOut, taken]
      exact ih entries unlimited
    | mark place node extent => exact ih _ unlimited

theorem Session.completes_panel (s : Session) (settings : PageSettings) (d : Document) {panel : Panel}
    (unlimited : panel.supply? = none) : s.Completes settings d panel := by
  rw [Completes, (Layout.paint_frame settings d s.scroll s.entries panel).1]
  exact Layout.carryOut_panel _ _ unlimited

/-- The page moves down to a link below a division that can be selected. On record the division ends where the frame
passed the rest of it over. -/
theorem Session.geometry_from_first_frame_moving :
    let line := fun rest => Forest.node (Content.text ["line"]) .nil rest
    let link := fun rest => Forest.node { kind := .link, selectable := true, lines := ["on"] } .nil rest
    let division := Forest.node { kind := .container, selectable := true } (link (line^[9] .nil)) (link .nil)
    let d := Document.ofForest (.single { kind := .body } division)
    let panel : Panel := { width := 320, height := 170 }
    let first := (Session.ofSettings {}).resetForLoad d
    let s := first.apply d .selectNext
    let t := (((s.paint {} d panel).apply d .selectNext).apply d .selectNext).paint {} d panel
    (d.Reachable ∧ Runs d first s ∧ s.Completes {} d panel ∧ Runs d (s.paint {} d panel) t) ∧
      (t.scroll.offset = 23 ∧ t.entries.map Focus.Entry.extent = [⟨0, 176⟩, ⟨4, 22⟩, ⟨224, 242⟩]) ∧
      t.scroll.height = d.height ∧
      ∀ entry ∈ t.entries, d.Exposed entry.node →
        ∃ e node, d.extent? entry.node = some e ∧ d.get? entry.node = some node ∧ entry.extent.top = e.top ∧
          (node.content.kind.isContainer = false → entry.extent.bottom = e.bottom) ∧
          entry.extent.bottom ≤ e.bottom ∧
          entry.extent.isVisible t.scroll.offset t.scroll.viewport =
            e.isVisible t.scroll.offset t.scroll.viewport := by
  intro line link division d panel first s t
  have reachable : d.Reachable := .ofForest _
  have before : Runs d first s := .command _ (.refl _)
  have complete : s.Completes {} d panel := completes_panel _ _ _ rfl
  have onward : Runs d (s.paint {} d panel) t :=
    .frame {} panel (.command _ (.command _ (.refl _))) (completes_panel _ _ _ rfl)
  exact ⟨⟨reachable, before, complete, onward⟩, by decide +kernel,
    geometry_from_first_frame reachable ⟨_, .inl rfl⟩ before complete onward⟩

end PocketReader
