import PocketReader.Display.Panel
import PocketReader.Proofs.Layout.Rows
import PocketReader.Proofs.Reader.History
import PocketReader.Proofs.Reader.Index
import PocketReader.Proofs.Script.Confined
import PocketReader.Proofs.Session.Survey
import PocketReader.Storage.Memory

/-! Where an idle reader comes to rest. Its session always has the height of the page in place, once the page is
measured, whatever scripts made of it and however many frames were broken off. So from the first complete frame on the
target is clamped against the true height, each tick takes the offset on towards it, and when it is reached every tick
is like the one before. -/
namespace PocketReader

open PocketReader.Layout (Gauges)
open PocketReader.Script (Engine)

/-- Displays of some kind take every request, and are of this kind afterwards. -/
structure Display.Takes {δ : Type} [Display δ] (willing : δ → Prop) : Prop where
  draw : ∀ op display, willing display →
    (Display.draw op display).1 = .ok () ∧ willing (Display.draw op display).2
  flush : ∀ display, willing display → (Display.flush display).1 = .ok () ∧ willing (Display.flush display).2

theorem Panel.takes : Display.Takes fun p : Panel => p.ready = true ∧ p.supply? = none where
  draw := by
    rintro op p ⟨ready, unlimited⟩
    simp only [Display.draw, Panel.draw, Panel.spend, unlimited, ready, and_self]
  flush := by
    rintro p ⟨ready, unlimited⟩
    simp only [Display.flush, Panel.flush, Panel.spend, unlimited, ready, if_true, and_self]

namespace Layout

variable {δ : Type} [Display δ]

theorem send_takes {willing : δ → Prop} (takes : Display.Takes willing) (ops : List DrawOp) {display : δ}
    (here : willing display) : ∃ next, send ops display = (.ok (), next) ∧ willing next := by
  induction ops generalizing display with
  | nil => exact ⟨display, rfl, here⟩
  | cons op ops ih =>
    obtain ⟨taken, still⟩ := takes.draw op display here
    rcases answer : Display.draw op display with ⟨outcome, next⟩
    rw [answer] at taken still
    subst taken
    simp only [send, answer]
    exact ih still

theorem send_append {first second : List DrawOp} {display next : δ} {last : Except DisplayError Unit × δ}
    (taken : send first display = (.ok (), next)) (onward : send second next = last) :
    send (first ++ second) display = last := by
  induction first generalizing display with
  | nil =>
    cases taken
    exact onward
  | cons op first ih =>
    rcases answer : Display.draw op display with ⟨outcome, after⟩
    simp only [send, answer, List.cons_append] at taken ⊢
    cases outcome with
    | ok => exact ih taken
    | error e => cases taken

end Layout

namespace Session

theorem gauges_handle {s : Session} {d : Document} (gauges : Gauges s.scroll d) (event : ButtonEvent) :
    Gauges (s.handle d event).2.scroll d := by
  unfold handle
  split
  · exact gauges
  · rename_i command _
    obtain ⟨-, -, height, measured⟩ := alike_apply s d command
    dsimp only
    rw [Gauges, height, measured]
    exact gauges

theorem gauges_handleAll {s : Session} {d : Document} (gauges : Gauges s.scroll d) (events : List ButtonEvent) :
    Gauges (events.foldl (fun s event => (s.handle d event).2) s).scroll d := by
  induction events generalizing s with
  | nil => exact gauges
  | cons event events ih => exact ih (gauges_handle gauges event)

end Session

namespace Reader

variable {δ σ γ : Type}

/-- Its session has the height of the page in place, as far as it is known. -/
def Gauged (r : Reader δ σ γ) : Prop := Gauges r.session.scroll r.document

/-- What scripts did is noticed: the session is made anew for the page they changed, or they left the page as it
is. -/
theorem Stages.noticed [Engine γ] [Engine.Terminating γ] (confined : Engine.Confined γ) {r t : Reader δ σ γ}
    (stages : r.Stages t) :
    t.refreshIfMutated.session = r.session.refresh t.refreshIfMutated.document ∨
      t.refreshIfMutated.session = r.session ∧ t.refreshIfMutated.document = r.document := by
  have kept : (∃ context, t.script? = some context ∧ context.mutated = true) ∨ t.document = r.document := by
    induction stages with
    | refl => exact .inr rfl
    | @tail before _ _ stage ih =>
      cases stage with
      | warning w => exact ih
      | @scripts act job =>
        unfold withScripts
        split
        · exact ih
        · rename_i context found
          have after := job.recorded confined (before.world context)
          rcases after.kept with changed | same
          · exact .inl ⟨_, rfl, changed⟩
          · refine ih.imp ?_ same.trans
            rintro ⟨old, there, changed⟩
            rw [found, Option.some.injEq] at there
            subst there
            exact ⟨_, rfl, after.lasting changed⟩
  unfold refreshIfMutated
  split
  · exact .inl (congrArg (fun s => s.refresh t.document) stages.session)
  · rename_i unnoticed
    rcases kept with ⟨⟨memory, mutated⟩, found, changed⟩ | same
    · dsimp only at changed
      subst changed
      exact absurd found (unnoticed memory)
    · exact .inr ⟨stages.session, same⟩

theorem gauged_start (setup : Setup) (display : δ) (files : σ) : (start γ setup display files).Gauged := rfl

namespace Gauged

variable {r : Reader δ σ γ} (gauged : r.Gauged)

include gauged

theorem stages [Engine γ] [Engine.Terminating γ] (confined : Engine.Confined γ) {t : Reader δ σ γ}
    (stages : r.Stages t) :
    t.refreshIfMutated.Gauged := by
  rcases stages.noticed confined with anew | ⟨session, document⟩
  · rw [Gauged, anew]
    rfl
  · rw [Gauged, session, document]
    exact gauged

theorem load [Storage σ] [Engine γ] [Engine.Terminating γ] (visit : Visit) : (r.load visit).2.Gauged := by
  rcases r.load_cases visit with ⟨cause, load⟩ | ⟨forest, load⟩
  · rw [load]
    exact gauged
  · rw [load, Gauged, scroll_enter]
    rfl

theorem drain : r.drain.2.Gauged := Session.gauges_handleAll gauged _

theorem draw [Display δ] : r.draw.2.Gauged := by
  refine draw_keeps (P := Gauged) (fun _ _ before => before) ?_ gauged
  intro t before
  unfold drawPage
  split
  · exact Layout.gauges_paint t.settings t.display before t.session.entries
  · exact before

variable [Storage σ] [Engine γ] [Engine.Terminating γ] (confined : Engine.Confined γ)

include confined

theorem act : r.act.Gauged := by
  refine act_keeps (P := Gauged) gauged ?_ ?_ ?_
  · intro t source before
    exact before.stages confined (stages_runSnippet _ _ _)
  · intro t visit before
    exact before.load visit
  · intro t cause before
    exact before

theorem perform [Display δ] (operation : Operation δ σ) : (r.perform operation).Gauged := by
  cases operation with
  | goTo path => exact gauged.load { path }
  | drain => exact gauged.drain
  | tick => exact (gauged.drain.act confined).draw
  | request | publish | outside => exact gauged

end Gauged

/-- A page is shown, no event waits to be heard, and nothing is asked for. -/
structure Idle (r : Reader δ σ γ) : Prop where
  loaded : r.loaded = true
  unheard : r.queue.events = []
  pending : r.session.navigation.pending? = none
  callback : r.session.navigation.callback? = none

/-- What the next frame asks of the display while a page is shown. -/
def requests (r : Reader δ σ γ) : List DrawOp :=
  .screen .background :: Layout.draws (Layout.frame r.settings r.document r.session.scroll r.session.entries) ++
    Layout.statusBar r.settings r.title

section

variable [Storage σ] [Engine γ] [Engine.Terminating γ]

theorem Idle.act_drain {r : Reader δ σ γ} (idle : r.Idle) : r.drain.2.act = r := by
  have unchanged : r.drain.2 = r := by
    have queue : r.queue = {} := congrArg EventQueue.mk idle.unheard
    rw [drain, idle.unheard, List.foldl_nil, ← queue]
  have taken : r.session.navigation.take = (none, r.session.navigation) := by
    have free : { r.session.navigation with callback? := none } = r.session.navigation := by rw [← idle.callback]
    rw [Navigation.take_of_no_pending idle.pending, idle.callback, free]
    rfl
  rw [unchanged, act, taken]

end

/-- On a display that takes every request a frame goes through. -/
theorem draw_takes [Display δ] {willing : δ → Prop} (takes : Display.Takes willing) {r : Reader δ σ γ}
    (loaded : r.loaded = true) (here : willing r.display) :
    ∃ between : δ, r.session.Completes r.settings r.document between ∧
      willing (Display.flush (Layout.send r.requests r.display).2).2 ∧
      r.draw = (.ok (),
        { r with
          display := (Display.flush (Layout.send r.requests r.display).2).2
          session := r.session.paint r.settings r.document between }) := by
  obtain ⟨blank, background, still⟩ := Layout.send_takes takes [.screen .background] here
  obtain ⟨shown, page, drawn⟩ := Layout.send_takes takes
    (Layout.draws (Layout.frame r.settings r.document r.session.scroll r.session.entries)) still
  obtain ⟨barred, bar, last⟩ := Layout.send_takes takes (Layout.statusBar r.settings r.title) drawn
  have sent : Layout.send r.requests r.display = (.ok (), barred) :=
    Layout.send_append (Layout.send_append background page) bar
  rw [Layout.send_paint, Prod.mk.injEq] at page
  obtain ⟨complete, painted⟩ := page
  obtain ⟨flushed, after⟩ := takes.flush barred last
  rw [sent]
  refine ⟨blank, complete, after, ?_⟩
  simp only [draw, send, background, drawPage, loaded, if_true, complete, painted, bar, flush, flushed]
  rfl

/-- Where the next complete frame leaves the position on the page. -/
def settled (r : Reader δ σ γ) : Scroll :=
  if r.session.scroll.measured then r.session.scroll.beginFrame
  else { r.session.scroll with height := r.document.height, measured := true }

theorem measured_settled (r : Reader δ σ γ) : r.settled.measured = true := by
  unfold settled
  split
  · rename_i measured
    rw [Scroll.measured_beginFrame, measured]
  · rfl

/-- Where the position is going once the page is measured, by a frame that settles it. -/
theorem offset_settled (r : Reader δ σ γ) :
    r.settled.offset = r.session.scroll.offset ∨
      r.settled.offset = Scroll.approach r.session.scroll.offset r.settled.clamp.target.toNat := by
  unfold settled
  split
  · rename_i measured
    right
    have clamped : ({ r.session.scroll.clamp with
        offset :=
          Scroll.approach r.session.scroll.clamp.offset r.session.scroll.clamp.target.toNat } : Scroll).Clamped :=
      r.session.scroll.clamped_clamp
    rw [Scroll.beginFrame, if_pos measured]
    dsimp only
    rw [clamped.clamp_eq, Scroll.offset_clamp]
  · exact .inl rfl

theorem Gauged.scroll_paint [Display δ] {r : Reader δ σ γ} (gauged : r.Gauged) {display : δ}
    (complete : r.session.Completes r.settings r.document display) :
    (r.session.paint r.settings r.document display).scroll = r.settled := by
  rw [Session.paint, Layout.scroll_paint complete, settled]
  cases measured : r.session.scroll.measured with
  | true =>
    have before : r.session.scroll.beginFrame.measured = true := r.session.scroll.measured_beginFrame.trans measured
    rw [Layout.finishLayout_of_measured (Layout.gauges_beginFrame gauged) r.settings r.session.entries before,
      if_pos rfl]
  | false =>
    rw [Scroll.beginFrame_of_not_measured measured,
      Layout.finishLayout_of_not_measured gauged r.settings r.session.entries measured, if_neg Bool.false_ne_true]

/-- The same page as shown by another frame: the display may differ, the position, and the extents on record. -/
structure Still (r t : Reader δ σ γ) : Prop where
  frame : ∃ display scroll entries, t = { r with display, session := { r.session with scroll, entries } }
  nodes : t.session.entries.map Focus.Entry.node = r.session.entries.map Focus.Entry.node

namespace Still

variable {r t : Reader δ σ γ} (still : r.Still t)

include still

theorem idle (idle : r.Idle) : t.Idle := by
  obtain ⟨⟨_, _, _, rfl⟩, -⟩ := still
  exact ⟨idle.loaded, idle.unheard, idle.pending, idle.callback⟩

theorem trans {u : Reader δ σ γ} (onward : t.Still u) : r.Still u := by
  obtain ⟨⟨_, _, _, rfl⟩, nodes⟩ := still
  obtain ⟨⟨display, scroll, entries, rfl⟩, after⟩ := onward
  exact ⟨⟨display, scroll, entries, rfl⟩, after.trans nodes⟩

/-- What a frame asks for depends on the position, and on the list only through the node that is selected. -/
theorem requests_eq (same : t.session.scroll = r.session.scroll) : t.requests = r.requests := by
  have window : Layout.windowOf r.settings t.session.scroll.beginFrame t.session.entries =
      Layout.windowOf r.settings r.session.scroll.beginFrame r.session.entries := by
    simp only [Layout.windowOf, Scroll.selectedNode?, same, ← List.getElem?_map, still.nodes]
  obtain ⟨⟨_, _, _, rfl⟩, -⟩ := still
  dsimp only at window
  simp only [requests, Layout.frame, window]

end Still

section

variable [Display δ] [Storage σ] [Engine γ] [Engine.Terminating γ]

/-- The reader after a number of ticks with nothing in between. -/
def after (r : Reader δ σ γ) (n : Nat) : Reader δ σ γ := (fun r => r.tick.2)^[n] r

theorem after_succ (r : Reader δ σ γ) (n : Nat) : r.after (n + 1) = (r.after n).tick.2 :=
  Function.iterate_succ_apply' _ n r

/-- An idle tick on a display that takes every request draws the frame, and lets the position settle. -/
theorem Idle.tick {willing : δ → Prop} (takes : Display.Takes willing) {r : Reader δ σ γ} (idle : r.Idle)
    (gauged : r.Gauged) (here : willing r.display) :
    r.tick.1 = .ok () ∧ r.tick.2.display = (Display.flush (Layout.send r.requests r.display).2).2 ∧
      r.tick.2.session.scroll = r.settled ∧ r.Still r.tick.2 ∧ r.tick.2.Gauged ∧ willing r.tick.2.display := by
  have ticked : r.tick = r.draw := congrArg Reader.draw idle.act_drain
  have known := gauged.draw
  obtain ⟨between, complete, last, drawn⟩ := draw_takes takes idle.loaded here
  rw [drawn] at known
  rw [ticked, drawn]
  exact ⟨rfl, rfl, gauged.scroll_paint complete, ⟨⟨_, _, _, rfl⟩, Layout.map_node_paint _ _ _ _ _⟩, known, last⟩

section

variable {willing : δ → Prop} (takes : Display.Takes willing) {r : Reader δ σ γ} (idle : r.Idle) (gauged : r.Gauged)
  (here : willing r.display)

include takes idle gauged here

/-- While nothing comes up, the same page stays on the display. -/
theorem still_after (n : Nat) : r.Still (r.after n) ∧ (r.after n).Gauged ∧ willing (r.after n).display := by
  induction n with
  | zero => exact ⟨⟨⟨r.display, r.session.scroll, r.session.entries, rfl⟩, rfl⟩, gauged, here⟩
  | succ n ih =>
    obtain ⟨still, known, last⟩ := ih
    obtain ⟨-, -, -, ticked, after⟩ := (still.idle idle).tick takes known last
    rw [after_succ]
    exact ⟨still.trans ticked, after⟩

theorem tick_after (n : Nat) :
    (r.after n).tick.1 = .ok () ∧
      (r.after (n + 1)).display = (Display.flush (Layout.send (r.after n).requests (r.after n).display).2).2 ∧
      (r.after (n + 1)).session.scroll = (r.after n).settled ∧ (r.after n).Still (r.after (n + 1)) := by
  obtain ⟨still, known, last⟩ := still_after takes idle gauged here n
  obtain ⟨taken, shown, scroll, ticked, -⟩ := (still.idle idle).tick takes known last
  rw [after_succ]
  exact ⟨taken, shown, scroll, ticked⟩

/-- After the first tick the page is measured, and every tick begins a frame. -/
theorem scroll_after (n : Nat) : (r.after (n + 1)).session.scroll = Scroll.beginFrame^[n] r.settled := by
  have measured : ∀ n, (Scroll.beginFrame^[n] r.settled).measured = true := by
    intro n
    induction n with
    | zero => exact r.measured_settled
    | succ n ih => rw [Function.iterate_succ_apply', Scroll.measured_beginFrame, ih]
  induction n with
  | zero => exact (tick_after takes idle gauged here 0).2.2.1
  | succ n ih =>
    rw [(tick_after takes idle gauged here (n + 1)).2.2.1, Reader.settled, ih, measured, if_pos rfl,
      Function.iterate_succ_apply']

end

/-- Ticks with nothing in between take the offset to a goal that is so far away when the first of them is over. -/
structure ComesToRest (r : Reader δ σ γ) (goal far : Nat) : Prop where
  /-- Every tick draws a whole frame. -/
  drawn : ∀ n, (r.after n).tick.1 = .ok () ∧
    (r.after (n + 1)).display = (Display.flush (Layout.send (r.after n).requests (r.after n).display).2).2
  moves : ∀ n,
    let before := (r.after n).session.scroll.offset
    let next := (r.after (n + 1)).session.scroll.offset
    before ≤ next ∧ next ≤ goal ∨ goal ≤ next ∧ next ≤ before
  /-- Three ticks for each binary digit, and one more that may be needed to clamp the target. -/
  rests : ∀ n, 3 * Nat.size far + 1 ≤ n →
    (r.after (n + 1)).session.scroll.offset = goal ∧
      (r.after (n + 2)).session.scroll = (r.after (n + 1)).session.scroll ∧
      (r.after (n + 2)).requests = (r.after (n + 1)).requests

/-- While a page is shown, no event comes, and nothing is asked for, the display comes to rest. The offset goes on
towards the target as clamped after the first tick, and never past it; when it is there, the position and the frames
stay the same. -/
theorem comes_to_rest (confined : Engine.Confined γ) {willing : δ → Prop} (takes : Display.Takes willing)
    (setup : Setup) (display : δ) (files : σ) (operations : List (Operation δ σ)) :
    let r := (start γ setup display files).run operations
    r.Idle → willing r.display →
      let first := (r.after 1).session.scroll
      let goal := (max 0 (min first.target first.limit)).toNat
      r.ComesToRest goal (Nat.dist first.offset goal) := by
  intro r idle here first goal
  have gauged : r.Gauged :=
    run_keeps (fun _ operation before => before.perform confined operation)
      (gauged_start setup display files) operations
  have settled : first = r.settled := scroll_after takes idle gauged here 0
  have measured : first.measured = true := by rw [settled, r.measured_settled]
  have target : first.clamp.target.toNat = goal := congrArg Int.toNat first.target_clamp
  have scroll : ∀ n, (r.after (n + 1)).session.scroll = Scroll.beginFrame^[n] first := by
    rw [settled]
    exact scroll_after takes idle gauged here
  have moved : ∀ n, (r.after (n + 1)).session.scroll.offset =
      (fun offset => Scroll.approach offset goal)^[n] first.offset := by
    intro n
    rw [← target, ← Scroll.offset_iterate_beginFrame measured, ← scroll]
  refine ⟨fun n => ?_, fun n => ?_, fun n long => ?_⟩
  · obtain ⟨taken, shown, -⟩ := tick_after takes idle gauged here n
    exact ⟨taken, shown⟩
  · cases n with
    | zero =>
      -- The first tick moves nothing when it is the one that measures the page.
      have after := r.offset_settled
      rw [← settled, target] at after
      rcases after with same | towards
      · rw [Nat.zero_add, show (r.after 1).session.scroll.offset = r.session.scroll.offset from same]
        exact (Nat.le_total r.session.scroll.offset goal).imp
          (fun le => ⟨Nat.le_refl _, le⟩) fun le => ⟨le, Nat.le_refl _⟩
      · rw [Nat.zero_add, show (r.after 1).session.scroll.offset =
          Scroll.approach r.session.scroll.offset goal from towards]
        exact Scroll.approach_between _ goal
    | succ n =>
      rw [moved (n + 1), moved n, Function.iterate_succ_apply' _ n]
      exact Scroll.approach_between _ goal
  · obtain ⟨m, rfl⟩ : ∃ m, n = m + 1 := ⟨n - 1, by omega⟩
    have rest : ∀ k, m ≤ k → (r.after (k + 2)).session.scroll = { first.clamp with offset := goal } := by
      intro k later
      rw [← target] at long ⊢
      rw [scroll, Scroll.iterate_beginFrame_of_long measured (by omega)]
    have same : (r.after (m + 3)).session.scroll = (r.after (m + 2)).session.scroll := by
      rw [rest (m + 1) (Nat.le_succ m), rest m (Nat.le_refl m)]
    obtain ⟨-, -, -, still⟩ := tick_after takes idle gauged here (m + 2)
    exact ⟨congrArg Scroll.offset (rest m (Nat.le_refl m)), same, still.requests_eq same⟩

end

/-- A page is moved down by a step, and the button for the previous entry is heard before it got there. -/
theorem comes_to_rest_turned :
    let page := "<h1>one</h1><h1>two</h1><h1>three</h1>"
    let files := Storage.Memory.insert {} "/a.3ml" page.toUTF8
    let setup : Setup := { settings := { height := 60, scrollStep := 50 } }
    let panel : Panel := { width := 320, height := 60 }
    let operations :=
      [.goTo "/a.3ml", .tick, .publish ⟨.next, .click⟩, .tick, .tick, .publish ⟨.previous, .click⟩, .drain]
    let r := (start Script.Heap setup panel files).run operations
    let first := (r.after 1).session.scroll
    let goal := (max 0 (min first.target first.limit)).toNat
    (Engine.Confined Script.Heap ∧ r.Idle ∧ r.display.ready = true ∧ r.display.supply? = none) ∧
      (r.session.scroll.offset = 23 ∧ first.offset = 17 ∧ goal = 0) ∧
      r.ComesToRest goal (Nat.dist first.offset goal) := by
  intro page files setup panel operations r first goal
  have idle : r.Idle := by constructor <;> decide +kernel
  have ready : r.display.ready = true ∧ r.display.supply? = none := by decide +kernel
  refine ⟨⟨Script.confined_heap, idle, ready⟩, by decide +kernel, ?_⟩
  with_reducible exact comes_to_rest Script.confined_heap Panel.takes setup panel files operations idle ready

end Reader
end PocketReader
