import PocketReader.Display.Panel
import PocketReader.Proofs.Reader.Run
import PocketReader.Proofs.Reader.Stages
import PocketReader.Proofs.Script.Confined
import PocketReader.Proofs.Script.Record
import PocketReader.Proofs.Session
import PocketReader.Storage.Memory

/-! The index of a reader follows its document. Scripts change the document without the session hearing of it, but
each change is on record, and before an operation ends the index is made anew if one is. -/
namespace PocketReader

open PocketReader.Script (Engine World Recorded)

theorem Script.Job.recorded {γ : Type} [Engine γ] [Engine.Terminating γ] (confined : Engine.Confined γ)
    {act : World γ → World γ} (job : Job act) (w : World γ) : Recorded w (act w) := by
  obtain ⟨chance, source, ran | ⟨cause, warned⟩⟩ := job.cases w
  · rw [ran]
    exact (Recorded.note w _).trans (recorded_evaluate confined chance _ source)
  · rw [warned]
    exact ((Recorded.note w _).trans (recorded_evaluate confined chance _ source)).trans (.note _ _)

namespace Reader

variable {δ σ γ : Type}

/-- The index is that of the document, and no change of the document is on record. -/
structure Settled (r : Reader δ σ γ) : Prop where
  reachable : r.document.Reachable
  indexes : r.session.Indexes r.document
  unchanged : ∀ context, r.script? = some context → context.mutated = false

/-- While scripts run: the index is that of the document, or a change is on record. -/
structure Stirred (r : Reader δ σ γ) : Prop where
  reachable : r.document.Reachable
  indexes : (∃ context, r.script? = some context ∧ context.mutated = true) ∨ r.session.Indexes r.document

theorem Settled.stirred {r : Reader δ σ γ} (settled : r.Settled) : r.Stirred :=
  ⟨settled.reachable, .inr settled.indexes⟩

theorem settled_start (setup : Setup) (display : δ) (files : σ) : (start γ setup display files).Settled :=
  ⟨.ofForest .nil, ⟨rfl, fun _ selected => by cases selected⟩, fun _ found => by cases found⟩

namespace Stirred

variable {r : Reader δ σ γ} (stirred : r.Stirred)

include stirred

theorem withScripts {act : World γ → World γ} (recorded : ∀ w, Recorded w (act w)) : (r.withScripts act).Stirred := by
  unfold Reader.withScripts
  split
  · exact stirred
  · rename_i context found
    have after := recorded (r.world context)
    refine ⟨after.reachable stirred.reachable, ?_⟩
    rcases after.kept with changed | same
    · exact .inl ⟨_, rfl, changed⟩
    · rcases stirred.indexes with ⟨old, there, changed⟩ | indexes
      · rw [found, Option.some.injEq] at there
        subst there
        exact .inl ⟨_, rfl, after.lasting changed⟩
      · refine .inr ?_
        dsimp only at same ⊢
        rw [same]
        exact indexes

theorem note (entry : LogEntry) : (r.note entry).Stirred := ⟨stirred.reachable, stirred.indexes⟩

/-- Scripts may be missing, may be no scripts, or may fail after they changed the page. -/
theorem stages [Engine γ] [Engine.Terminating γ] (confined : Engine.Confined γ) {t : Reader δ σ γ}
    (stages : r.Stages t) : t.Stirred := by
  induction stages with
  | refl => exact stirred
  | tail _ stage ih =>
    cases stage with
    | scripts job => exact ih.withScripts (job.recorded confined)
    | warning w => exact ih.note _

theorem refreshIfMutated : r.refreshIfMutated.Settled := by
  unfold Reader.refreshIfMutated
  split
  · refine ⟨stirred.reachable, Session.indexes_refresh _ _, fun context found => ?_⟩
    rw [Option.some.injEq] at found
    exact found ▸ rfl
  · rename_i unchanged
    have seen : ∀ context, r.script? = some context → context.mutated = false := by
      rintro ⟨heap, mutated⟩ found
      cases mutated with
      | false => rfl
      | true => exact absurd found (unchanged heap)
    refine ⟨stirred.reachable, ?_, seen⟩
    rcases stirred.indexes with ⟨context, found, changed⟩ | indexes
    · rw [seen context found] at changed
      cases changed
    · exact indexes

end Stirred

/-- A page that is put in place is indexed at once, whatever the page before was left in. -/
theorem settled_replacePage (r : Reader δ σ γ) (visit : Visit) (forest : Forest Content) :
    (r.replacePage visit forest).Settled := by
  refine ⟨.ofForest forest, ?_, fun _ found => by cases found⟩
  obtain ⟨nodes, selected⟩ := Session.indexes_resetForLoad r.session (Document.ofForest forest)
  exact ⟨nodes, selected⟩

theorem Settled.startScripts [Engine γ] [Engine.Terminating γ] {r : Reader δ σ γ} (settled : r.Settled) :
    r.startScripts.Settled := by
  unfold Reader.startScripts
  split
  · refine ⟨settled.reachable, settled.indexes, fun context found => ?_⟩
    have fresh : Script.Context.fresh (r.chances r.log.length) = context := Option.some.inj found
    rw [← fresh]
    rfl
  · exact ⟨settled.reachable, settled.indexes, fun _ found => by cases found⟩

theorem settled_enter [Storage σ] [Engine γ] [Engine.Terminating γ] (confined : Engine.Confined γ) (r : Reader δ σ γ)
    (visit : Visit) (forest : Forest Content) : (r.enter visit forest).Settled := by
  obtain ⟨last, stages, entered⟩ := r.enter_stages visit forest
  rw [entered]
  exact ((settled_replacePage r visit forest).startScripts.stirred.stages confined stages).refreshIfMutated

namespace Settled

variable {r : Reader δ σ γ} (settled : r.Settled)

include settled

theorem withSession {session : Session} (indexes : session.Indexes r.document) :
    ({ r with session } : Reader δ σ γ).Settled :=
  ⟨settled.reachable, indexes, settled.unchanged⟩

theorem load [Storage σ] [Engine γ] [Engine.Terminating γ] (confined : Engine.Confined γ) (visit : Visit) :
    (r.load visit).2.Settled := by
  unfold Reader.load
  split
  · exact settled
  · split
    · exact settled
    · exact settled_enter confined _ _ _

theorem act [Storage σ] [Engine γ] [Engine.Terminating γ] (confined : Engine.Confined γ) : r.act.Settled := by
  refine act_keeps (settled.withSession ⟨settled.indexes.nodes, settled.indexes.selected⟩) ?_ ?_ ?_
  · intro t source before
    exact (before.stirred.stages confined (stages_runSnippet _ _ _)).refreshIfMutated
  · intro t visit before
    exact before.load confined visit
  · intro t cause before
    exact ⟨before.reachable, before.indexes, before.unchanged⟩

theorem drain : r.drain.2.Settled :=
  ⟨settled.reachable, settled.indexes.handleAll _, settled.unchanged⟩

theorem withDisplay (display : δ) : ({ r with display } : Reader δ σ γ).Settled :=
  ⟨settled.reachable, settled.indexes, settled.unchanged⟩

section

variable [Display δ]

theorem send (ops : List DrawOp) : (r.send ops).2.Settled := settled.withDisplay _

theorem drawPage : r.drawPage.2.Settled := by
  unfold Reader.drawPage
  split
  · exact ⟨settled.reachable, settled.indexes.paint r.settings r.display, settled.unchanged⟩
  · exact settled

/-- A frame keeps the index wherever it is broken off. -/
theorem draw : r.draw.2.Settled :=
  draw_keeps (fun _ display before => before.withDisplay display) (fun _ before => before.drawPage) settled

variable [Storage σ] [Engine γ] [Engine.Terminating γ] (confined : Engine.Confined γ)

include confined

theorem tick : r.tick.2.Settled := (settled.drain.act confined).draw

theorem perform (operation : Operation δ σ) : (r.perform operation).Settled := by
  cases operation with
  | goTo path => exact settled.load confined _
  | request path => exact settled.withSession ⟨settled.indexes.nodes, settled.indexes.selected⟩
  | publish event => exact ⟨settled.reachable, settled.indexes, settled.unchanged⟩
  | drain => exact settled.drain
  | tick => exact settled.tick confined
  | outside display files obstacle? => exact ⟨settled.reachable, settled.indexes, settled.unchanged⟩

end
end Settled

/-- The index is the one made from the document, the selection is a place in it, and what has the focus is there. -/
structure Indexed (r : Reader δ σ γ) : Prop where
  reachable : r.document.Reachable
  rebuilt : r.session.entries.map Focus.Entry.node = (Focus.index r.document).map Focus.Entry.node
  /-- These are the selectable nodes of the trees, in reading order. -/
  preorder : r.session.entries.map Focus.Entry.node =
    (r.document.located.preorder.filter (·.content.selectable)).map Located.handle
  selected : ∀ i, r.session.scroll.selected? = some i → i < r.session.entries.length
  focused : ∀ i, r.session.scroll.selected? = some i → ∃ h node, r.session.selectedNode? = some h ∧
    r.document.get? h = some node ∧ node.content.selectable = true

theorem Settled.indexed {r : Reader δ σ γ} (settled : r.Settled) : r.Indexed := by
  have represents := settled.reachable.represents
  refine ⟨settled.reachable, settled.indexes.nodes, ?_, settled.indexes.selected, fun i selected => ?_⟩
  · rw [settled.indexes.nodes, represents.map_node_index]
    rfl
  · obtain ⟨entry, node, there, found, selectable⟩ := settled.indexes.selected_found represents selected
    refine ⟨entry.node, node, ?_, found, selectable⟩
    rw [Session.selectedNode?, Scroll.selectedNode?, selected, Option.bind_some, there, Option.map_some]

section

variable [Display δ] [Storage σ] [Engine γ] [Engine.Terminating γ]

/-- The reader as it is when the next tick comes to draw the page: the buttons are heard, a request is met, and the
screen is filled. -/
def painting (r : Reader δ σ γ) : Reader δ σ γ := (r.drain.2.act.send [.screen .background]).2

/-- After any run the index is the one of the document, and so it is whenever a tick that follows draws the page. -/
theorem indexed_run (confined : Engine.Confined γ) (setup : Setup) (display : δ) (files : σ)
    (operations : List (Operation δ σ)) :
    ((start γ setup display files).run operations).Indexed ∧
      ((start γ setup display files).run operations).painting.Indexed := by
  have settled : ((start γ setup display files).run operations).Settled :=
    run_keeps (fun _ operation before => before.perform confined operation) (settled_start setup display files)
      operations
  have met := settled.drain.act confined
  exact ⟨settled.indexed, (met.send [.screen .background]).indexed⟩

end

/-- A link is selected and followed, and on the page it leads to a button inside a link is selected. -/
theorem indexed_run_after_link :
    let index := "<h1>Top</h1><a href=\"/next.3ml\">on</a>".toUTF8
    let next := "<body><a>one<button>in</button></a><button>two</button></body>".toUTF8
    let files := (Storage.Memory.insert {} "/index.3ml" index).insert "/next.3ml" next
    let panel : Panel := { width := 320, height := 170 }
    let operations := [.goTo "/index.3ml", .publish ⟨.next, .click⟩, .tick, .publish ⟨.next, .hold⟩, .tick,
      .publish ⟨.next, .click⟩, .drain, .publish ⟨.next, .click⟩]
    let r := (start Script.Heap {} panel files).run operations
    Engine.Confined Script.Heap ∧
      (r.session.scroll.selected? = some 0 ∧ r.painting.session.scroll.selected? = some 1 ∧
        r.painting.session.entries.map (·.node.index) = [3, 2, 5]) ∧
      r.Indexed ∧ r.painting.Indexed := by
  intro index next files panel operations r
  obtain ⟨now, later⟩ := indexed_run Script.confined_heap {} panel files operations
  exact ⟨Script.confined_heap, by decide +kernel, now, later⟩

end Reader
end PocketReader
