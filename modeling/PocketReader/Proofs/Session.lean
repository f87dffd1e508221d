import PocketReader.Layout.Paint
import PocketReader.Proofs.Layout.Marks
import PocketReader.Proofs.Scroll
import PocketReader.Session

/-! What a session keeps true of its index. The index has the selectable nodes of the document in reading order, and
the selection is a place in it: commands and frames leave the nodes as they are and move the selection only to places
that are there, and an index made anew brings its own selection. -/
namespace PocketReader

namespace Scroll

@[simp] theorem selected?_clamp (s : Scroll) : s.clamp.selected? = s.selected? := by
  unfold clamp
  split
  · rfl
  · split <;> rfl

@[simp] theorem selected?_nudge (s : Scroll) (distance : Int) : (s.nudge distance).selected? = s.selected? :=
  selected?_clamp _

@[simp] theorem selected?_focus (s : Scroll) (index : Nat) (extent : Extent) :
    (s.focus index extent).selected? = some index := by
  unfold focus
  dsimp only
  split
  · rfl
  · exact selected?_clamp _

/-- What commands make of a scroll position: it stays, an entry takes the focus, or the page moves on. -/
inductive Moves (s : Scroll) (entries : List Focus.Entry) : Scroll → Prop
  | stay : Moves s entries s
  | focus {i : Nat} {entry : Focus.Entry} : entries[i]? = some entry → Moves s entries (s.focus i entry.extent)
  | nudge (distance : Int) : Moves s entries (s.nudge distance)

theorem moves_next (s : Scroll) (entries : List Focus.Entry) : s.Moves entries (s.next entries) := by
  unfold next
  split
  · rename_i there
    exact .focus there
  · exact .nudge _

theorem moves_previous (s : Scroll) (entries : List Focus.Entry) : s.Moves entries (s.previous entries) := by
  unfold previous
  split
  · split
    · rename_i there
      exact .focus there
    · exact .nudge _
  · exact .nudge _

/-- After a change in place the selection is among the new entries, wherever it was before. -/
theorem lt_of_selected?_resetLayout {s : Scroll} {count : Nat} {kept? : Option Nat} {i : Nat}
    (selected : (s.resetLayout count kept?).selected? = some i) : i < count := by
  simp only [resetLayout, reselect, Option.bind_eq_some_iff] at selected
  obtain ⟨old, -, new⟩ := selected
  split at new
  · rename_i kept found
    have inside := (Option.filter_eq_some_iff.mp found).2
    cases new
    exact of_decide_eq_true inside
  · split at new
    · cases new
    · cases new
      omega

end Scroll

/-- A frame moves the page, and not the selection. -/
theorem Layout.selected?_paint {δ : Type} [Display δ] (settings : PageSettings) (d : Document) (scroll : Scroll)
    (entries : List Focus.Entry) (display : δ) :
    (Layout.paint settings d scroll entries display).scroll.selected? = scroll.selected? := by
  rcases Layout.scroll_paint_cases settings d scroll entries display with ⟨-, moved⟩ | ⟨-, moved⟩
  · rw [moved, Scroll.finishLayout, Scroll.selected?_beginFrame]
  · rw [moved, Scroll.selected?_beginFrame]

/-- A frame, complete or not, changes extents and leaves the nodes. -/
theorem Layout.map_node_paint {δ : Type} [Display δ] (settings : PageSettings) (d : Document) (scroll : Scroll)
    (entries : List Focus.Entry) (display : δ) :
    (Layout.paint settings d scroll entries display).entries.map Focus.Entry.node = entries.map Focus.Entry.node := by
  obtain ⟨-, painted⟩ := Layout.paint_frame settings d scroll entries display
  obtain ⟨changed, -, -⟩ := Layout.carryOut_eq_noted (Layout.frame settings d scroll entries) entries display
  rw [painted, changed, Layout.map_node_foldl]

namespace Session

theorem moves_apply (s : Session) (d : Document) (c : Command) : s.scroll.Moves s.entries (s.apply d c).scroll := by
  cases c with
  | selectPrevious => exact s.scroll.moves_previous s.entries
  | selectNext => exact s.scroll.moves_next s.entries
  | interact | goBack => exact .stay

@[simp] theorem entries_apply (s : Session) (d : Document) (c : Command) : (s.apply d c).entries = s.entries := by
  cases c <;> rfl

/-- The index is the one of the document, and the selection is a place in it. -/
structure Indexes (s : Session) (d : Document) : Prop where
  nodes : s.entries.map Focus.Entry.node = (Focus.index d).map Focus.Entry.node
  selected : ∀ i, s.scroll.selected? = some i → i < s.entries.length

theorem indexes_resetForLoad (s : Session) (d : Document) : (s.resetForLoad d).Indexes d :=
  ⟨rfl, fun _ selected => by cases selected⟩

theorem indexes_refresh (s : Session) (d : Document) : (s.refresh d).Indexes d :=
  ⟨rfl, fun _ selected => Scroll.lt_of_selected?_resetLayout selected⟩

namespace Indexes

variable {s : Session} {d : Document} (indexes : s.Indexes d)

include indexes

theorem apply (command : Command) : (s.apply d command).Indexes d := by
  refine ⟨(congrArg _ (entries_apply s d command)).trans indexes.nodes, ?_⟩
  intro i selected
  rw [entries_apply]
  generalize after : (s.apply d command).scroll = scroll at selected
  have moves := s.moves_apply d command
  rw [after] at moves
  cases moves with
  | stay => exact indexes.selected i selected
  | focus there =>
    rw [Scroll.selected?_focus, Option.some.injEq] at selected
    rw [← selected]
    exact (List.getElem?_eq_some_iff.mp there).1
  | nudge distance =>
    rw [Scroll.selected?_nudge] at selected
    exact indexes.selected i selected

theorem handle (event : ButtonEvent) : (s.handle d event).2.Indexes d := by
  unfold Session.handle
  split
  · exact indexes
  · exact indexes.apply _

theorem handleAll (events : List ButtonEvent) :
    (events.foldl (fun session event => (session.handle d event).2) s).Indexes d := by
  induction events generalizing s with
  | nil => exact indexes
  | cons event events ih => exact ih (indexes.handle event)

/-- A frame, complete or not, changes extents and the scroll position only. -/
theorem paint {δ : Type} [Display δ] (settings : PageSettings) (display : δ) :
    ({ s with
      scroll := (Layout.paint settings d s.scroll s.entries display).scroll
      entries := (Layout.paint settings d s.scroll s.entries display).entries } : Session).Indexes d := by
  have nodes := Layout.map_node_paint settings d s.scroll s.entries display
  refine ⟨nodes.trans indexes.nodes, fun i selected => ?_⟩
  rw [Layout.selected?_paint] at selected
  have same := congrArg List.length nodes
  rw [List.length_map, List.length_map] at same
  exact Nat.lt_of_lt_of_eq (indexes.selected i selected) same.symm

/-- The selected node is there, and it can be selected. -/
theorem selected_found (represents : d.Represents d.located) {i : Nat} (selected : s.scroll.selected? = some i) :
    ∃ entry node, s.entries[i]? = some entry ∧ d.get? entry.node = some node ∧ node.content.selectable = true := by
  have inside := indexes.selected i selected
  obtain ⟨entry, there⟩ : ∃ entry, s.entries[i]? = some entry := ⟨_, List.getElem?_eq_getElem inside⟩
  have listed : entry.node ∈ d.located.focusable := by
    rw [← represents.map_node_index, ← indexes.nodes]
    exact List.mem_map_of_mem (List.mem_of_getElem? there)
  obtain ⟨node, found, selectable⟩ := (represents.mem_focusable_iff entry.node).mp listed
  exact ⟨entry, node, there, found, selectable⟩

end Indexes
end Session
end PocketReader
