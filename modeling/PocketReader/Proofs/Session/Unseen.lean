import PocketReader.Proofs.Session

/-! What is left of a session when nobody sees the page: which entries there are, which one is selected, and what is
asked for. Commands, frames and changes of the page make of this what they make of it with all that was seen, so where
the entries are, and where the page stands, decides nothing but what shows. -/
namespace PocketReader

/-- The entry without a place. -/
def Focus.Entry.unseen (entry : Focus.Entry) : Focus.Entry := { node := entry.node }

theorem Focus.map_unseen_index (d : Document) : (Focus.index d).map Focus.Entry.unseen = Focus.index d := by
  rw [Focus.index, List.map_map]
  rfl

theorem Focus.map_unseen_congr {entries others : List Focus.Entry}
    (same : entries.map Focus.Entry.node = others.map Focus.Entry.node) :
    entries.map Focus.Entry.unseen = others.map Focus.Entry.unseen := by
  have remade := congrArg (List.map fun h => ({ node := h } : Focus.Entry)) same
  rw [List.map_map, List.map_map] at remade
  exact remade

namespace Scroll

/-- The selection, and what is set for all pages. -/
def unseen (s : Scroll) : Scroll := { viewport := s.viewport, step := s.step, selected? := s.selected? }

@[simp] theorem unseen_clamp (s : Scroll) : s.clamp.unseen = s.unseen := by
  unfold clamp
  split
  · rfl
  · split <;> rfl

@[simp] theorem unseen_nudge (s : Scroll) (distance : Int) : (s.nudge distance).unseen = s.unseen := unseen_clamp _

@[simp] theorem unseen_focus (s : Scroll) (index : Nat) (extent : Extent) :
    (s.focus index extent).unseen = { s.unseen with selected? := some index } := by
  unfold focus
  dsimp only
  split
  · rfl
  · exact unseen_clamp _

@[simp] theorem unseen_beginFrame (s : Scroll) : s.beginFrame.unseen = s.unseen := by
  unfold beginFrame
  split
  · exact unseen_clamp s
  · rfl

/-- Whether there is a next entry is all that decides where the selection goes. -/
theorem unseen_next (s : Scroll) (entries : List Focus.Entry) :
    (s.next entries).unseen =
      if s.following < entries.length then { s.unseen with selected? := some s.following } else s.unseen := by
  unfold next
  split
  · rename_i entry there
    rw [if_pos (List.getElem?_eq_some_iff.mp there).1, unseen_focus]
  · rename_i past
    rw [if_neg (Nat.not_lt.mpr (List.getElem?_eq_none_iff.mp past)), unseen_nudge]

theorem unseen_previous (s : Scroll) (entries : List Focus.Entry) :
    (s.previous entries).unseen =
      match s.selected? with
      | some (i + 1) => if i < entries.length then { s.unseen with selected? := some i } else s.unseen
      | _ => s.unseen := by
  unfold previous
  match s.selected? with
  | none | some 0 => exact unseen_nudge _ _
  | some (i + 1) =>
    dsimp only
    split
    · rename_i entry there
      rw [if_pos (List.getElem?_eq_some_iff.mp there).1, unseen_focus]
    · rename_i past
      rw [if_neg (Nat.not_lt.mpr (List.getElem?_eq_none_iff.mp past)), unseen_nudge]

theorem unseen_next_unseen (s : Scroll) (entries : List Focus.Entry) :
    (s.unseen.next (entries.map Focus.Entry.unseen)).unseen = (s.next entries).unseen := by
  rw [unseen_next, unseen_next, List.length_map]
  rfl

theorem unseen_previous_unseen (s : Scroll) (entries : List Focus.Entry) :
    (s.unseen.previous (entries.map Focus.Entry.unseen)).unseen = (s.previous entries).unseen := by
  rw [unseen_previous, unseen_previous, List.length_map]
  rfl

end Scroll

theorem Layout.unseen_paint {δ : Type} [Display δ] (settings : PageSettings) (d : Document) (scroll : Scroll)
    (entries : List Focus.Entry) (display : δ) :
    (Layout.paint settings d scroll entries display).scroll.unseen = scroll.unseen := by
  rcases result : Layout.carryOut (Layout.frame settings d scroll entries) entries display with
    ⟨outcome, changed, next⟩
  rw [Layout.frame] at result
  cases outcome with
  | ok => simp only [Layout.paint, result]; exact Scroll.unseen_beginFrame scroll
  | error e => simp only [Layout.paint, result, Scroll.unseen_beginFrame]

namespace Session

def unseen (s : Session) : Session :=
  { s with scroll := s.scroll.unseen, entries := s.entries.map Focus.Entry.unseen }

theorem selectedNode?_unseen (s : Session) : s.unseen.selectedNode? = s.selectedNode? := by
  simp only [selectedNode?, Scroll.selectedNode?, unseen, Scroll.unseen, List.getElem?_map, Option.map_map]
  rfl

theorem map_node_unseen (s : Session) : s.unseen.entries.map Focus.Entry.node = s.entries.map Focus.Entry.node := by
  rw [unseen, List.map_map]
  rfl

theorem unseen_congr {s t : Session} (scroll : s.scroll.unseen = t.scroll.unseen)
    (navigation : s.navigation = t.navigation)
    (nodes : s.entries.map Focus.Entry.node = t.entries.map Focus.Entry.node) : s.unseen = t.unseen := by
  rw [unseen, unseen, scroll, navigation, Focus.map_unseen_congr nodes]

theorem unseen_unseen (s : Session) : s.unseen.unseen = s.unseen := unseen_congr rfl rfl s.map_node_unseen

theorem unseen_apply (s : Session) (d : Document) (command : Command) :
    (s.unseen.apply d command).unseen = (s.apply d command).unseen := by
  have nodes : (s.unseen.apply d command).entries.map Focus.Entry.node =
      (s.apply d command).entries.map Focus.Entry.node := by
    rw [entries_apply, entries_apply, map_node_unseen]
  cases command with
  | selectPrevious => exact unseen_congr (s.scroll.unseen_previous_unseen s.entries) rfl nodes
  | selectNext => exact unseen_congr (s.scroll.unseen_next_unseen s.entries) rfl nodes
  | interact =>
    refine unseen_congr rfl ?_ nodes
    rw [apply, apply, selectedNode?_unseen]
    rfl
  | goBack => exact unseen_congr rfl rfl nodes

theorem unseen_handle (s : Session) (d : Document) (event : ButtonEvent) :
    (s.unseen.handle d event).2.unseen = (s.handle d event).2.unseen := by
  unfold handle
  split
  · exact unseen_congr rfl rfl s.map_node_unseen
  · exact s.unseen_apply d _

/-- Of two sessions in which the same is left unseen, the same is left after any events. -/
theorem unseen_handleAll {s t : Session} (same : s.unseen = t.unseen) (d : Document) (events : List ButtonEvent) :
    (events.foldl (fun session event => (session.handle d event).2) s).unseen =
      (events.foldl (fun session event => (session.handle d event).2) t).unseen := by
  induction events generalizing s t with
  | nil => exact same
  | cons event events ih =>
    apply ih
    rw [← unseen_handle s, ← unseen_handle t, same]

theorem unseen_resetForLoad (s : Session) (d : Document) : (s.resetForLoad d).unseen = s.unseen.resetForLoad d := by
  rw [resetForLoad, resetForLoad, unseen, Focus.map_unseen_index]
  rfl

theorem unseen_refresh (s : Session) (d : Document) : (s.refresh d).unseen = s.unseen.refresh d := by
  rw [refresh, refresh, unseen, Focus.map_unseen_index, selectedNode?_unseen]
  rfl

theorem unseen_paint {δ : Type} [Display δ] (s : Session) (settings : PageSettings) (d : Document) (display : δ) :
    ({ s with
      scroll := (Layout.paint settings d s.scroll s.entries display).scroll
      entries := (Layout.paint settings d s.scroll s.entries display).entries } : Session).unseen = s.unseen :=
  unseen_congr (Layout.unseen_paint settings d s.scroll s.entries display) rfl
    (Layout.map_node_paint settings d s.scroll s.entries display)

end Session
end PocketReader
