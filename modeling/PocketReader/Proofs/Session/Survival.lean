import PocketReader.Proofs.Page.Issued
import PocketReader.Proofs.Session

/-! The focus on a page that changes in place. A node that is in no removed tree keeps its handle and its content and
so its place among the selectable nodes, and the focus goes to that place. The handle of a node that was removed finds
nothing as long as there are fewer replacements than generations, also when its slot has another tenant by then, so
the focus stays as close to where it was as the new index allows. -/
namespace PocketReader

namespace Document

def replaceAll (d : Document) (replacements : List Replacement) : Document :=
  replacements.foldl (fun d r => (d.replaceChildren? r.parent r.forest).getD d) d

/-- The node of a handle is in a tree that one of the replacements removes. -/
def Removes : Document → List Replacement → Handle → Prop
  | _, [], _ => False
  | d, r :: rest, h =>
    h ∈ (d.located.under r.parent).handles ∨ Removes ((d.replaceChildren? r.parent r.forest).getD d) rest h

instance decidableRemoves : (d : Document) → (replacements : List Replacement) → (h : Handle) →
    Decidable (d.Removes replacements h)
  | _, [], _ => inferInstanceAs (Decidable False)
  | d, r :: rest, h =>
    have := decidableRemoves ((d.replaceChildren? r.parent r.forest).getD d) rest h
    inferInstanceAs (Decidable (h ∈ (d.located.under r.parent).handles ∨ _))

theorem Reachable.replaceAll {d : Document} (reachable : d.Reachable) (replacements : List Replacement) :
    (d.replaceAll replacements).Reachable := by
  induction replacements generalizing d with
  | nil => exact reachable
  | cons r rest ih => exact ih (.replace r.parent r.forest reachable)

theorem Reachable.get?_replaceAll_of_kept {d : Document} (reachable : d.Reachable) {replacements : List Replacement}
    {h : Handle} {node : Node} (found : d.get? h = some node) (kept : ¬ d.Removes replacements h) :
    ∃ next, (d.replaceAll replacements).get? h = some next ∧ next.content = node.content := by
  induction replacements generalizing d node with
  | nil => exact ⟨node, found, rfl⟩
  | cons r rest ih =>
    rw [Removes, not_or] at kept
    obtain ⟨next, still, content⟩ := reachable.get?_of_kept r.forest found kept.1
    obtain ⟨last, there, same⟩ := ih (.replace r.parent r.forest reachable) still kept.2
    exact ⟨last, there, same.trans content⟩

/-- The slot of a handle has gone on, by so many generations at most. -/
def GoneOn (d : Document) (h : Handle) (count : Nat) : Prop :=
  ∃ k, 0 < k ∧ k ≤ count ∧ d.generation? h.index = some (h.generation + UInt32.ofNat k)

theorem GoneOn.mono {d : Document} {h : Handle} {count more : Nat} (gone : d.GoneOn h count) (le : count ≤ more) :
    d.GoneOn h more := by
  obtain ⟨k, positive, bound, there⟩ := gone
  exact ⟨k, positive, Nat.le_trans bound le, there⟩

theorem GoneOn.get?_eq_none {d : Document} {h : Handle} {count : Nat} (gone : d.GoneOn h count)
    (few : count < UInt32.size) : d.get? h = none := by
  cases found : d.get? h with
  | none => rfl
  | some node =>
    -- So few steps do not bring the generation round to where it was.
    obtain ⟨k, positive, bound, there⟩ := gone
    rw [generation?_of_get? found, Option.some.injEq] at there
    have around : h.generation.toNat = (h.generation.toNat + k % UInt32.size) % UInt32.size := by
      have := congrArg UInt32.toNat there
      rwa [UInt32.toNat_add, UInt32.toNat_ofNat'] at this
    have := h.generation.toNat_lt
    simp only [UInt32.size] at few around
    omega

theorem GoneOn.replace {d : Document} {h : Handle} {count : Nat} (gone : d.GoneOn h count) (p : Handle)
    (forest : Forest Content) : ((d.replaceChildren? p forest).getD d).GoneOn h (count + 1) := by
  obtain ⟨k, positive, bound, there⟩ := gone
  have turned := d.turned_replaceChildren? p forest h.index
  rw [there] at turned
  generalize after : ((d.replaceChildren? p forest).getD d).generation? h.index = generation? at turned
  cases turned with
  | same => exact ⟨k, positive, Nat.le_succ_of_le bound, after⟩
  | next =>
    refine ⟨k + 1, Nat.succ_pos k, Nat.succ_le_succ bound, after.trans ?_⟩
    rw [UInt32.ofNat_add, UInt32.add_assoc]
    rfl

theorem GoneOn.replaceAll {d : Document} {h : Handle} {count : Nat} (gone : d.GoneOn h count)
    (replacements : List Replacement) : (d.replaceAll replacements).GoneOn h (count + replacements.length) := by
  induction replacements generalizing d count with
  | nil => exact gone
  | cons r rest ih =>
    have next := ih (gone.replace r.parent r.forest)
    rwa [Nat.add_right_comm] at next

theorem Reachable.goneOn_of_removed {d : Document} (reachable : d.Reachable) {replacements : List Replacement}
    {h : Handle} (removed : d.Removes replacements h) :
    (d.replaceAll replacements).GoneOn h replacements.length := by
  induction replacements generalizing d with
  | nil => exact removed.elim
  | cons r rest ih =>
    rcases removed with below | later
    · have first : ((d.replaceChildren? r.parent r.forest).getD d).GoneOn h 1 :=
        ⟨1, Nat.one_pos, Nat.le_refl 1, reachable.generation?_of_removed r.forest below⟩
      have last := first.replaceAll rest
      rwa [Nat.add_comm] at last
    · exact (ih (.replace r.parent r.forest reachable) later).mono (Nat.le_succ _)

end Document

namespace Scroll

theorem selected?_resetLayout_of_kept {s : Scroll} {i count kept : Nat} (selected : s.selected? = some i)
    (inside : kept < count) : (s.resetLayout count (some kept)).selected? = some kept := by
  simp only [resetLayout, reselect, selected, Option.bind_some, Option.filter_some, decide_eq_true inside, if_true]

theorem selected?_resetLayout_of_lost {s : Scroll} {i : Nat} (selected : s.selected? = some i) (count : Nat) :
    (s.resetLayout count none).selected? = if count = 0 then none else some (min i (count - 1)) := by
  simp only [resetLayout, reselect, selected, Option.bind_some, Option.filter_none]

end Scroll

namespace Session

open Document (Replacement)

/-- A selected node that is among the new entries is selected at its place, which is the only one it has. -/
theorem refresh_of_listed {s : Session} {d : Document} (represents : d.Represents d.located) {i : Nat} {h : Handle}
    (selected : s.scroll.selected? = some i) (focused : s.selectedNode? = some h) (listed : h ∈ d.located.focusable) :
    (s.refresh d).selectedNode? = some h ∧
      ∃ j, (s.refresh d).scroll.selected? = some j ∧
        ∀ k, ((s.refresh d).entries[k]?).map Focus.Entry.node = some h ↔ k = j := by
  have nodup : ((Focus.index d).map Focus.Entry.node).Nodup := by
    rw [represents.map_node_index]
    exact represents.nodup_focusable
  rw [← represents.map_node_index] at listed
  obtain ⟨entry, member, node⟩ := List.mem_map.mp listed
  have met : ((Focus.index d).findIdx? (·.node == h)).isSome := by
    rw [List.findIdx?_isSome, List.any_eq_true]
    exact ⟨entry, member, beq_iff_eq.mpr node⟩
  obtain ⟨j, kept⟩ := Option.isSome_iff_exists.mp met
  obtain ⟨inside, same, -⟩ := List.findIdx?_eq_some_iff_getElem.mp kept
  have there : ((Focus.index d).map Focus.Entry.node)[j]? = some h := by
    rw [List.getElem?_map, List.getElem?_eq_getElem inside, Option.map_some, eq_of_beq same]
  have now : (s.refresh d).scroll.selected? = some j := by
    rw [refresh, focused, Option.bind_some, kept]
    exact Scroll.selected?_resetLayout_of_kept selected inside
  -- No handle is listed twice, so the first place at which it is found is the only one.
  refine ⟨?_, j, now, fun k => ?_⟩
  · rw [selectedNode?, Scroll.selectedNode?, now, Option.bind_some, ← List.getElem?_map]
    exact there
  · rw [← List.getElem?_map]
    change ((Focus.index d).map Focus.Entry.node)[k]? = some h ↔ k = j
    rw [← there, eq_comm, List.getElem?_inj (List.getElem?_eq_some_iff.mp there).1 nodup, eq_comm]

/-- One that is not among them leaves the selection where it was, as far as there are entries. -/
theorem selected?_refresh_of_unlisted {s : Session} {d : Document} (represents : d.Represents d.located) {i : Nat}
    {h : Handle} (selected : s.scroll.selected? = some i) (focused : s.selectedNode? = some h)
    (unlisted : h ∉ d.located.focusable) :
    (s.refresh d).scroll.selected? =
      if (s.refresh d).entries.length = 0 then none else some (min i ((s.refresh d).entries.length - 1)) := by
  have absent : (Focus.index d).findIdx? (·.node == h) = none := by
    rw [List.findIdx?_eq_none_iff]
    intro entry member
    rw [← represents.map_node_index] at unlisted
    exact beq_false_of_ne fun same => unlisted (same ▸ List.mem_map_of_mem member)
  rw [refresh, focused, Option.bind_some, absent]
  exact Scroll.selected?_resetLayout_of_lost selected _

/-- Fewer replacements than generations, and the session made anew for what has become of the page: a focused node
that is in no removed tree is focused where it is now, and where one was removed the focus stays at its place or as
close to it as there are entries, whatever may have moved into its slot. The page stays where it is and is to be
measured again. -/
theorem focus_survives {d : Document} (reachable : d.Reachable) {s : Session}
    (indexed : s.entries.map Focus.Entry.node = (Focus.index d).map Focus.Entry.node)
    (replacements : List Replacement) (few : replacements.length < UInt32.size) :
    let last := d.replaceAll replacements
    let t := s.refresh last
    t.entries = Focus.index last ∧
    (s.scroll.selected? = none → t.scroll.selected? = none) ∧
    (∀ i h, s.scroll.selected? = some i → s.selectedNode? = some h →
      (¬ d.Removes replacements h →
        t.selectedNode? = some h ∧
          ∃ j, t.scroll.selected? = some j ∧ ∀ k, (t.entries[k]?).map Focus.Entry.node = some h ↔ k = j) ∧
      (d.Removes replacements h →
        t.scroll.selected? = if t.entries.length = 0 then none else some (min i (t.entries.length - 1)))) ∧
    (t.scroll.offset = s.scroll.offset ∧ t.scroll.target = s.scroll.target) ∧
    t.scroll.height = 0 ∧ t.scroll.measured = false := by
  intro last t
  have represents := (reachable.replaceAll replacements).represents
  refine ⟨rfl, fun none => ?_, fun i h selected focused => ⟨fun kept => ?_, fun removed => ?_⟩, ⟨rfl, rfl⟩, rfl, rfl⟩
  · change (s.scroll.resetLayout _ _).selected? = _
    rw [Scroll.resetLayout, none, Option.bind_none]
  · have listed : h ∈ d.located.focusable := by
      rw [selectedNode?, Scroll.selectedNode?, selected, Option.bind_some, ← List.getElem?_map, indexed,
        reachable.represents.map_node_index] at focused
      exact List.mem_of_getElem? focused
    obtain ⟨node, found, selectable⟩ := (reachable.represents.mem_focusable_iff h).mp listed
    obtain ⟨next, still, content⟩ := reachable.get?_replaceAll_of_kept found kept
    refine refresh_of_listed represents selected focused ((represents.mem_focusable_iff h).mpr ⟨next, still, ?_⟩)
    rw [content, selectable]
  · have gone := (reachable.goneOn_of_removed removed).get?_eq_none few
    refine selected?_refresh_of_unlisted represents selected focused fun listed => ?_
    obtain ⟨node, found, -⟩ := (represents.mem_focusable_iff h).mp listed
    rw [gone] at found
    cases found

/-- Of three links in a division the last has the focus. They are removed, and in the end another link has the slot of
this one. The link below the division would have kept the focus, and moved up with it. -/
theorem focus_survives_refilled :
    let link := fun rest => Forest.node { kind := .link, selectable := true, lines := ["on"] } .nil rest
    let text := Forest.single (Content.text ["line"]) .nil
    let division := Forest.node { kind := .container } (link (link (link .nil)))
    let d := Document.ofForest (.single { kind := .body } (division (link .nil)))
    let replacements : List Replacement := [⟨⟨3, 0⟩, text ++ text⟩, ⟨⟨3, 0⟩, text ++ link text⟩]
    let last := d.replaceAll replacements
    let s := fun i : Nat => { (Session.ofSettings {}).resetForLoad d with
      scroll := { viewport := 150, step := 40, offset := 20, target := 80, selected? := some i } }
    (d.Reachable ∧ replacements.length < UInt32.size) ∧
      (Focus.index last).map Focus.Entry.node = [⟨2, 2⟩, ⟨4, 0⟩] ∧
      ((s 2).selectedNode? = some ⟨2, 0⟩ ∧ d.Removes replacements ⟨2, 0⟩) ∧
      ((s 2).refresh last).scroll.selected? = some 1 ∧
      ((s 3).selectedNode? = some ⟨4, 0⟩ ∧ ¬ d.Removes replacements ⟨4, 0⟩) ∧
      ((s 3).refresh last).selectedNode? = some ⟨4, 0⟩ := by
  intro link text division d replacements last s
  have reachable : d.Reachable := .ofForest _
  have few : replacements.length < UInt32.size := by decide
  have gone : (s 2).selectedNode? = some ⟨2, 0⟩ ∧ d.Removes replacements ⟨2, 0⟩ := by decide
  have here : (s 3).selectedNode? = some ⟨4, 0⟩ ∧ ¬ d.Removes replacements ⟨4, 0⟩ := by decide
  obtain ⟨-, -, removed, -⟩ := focus_survives (s := s 2) reachable rfl replacements few
  obtain ⟨-, -, kept, -⟩ := focus_survives (s := s 3) reachable rfl replacements few
  refine ⟨⟨reachable, few⟩, by decide, gone, ?_, here, ((kept 3 ⟨4, 0⟩ rfl here.1).1 here.2).1⟩
  exact ((removed 2 ⟨2, 0⟩ rfl gone.1).2 gone.2).trans (by decide)

end Session
end PocketReader
