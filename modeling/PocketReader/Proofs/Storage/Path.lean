import Mathlib.Data.List.Basic
import PocketReader.Storage.Path

/-! Paths by their pieces. Slashes in front say nothing, and a name that is pushed to a path is one more step at its
end. -/
namespace PocketReader.Storage.Path

/-- A text that is one step of a path, down to what has this name. -/
structure Named (name : String) : Prop where
  whole : '/' ∉ name.toList
  nonempty : name ≠ ""
  not_here : name ≠ "."
  not_up : name ≠ ".."

theorem not_mem_of_mem_splitOn {cs piece : List Char} (h : piece ∈ cs.splitOn '/') : '/' ∉ piece := by
  induction cs generalizing piece with
  | nil =>
    rw [List.splitOn_nil, List.mem_singleton] at h
    simp [h]
  | cons c cs ih =>
    obtain ⟨first, rest, split⟩ := List.exists_cons_of_ne_nil (List.splitOn_ne_nil '/' cs)
    rw [split] at ih
    rw [List.splitOn_cons_eq_if_modifyHead, split] at h
    by_cases slash : c = '/'
    · rw [if_pos (beq_iff_eq.mpr slash), List.mem_cons] at h
      obtain rfl | later := h
      · exact List.not_mem_nil
      · exact ih later
    · rw [if_neg (mt beq_iff_eq.mp slash), List.modifyHead_cons, List.mem_cons] at h
      obtain rfl | later := h
      · simp [Ne.symm slash, ih List.mem_cons_self]
      · exact ih (List.mem_cons_of_mem first later)

theorem pieces_ne_nil (path : String) : pieces path ≠ [] := by simp [pieces]

theorem not_mem_of_mem_pieces {path piece : String} (h : piece ∈ pieces path) : '/' ∉ piece.toList := by
  obtain ⟨cs, there, rfl⟩ := List.mem_map.mp h
  simpa using not_mem_of_mem_splitOn there

theorem pieces_of_whole {name : String} (whole : '/' ∉ name.toList) : pieces name = [name] := by
  simp [pieces, List.splitOn_eq_singleton whole]

theorem pieces_append (before after : String) : pieces (before ++ "/" ++ after) = pieces before ++ pieces after := by
  have cut := List.splitOn_append_cons_self (a := '/') before.toList after.toList
  simp [pieces, cut]

theorem mem_segments {path name : String} : name ∈ segments path ↔ name ∈ pieces path ∧ name ≠ "" ∧ name ≠ "." := by
  simp [segments]

theorem up_mem_segments {path : String} : ".." ∈ segments path ↔ ".." ∈ pieces path := by
  rw [mem_segments]
  exact ⟨And.left, fun h => ⟨h, by decide, by decide⟩⟩

theorem named_of_mem_segments {path : String} (inside : ".." ∉ segments path) :
    ∀ name ∈ segments path, Named name := by
  intro name there
  obtain ⟨piece, nonempty, moved⟩ := mem_segments.mp there
  refine ⟨not_mem_of_mem_pieces piece, nonempty, moved, ?_⟩
  rintro rfl
  exact inside there

theorem segments_withoutLeadingSlashes (path : String) : segments (withoutLeadingSlashes path) = segments path := by
  have shed (cs : List Char) : segments (String.ofList (cs.dropWhile (· == '/'))) = segments (String.ofList cs) := by
    induction cs with
    | nil => rfl
    | cons c cs ih =>
      by_cases slash : c = '/'
      · subst slash
        have first : pieces (String.ofList ('/' :: cs)) = "" :: pieces (String.ofList cs) := by
          simp [pieces, List.splitOn_cons_eq_if_modifyHead]
        rw [List.dropWhile_cons_of_pos (by rfl), ih, segments, segments, first, List.filter_cons_of_neg (by simp)]
      · rw [List.dropWhile_cons_of_neg (by simpa using slash)]
  simpa [withoutLeadingSlashes] using shed path.toList

theorem startsAtTop_withoutLeadingSlashes (path : String) : startsAtTop (withoutLeadingSlashes path) = false := by
  have first := List.head?_dropWhile_not (· == '/') path.toList
  simp only [startsAtTop, withoutLeadingSlashes, String.toList_ofList]
  cases found : (path.toList.dropWhile (· == '/')).head? with
  | none => rfl
  | some c =>
    rw [found] at first
    simpa using first

/-! ## Pushed names -/

section

variable (path : String) {name : String}

/-- A name that is pushed comes in the place of an empty last piece, or after the last one. -/
theorem pieces_push (whole : '/' ∉ name.toList) :
    (∃ before, pieces path = before ++ [""] ∧ pieces (push path name) = before ++ [name]) ∨
      path ≠ "" ∧ pieces (push path name) = pieces path ++ [name] := by
  have alone := pieces_of_whole whole
  by_cases nothing : path = ""
  · refine .inl ⟨[], ?_, ?_⟩
    · rw [nothing]
      rfl
    · rw [push, if_pos (.inl nothing), nothing, String.empty_append, alone, List.nil_append]
  by_cases ended : path.toList.getLast? = some '/'
  · obtain ⟨before, ends⟩ := List.getLast?_eq_some_iff.mp ended
    have split : path = String.ofList before ++ "/" := String.toList_injective (by simp [ends])
    refine .inl ⟨pieces (String.ofList before), ?_, ?_⟩
    · rw [split, ← String.append_empty (s := String.ofList before ++ "/"), pieces_append]
      rfl
    · rw [push, if_pos (.inr ended), split, pieces_append, alone]
  · right
    refine ⟨nothing, ?_⟩
    rw [push, if_neg (not_or.mpr ⟨nothing, ended⟩), pieces_append, alone]

theorem startsAtTop_push (named : Named name) : startsAtTop (push path name) = startsAtTop path := by
  by_cases nothing : path = ""
  · have first : name.toList.head? ≠ some '/' := fun h => named.whole (List.mem_of_head? h)
    simp [push, nothing, startsAtTop, first]
  · have there : path.toList ≠ [] := mt String.toList_eq_nil_iff.mp nothing
    unfold push startsAtTop
    split <;> simp [List.head?_append, List.head?_eq_some_head there]

theorem head?_pieces_push (named : Named name) :
    (pieces (push path name)).head? = some "." ↔ (pieces path).head? = some "." := by
  obtain ⟨before, parts, pushed⟩ | ⟨-, pushed⟩ := pieces_push path named.whole
  · rw [parts, pushed]
    cases before with
    | nil => simp [named.not_here]
    | cons first rest => rfl
  · rw [pushed, List.head?_append_of_ne_nil _ (pieces_ne_nil path)]

theorem segments_push (named : Named name) : segments (push path name) = segments path ++ [name] := by
  have kept : [name].filter (fun s => s != "" && s != ".") = [name] := by simp [named.nonempty, named.not_here]
  obtain ⟨before, parts, pushed⟩ | ⟨-, pushed⟩ := pieces_push path named.whole
  · rw [segments, segments, parts, pushed, List.filter_append, List.filter_append, kept]
    simp
  · rw [segments, segments, pushed, List.filter_append, kept]

theorem steps_push (named : Named name) : steps (push path name) = steps path ++ [.name name] := by
  have step : stepOf name = .name name := if_neg named.not_up
  simp only [steps, startsAtTop_push path named, head?_pieces_push path named, segments_push path named,
    List.map_append, List.map_cons, List.map_nil, step]
  split_ifs <;> rfl

end

theorem steps_foldl_push {names : List String} (named : ∀ name ∈ names, Named name) (path : String) :
    steps (names.foldl push path) = steps path ++ names.map .name := by
  induction names generalizing path with
  | nil => exact (List.append_nil _).symm
  | cons name rest ih =>
    obtain ⟨first, later⟩ := List.forall_mem_cons.mp named
    rw [List.foldl_cons, ih later, steps_push path first, List.append_assoc, List.map_cons, List.singleton_append]

end PocketReader.Storage.Path
