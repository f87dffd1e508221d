import Mathlib.Data.List.DropRight
import PocketReader.Text.Blank

/-! Blanks at the ends of a text. Trimming takes all blanks off both ends and nothing else. -/
namespace PocketReader.Text

section

variable {p : Char → Bool}

theorem head?_dropWhile_not {s : List Char} {c : Char} (first : c ∈ (s.dropWhile p).head?) : p c = false := by
  have stopped := List.head?_dropWhile_not p s
  rw [Option.mem_def] at first
  rwa [first] at stopped

theorem takeWhile_append_of_head {s t : List Char} (inside : ∀ c ∈ s, p c = true)
    (stops : ∀ c ∈ t.head?, p c = false) :
    (s ++ t).takeWhile p = s := by
  rw [List.takeWhile_append_of_pos inside]
  cases t with
  | nil => exact List.append_nil s
  | cons c t => rw [List.takeWhile_cons_of_neg (by simp [stops c rfl]), List.append_nil]

theorem dropWhile_append_of_head {s t : List Char} (inside : ∀ c ∈ s, p c = true)
    (stops : ∀ c ∈ t.head?, p c = false) :
    (s ++ t).dropWhile p = t := by
  rw [List.dropWhile_append_of_pos inside]
  cases t with
  | nil => rfl
  | cons c t => exact List.dropWhile_cons_of_neg (by simp [stops c rfl])

end

def Blank (s : List Char) : Prop := ∀ c ∈ s, isBlank c = true

/-- Neither end is blank. -/
structure Trimmed (s : List Char) : Prop where
  head : ∀ c ∈ s.head?, isBlank c = false
  last : ∀ c ∈ s.getLast?, isBlank c = false

@[simp] theorem blank_nil : Blank [] := fun _ member => (List.not_mem_nil member).elim

theorem Blank.append {s t : List Char} (first : Blank s) (second : Blank t) : Blank (s ++ t) :=
  List.forall_mem_append.mpr ⟨first, second⟩

theorem trimmed_of_solid {s : List Char} (solid : ∀ c ∈ s, isBlank c = false) : Trimmed s :=
  ⟨fun c first => solid c (List.mem_of_mem_head? first), fun c last => solid c (List.mem_of_getLast? last)⟩

def trimEnd (s : List Char) : List Char := s.rdropWhile isBlank

theorem trim_eq (s : List Char) : trim s = trimEnd (trimStart s) := rfl

theorem exists_trimStart (s : List Char) :
    ∃ gap, Blank gap ∧ s = gap ++ trimStart s ∧ ∀ c ∈ (trimStart s).head?, isBlank c = false := by
  refine ⟨s.takeWhile isBlank, fun c => List.mem_takeWhile_imp, List.takeWhile_append_dropWhile.symm, ?_⟩
  intro c first
  exact head?_dropWhile_not first

theorem exists_trimEnd (s : List Char) :
    ∃ gap, Blank gap ∧ s = trimEnd s ++ gap ∧ ∀ c ∈ (trimEnd s).getLast?, isBlank c = false := by
  refine ⟨s.rtakeWhile isBlank, fun c => List.mem_rtakeWhile_imp, (List.rdropWhile_append_rtakeWhile).symm, ?_⟩
  intro c last
  rw [trimEnd, List.rdropWhile, List.getLast?_reverse] at last
  exact head?_dropWhile_not last

theorem exists_trim (s : List Char) :
    ∃ before after, Blank before ∧ Blank after ∧ Trimmed (trim s) ∧ s = before ++ (trim s ++ after) := by
  obtain ⟨before, blank, left, first⟩ := exists_trimStart s
  obtain ⟨after, empty, right, last⟩ := exists_trimEnd (trimStart s)
  refine ⟨before, after, blank, empty, ⟨?_, last⟩, ?_⟩
  · intro c member
    rw [trim_eq] at member
    refine first c ?_
    rw [right, List.head?_append, Option.mem_def, member, Option.some_or]
  · rw [trim_eq, ← right, ← left]

theorem trimStart_append_of_blank {gap s : List Char} (blank : Blank gap) : trimStart (gap ++ s) = trimStart s :=
  List.dropWhile_append_of_pos blank

theorem trimStart_of_head {s : List Char} (head : ∀ c ∈ s.head?, isBlank c = false) : trimStart s = s :=
  dropWhile_append_of_head (s := []) (by simp) head

theorem trim_trimStart (s : List Char) : trim (trimStart s) = trim s := by
  rw [trim_eq, trim_eq, trimStart, trimStart, List.dropWhile_idempotent]

/-- What stands behind a character that is not blank stays. -/
theorem trimStart_append_cons {s t : List Char} {c : Char} (solid : isBlank c = false) :
    trimStart (s ++ c :: t) = trimStart s ++ c :: t := by
  obtain ⟨gap, blank, split, first⟩ := exists_trimStart s
  have kept : s ++ c :: t = gap ++ (trimStart s ++ c :: t) := by
    rw [← List.append_assoc, ← split]
  rw [kept, trimStart_append_of_blank blank, trimStart_of_head]
  intro x member
  cases trimmed : trimStart s with
  | nil =>
    rw [trimmed] at member
    cases member
    exact solid
  | cons d rest =>
    rw [trimmed] at member first
    cases member
    exact first _ rfl

theorem trimEnd_of_last {s : List Char} (last : ∀ c ∈ s.getLast?, isBlank c = false) : trimEnd s = s := by
  have first : ∀ c ∈ s.reverse.head?, isBlank c = false := by
    rw [List.head?_reverse]
    exact last
  rw [trimEnd, List.rdropWhile, ← trimStart, trimStart_of_head first, List.reverse_reverse]

theorem trimEnd_append_of_blank {s gap : List Char} (blank : Blank gap) : trimEnd (s ++ gap) = trimEnd s := by
  have reversed : Blank gap.reverse := fun c member => blank c (List.mem_reverse.mp member)
  rw [trimEnd, trimEnd, List.rdropWhile, List.rdropWhile, List.reverse_append, List.dropWhile_append_of_pos reversed]

/-- What stands before a character that is not blank stays. -/
theorem trimEnd_append_cons {s t : List Char} {c : Char} (solid : isBlank c = false) :
    trimEnd (s ++ c :: t) = s ++ c :: trimEnd t := by
  obtain ⟨gap, blank, split, last⟩ := exists_trimEnd t
  have kept : s ++ c :: t = (s ++ c :: trimEnd t) ++ gap := by
    rw [List.append_assoc, List.cons_append, ← split]
  rw [kept, trimEnd_append_of_blank blank, trimEnd_of_last]
  intro x member
  rw [List.getLast?_append, List.getLast?_cons] at member
  cases ends : (trimEnd t).getLast? with
  | none =>
    rw [ends] at member
    cases member
    exact solid
  | some y =>
    rw [ends] at member
    cases member
    exact last _ ends

theorem trim_append {before s after : List Char} (blank : Blank before) (empty : Blank after) (trimmed : Trimmed s) :
    trim (before ++ (s ++ after)) = s := by
  rw [trim_eq, trimStart_append_of_blank blank]
  cases s with
  | nil =>
    have nothing : trimStart after = [] := List.dropWhile_eq_nil_iff.mpr empty
    rw [List.nil_append, nothing]
    rfl
  | cons c s =>
    have solid : isBlank c = false := trimmed.head c rfl
    rw [trimStart_of_head (by simp [solid]), trimEnd_append_of_blank empty, trimEnd_of_last trimmed.last]

theorem trim_of_trimmed {s : List Char} (trimmed : Trimmed s) : trim s = s := by
  have whole := trim_append blank_nil blank_nil trimmed
  rwa [List.nil_append, List.append_nil] at whole

/-- A text up to its first blank, and from there on. -/
theorem exists_word (s : List Char) :
    s = s.takeWhile (fun c => !isBlank c) ++ s.dropWhile (fun c => !isBlank c) ∧
      (∀ c ∈ s.takeWhile (fun c => !isBlank c), isBlank c = false) ∧
      ∀ c ∈ (s.dropWhile fun c => !isBlank c).head?, isBlank c = true := by
  refine ⟨List.takeWhile_append_dropWhile.symm, fun c member => ?_, fun c first => ?_⟩
  · simpa using List.mem_takeWhile_imp member
  · simpa using head?_dropWhile_not first

theorem trim_append_word {before word rest : List Char} (blank : Blank before) (some : word ≠ [])
    (solid : ∀ c ∈ word, isBlank c = false) : trim (before ++ (word ++ rest)) = word ++ trimEnd rest := by
  obtain rfl | ⟨front, c, rfl⟩ := List.eq_nil_or_concat' word
  · exact absurd rfl some
  · have first : ∀ d ∈ (front ++ [c] ++ rest).head?, isBlank d = false := by
      intro d member
      rw [List.head?_append_of_ne_nil _ some] at member
      exact solid d (List.mem_of_mem_head? member)
    rw [trim_eq, trimStart_append_of_blank blank, trimStart_of_head first, List.append_assoc, List.singleton_append,
      trimEnd_append_cons (solid c (by simp)), List.append_assoc, List.singleton_append]

end PocketReader.Text
