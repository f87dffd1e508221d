import Mathlib.Data.List.Basic
import PocketReader.Proofs.Text.Blank

/-! Words. A text is its words with gaps of blanks around and between them, and it is that in one way. -/
namespace PocketReader.Text

/-- The characters of a text that are not blank. -/
def solidChars (s : List Char) : List Char := s.filter fun c => !isBlank c

/-- Some characters of which none is blank. -/
structure IsWord (w : List Char) : Prop where
  filled : w ≠ []
  solid : ∀ c ∈ w, isBlank c = false

/-- A text that is these words in order, each up to the next blank. -/
inductive Spells : List Char → List (List Char) → Prop
  | blank {gap : List Char} : Blank gap → Spells gap []
  | word {gap w rest : List Char} {ws : List (List Char)} : Blank gap → IsWord w →
      (∀ c ∈ rest.head?, isBlank c = true) → Spells rest ws → Spells (gap ++ (w ++ rest)) (w :: ws)

section

variable {s t : List Char} {ws vs : List (List Char)}

theorem solidChars_append (s t : List Char) : solidChars (s ++ t) = solidChars s ++ solidChars t :=
  List.filter_append s t

theorem blank_iff_solidChars (s : List Char) : Blank s ↔ solidChars s = [] := by
  simp [Blank, solidChars]

theorem Spells.indent (spells : Spells s ws) {gap : List Char} (blank : Blank gap) : Spells (gap ++ s) ws := by
  cases spells with
  | blank empty => exact .blank (blank.append empty)
  | word inner word stops later =>
    rw [← List.append_assoc]
    exact .word (blank.append inner) word stops later

theorem Spells.append (first : Spells s ws) (second : Spells t vs) (apart : ∀ c ∈ t.head?, isBlank c = true) :
    Spells (s ++ t) (ws ++ vs) := by
  induction first with
  | blank blank => exact second.indent blank
  | @word gap w rest ws blank word stops _ ih =>
    rw [List.append_assoc, List.append_assoc]
    refine .word blank word ?_ ih
    intro c member
    cases rest with
    | nil => exact apart c member
    | cons d rest => exact stops c member

theorem Spells.isWord (spells : Spells s ws) : ∀ w ∈ ws, IsWord w := by
  induction spells with
  | blank => exact fun w member => absurd member List.not_mem_nil
  | word _ word _ _ ih => exact List.forall_mem_cons.mpr ⟨word, ih⟩

/-- Nothing but blanks is between the words. -/
theorem Spells.flatten_eq (spells : Spells s ws) : ws.flatten = solidChars s := by
  have none {gap : List Char} (blank : Blank gap) : solidChars gap = [] := (blank_iff_solidChars gap).mp blank
  have all {w : List Char} (word : IsWord w) : solidChars w = w :=
    List.filter_eq_self.mpr fun c member => by simp [word.solid c member]
  induction spells with
  | blank blank => exact (none blank).symm
  | word blank word _ _ ih =>
    rw [solidChars_append, solidChars_append, none blank, all word, List.nil_append, List.flatten_cons, ih]

theorem wordsFrom_of_blank {gap : List Char} (blank : Blank gap) (s : List Char) :
    wordsFrom [] (gap ++ s) = wordsFrom [] s := by
  induction gap with
  | nil => rfl
  | cons c gap ih =>
    obtain ⟨first, others⟩ := List.forall_mem_cons.mp blank
    rw [List.cons_append, wordsFrom, if_pos first, if_pos List.isEmpty_nil, ih others]

theorem wordsFrom_of_solid {w : List Char} (solid : ∀ c ∈ w, isBlank c = false) (word s : List Char) :
    wordsFrom word (w ++ s) = wordsFrom (w.reverse ++ word) s := by
  induction w generalizing word with
  | nil => rfl
  | cons c w ih =>
    obtain ⟨first, others⟩ := List.forall_mem_cons.mp solid
    rw [List.cons_append, wordsFrom, if_neg (by simp [first]), ih others, List.reverse_cons, List.append_assoc,
      List.singleton_append]

/-- A word that is being read ends at a blank. -/
theorem wordsFrom_of_stop {word s : List Char} (some : word ≠ []) (stops : ∀ c ∈ s.head?, isBlank c = true) :
    wordsFrom word s = word.reverse :: wordsFrom [] s := by
  have going : word.isEmpty = false := List.isEmpty_eq_false_iff.mpr some
  cases s with
  | nil => simp [wordsFrom, going]
  | cons c s => simp [wordsFrom, going, stops c rfl]

theorem Spells.words_eq (spells : Spells s ws) : words s = ws := by
  induction spells with
  | @blank gap blank =>
    have nothing := wordsFrom_of_blank blank []
    rwa [List.append_nil] at nothing
  | @word gap w rest ws blank word stops _ ih =>
    have some : w.reverse ++ [] ≠ [] := by simpa using word.filled
    rw [words, wordsFrom_of_blank blank, wordsFrom_of_solid word.solid, wordsFrom_of_stop some stops,
      List.append_nil, List.reverse_reverse, ← words, ih]

theorem spells_wordsFrom {word : List Char} (solid : ∀ c ∈ word, isBlank c = false) (s : List Char) :
    Spells (word.reverse ++ s) (wordsFrom word s) := by
  have last {word : List Char} (solid : ∀ c ∈ word, isBlank c = false) (some : word ≠ []) : IsWord word.reverse :=
    ⟨by simpa using some, fun c member => solid c (List.mem_reverse.mp member)⟩
  have bare : ∀ c ∈ ([] : List Char), isBlank c = false := fun c member => absurd member List.not_mem_nil
  induction s generalizing word with
  | nil =>
    rw [wordsFrom, List.append_nil]
    split
    · rename_i none
      rw [List.isEmpty_iff.mp none]
      exact .blank blank_nil
    · rename_i some
      have read := Spells.word blank_nil (last solid (by simpa using some)) (by simp) (.blank blank_nil)
      rwa [List.nil_append, List.append_nil] at read
  | cons c s ih =>
    rw [wordsFrom]
    split
    · rename_i blank
      have gap : Blank [c] := by
        intro d member
        rwa [List.mem_singleton.mp member]
      have later : Spells ([c] ++ s) (wordsFrom [] s) := (ih bare).indent gap
      split
      · rename_i none
        rw [List.isEmpty_iff.mp none]
        exact later
      · rename_i some
        exact .word blank_nil (last solid (by simpa using some)) (by simpa using blank) later
    · rename_i going
      have longer : ∀ d ∈ c :: word, isBlank d = false :=
        List.forall_mem_cons.mpr ⟨by simpa using going, solid⟩
      have read := ih longer
      rwa [List.reverse_cons, List.append_assoc, List.singleton_append] at read

theorem spells_words (s : List Char) : Spells s (words s) :=
  spells_wordsFrom (fun _ member => absurd member List.not_mem_nil) s

theorem spells_iff : Spells s ws ↔ ws = words s :=
  ⟨fun spells => spells.words_eq.symm, fun same => same ▸ spells_words s⟩

theorem isWord_of_mem_words {w : List Char} (member : w ∈ words s) : IsWord w := (spells_words s).isWord w member

theorem flatten_words (s : List Char) : (words s).flatten = solidChars s := (spells_words s).flatten_eq

theorem words_eq_nil_iff (s : List Char) : words s = [] ↔ Blank s := by
  refine ⟨fun none => ?_, fun blank => (Spells.blank blank).words_eq⟩
  rw [blank_iff_solidChars, ← flatten_words, none, List.flatten_nil]

theorem IsWord.words_eq {w : List Char} (word : IsWord w) : words w = [w] := by
  have alone := Spells.word blank_nil word (by simp) (.blank blank_nil)
  rw [List.nil_append, List.append_nil] at alone
  exact alone.words_eq

theorem words_append_space (s t : List Char) : words (s ++ ' ' :: t) = words s ++ words t := by
  have gap : Blank [' '] := by
    intro c member
    rw [List.mem_singleton.mp member]
    decide
  have later : Spells (' ' :: t) (words t) := (spells_words t).indent gap
  refine ((spells_words s).append later ?_).words_eq
  intro c first
  cases first
  decide

@[simp] theorem unwords_cons_cons (s t : List Char) (texts : List (List Char)) :
    unwords (s :: t :: texts) = s ++ ' ' :: unwords (t :: texts) := rfl

/-- Joining texts with spaces joins their words. -/
theorem words_unwords (texts : List (List Char)) : words (unwords texts) = texts.flatMap words := by
  match texts with
  | [] => rfl
  | [s] => simp [unwords]
  | s :: t :: texts =>
    rw [unwords_cons_cons, words_append_space, words_unwords (t :: texts)]
    exact List.flatMap_cons.symm

theorem words_unwords_of_isWord (every : ∀ w ∈ ws, IsWord w) : words (unwords ws) = ws := by
  rw [words_unwords]
  induction ws with
  | nil => rfl
  | cons w ws ih =>
    obtain ⟨first, others⟩ := List.forall_mem_cons.mp every
    rw [List.flatMap_cons, first.words_eq, ih others, List.singleton_append]

theorem words_collapse (s : List Char) : words (collapse s) = words s :=
  words_unwords_of_isWord fun _ => isWord_of_mem_words

theorem blank_collapse_iff (s : List Char) : Blank (collapse s) ↔ Blank s := by
  rw [← words_eq_nil_iff, words_collapse, words_eq_nil_iff]

theorem unwords_eq_nil_iff (filled : ∀ w ∈ ws, w ≠ []) : unwords ws = [] ↔ ws = [] := by
  match ws with
  | [] => simp [unwords]
  | [w] => simpa [unwords] using filled
  | w :: v :: ws => simp [unwords]

/-- Collapsing leaves nothing of blanks, and of nothing else. -/
theorem collapse_eq_nil_iff (s : List Char) : collapse s = [] ↔ Blank s := by
  rw [collapse, unwords_eq_nil_iff fun w member => (isWord_of_mem_words member).filled, words_eq_nil_iff]

theorem unwords_eq_intercalate (texts : List (List Char)) : unwords texts = [' '].intercalate texts := by
  match texts with
  | [] => rfl
  | [s] => simp [unwords]
  | s :: t :: texts =>
    rw [unwords_cons_cons, unwords_eq_intercalate (t :: texts), List.intercalate_cons_cons, List.append_assoc,
      List.singleton_append]

theorem toList_intercalate_space (lines : List String) :
    (" ".intercalate lines).toList = unwords (lines.map String.toList) := by
  rw [String.toList_intercalate, unwords_eq_intercalate]
  rfl

theorem solidChars_unwords (texts : List (List Char)) : solidChars (unwords texts) = texts.flatMap solidChars := by
  have space (s : List Char) : solidChars (' ' :: s) = solidChars s := List.filter_cons_of_neg (by decide)
  match texts with
  | [] => rfl
  | [s] => simp [unwords]
  | s :: t :: texts =>
    have later := solidChars_unwords (t :: texts)
    rw [unwords_cons_cons, solidChars_append, space, later]
    exact List.flatMap_cons.symm

end

/-! Words joined with spaces. -/

theorem unwords_append {ws vs : List (List Char)} (first : ws ≠ []) (second : vs ≠ []) :
    unwords (ws ++ vs) = unwords ws ++ ' ' :: unwords vs := by
  match ws, vs with
  | [w], v :: vs => rfl
  | w :: u :: ws, vs =>
    rw [List.cons_append, List.cons_append, unwords_cons_cons, ← List.cons_append,
      unwords_append (List.cons_ne_nil u ws) second, unwords_cons_cons, List.append_assoc, List.cons_append]

/-- The only blanks are spaces, each between two characters that are not blank. -/
def SinglySpaced (s : List Char) : Prop :=
  ∀ before c after, s = before ++ c :: after → isBlank c = true →
    c = ' ' ∧ (∃ x ∈ before.getLast?, isBlank x = false) ∧ ∃ x ∈ after.head?, isBlank x = false

theorem SinglySpaced.join {s t : List Char} (first : SinglySpaced s) (second : SinglySpaced t)
    (last : ∃ x ∈ s.getLast?, isBlank x = false) (head : ∃ x ∈ t.head?, isBlank x = false) :
    SinglySpaced (s ++ ' ' :: t) := by
  intro before c after split blank
  rcases List.append_eq_append_iff.mp split with ⟨gone, rfl, right⟩ | ⟨gone, rfl, right⟩
  · cases gone with
    | nil =>
      cases right
      rw [List.append_nil]
      exact ⟨rfl, last, head⟩
    | cons d gone =>
      obtain ⟨rfl, rfl⟩ := List.cons_eq_cons.mp right
      obtain ⟨space, ⟨x, found, solid⟩, behind⟩ := second gone c after rfl blank
      refine ⟨space, ⟨x, ?_, solid⟩, behind⟩
      rw [Option.mem_def] at found
      rw [Option.mem_def, List.getLast?_append, List.getLast?_cons, found]
      rfl
  · cases gone with
    | nil =>
      cases right
      rw [List.append_nil] at last
      exact ⟨rfl, last, head⟩
    | cons d gone =>
      obtain ⟨rfl, rfl⟩ := List.cons_eq_cons.mp right
      obtain ⟨space, front, ⟨x, found, solid⟩⟩ := first before c gone rfl blank
      refine ⟨space, front, x, ?_, solid⟩
      rw [Option.mem_def] at found
      change (gone ++ ' ' :: t).head? = some x
      rw [List.head?_append, found, Option.some_or]

theorem exists_head_unwords {ws : List (List Char)} (every : ∀ w ∈ ws, IsWord w) (some : ws ≠ []) :
    ∃ x ∈ (unwords ws).head?, isBlank x = false := by
  have front {w : List Char} (word : IsWord w) (s : List Char) : ∃ x ∈ (w ++ s).head?, isBlank x = false := by
    obtain ⟨c, rest, rfl⟩ := List.exists_cons_of_ne_nil word.filled
    exact ⟨c, rfl, word.solid c List.mem_cons_self⟩
  match ws with
  | [w] =>
    have alone := front (every w List.mem_cons_self) []
    rwa [List.append_nil] at alone
  | w :: v :: ws => exact front (every w List.mem_cons_self) _

theorem singlySpaced_unwords {ws : List (List Char)} (every : ∀ w ∈ ws, IsWord w) : SinglySpaced (unwords ws) := by
  have solid {w : List Char} (word : IsWord w) : SinglySpaced w := by
    rintro before c after rfl blank
    have none := word.solid c (by simp)
    rw [blank] at none
    cases none
  match ws with
  | [] =>
    intro before c after split
    exact absurd split (by simp [unwords])
  | [w] => exact solid (every w List.mem_cons_self)
  | w :: v :: ws =>
    obtain ⟨first, others⟩ := List.forall_mem_cons.mp every
    refine (solid first).join (singlySpaced_unwords others) ?_ (exists_head_unwords others (List.cons_ne_nil v ws))
    obtain ⟨front, c, rfl⟩ := (List.eq_nil_or_concat' w).resolve_left first.filled
    exact ⟨c, List.getLast?_concat, first.solid c (by simp)⟩

theorem filter_unwords {ws : List (List Char)} (every : ∀ w ∈ ws, IsWord w) :
    (unwords ws).filter (· ≠ ' ') = ws.flatten := by
  have solid {w : List Char} (word : IsWord w) : w.filter (· ≠ ' ') = w := by
    refine List.filter_eq_self.mpr fun c member => ?_
    have plain := word.solid c member
    rw [decide_eq_true_eq]
    rintro rfl
    exact absurd plain (by decide)
  match ws with
  | [] => rfl
  | [w] => simpa [unwords] using solid (every w List.mem_cons_self)
  | w :: v :: ws =>
    obtain ⟨first, others⟩ := List.forall_mem_cons.mp every
    have later := filter_unwords others
    rw [unwords_cons_cons, List.filter_append, solid first, List.flatten_cons,
      List.filter_cons_of_neg (by simp), later]

end PocketReader.Text
