import Mathlib.Data.List.Chain
import PocketReader.Proofs.Text.Words
import PocketReader.Text.Wrap

/-! Lines filled from words. A line ends only where the next word has no room on it, or inside a word, where it is
full; words are cut only when no line could hold them, and nothing but blanks is lost. -/
namespace PocketReader.Text

/-! A word is cut into what of it stands on each line. -/

structure Part where
  /-- What of the word stands on lines before. -/
  before : List Char
  chars : List Char
  /-- What of the word stands on lines after. -/
  after : List Char

def Part.word (p : Part) : List Char := p.before ++ (p.chars ++ p.after)

def lineOf (row : List Part) : List Char := unwords (row.map Part.chars)

/-- The parts of what remains of a word, of which `before` stands on lines before. -/
inductive Cut : List Char → List Char → List Part → Prop
  | last {before chars : List Char} : chars ≠ [] → Cut before chars [⟨before, chars, []⟩]
  | part {before chars after : List Char} {parts : List Part} : chars ≠ [] → after ≠ [] →
      Cut (before ++ chars) after parts → Cut before (chars ++ after) (⟨before, chars, after⟩ :: parts)

structure Line (width : Nat) (row : List Part) : Prop where
  filled : lineOf row ≠ []
  fits : (lineOf row).length ≤ width
  /-- A word that a line can hold is not cut. -/
  short : ∀ p ∈ row, p.word.length ≤ width → p.chars = p.word
  /-- Any other word starts on a fresh line, and so does each of its parts. -/
  long : ∀ p ∈ row, width < p.word.length → row.head? = some p
  /-- A part that is not the last of its word is a full line. -/
  full : ∀ p ∈ row, p.after ≠ [] → row = [p] ∧ p.chars.length = width

/-- Parts in lines, none lost and all in order. -/
structure Lines (width : Nat) (parts : List Part) (rows : List (List Part)) : Prop where
  whole : rows.flatten = parts
  line : ∀ row ∈ rows, Line width row
  /-- A line that ends before a word has no room for it; one that ends inside a word is full. -/
  breaks : rows.IsChain fun row next => ∀ p ∈ next.head?,
    if p.before = [] then width < (lineOf row).length + 1 + p.word.length else (lineOf row).length = width

section

variable {width : Nat} {word : List Char}

theorem pieces_of_short (short : word.length ≤ width) (some : word ≠ []) : pieces width word = [] := by
  have less : word.length - 1 < width := by
    have := List.length_pos_of_ne_nil some
    omega
  rw [pieces, surplus, Nat.div_eq_of_lt less]
  rfl

theorem remnant_of_short (short : word.length ≤ width) (some : word ≠ []) : remnant width word = word := by
  have less : word.length - 1 < width := by
    have := List.length_pos_of_ne_nil some
    omega
  rw [remnant, surplus, Nat.div_eq_of_lt less, Nat.zero_mul, List.drop_zero]

theorem surplus_of_long (pos : 0 < width) (long : width < word.length) :
    surplus width word = surplus width (word.drop width) + 1 := by
  have more : word.length - 1 = word.length - width - 1 + width := by omega
  rw [surplus, surplus, List.length_drop, more, Nat.add_div_right _ pos]

theorem pieces_of_long (pos : 0 < width) (long : width < word.length) :
    pieces width word = word.take width :: pieces width (word.drop width) := by
  rw [pieces, surplus_of_long pos long, List.range_succ_eq_map, List.map_cons, List.map_map, Nat.zero_mul,
    List.drop_zero, pieces]
  refine congrArg _ (List.map_congr_left fun i _ => ?_)
  rw [Function.comp_apply, List.drop_drop, Nat.succ_mul, Nat.add_comm]

theorem remnant_of_long (pos : 0 < width) (long : width < word.length) :
    remnant width word = remnant width (word.drop width) := by
  rw [remnant, surplus_of_long pos long, remnant, List.drop_drop, Nat.succ_mul, Nat.add_comm]

end

section

variable {before after : List Char} {parts : List Part}

theorem Cut.head (cut : Cut before after parts) :
    ∀ p ∈ parts.head?, p.before = before ∧ p.word = before ++ after := by
  cases cut with
  | last =>
    intro p first
    cases first
    exact ⟨rfl, by rw [Part.word, List.append_nil]⟩
  | part =>
    intro p first
    cases first
    exact ⟨rfl, rfl⟩

theorem Cut.ne_nil (cut : Cut before after parts) : parts ≠ [] := by
  cases cut <;> exact List.cons_ne_nil _ _

theorem Cut.flatten_eq (cut : Cut before after parts) : (parts.map Part.chars).flatten = after := by
  induction cut with
  | last => simp
  | part _ _ _ ih => rw [List.map_cons, List.flatten_cons, ih]

theorem Cut.isWord (cut : Cut before after parts) (solid : ∀ c ∈ after, isBlank c = false) :
    ∀ p ∈ parts, IsWord p.chars := by
  induction cut with
  | last some => simpa using ⟨some, solid⟩
  | part some _ _ ih =>
    obtain ⟨first, others⟩ := List.forall_mem_append.mp solid
    exact List.forall_mem_cons.mpr ⟨⟨some, first⟩, ih others⟩

end

section

variable {width : Nat} {row : List Part} {parts : List Part} {rows : List (List Part)}

theorem Line.ne_nil (line : Line width row) : row ≠ [] := by
  rintro rfl
  exact line.filled rfl

theorem lineOf_single (p : Part) : lineOf [p] = p.chars := rfl

theorem lineOf_concat (some : row ≠ []) (p : Part) : lineOf (row ++ [p]) = lineOf row ++ ' ' :: p.chars := by
  rw [lineOf, List.map_append, unwords_append (by simpa using some) (by simp)]
  rfl

/-- A part that has a line to itself. -/
theorem line_single {p : Part} (some : p.chars ≠ []) (fits : p.chars.length ≤ width)
    (whole : p.word.length ≤ width → p.chars = p.word) (full : p.after ≠ [] → p.chars.length = width) :
    Line width [p] where
  filled := some
  fits := fits
  short := by simpa using whole
  long := by simp
  full := by simpa using full

/-- A word is put behind what is on a line. -/
theorem Line.extend (line : Line width row) {word : List Char}
    (room : (lineOf row).length + 1 + word.length ≤ width) :
    Line width (row ++ [⟨[], word, []⟩]) := by
  have same : (Part.mk [] word []).word = word := List.append_nil word
  have longer : lineOf (row ++ [⟨[], word, []⟩]) = lineOf row ++ ' ' :: word := lineOf_concat line.ne_nil _
  refine ⟨?_, ?_, ?_, ?_, ?_⟩
  · rw [longer]
    simp
  · rw [longer, List.length_append, List.length_cons, ← Nat.add_assoc]
    omega
  · intro p member
    rcases List.mem_append.mp member with old | new
    · exact line.short p old
    · rw [List.mem_singleton.mp new]
      exact fun _ => same.symm
  · intro p member long
    rcases List.mem_append.mp member with old | new
    · rw [List.head?_append_of_ne_nil _ line.ne_nil]
      exact line.long p old long
    · rw [List.mem_singleton.mp new, same] at long
      omega
  · intro p member more
    rcases List.mem_append.mp member with old | new
    · -- A line that is full has no room.
      obtain ⟨alone, full⟩ := line.full p old more
      rw [alone, lineOf_single, full] at room
      omega
    · rw [List.mem_singleton.mp new] at more
      exact absurd rfl more

theorem Lines.single (line : Line width row) : Lines width row [row] where
  whole := List.flatten_singleton
  line := by simpa using line
  breaks := .singleton row

theorem Lines.cons (line : Line width row) (lines : Lines width parts rows)
    (ends : ∀ p ∈ parts.head?,
      if p.before = [] then width < (lineOf row).length + 1 + p.word.length else (lineOf row).length = width) :
    Lines width (row ++ parts) (row :: rows) where
  whole := by rw [List.flatten_cons, lines.whole]
  line := List.forall_mem_cons.mpr ⟨line, lines.line⟩
  breaks := by
    refine lines.breaks.cons fun next first p member => ends p ?_
    obtain ⟨others, rfl⟩ := List.head?_eq_some_iff.mp first
    have some := (lines.line next List.mem_cons_self).ne_nil
    rwa [← lines.whole, List.flatten_cons, List.head?_append_of_ne_nil _ some]

/-- What is left of a word starts on a fresh line, and the words after it go on from there. -/
theorem exists_lines_fresh (pos : 0 < width) {rest : List (List Char)}
    (next : ∀ row, Line width row → ∃ cuts rows, List.Forall₂ (Cut []) rest cuts ∧
      fill width (lineOf row) rest = rows.map lineOf ∧ Lines width (row ++ cuts.flatten) rows)
    {before after : List Char} (begun : before = [] ∨ width ≤ before.length) (some : after ≠ []) :
    ∃ parts cuts rows, Cut before after parts ∧ List.Forall₂ (Cut []) rest cuts ∧
      pieces width after ++ fill width (remnant width after) rest = rows.map lineOf ∧
      Lines width (parts ++ cuts.flatten) rows := by
  by_cases short : after.length ≤ width
  · have line : Line width [⟨before, after, []⟩] := by
      refine line_single some short (fun fits => ?_) fun more => absurd rfl more
      rcases begun with rfl | long
      · exact (List.append_nil after).symm
      · have := List.length_pos_of_ne_nil some
        simp only [Part.word, List.length_append] at fits
        omega
    obtain ⟨cuts, rows, cut, filled, lines⟩ := next _ line
    refine ⟨_, cuts, rows, .last some, cut, ?_, lines⟩
    rw [pieces_of_short short some, remnant_of_short short some, List.nil_append, ← filled, lineOf_single]
  · have long : width < after.length := by omega
    have taken : (after.take width).length = width := List.length_take_of_le long.le
    have left : after.drop width ≠ [] := by
      rw [ne_eq, List.drop_eq_nil_iff]
      omega
    have front : after.take width ≠ [] := by
      rw [← List.length_pos_iff, taken]
      exact pos
    have grown : width ≤ (before ++ after.take width).length := by
      rw [List.length_append]
      omega
    obtain ⟨parts, cuts, rows, cut, others, filled, lines⟩ := exists_lines_fresh pos next (.inr grown) left
    have line : Line width [⟨before, after.take width, after.drop width⟩] := by
      refine line_single front taken.le (fun fits => ?_) fun _ => taken
      simp only [Part.word, List.take_append_drop, List.length_append] at fits
      omega
    have ends : ∀ p ∈ (parts ++ cuts.flatten).head?,
        if p.before = [] then width < (after.take width).length + 1 + p.word.length
        else (after.take width).length = width := by
      intro p first
      rw [List.head?_append_of_ne_nil _ cut.ne_nil] at first
      have inside : p.before ≠ [] := by
        rw [(cut.head p first).1]
        simp [front]
      rw [if_neg inside, taken]
    have whole := Cut.part front left cut
    rw [List.take_append_drop] at whole
    have grown := lines.cons line ends
    rw [List.singleton_append, ← List.cons_append] at grown
    refine ⟨_, cuts, _, whole, others, ?_, grown⟩
    rw [pieces_of_long pos long, remnant_of_long pos long, List.cons_append, filled, List.map_cons, lineOf_single]
termination_by after.length
decreasing_by
  rw [List.length_drop]
  omega

/-- Words fill up the line they are met on, and go on from there. -/
theorem exists_lines (pos : 0 < width) {ws : List (List Char)} (every : ∀ w ∈ ws, w ≠ []) (row : List Part)
    (line : Line width row) :
    ∃ cuts rows, List.Forall₂ (Cut []) ws cuts ∧ fill width (lineOf row) ws = rows.map lineOf ∧
      Lines width (row ++ cuts.flatten) rows := by
  have filled : (lineOf row).isEmpty = false := List.isEmpty_eq_false_iff.mpr line.filled
  induction ws generalizing row with
  | nil =>
    refine ⟨[], [row], .nil, ?_, ?_⟩
    · simp [fill, filled]
    · simpa using Lines.single line
  | cons word ws ih =>
    obtain ⟨some, others⟩ := List.forall_mem_cons.mp every
    have next row (line : Line width row) := ih others row line (List.isEmpty_eq_false_iff.mpr line.filled)
    have fresh : ([] : List Char) = [] ∨ width ≤ 0 := .inl rfl
    by_cases room : (lineOf row).length + 1 + word.length ≤ width
    · obtain ⟨cuts, rows, cut, result, lines⟩ := next _ (line.extend room)
      refine ⟨_ :: cuts, rows, .cons (.last some) cut, ?_, ?_⟩
      · rw [← result, lineOf_concat line.ne_nil]
        simp [fill, filled, room]
      · rwa [List.append_assoc] at lines
    · obtain ⟨parts, cuts, rows, first, cut, result, lines⟩ := exists_lines_fresh pos next fresh some
      refine ⟨parts :: cuts, row :: rows, .cons first cut, ?_, ?_⟩
      · rw [List.map_cons, ← result]
        simp [fill, filled, room]
      · rw [List.flatten_cons]
        refine lines.cons line fun p head => ?_
        rw [List.head?_append_of_ne_nil _ first.ne_nil] at head
        obtain ⟨start, whole⟩ := first.head p head
        rw [if_pos start, whole, List.nil_append]
        omega

theorem exists_lines_of_words (pos : 0 < width) {ws : List (List Char)} (every : ∀ w ∈ ws, w ≠ []) :
    ∃ cuts rows, List.Forall₂ (Cut []) ws cuts ∧ fill width [] ws = rows.map lineOf ∧
      Lines width cuts.flatten rows := by
  cases ws with
  | nil => exact ⟨[], [], .nil, rfl, rfl, by simp, .nil⟩
  | cons word ws =>
    obtain ⟨some, others⟩ := List.forall_mem_cons.mp every
    have fresh : ([] : List Char) = [] ∨ width ≤ 0 := .inl rfl
    obtain ⟨parts, cuts, rows, first, cut, result, lines⟩ :=
      exists_lines_fresh pos (exists_lines pos others) fresh some
    exact ⟨parts :: cuts, rows, .cons first cut, result, by rwa [List.flatten_cons]⟩

end

section

variable {width : Nat} {ws : List (List Char)} {cuts : List (List Part)} {rows : List (List Part)}

theorem isWord_of_cut (every : ∀ w ∈ ws, IsWord w) (cut : List.Forall₂ (Cut []) ws cuts) :
    ∀ p ∈ cuts.flatten, IsWord p.chars := by
  induction cut with
  | nil => exact fun p member => absurd member List.not_mem_nil
  | cons first _ ih =>
    obtain ⟨word, others⟩ := List.forall_mem_cons.mp every
    rw [List.flatten_cons]
    exact List.forall_mem_append.mpr ⟨first.isWord word.solid, ih others⟩

theorem flatten_of_cut (cut : List.Forall₂ (Cut []) ws cuts) :
    (cuts.flatten.map Part.chars).flatten = ws.flatten := by
  induction cut with
  | nil => rfl
  | cons first _ ih =>
    rw [List.flatten_cons, List.map_append, List.flatten_append, first.flatten_eq, ih, List.flatten_cons]

theorem Lines.isWord {parts : List Part} (lines : Lines width parts rows) (every : ∀ p ∈ parts, IsWord p.chars) :
    ∀ row ∈ rows, ∀ w ∈ row.map Part.chars, IsWord w := by
  intro row member w there
  obtain ⟨p, inside, rfl⟩ := List.mem_map.mp there
  rw [← lines.whole] at every
  exact every p (List.mem_flatten_of_mem member inside)

end

/-- A text is wrapped by cutting its words and setting the parts in lines. -/
theorem exists_wrap (text : String) (width : Nat) :
    ∃ cuts rows, List.Forall₂ (Cut []) (words text.toList) cuts ∧ Lines (max width 1) cuts.flatten rows ∧
      wrap text width = rows.map (fun row => String.ofList (lineOf row)) ∧
      ∀ row ∈ rows, ∀ w ∈ row.map Part.chars, IsWord w := by
  have every : ∀ w ∈ words text.toList, IsWord w := fun _ => isWord_of_mem_words
  obtain ⟨cuts, rows, cut, filled, lines⟩ :=
    exists_lines_of_words (Nat.le_max_right width 1) fun w member => (every w member).filled
  refine ⟨cuts, rows, cut, lines, ?_, lines.isWord (isWord_of_cut every cut)⟩
  rw [wrap, filled, List.map_map]
  rfl

theorem length_of_mem_wrap {text : String} {width : Nat} {line : String} (member : line ∈ wrap text width) :
    1 ≤ line.length ∧ line.length ≤ max width 1 := by
  obtain ⟨cuts, rows, cut, lines, result, -⟩ := exists_wrap text width
  rw [result] at member
  obtain ⟨row, inside, rfl⟩ := List.mem_map.mp member
  have good := lines.line row inside
  rw [String.length_ofList]
  exact ⟨List.length_pos_of_ne_nil good.filled, good.fits⟩

theorem singlySpaced_of_mem_wrap {text : String} {width : Nat} {line : String} (member : line ∈ wrap text width) :
    SinglySpaced line.toList := by
  obtain ⟨cuts, rows, -, -, result, solid⟩ := exists_wrap text width
  rw [result] at member
  obtain ⟨row, inside, rfl⟩ := List.mem_map.mp member
  rw [String.toList_ofList]
  exact singlySpaced_unwords (solid row inside)

/-- Apart from blanks, all of a text is in its lines. -/
theorem flatMap_wrap (text : String) (width : Nat) :
    ((wrap text width).flatMap fun line => line.toList.filter (· ≠ ' ')) = solidChars text.toList := by
  obtain ⟨cuts, rows, cut, lines, result, solid⟩ := exists_wrap text width
  have plain : ∀ row ∈ rows, (lineOf row).filter (· ≠ ' ') = (row.map Part.chars).flatten :=
    fun row member => filter_unwords (solid row member)
  rw [result, List.flatMap_map, ← flatten_words, ← flatten_of_cut cut, ← lines.whole, List.map_flatten,
    List.flatten_flatten, List.map_map, ← List.flatMap_def]
  refine List.flatMap_congr fun row member => ?_
  rw [String.toList_ofList, plain row member]
  rfl

/-- Wrapping lines together loses nothing but blanks. -/
theorem solidChars_wrap (lines : List String) (width : Nat) :
    ((wrap (" ".intercalate lines) width).flatMap fun line => solidChars line.toList) =
      lines.flatMap fun line => solidChars line.toList := by
  have plain : ∀ line ∈ wrap (" ".intercalate lines) width, solidChars line.toList =
    line.toList.filter (· ≠ ' ') := by
    refine fun line member => List.filter_congr fun c inside => ?_
    obtain ⟨before, after, split⟩ := List.append_of_mem inside
    by_cases space : c = ' '
    · rw [space]
      decide
    · have solid : isBlank c ≠ true :=
        fun blank => space (singlySpaced_of_mem_wrap member before c after split blank).1
      simp [solid, space]
  rw [List.flatMap_congr plain, flatMap_wrap, toList_intercalate_space, solidChars_unwords, List.flatMap_map]

/-! Lines that are filled again stay as they are. -/

theorem length_unwords_le_append (ws vs : List (List Char)) : (unwords ws).length ≤ (unwords (ws ++ vs)).length := by
  by_cases first : ws = []
  · rw [first]
    exact Nat.zero_le _
  · by_cases second : vs = []
    · rw [second, List.append_nil]
    · rw [unwords_append first second, List.length_append]
      exact Nat.le_add_right _ _

section

variable {width : Nat}

/-- Words for which there is room all go on the line. -/
theorem fill_append {front row : List (List Char)} (some : ∀ w ∈ front ++ row, w ≠ []) (begun : front ≠ [])
    (room : (unwords (front ++ row)).length ≤ width) (rest : List (List Char)) :
    fill width (unwords front) (row ++ rest) = fill width (unwords (front ++ row)) rest := by
  induction row generalizing front with
  | nil => rw [List.nil_append, List.append_nil]
  | cons w row ih =>
    have longer : unwords (front ++ [w]) = unwords front ++ ' ' :: w := unwords_append begun (List.cons_ne_nil w [])
    have going : unwords front ≠ [] := by
      rw [ne_eq, unwords_eq_nil_iff fun v member => some v (List.mem_append_left _ member)]
      exact begun
    rw [List.append_cons] at some room ⊢
    have fits : (unwords front).length + 1 + w.length ≤ width := by
      have := length_unwords_le_append (front ++ [w]) row
      rw [longer, List.length_append, List.length_cons] at this
      omega
    rw [← ih some (by simp) room, List.cons_append, fill, if_neg (by simpa using going), if_pos fits, longer]

/-- A row of words is filled from its first, and ends where the next has no room. -/
theorem fill_flatten {rows : List (List (List Char))}
    (lines : ∀ row ∈ rows, row ≠ [] ∧ (∀ w ∈ row, w ≠ []) ∧ (unwords row).length ≤ width)
    (breaks : rows.IsChain fun row next => ∀ w ∈ next.head?, width < (unwords row).length + 1 + w.length) :
    fill width [] rows.flatten = rows.map unwords := by
  induction rows with
  | nil => rfl
  | cons row rows ih =>
    obtain ⟨⟨filled, some, room⟩, others⟩ := List.forall_mem_cons.mp lines
    obtain ⟨ends, apart⟩ := List.isChain_cons.mp breaks
    obtain ⟨w, row, rfl⟩ := List.exists_cons_of_ne_nil filled
    have first : w ≠ [] := some w List.mem_cons_self
    have begun : [w] ≠ [] := List.cons_ne_nil w []
    have alone : w.length ≤ width := Nat.le_trans (length_unwords_le_append [w] row) room
    have going : unwords (w :: row) ≠ [] := by
      rw [ne_eq, unwords_eq_nil_iff some]
      exact filled
    have whole : fill width [] ((w :: row) ++ rows.flatten) = fill width (unwords (w :: row)) rows.flatten := by
      rw [List.cons_append, fill, if_pos List.isEmpty_nil, pieces_of_short alone first, remnant_of_short alone first,
        List.nil_append]
      exact fill_append some begun room rows.flatten
    rw [List.flatten_cons, whole, List.map_cons, ← ih others apart]
    cases rows with
    | nil => simp [fill, going]
    | cons next rows =>
      obtain ⟨⟨filled, some, -⟩, -⟩ := List.forall_mem_cons.mp others
      obtain ⟨v, next, rfl⟩ := List.exists_cons_of_ne_nil filled
      have stops : ¬ (unwords (w :: row)).length + 1 + v.length ≤ width := Nat.not_le.mpr (ends _ rfl v rfl)
      rw [List.flatten_cons, List.cons_append, fill, if_neg (by simpa using going), if_neg stops, fill,
        if_pos List.isEmpty_nil]

/-- What of a word stands on the next line is as long as what had no room before it. -/
theorem Lines.breaks_chars {parts : List Part} {rows : List (List Part)} (lines : Lines width parts rows) :
    rows.IsChain fun row next => ∀ p ∈ next.head?, width < (lineOf row).length + 1 + p.chars.length := by
  refine lines.breaks.imp_of_mem_imp fun row next _ member ends p head => ?_
  have line := lines.line next member
  have inside := List.mem_of_mem_head? head
  have stops := ends p head
  by_cases start : p.before = []
  · rw [if_pos start] at stops
    by_cases whole : p.after = []
    · rwa [Part.word, start, whole, List.nil_append, List.append_nil] at stops
    · have := (line.full p inside whole).2
      omega
  · rw [if_neg start] at stops
    omega

end

theorem wrap_wrap (text : String) (width : Nat) :
    wrap (" ".intercalate (wrap text width)) width = wrap text width := by
  obtain ⟨cuts, rows, cut, lines, result, solid⟩ := exists_wrap text width
  have joined :
      words (" ".intercalate (wrap text width)).toList = (rows.map fun row => row.map Part.chars).flatten := by
    rw [toList_intercalate_space, words_unwords, result, List.map_map, List.flatMap_map, ← List.flatMap_def]
    refine List.flatMap_congr fun row member => ?_
    rw [Function.comp_apply, String.toList_ofList, lineOf, words_unwords_of_isWord (solid row member)]
  have again : fill (max width 1) [] (rows.map fun row => row.map Part.chars).flatten = rows.map lineOf := by
    rw [fill_flatten, List.map_map]
    · rfl
    · rw [List.forall_mem_map]
      intro row member
      have line := lines.line row member
      exact ⟨by simpa using line.ne_nil, fun w inside => (solid row member w inside).filled, line.fits⟩
    · rw [List.isChain_map]
      refine lines.breaks_chars.imp fun row next ends w head => ?_
      rw [List.head?_map] at head
      obtain ⟨p, first, rfl⟩ := Option.map_eq_some_iff.mp head
      exact ends p first
  rw [wrap, joined, again, result, List.map_map]
  rfl

/-- A text has its words in one way. They are cut into parts and set in lines so that no word is cut that a line can
hold, a longer one starts on a fresh line and fills all lines but its last, and no line ends before it has to. -/
theorem wrap_fills_lines (text : String) (width : Nat) :
    ∃ ws cuts rows, (∀ other, Spells text.toList other ↔ other = ws) ∧ List.Forall₂ (Cut []) ws cuts ∧
      Lines (max width 1) cuts.flatten rows ∧ wrap text width = rows.map (fun row => String.ofList (lineOf row)) ∧
      (∀ line ∈ wrap text width, (1 ≤ line.length ∧ line.length ≤ max width 1) ∧ SinglySpaced line.toList) ∧
      ((wrap text width).flatMap fun line => line.toList.filter (· ≠ ' ')) = solidChars text.toList := by
  obtain ⟨cuts, rows, cut, lines, result, -⟩ := exists_wrap text width
  refine ⟨words text.toList, cuts, rows, fun other => spells_iff, cut, lines, result, ?_, flatMap_wrap text width⟩
  exact fun line member => ⟨length_of_mem_wrap member, singlySpaced_of_mem_wrap member⟩

-- A word as long as a line is not cut; a longer one leaves its rest on a line that goes on.
example : wrap "ab abcd abcdefghi j" 4 = ["ab", "abcd", "abcd", "efgh", "i j"] := by cbv

end PocketReader.Text
