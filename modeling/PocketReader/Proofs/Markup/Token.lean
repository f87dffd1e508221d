import PocketReader.Markup.Token
import PocketReader.Proofs.Text.Blank

/-! How a text falls into tags and the text between them. A tag ends at the first `>` that no double quote encloses. A
text falls apart in one way only, which is the one that is read. -/
namespace PocketReader.Markup

/-- Whether a double quote is open after a text; each one in it opens or closes. -/
def quotedAfter (quoted : Bool) (s : List Char) : Bool := if s.count '"' % 2 = 0 then quoted else !quoted

/-- Each `>` stands where a double quote is open. -/
def Enclosed (quoted : Bool) (s : List Char) : Prop :=
  ∀ before after, s = before ++ '>' :: after → quotedAfter quoted before = true

inductive Splits : List Char → List Token → Prop
  | nil : Splits [] []
  | tag {body rest : List Char} {tokens : List Token} : Enclosed false body → quotedAfter false body = false →
      Splits rest tokens → Splits ('<' :: (body ++ '>' :: rest)) (.tag body :: tokens)
  | unended {s : List Char} : Enclosed false s → Splits ('<' :: s) [.unended]
  /-- A run of text goes on up to the next tag. -/
  | text {run rest : List Char} {tokens : List Token} : run ≠ [] → '<' ∉ run → (∀ c ∈ rest.head?, c = '<') →
      Splits rest tokens → Splits (run ++ rest) (.text run :: tokens)

@[simp] theorem quotedAfter_nil (quoted : Bool) : quotedAfter quoted [] = quoted := rfl

theorem quotedAfter_append (quoted : Bool) (s t : List Char) :
    quotedAfter quoted (s ++ t) = quotedAfter (quotedAfter quoted s) t := by
  unfold quotedAfter
  rw [List.count_append]
  rcases Nat.mod_two_eq_zero_or_one (s.count '"') with even | odd <;>
    rcases Nat.mod_two_eq_zero_or_one (t.count '"') with even' | odd' <;> simp [Nat.add_mod, *]

theorem quotedAfter_cons (quoted : Bool) (c : Char) (s : List Char) :
    quotedAfter quoted (c :: s) = quotedAfter (if c = '"' then !quoted else quoted) s := by
  rw [← List.singleton_append, quotedAfter_append]
  by_cases quote : c = '"' <;> simp [quotedAfter, quote]

theorem quotedAfter_of_notMem (quoted : Bool) {s : List Char} (free : '"' ∉ s) : quotedAfter quoted s = quoted := by
  rw [quotedAfter, List.count_eq_zero_of_not_mem free, Nat.zero_mod, if_pos rfl]

theorem enclosed_nil (quoted : Bool) : Enclosed quoted [] := by
  intro before after split
  cases before <;> cases split

theorem enclosed_cons (quoted : Bool) (c : Char) (s : List Char) :
    Enclosed quoted (c :: s) ↔ (c = '>' → quoted = true) ∧ Enclosed (if c = '"' then !quoted else quoted) s := by
  constructor
  · intro enclosed
    constructor
    · rintro rfl
      exact enclosed [] s rfl
    · intro before after split
      have within := enclosed (c :: before) after (congrArg (c :: ·) split)
      rwa [quotedAfter_cons] at within
  · rintro ⟨here, later⟩ before after split
    cases before with
    | nil =>
      obtain ⟨rfl, rfl⟩ := List.cons.inj split
      exact here rfl
    | cons d before =>
      obtain ⟨rfl, rfl⟩ := List.cons.inj split
      rw [quotedAfter_cons]
      exact later before after rfl

theorem enclosed_append (quoted : Bool) (s t : List Char) :
    Enclosed quoted (s ++ t) ↔ Enclosed quoted s ∧ Enclosed (quotedAfter quoted s) t := by
  induction s generalizing quoted with
  | nil => simp [enclosed_nil]
  | cons c s ih => simp only [List.cons_append, enclosed_cons, ih, quotedAfter_cons, and_assoc]

theorem enclosed_of_notMem (quoted : Bool) {s : List Char} (free : '>' ∉ s) : Enclosed quoted s := by
  rintro before after rfl
  simp at free

/-- Between double quotes everything is enclosed. -/
theorem enclosed_of_no_quote {s : List Char} (free : '"' ∉ s) : Enclosed true s := by
  rintro before after rfl
  exact quotedAfter_of_notMem true fun member => free (List.mem_append_left _ member)

theorem tagBody?_of_enclosed {quoted : Bool} {body rest : List Char} (enclosed : Enclosed quoted body)
    (closed : quotedAfter quoted body = false) : tagBody? quoted (body ++ '>' :: rest) = some (body, rest) := by
  induction body generalizing quoted with
  | nil => exact if_pos ⟨rfl, closed⟩
  | cons c body ih =>
    obtain ⟨here, later⟩ := (enclosed_cons quoted c body).mp enclosed
    rw [quotedAfter_cons] at closed
    have goesOn : ¬ (c = '>' ∧ quoted = false) := by
      rintro ⟨close, outside⟩
      rw [here close] at outside
      cases outside
    rw [List.cons_append, tagBody?, if_neg goesOn, ih later closed]
    rfl

/-- A tag ends, or all there is of it is enclosed. -/
theorem tagBody?_cases (quoted : Bool) (s : List Char) :
    tagBody? quoted s = none ∧ Enclosed quoted s ∨
      ∃ body rest, s = body ++ '>' :: rest ∧ Enclosed quoted body ∧ quotedAfter quoted body = false := by
  induction s generalizing quoted with
  | nil => exact .inl ⟨rfl, enclosed_nil quoted⟩
  | cons c s ih =>
    by_cases ends : c = '>' ∧ quoted = false
    · obtain ⟨rfl, rfl⟩ := ends
      exact .inr ⟨[], s, rfl, enclosed_nil false, rfl⟩
    · have here : c = '>' → quoted = true := by
        intro close
        simpa [close] using ends
      rcases ih (if c = '"' then !quoted else quoted) with ⟨open', later⟩ | ⟨body, rest, rfl, later, closed⟩
      · refine .inl ⟨?_, (enclosed_cons quoted c s).mpr ⟨here, later⟩⟩
        rw [tagBody?, if_neg ends, open', Option.map_none]
      · refine .inr ⟨c :: body, rest, rfl, (enclosed_cons quoted c body).mpr ⟨here, later⟩, ?_⟩
        rwa [quotedAfter_cons]

theorem tagBody?_eq_none_iff {quoted : Bool} {s : List Char} : tagBody? quoted s = none ↔ Enclosed quoted s := by
  rcases tagBody?_cases quoted s with ⟨none, enclosed⟩ | ⟨body, rest, rfl, enclosed, closed⟩
  · exact iff_of_true none enclosed
  · rw [tagBody?_of_enclosed enclosed closed]
    refine iff_of_false (Option.some_ne_none _) fun whole => ?_
    rw [whole body rest rfl] at closed
    cases closed

theorem tagBody?_eq_some_iff {quoted : Bool} {s body rest : List Char} :
    tagBody? quoted s = some (body, rest) ↔
      s = body ++ '>' :: rest ∧ Enclosed quoted body ∧ quotedAfter quoted body = false := by
  constructor
  · intro found
    rcases tagBody?_cases quoted s with ⟨none, -⟩ | ⟨inner, outer, rfl, enclosed, closed⟩
    · rw [found] at none
      cases none
    · rw [tagBody?_of_enclosed enclosed closed] at found
      cases found
      exact ⟨rfl, enclosed, closed⟩
  · rintro ⟨rfl, enclosed, closed⟩
    exact tagBody?_of_enclosed enclosed closed

theorem scan_tag {body rest : List Char} (enclosed : Enclosed false body) (closed : quotedAfter false body = false) :
    scan ('<' :: (body ++ '>' :: rest)) = .tag body :: scan rest := by
  rw [scan, if_pos rfl]
  split
  · rename_i none
    rw [tagBody?_of_enclosed enclosed closed] at none
    cases none
  · rename_i found
    rw [tagBody?_of_enclosed enclosed closed] at found
    cases found
    rfl

theorem scan_unended {s : List Char} (enclosed : Enclosed false s) : scan ('<' :: s) = [.unended] := by
  rw [scan, if_pos rfl]
  split
  · rfl
  · rename_i found
    rw [tagBody?_eq_none_iff.mpr enclosed] at found
    cases found

theorem scan_text {run rest : List Char} (some : run ≠ []) (free : '<' ∉ run) (tag : ∀ c ∈ rest.head?, c = '<') :
    scan (run ++ rest) = .text run :: scan rest := by
  obtain ⟨c, run, rfl⟩ := List.exists_cons_of_ne_nil some
  rw [List.mem_cons, not_or] at free
  have inside : ∀ x ∈ run, decide (x ≠ '<') = true := by
    intro x member
    exact decide_eq_true fun same => free.2 (same ▸ member)
  have stops : ∀ d ∈ rest.head?, decide (d ≠ '<') = false := by
    intro d first
    simp [tag d first]
  rw [List.cons_append, scan, if_neg (Ne.symm free.1), Text.takeWhile_append_of_head inside stops,
    Text.dropWhile_append_of_head inside stops]

theorem Splits.scan_eq {s : List Char} {tokens : List Token} (splits : Splits s tokens) : scan s = tokens := by
  induction splits with
  | nil => rw [scan]
  | tag enclosed closed _ ih => rw [scan_tag enclosed closed, ih]
  | unended enclosed => exact scan_unended enclosed
  | text some free tag _ ih => rw [scan_text some free tag, ih]

theorem splits_scan (s : List Char) : Splits s (scan s) := by
  fun_induction scan s with
  | case1 => exact .nil
  | case2 cs none => exact .unended (tagBody?_eq_none_iff.mp none)
  | case3 cs body rest found ih =>
    obtain ⟨rfl, enclosed, closed⟩ := tagBody?_eq_some_iff.mp found
    exact .tag enclosed closed ih
  | case4 c cs other ih =>
    have parts : c :: cs = (c :: cs.takeWhile (· ≠ '<')) ++ cs.dropWhile (· ≠ '<') := by
      rw [List.cons_append, List.takeWhile_append_dropWhile]
    have free : '<' ∉ c :: cs.takeWhile (· ≠ '<') := by
      rw [List.mem_cons, not_or]
      refine ⟨Ne.symm other, fun member => ?_⟩
      simpa using List.all_eq_true.mp List.all_takeWhile _ member
    have tag : ∀ d ∈ (cs.dropWhile (· ≠ '<')).head?, d = '<' := by
      intro d first
      simpa using Text.head?_dropWhile_not first
    have run := Splits.text (List.cons_ne_nil c _) free tag ih
    rwa [← parts] at run

theorem splits_iff {s : List Char} {tokens : List Token} : Splits s tokens ↔ tokens = scan s := by
  constructor
  · exact fun splits => splits.scan_eq.symm
  · rintro rfl
    exact splits_scan s

end PocketReader.Markup
