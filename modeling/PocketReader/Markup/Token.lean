/-! Markup cut into tags and the text between them. A tag runs from `<` to the first `>` outside double quotes. -/
namespace PocketReader.Markup

inductive Token where
  /-- A run of text up to the next tag. -/
  | text (run : List Char)
  /-- What is between the angle brackets. -/
  | tag (body : List Char)
  /-- A tag that does not end. -/
  | unended
  deriving DecidableEq

/-- The body of a tag and what follows it; `quoted` says whether a double quote is open. -/
def tagBody? (quoted : Bool) : List Char → Option (List Char × List Char)
  | [] => none
  | c :: cs =>
    if c = '>' ∧ quoted = false then some ([], cs)
    else (tagBody? (if c = '"' then !quoted else quoted) cs).map fun (body, rest) => (c :: body, rest)

theorem length_tagBody? {quoted : Bool} {s body rest : List Char} (h : tagBody? quoted s = some (body, rest)) :
    body.length + rest.length + 1 = s.length := by
  induction s generalizing quoted body with
  | nil => cases h
  | cons c cs ih =>
    unfold tagBody? at h
    split at h
    · cases h
      simp
    · obtain ⟨⟨inner, _⟩, found, same⟩ := Option.map_eq_some_iff.mp h
      cases same
      have := ih found
      simp only [List.length_cons]
      omega

/-- The tokens of a text, in order; nothing follows a tag that does not end. -/
def scan : List Char → List Token
  | [] => []
  | c :: cs =>
    if c = '<' then
      match _ : tagBody? false cs with
      | none => [.unended]
      | some (body, rest) => .tag body :: scan rest
    else .text (c :: cs.takeWhile (· ≠ '<')) :: scan (cs.dropWhile (· ≠ '<'))
termination_by s => s.length
decreasing_by
  · have := length_tagBody? ‹_›
    simp only [List.length_cons]
    omega
  · have := (List.dropWhile_sublist (l := cs) fun x => decide (x ≠ '<')).length_le
    simp only [List.length_cons]
    omega

end PocketReader.Markup
