import PocketReader.Page.Content
import PocketReader.Text.Blank

/-! The inside of a tag: a name, then attributes whose values stand in double quotes. -/
namespace PocketReader.Markup

open PocketReader.Text

/-- One attribute and what follows it. The name is all before the equals sign, without the blanks around it. -/
def attribute? (s : List Char) : Option ((List Char × List Char) × List Char) :=
  match s.dropWhile (· ≠ '=') with
  | [] => none
  | _ :: afterSign =>
    match trimStart afterSign with
    | '"' :: value =>
      match value.dropWhile (· ≠ '"') with
      | [] => none
      | _ :: rest => some ((trim (s.takeWhile (· ≠ '=')), value.takeWhile (· ≠ '"')), rest)
    | _ => none

theorem length_attribute? {s rest : List Char} {a : List Char × List Char} (h : attribute? s = some (a, rest)) :
    rest.length < s.length := by
  unfold attribute? at h
  split at h
  · cases h
  · rename_i afterSign sign
    split at h
    · rename_i value quote
      split at h
      · cases h
      · rename_i close
        cases h
        have first := (List.dropWhile_sublist (l := s) fun x => decide (x ≠ '=')).length_le
        have second := (List.dropWhile_sublist (l := afterSign) isBlank).length_le
        have third := (List.dropWhile_sublist (l := value) fun x => decide (x ≠ '"')).length_le
        rw [sign] at first
        rw [close] at third
        rw [trimStart] at quote
        rw [quote] at second
        simp only [List.length_cons] at first second third
        omega
    · cases h

def attributes? (s : List Char) : Option (List (String × String)) :=
  if (trimStart s).isEmpty then some []
  else
    match _ : attribute? (trimStart s) with
    | none => none
    | some ((name, value), rest) =>
      (attributes? rest).map fun others => (String.ofList name, String.ofList value) :: others
termination_by s.length
decreasing_by
  have := length_attribute? ‹_›
  have := (List.dropWhile_sublist (l := s) isBlank).length_le
  rw [← trimStart] at this
  omega

/-- What an opening tag says of its node; `none` when it cannot be read or its name is unknown. -/
def readTag? (body : List Char) : Option Content :=
  let body := trim body
  match Kind.ofTag? (String.ofList (body.takeWhile fun c => !isBlank c)) with
  | none => none
  | some kind =>
    (attributes? (body.dropWhile fun c => !isBlank c)).map fun attributes =>
      attributes.foldl (fun content (name, value) => content.withAttribute name value) { kind }

end PocketReader.Markup
