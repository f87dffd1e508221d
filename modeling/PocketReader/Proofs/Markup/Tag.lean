import PocketReader.Markup.Tag
import PocketReader.Proofs.Text.Blank

/-! What the inside of a tag says. A tag can be read exactly when it is a known name and then attributes, each of them
a name, an equals sign and a value in double quotes, with blanks wherever these meet. -/
namespace PocketReader.Markup

open PocketReader.Text

/-- A text lists attributes. A name may be empty and may have blanks inside. -/
inductive Lists : List Char → List (String × String) → Prop
  | nil {gap : List Char} : Blank gap → Lists gap []
  | cons {before name between after value rest : List Char} {others : List (String × String)} : Blank before →
      Trimmed name → '=' ∉ name → Blank between → Blank after → '"' ∉ value → Lists rest others →
      Lists (before ++ (name ++ between) ++ '=' :: (after ++ '"' :: (value ++ '"' :: rest)))
        ((String.ofList name, String.ofList value) :: others)

/-- An element as it is read: the first attribute named `id` names it. -/
def element (kind : Kind) (attributes : List (String × String)) : Content :=
  { kind, id? := attributes.lookup "id", attributes }

inductive Describes : List Char → Content → Prop
  | intro {before name rest : List Char} {kind : Kind} {attributes : List (String × String)} : Blank before →
      (∀ c ∈ name, isBlank c = false) → Kind.ofTag? (String.ofList name) = some kind →
      (∀ c ∈ rest.head?, isBlank c = true) → Lists rest attributes →
      Describes (before ++ (name ++ rest)) (element kind attributes)

section

variable {x : Char} {s : List Char}

theorem takeWhile_ne_append (free : x ∉ s) (t : List Char) : (s ++ x :: t).takeWhile (· ≠ x) = s := by
  refine takeWhile_append_of_head (fun c member => ?_) (by simp)
  exact decide_eq_true fun same => free (same ▸ member)

theorem dropWhile_ne_append (free : x ∉ s) (t : List Char) : (s ++ x :: t).dropWhile (· ≠ x) = x :: t := by
  refine dropWhile_append_of_head (fun c member => ?_) (by simp)
  exact decide_eq_true fun same => free (same ▸ member)

/-- A text up to the first of some character, and from there on. -/
theorem split_of_dropWhile_ne {c : Char} {t : List Char} (found : s.dropWhile (· ≠ x) = c :: t) :
    s = s.takeWhile (· ≠ x) ++ x :: t ∧ x ∉ s.takeWhile (· ≠ x) := by
  have same : c = x := by
    simpa using head?_dropWhile_not (show c ∈ (s.dropWhile (· ≠ x)).head? by rw [found]; rfl)
  refine ⟨?_, fun member => ?_⟩
  · rw [← same, ← found, same, List.takeWhile_append_dropWhile]
  · simpa using List.all_eq_true.mp List.all_takeWhile _ member

end

theorem attribute?_eq_some_iff {s name value rest : List Char} :
    attribute? s = some ((name, value), rest) ↔
      ∃ raw after, s = raw ++ '=' :: (after ++ '"' :: (value ++ '"' :: rest)) ∧ '=' ∉ raw ∧ Blank after ∧
        '"' ∉ value ∧ trim raw = name := by
  constructor
  · intro found
    unfold attribute? at found
    split at found
    · cases found
    · rename_i c afterSign sign
      split at found
      · rename_i quoted quote
        split at found
        · cases found
        · rename_i d after close
          cases found
          obtain ⟨whole, free⟩ := split_of_dropWhile_ne sign
          obtain ⟨inner, bare⟩ := split_of_dropWhile_ne close
          obtain ⟨gap, blank, start, -⟩ := exists_trimStart afterSign
          refine ⟨s.takeWhile (· ≠ '='), gap, ?_, free, blank, bare, rfl⟩
          rw [← inner, ← quote, ← start, ← whole]
      · cases found
  · rintro ⟨raw, after, rfl, free, blank, bare, rfl⟩
    have quote : trimStart (after ++ '"' :: (value ++ '"' :: rest)) = '"' :: (value ++ '"' :: rest) := by
      rw [trimStart_append_of_blank blank]
      exact trimStart_of_head (by simp [isBlank, blanks])
    simp only [attribute?, dropWhile_ne_append free, takeWhile_ne_append free, quote, dropWhile_ne_append bare,
      takeWhile_ne_append bare]

theorem attributes?_of_blank {s : List Char} (blank : Blank s) : attributes? s = some [] := by
  have nothing : trimStart s = [] := List.dropWhile_eq_nil_iff.mpr blank
  rw [attributes?, nothing]
  rfl

theorem attributes?_of_attribute? {s rest : List Char} {name value : List Char} {others : List (String × String)}
    (first : attribute? (trimStart s) = some ((name, value), rest)) (later : attributes? rest = some others) :
    attributes? s = some ((String.ofList name, String.ofList value) :: others) := by
  have some : (trimStart s).isEmpty = false := by
    cases text : trimStart s with
    | nil =>
      rw [text] at first
      cases first
    | cons c cs => rfl
  rw [attributes?, some, if_neg Bool.false_ne_true]
  split
  · rename_i none
    rw [first] at none
    cases none
  · rename_i found
    rw [first] at found
    cases found
    rw [later, Option.map_some]

theorem Lists.attributes?_eq {s : List Char} {attributes : List (String × String)} (lists : Lists s attributes) :
    attributes? s = some attributes := by
  induction lists with
  | nil blank => exact attributes?_of_blank blank
  | @cons before name between after value rest others blank trimmed free gap empty bare _ ih =>
    refine attributes?_of_attribute? (attribute?_eq_some_iff.mpr ?_) ih
    refine ⟨trimStart (before ++ (name ++ between)), after, trimStart_append_cons (by decide), ?_, empty, bare, ?_⟩
    · intro member
      have inside := (List.dropWhile_sublist isBlank).subset member
      simp only [List.mem_append] at inside
      rcases inside with early | here | late
      · exact absurd (blank _ early) (by decide)
      · exact free here
      · exact absurd (gap _ late) (by decide)
    · rw [trim_trimStart, trim_append blank gap trimmed]

theorem lists_of_attributes? {s : List Char} {attributes : List (String × String)}
    (found : attributes? s = some attributes) : Lists s attributes := by
  fun_induction attributes? s generalizing attributes with
  | case1 s empty =>
    cases found
    exact .nil (List.dropWhile_eq_nil_iff.mp (List.isEmpty_iff.mp empty))
  | case2 s some none => cases found
  | case3 s some name value rest first ih =>
    obtain ⟨others, later, rfl⟩ := Option.map_eq_some_iff.mp found
    obtain ⟨gap, blank, start, -⟩ := exists_trimStart s
    obtain ⟨raw, after, sign, free, empty, bare, rfl⟩ := attribute?_eq_some_iff.mp first
    obtain ⟨before, between, early, late, trimmed, parts⟩ := exists_trim raw
    have inside : '=' ∉ trim raw := by
      intro member
      rw [parts] at free
      simp [member] at free
    have listed := Lists.cons (blank.append early) trimmed inside late empty bare (ih later)
    rwa [List.append_assoc gap before, ← parts, List.append_assoc, ← sign, ← start] at listed

theorem attributes?_eq_some_iff {s : List Char} {attributes : List (String × String)} :
    attributes? s = some attributes ↔ Lists s attributes :=
  ⟨lists_of_attributes?, Lists.attributes?_eq⟩

theorem Lists.append_blank {s gap : List Char} {attributes : List (String × String)} (lists : Lists s attributes)
    (blank : Blank gap) : Lists (s ++ gap) attributes := by
  induction lists with
  | nil empty => exact .nil (empty.append blank)
  | cons early trimmed free late empty bare _ ih =>
    simp only [List.append_assoc, List.cons_append]
    have listed := Lists.cons early trimmed free late empty bare ih
    rwa [List.append_assoc, List.append_assoc] at listed

theorem Lists.trimEnd {s : List Char} {attributes : List (String × String)} (lists : Lists s attributes) :
    Lists (Text.trimEnd s) attributes := by
  induction lists with
  | nil blank => exact .nil fun c member => blank c ((List.rdropWhile_prefix isBlank _).subset member)
  | cons early trimmed free late empty bare _ ih =>
    rw [trimEnd_append_cons (by decide), trimEnd_append_cons (by decide), trimEnd_append_cons (by decide)]
    exact .cons early trimmed free late empty bare ih

/-- An attribute is looked up among those read before it first. -/
theorem foldl_withAttribute (content : Content) (attributes : List (String × String)) :
    attributes.foldl (fun content (name, value) => content.withAttribute name value) content =
      { content with
        id? := content.id?.or (attributes.lookup "id")
        attributes := content.attributes ++ attributes } := by
  induction attributes generalizing content with
  | nil => simp
  | cons pair attributes ih =>
    obtain ⟨name, value⟩ := pair
    rw [List.foldl_cons, ih, List.lookup_cons]
    by_cases names : name = "id"
    · subst names
      cases named : content.id? <;> simp [Content.withAttribute, named]
    · have other : ("id" == name) = false := beq_false_of_ne (Ne.symm names)
      simp [Content.withAttribute, names, other]

theorem describes_of_readTag? {body : List Char} {content : Content} (found : readTag? body = some content) :
    Describes body content := by
  unfold readTag? at found
  dsimp only at found
  split at found
  · cases found
  · rename_i kind known
    obtain ⟨attributes, listed, rfl⟩ := Option.map_eq_some_iff.mp found
    obtain ⟨before, after, blank, empty, -, whole⟩ := exists_trim body
    obtain ⟨parts, solid, gap⟩ := exists_word (trim body)
    have starts : ∀ c ∈ ((trim body).dropWhile (fun c => !isBlank c) ++ after).head?, isBlank c = true := by
      intro c first
      rw [List.head?_append, Option.mem_def, Option.or_eq_some_iff] at first
      rcases first with inside | ⟨-, outside⟩
      · exact gap c inside
      · exact empty c (List.mem_of_mem_head? outside)
    have lists := (attributes?_eq_some_iff.mp listed).append_blank empty
    have described := Describes.intro blank solid known starts lists
    rw [← List.append_assoc (List.takeWhile _ _), ← parts, ← whole] at described
    rwa [foldl_withAttribute]

theorem Describes.readTag?_eq {body : List Char} {content : Content} (describes : Describes body content) :
    readTag? body = some content := by
  cases describes with
  | @intro before name rest kind attributes blank solid known gap lists =>
    have some : name ≠ [] := by
      rintro rfl
      cases known
    have inside : ∀ c ∈ name, (!isBlank c) = true := by
      intro c member
      rw [solid c member]
      rfl
    have stops : ∀ c ∈ (Text.trimEnd rest).head?, (!isBlank c) = false := by
      intro c first
      obtain ⟨after, -, whole, -⟩ := exists_trimEnd rest
      rw [gap c (by rw [whole, List.head?_append, Option.mem_def, first, Option.some_or])]
      rfl
    simp only [readTag?, trim_append_word blank some solid, takeWhile_append_of_head inside stops,
      dropWhile_append_of_head inside stops, known, attributes?_eq_some_iff.mpr lists.trimEnd, Option.map_some,
      foldl_withAttribute]
    rfl

theorem readTag?_eq_some_iff {body : List Char} {content : Content} :
    readTag? body = some content ↔ Describes body content :=
  ⟨describes_of_readTag?, Describes.readTag?_eq⟩

/-- A tag that can be read has the name of its kind. -/
theorem Describes.exists_name {body : List Char} {content : Content} (describes : Describes body content) :
    ∃ name, trim name = name ∧ Kind.ofTag? (String.ofList name) = some content.kind := by
  cases describes with
  | intro _ solid known _ _ => exact ⟨_, trim_of_trimmed (trimmed_of_solid solid), known⟩

end PocketReader.Markup
