import PocketReader.Proofs.Page.Generations

/-! The handles that are given out in the life of a document. No handle is given out twice, each finds the node it was
given out for as long as it finds one, and a handle that has lost its node finds nothing any more. -/
namespace PocketReader.Document

/-- What a replacement leaves to be found is new, or it was there before. -/
theorem Replaced.found_before {before after : Document} {p h : Handle} {forest : Forest Content}
    {f g : Forest Located}
    {next : Node} (replaced : Replaced before after p forest f g) (found : after.get? h = some next)
    (old : h ∉ g.handles) : ∃ node, before.get? h = some node ∧ node.content = next.content := by
  by_cases here : h = p
  · subst here
    rw [replaced.parent, Option.map_eq_some_iff] at found
    obtain ⟨node, there, rfl⟩ := found
    exact ⟨node, there, rfl⟩
  · have above : h ∉ (f.under p).handles := by
      intro below
      rw [(replaced.spent h below).get?_eq_none] at found
      cases found
    rw [replaced.same h here above old] at found
    exact ⟨next, found, rfl⟩

structure Replacement where
  parent : Handle
  forest : Forest Content
  deriving DecidableEq

/-- A document and all handles given out for it so far, each with what was stored under it. -/
structure Course where
  document : Document
  issued : List Located

namespace Course

def start (forest : Forest Content) : Course := ⟨ofForest forest, issuedBy {} forest⟩

def replace (c : Course) (r : Replacement) : Course :=
  ⟨(c.document.replaceChildren? r.parent r.forest).getD c.document,
    c.issued ++ c.document.issuedFor r.parent r.forest⟩

def run (c : Course) (replacements : List Replacement) : Course := replacements.foldl replace c

theorem run_append (c : Course) (first second : List Replacement) :
    c.run (first ++ second) = (c.run first).run second := List.foldl_append

/-- After so many replacements, each handle that was given out finds its node, or belongs to an earlier generation. -/
structure Accounted (c : Course) (count : Nat) : Prop where
  reachable : c.document.Reachable
  young : c.document.Young count
  once : (c.issued.map Located.handle).Nodup
  known : ∀ h node, c.document.get? h = some node → ⟨h, node.content⟩ ∈ c.issued
  bound : ∀ n ∈ c.issued,
    (∃ node, c.document.get? n.handle = some node ∧ node.content = n.content) ∨ c.document.Outlived n.handle

theorem accounted_start (forest : Forest Content) : (start forest).Accounted 0 := by
  obtain ⟨g, -, represents, issued⟩ := represents_issued forest
  refine ⟨.ofForest forest, young_ofForest forest, (issued.map _).nodup_iff.mpr represents.nodup, ?_, ?_⟩
  · intro h node found
    obtain ⟨n, inside, rfl⟩ := List.mem_map.mp (represents.mem_of_get? found)
    obtain ⟨children, there, -⟩ := represents.holds.get? inside
    rw [show (start forest).document = ofForest forest from rfl, there, Option.some.injEq] at found
    subst found
    exact issued.mem_iff.mpr inside
  · intro n given
    obtain ⟨children, there, -⟩ := represents.holds.get? (issued.mem_iff.mp given)
    exact .inl ⟨_, there, rfl⟩

theorem replace_of_lost {c : Course} {r : Replacement} (lost : c.document.get? r.parent = none) :
    c.replace r = c := by
  simp only [replace, replaceChildren?, issuedFor, lost, Option.map_none, Option.getD_none, List.append_nil]

section

variable {c : Course} {count : Nat} (accounted : c.Accounted count) (few : count + 1 < UInt32.size) {r : Replacement}
  {after : Document} {f g : Forest Located} (result : c.document.replaceChildren? r.parent r.forest = some after)
  (replaced : Replaced c.document after r.parent r.forest f g)

include accounted few result in
theorem Accounted.outlived {h : Handle} (gone : c.document.Outlived h) : after.Outlived h := by
  have later := gone.replace accounted.young few r.parent r.forest
  rwa [result, Option.getD_some] at later

include replaced

include accounted few result in
/-- A handle that was given out before finds its node before the replacement, or finds none after it. -/
theorem Accounted.notMem_new {n : Located} (early : n ∈ c.issued) : n.handle ∉ g.handles := by
  intro late
  rcases accounted.bound n early with ⟨node, found, -⟩ | gone
  · rw [replaced.fresh n.handle late] at found
    cases found
  · obtain ⟨node, found⟩ := replaced.holds.exists_get? late
    rw [(accounted.outlived few result gone).get?_eq_none] at found
    cases found

include accounted in
theorem Accounted.known_after {h : Handle} {next : Node} (found : after.get? h = some next) :
    ⟨h, next.content⟩ ∈ c.issued ++ g.preorder := by
  rw [List.mem_append]
  by_cases new : h ∈ g.handles
  · obtain ⟨n, inside, rfl⟩ := List.mem_map.mp new
    obtain ⟨children, also, -⟩ := replaced.holds.get? inside
    rw [found, Option.some.injEq] at also
    subst also
    exact .inr inside
  · obtain ⟨node, before, same⟩ := replaced.found_before found new
    exact .inl (same ▸ accounted.known h node before)

include accounted few result in
theorem Accounted.bound_after {n : Located} (listed : n ∈ c.issued ++ g.preorder) :
    (∃ node, after.get? n.handle = some node ∧ node.content = n.content) ∨ after.Outlived n.handle := by
  rcases List.mem_append.mp listed with early | late
  · rcases accounted.bound n early with ⟨node, found, same⟩ | gone
    · cases still : after.get? n.handle with
      | none =>
        have lost := outlived_of_lost accounted.young few accounted.reachable found r.parent r.forest
        rw [result, Option.getD_some] at lost
        exact .inr (lost still)
      | some next =>
        obtain ⟨also, before, content⟩ := replaced.found_before still (accounted.notMem_new few result replaced early)
        rw [found, Option.some.injEq] at before
        subst before
        exact .inl ⟨next, rfl, content.symm.trans same⟩
    · exact .inr (accounted.outlived few result gone)
  · obtain ⟨children, found, -⟩ := replaced.holds.get? late
    exact .inl ⟨_, found, rfl⟩

end

theorem Accounted.replace {c : Course} {count : Nat} (accounted : c.Accounted count) (few : count + 1 < UInt32.size)
    (r : Replacement) : (c.replace r).Accounted (count + 1) := by
  cases there : c.document.get? r.parent with
  | none =>
    rw [replace_of_lost there]
    exact { accounted with young := accounted.young.mono (Nat.le_succ count) }
  | some target =>
    obtain ⟨after, g, result, replaced, given⟩ := accounted.reachable.represents.replace_issued there r.forest
    have document : (c.replace r).document = after := by rw [Course.replace, result, Option.getD_some]
    have issued : (c.replace r).issued.Perm (c.issued ++ g.preorder) := given.append_left c.issued
    refine ⟨.replace r.parent r.forest accounted.reachable, accounted.young.replace r.parent r.forest, ?_, ?_, ?_⟩
    · rw [(issued.map _).nodup_iff, List.map_append, List.nodup_append]
      refine ⟨accounted.once, replaced.nodup, ?_⟩
      rintro h early _ late rfl
      obtain ⟨n, listed, rfl⟩ := List.mem_map.mp early
      exact accounted.notMem_new few result replaced listed late
    · intro h node found
      rw [document] at found
      exact issued.mem_iff.mpr (accounted.known_after replaced found)
    · intro n listed
      rw [document]
      exact accounted.bound_after few result replaced (issued.mem_iff.mp listed)

theorem Accounted.run {c : Course} {count : Nat} (accounted : c.Accounted count) (replacements : List Replacement)
    (few : count + replacements.length < UInt32.size) :
    (c.run replacements).Accounted (count + replacements.length) := by
  induction replacements generalizing c count with
  | nil => exact accounted
  | cons r rest ih =>
    rw [List.length_cons] at few ⊢
    have next := ih (accounted.replace (by omega) r) (by omega)
    rwa [Nat.add_assoc, Nat.add_comm 1] at next

theorem Accounted.outlived_run {c : Course} {count : Nat} (accounted : c.Accounted count)
    (replacements : List Replacement) (few : count + replacements.length < UInt32.size) {h : Handle}
    (gone : c.document.Outlived h) : (c.run replacements).document.Outlived h := by
  induction replacements generalizing c count with
  | nil => exact gone
  | cons r rest ih =>
    rw [List.length_cons] at few
    have first : count + 1 < UInt32.size := by omega
    exact ih (accounted.replace first r) (by omega) (gone.replace accounted.young first r.parent r.forest)

end Course

/-- Fewer replacements than generations give out no handle twice. Whatever is found was given out, a handle finds what
was stored under it, and one that finds nothing is good for nothing for the rest of the run. -/
theorem issued_once (forest : Forest Content) (earlier later : List Replacement)
    (few : earlier.length + later.length < UInt32.size) :
    let now := (Course.start forest).run earlier
    let last := now.run later
    (last.issued.map Located.handle).Nodup ∧
    (∀ h node, now.document.get? h = some node → ⟨h, node.content⟩ ∈ now.issued) ∧
    ∀ n ∈ now.issued,
      (∀ node, now.document.get? n.handle = some node → node.content = n.content) ∧
      (now.document.get? n.handle = none →
        last.document.get? n.handle = none ∧ last.document.children n.handle = [] ∧
          last.document.textLines n.handle = [] ∧ ∀ trees, last.document.replaceChildren? n.handle trees = none) := by
  intro now last
  have before := (Course.accounted_start forest).run earlier (by omega)
  have after := before.run later (by omega)
  refine ⟨after.once, before.known, fun n given => ⟨?_, ?_⟩⟩
  · intro node found
    rcases before.bound n given with ⟨also, there, same⟩ | gone
    · rw [found, Option.some.injEq] at there
      rwa [there]
    · rw [gone.get?_eq_none] at found
      cases found
  · intro lost
    rcases before.bound n given with ⟨node, there, -⟩ | gone
    · rw [lost] at there
      cases there
    · have never : last.document.get? n.handle = none := (before.outlived_run later (by omega) gone).get?_eq_none
      simp [children, textLines, replaceChildren?, never]

/-- A slot is used three times. -/
theorem issued_once_refilled :
    let page : Forest Content := .single { kind := .body } (.single { kind := .container } .nil)
    let earlier : List Replacement := [⟨⟨1, 0⟩, .single { kind := .link } .nil⟩]
    let later : List Replacement := [⟨⟨0, 0⟩, .nil⟩, ⟨⟨1, 0⟩, .single (.text ["last"]) .nil⟩]
    let last := ((Course.start page).run earlier).run later
    last.issued.map Located.handle = [⟨0, 0⟩, ⟨1, 0⟩, ⟨0, 1⟩, ⟨0, 2⟩] ∧ (last.issued.map Located.handle).Nodup ∧
      last.document.textLines ⟨0, 2⟩ = ["last"] ∧ last.document.get? ⟨0, 0⟩ = none ∧
      last.document.replaceChildren? ⟨0, 0⟩ .nil = none := by
  intro page earlier later last
  obtain ⟨once, -, bound⟩ := issued_once page earlier later (by decide)
  obtain ⟨-, lost⟩ := bound ⟨⟨0, 0⟩, { kind := .container }⟩ (by decide)
  obtain ⟨gone, -, -, fixed⟩ := lost (by decide)
  exact ⟨by decide, once, by decide, gone, fixed .nil⟩

end PocketReader.Document
