import Mathlib.Data.List.Infix
import PocketReader.Navigation

/-! What the requests of a reader do to the pages it visited. While the page in place stays, going back makes those
visited fewer and nothing else changes them; so the latest of them is the page in place, or where going back led to
since that page was loaded. -/
namespace PocketReader

namespace Navigation

/-- A page asked for by going back is the latest of those visited. -/
def BackToLatest (n : Navigation) : Prop :=
  ∀ visit, n.pending? = some visit → visit.back → n.visited.head? = some visit.path

theorem backToLatest_of_no_pending {n : Navigation} (free : n.pending? = none) : n.BackToLatest := by
  intro visit asked
  rw [free] at asked
  cases asked

/-- A load that is completed leaves its page the latest of those visited. -/
theorem latest_complete {n : Navigation} {visit : Visit} (back : visit.back → n.visited.head? = some visit.path) :
    (n.complete visit).visited.head? = (n.complete visit).current? := by
  unfold complete
  cases direction : visit.back with
  | false => rfl
  | true => exact back direction

/-- The page in place stays, and the latest of the pages visited may be forgotten. -/
structure Recedes (n m : Navigation) : Prop where
  current : m.current? = n.current?
  visited : m.visited <:+ n.visited
  back : n.BackToLatest → m.BackToLatest

namespace Recedes

theorem refl (n : Navigation) : n.Recedes n := ⟨rfl, List.suffix_refl _, id⟩

theorem trans {n m l : Navigation} (first : n.Recedes m) (second : m.Recedes l) : n.Recedes l :=
  ⟨second.current.trans first.current, second.visited.trans first.visited, second.back ∘ first.back⟩

end Recedes

theorem recedes_requestLoad (n : Navigation) (path : String) : n.Recedes (n.requestLoad path) := by
  refine ⟨rfl, List.suffix_refl _, ?_⟩
  intro _ visit asked back
  have forward : ({ path } : Visit) = visit := Option.some.inj asked
  rw [← forward] at back
  cases back

theorem recedes_activate (n : Navigation) (content : Content) : n.Recedes (n.activate content) := by
  unfold activate
  split
  · cases content.attribute? "href" with
    | none => exact .refl n
    | some path => exact n.recedes_requestLoad path
  · cases content.attribute? "onclick" with
    | none => exact .refl n
    | some source => exact ⟨rfl, List.suffix_refl _, id⟩
  · exact .refl n

theorem recedes_interact (n : Navigation) (d : Document) (selected? : Option Handle) :
    n.Recedes (n.interact d selected?) := by
  unfold interact
  split
  · exact .refl n
  · exact n.recedes_activate _

theorem recedes_goBack (n : Navigation) : n.Recedes n.goBack := by
  unfold goBack
  split
  · rename_i latest previous earlier visited
    -- The latest page is forgotten here, when it is asked for, and not when the load is completed.
    refine ⟨rfl, visited ▸ List.suffix_cons latest _, ?_⟩
    intro _ visit asked _
    have latest : ({ path := previous, back := true } : Visit) = visit := Option.some.inj asked
    rw [← latest]
    rfl
  · exact .refl n

theorem recedes_take (n : Navigation) : n.Recedes n.take.2 := by
  unfold take
  split
  · exact ⟨rfl, List.suffix_refl _, fun _ => backToLatest_of_no_pending rfl⟩
  · exact ⟨rfl, List.suffix_refl _, id⟩

theorem take_of_pending {n : Navigation} {visit : Visit} (asked : n.pending? = some visit) :
    n.take = (some (.load visit), { n with pending? := none, callback? := none }) := by
  rw [take, asked]

theorem take_of_no_pending {n : Navigation} (free : n.pending? = none) :
    n.take = (n.callback?.map .callback, { n with callback? := none }) := by
  rw [take, free]

theorem visited_take (n : Navigation) : n.take.2.visited = n.visited := by
  unfold take
  split <;> rfl

theorem visited_interact (n : Navigation) (d : Document) (selected? : Option Handle) :
    (n.interact d selected?).visited = n.visited := by
  unfold interact activate
  split
  · rfl
  · rename_i node _
    split
    · cases node.content.attribute? "href" <;> rfl
    · cases node.content.attribute? "onclick" <;> rfl
    · rfl

/-- What can happen to what is asked for: a request of one of four kinds, or one is met. -/
inductive Operation where
  | requestLoad (path : String)
  | requestCallback (source : String)
  | interact (d : Document) (selected? : Option Handle)
  | goBack
  | meet

/-- The next request is met; a load that is taken is completed at once. -/
def meet (n : Navigation) : Navigation :=
  match n.take with
  | (some (.load visit), n) => n.complete visit
  | (_, n) => n

def perform (n : Navigation) : Operation → Navigation
  | .requestLoad path => n.requestLoad path
  | .requestCallback source => n.requestCallback source
  | .interact d selected? => n.interact d selected?
  | .goBack => n.goBack
  | .meet => n.meet

def run (n : Navigation) (operations : List Operation) : Navigation := operations.foldl perform n

/-- The page that going back led to last, if it led anywhere since the page in place was loaded. -/
def retreat (retreat? : Option String) (n : Navigation) : Operation → Option String
  | .goBack => n.visited[1]?.or retreat?
  | .meet => if n.pending?.isSome then none else retreat?
  | .requestLoad _ | .requestCallback _ | .interact .. => retreat?

def retreatOf (retreat? : Option String) (n : Navigation) : List Operation → Option String
  | [] => retreat?
  | operation :: operations => retreatOf (retreat retreat? n operation) (n.perform operation) operations

/-- The latest of the pages visited is the one going back led to, or else the page in place. -/
structure Tracks (n : Navigation) (retreat? : Option String) : Prop where
  latest : n.visited.head? = retreat?.or n.current?
  back : n.BackToLatest

theorem meet_of_pending {n : Navigation} {visit : Visit} (asked : n.pending? = some visit) :
    n.meet = { n with pending? := none, callback? := none }.complete visit := by
  rw [meet, take_of_pending asked]

theorem meet_of_no_pending {n : Navigation} (free : n.pending? = none) : n.meet = { n with callback? := none } := by
  rw [meet, take_of_no_pending free]
  cases n.callback? <;> rfl

/-- With a page to go back to, that page is asked for and is the latest from then on. -/
theorem goBack_of_two {n : Navigation} {latest previous : String} {earlier : List String}
    (two : n.visited = latest :: previous :: earlier) :
    n.goBack = { n with visited := previous :: earlier }.await { path := previous, back := true } := by
  rw [goBack, two]

theorem goBack_of_one {n : Navigation} (one : n.visited[1]? = none) : n.goBack = n := by
  unfold goBack
  split
  · rename_i visited
    rw [visited] at one
    cases one
  · rfl

namespace Tracks

variable {n : Navigation} {retreat? : Option String} (tracks : n.Tracks retreat?)

include tracks

theorem recede {m : Navigation} (recedes : n.Recedes m) (visited : m.visited = n.visited) : m.Tracks retreat? := by
  refine ⟨?_, recedes.back tracks.back⟩
  rw [visited, recedes.current]
  exact tracks.latest

theorem goBack : n.goBack.Tracks (n.visited[1]?.or retreat?) := by
  refine ⟨?_, n.recedes_goBack.back tracks.back⟩
  match two : n.visited with
  | latest :: previous :: earlier =>
    rw [goBack_of_two two]
    rfl
  | [] | [_] =>
    have one : n.visited[1]? = none := by rw [two]; rfl
    rw [goBack_of_one one, tracks.latest]
    rfl

theorem meet : n.meet.Tracks (if n.pending?.isSome then none else retreat?) := by
  cases asked : n.pending? with
  | none =>
    rw [meet_of_no_pending asked]
    exact ⟨tracks.latest, backToLatest_of_no_pending asked⟩
  | some visit =>
    rw [meet_of_pending asked]
    refine ⟨latest_complete fun back => tracks.back visit asked back, ?_⟩
    exact backToLatest_of_no_pending rfl

theorem perform (operation : Operation) : (n.perform operation).Tracks (retreat retreat? n operation) := by
  cases operation with
  | requestLoad path => exact tracks.recede (n.recedes_requestLoad path) rfl
  | requestCallback source => exact ⟨tracks.latest, tracks.back⟩
  | interact d selected? => exact tracks.recede (n.recedes_interact d selected?) (n.visited_interact d selected?)
  | goBack => exact tracks.goBack
  | meet => exact tracks.meet

theorem run (operations : List Operation) : (n.run operations).Tracks (retreatOf retreat? n operations) := by
  induction operations generalizing n retreat? with
  | nil => exact tracks
  | cons operation operations ih => exact ih (tracks.perform operation)

end Tracks

theorem tracks_start : ({} : Navigation).Tracks none := ⟨rfl, backToLatest_of_no_pending rfl⟩

/-- Going back after a page was followed by another leads to that page, unless going back was asked for while it was
in place; then it leads to where that would have led. -/
theorem goBack_after_forward (operations : List Operation) {path current : String} :
    let n := ({} : Navigation).run operations
    n.pending? = some { path } → n.current? = some current →
      (n.perform .meet).current? = some path ∧
        (n.perform .meet).goBack.pending? =
          some { path := (retreatOf none {} operations).getD current, back := true } := by
  intro n asked place
  have tracks : n.Tracks (retreatOf none {} operations) := tracks_start.run operations
  obtain ⟨earlier, visited⟩ : ∃ earlier, n.visited = (retreatOf none {} operations).getD current :: earlier := by
    have latest := tracks.latest
    rw [place, Option.or_some] at latest
    exact ⟨_, (List.cons_head?_tail latest).symm⟩
  have followed : (n.perform .meet).visited = path :: (retreatOf none {} operations).getD current :: earlier := by
    rw [perform, meet_of_pending asked, ← visited]
    rfl
  refine ⟨?_, ?_⟩
  · rw [perform, meet_of_pending asked]
    rfl
  · rw [goBack_of_two followed]
    rfl

/-- Two pages are asked for at once, and the second one is followed by a third. -/
theorem goBack_after_forward_of_latest_request :
    let operations := [.requestLoad "/a.3ml", .meet, .requestLoad "/x.3ml", .requestLoad "/b.3ml", .meet,
      .requestLoad "/c.3ml"]
    let n := ({} : Navigation).run operations
    (n.pending? = some { path := "/c.3ml" } ∧ n.current? = some "/b.3ml" ∧ retreatOf none {} operations = none) ∧
      (n.perform .meet).current? = some "/c.3ml" ∧
        (n.perform .meet).goBack.pending? = some { path := "/b.3ml", back := true } := by
  intro operations n
  have asked : n.pending? = some { path := "/c.3ml" } := by decide +kernel
  have place : n.current? = some "/b.3ml" := by decide +kernel
  have never : retreatOf none {} operations = none := by decide +kernel
  have after := goBack_after_forward operations asked place
  rw [never] at after
  exact ⟨⟨asked, place, never⟩, after⟩

/-- Going back is asked for and then, before it is met, another page: the page in place then is not gone back to. -/
theorem goBack_after_forward_passes_over :
    let n := ({} : Navigation).run
      [.requestLoad "/a.3ml", .meet, .requestLoad "/b.3ml", .meet, .goBack, .requestLoad "/c.3ml"]
    (n.pending? = some { path := "/c.3ml" } ∧ n.current? = some "/b.3ml") ∧
      (n.perform .meet).current? = some "/c.3ml" ∧
        (n.perform .meet).goBack.pending? = some { path := "/a.3ml", back := true } := by
  decide +kernel

end Navigation
end PocketReader
