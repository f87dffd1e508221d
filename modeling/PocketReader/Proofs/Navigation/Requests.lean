import PocketReader.Proofs.Navigation

/-! What a tick is given to do. Between two ticks requests come in any number and order, and each can take back what
those before it asked for. Of all that was asked for since the last action was taken, the next one is the last load,
or the last callback if there was no load. The rest is forgotten with it. -/
namespace PocketReader.Navigation

/-- What can be done to a navigation between two actions that are taken. -/
inductive Call where
  | requestLoad (path : String)
  | requestCallback (source : String)
  | interact (d : Document) (selected? : Option Handle)
  | goBack
  /-- The load that was taken has gone well. -/
  | complete (visit : Visit)

def call (n : Navigation) : Call → Navigation
  | .requestLoad path => n.requestLoad path
  | .requestCallback source => n.requestCallback source
  | .interact d selected? => n.interact d selected?
  | .goBack => n.goBack
  | .complete visit => n.complete visit

def callAll (n : Navigation) (calls : List Call) : Navigation := calls.foldl call n

/-- Several such intervals, with an action taken at the end of each. -/
def ticks (n : Navigation) (intervals : List (List Call)) : Navigation :=
  intervals.foldl (fun n calls => (n.callAll calls).take.2) n

def Action.isLoad : Action → Bool
  | .load _ => true
  | .callback _ => false

/-- What a node asks for when it is activated: a link its page, and a button its callback. -/
def onActivation? (content : Content) : Option Action :=
  match content.kind with
  | .link => (content.attribute? "href").map fun path => .load { path }
  | .button => (content.attribute? "onclick").map .callback
  | _ => none

namespace Call

/-- The pages visited after a call; going back forgets the latest, if there is one before it. -/
def leaves (visited : List String) : Call → List String
  | .goBack => if 2 ≤ visited.length then visited.tail else visited
  | .complete visit => if visit.back then visited else visit.path :: visited
  | .requestLoad _ | .requestCallback _ | .interact .. => visited

/-- What a call asks for. Going back asks for the page that is the latest of those visited from then on. -/
def asks? (visited : List String) : Call → Option Action
  | .requestLoad path => some (.load { path })
  | .requestCallback source => some (.callback source)
  | .interact d selected? => (selected?.bind d.get?).bind fun node => onActivation? node.content
  | .goBack =>
    if 2 ≤ visited.length then (goBack.leaves visited).head?.map fun path => .load { path, back := true } else none
  | .complete _ => none

/-- All that calls ask for, in their order. -/
def asked (visited : List String) : List Call → List Action
  | [] => []
  | c :: rest => (c.asks? visited).toList ++ asked (c.leaves visited) rest

end Call

/-- What waits in a navigation, of all that was asked for: the last load, and the last callback if there was no
load. -/
structure Awaits (n : Navigation) (asked : List Action) : Prop where
  load : n.pending?.map .load = (asked.filter Action.isLoad).getLast?
  callback : n.pending? = none → n.callback?.map .callback = (asked.filter (!·.isLoad)).getLast?

theorem awaits_take (n : Navigation) : n.take.2.Awaits [] := by
  cases asked : n.pending? with
  | none =>
    rw [take_of_no_pending asked]
    exact ⟨congrArg (Option.map Action.load) asked, fun _ => rfl⟩
  | some visit =>
    rw [take_of_pending asked]
    exact ⟨rfl, fun _ => rfl⟩

theorem awaits_await (n : Navigation) (asked : List Action) (visit : Visit) :
    (n.await visit).Awaits (asked ++ [.load visit]) := by
  refine ⟨?_, fun none => by cases none⟩
  rw [List.filter_append, List.filter_cons_of_pos rfl, List.filter_nil, List.getLast?_concat]
  rfl

namespace Awaits

variable {n : Navigation} {asked : List Action} (awaits : n.Awaits asked)

include awaits

theorem take : n.take.1 = (asked.filter Action.isLoad).getLast?.or (asked.filter (!·.isLoad)).getLast? := by
  rw [← awaits.load]
  cases pending : n.pending? with
  | none =>
    rw [take_of_no_pending pending]
    exact awaits.callback pending
  | some visit =>
    rw [take_of_pending pending]
    rfl

theorem requestCallback (source : String) : (n.requestCallback source).Awaits (asked ++ [.callback source]) := by
  constructor
  · rw [List.filter_append, List.filter_cons_of_neg Bool.false_ne_true, List.filter_nil, List.append_nil]
    exact awaits.load
  · intro _
    rw [List.filter_append, List.filter_cons_of_pos rfl, List.filter_nil, List.getLast?_concat]
    rfl

theorem unasked : n.Awaits (asked ++ (none : Option Action).toList) := by
  rw [Option.toList_none, List.append_nil]
  exact awaits

theorem activate (content : Content) : (n.activate content).Awaits (asked ++ (onActivation? content).toList) := by
  rw [Navigation.activate, onActivation?]
  cases content.kind with
  | link =>
    cases content.attribute? "href" with
    | none => exact awaits.unasked
    | some path => exact n.awaits_await asked { path }
  | button =>
    cases content.attribute? "onclick" with
    | none => exact awaits.unasked
    | some source => exact awaits.requestCallback source
  | text | heading | container | body | head | script | title => exact awaits.unasked

theorem goBack : n.goBack.Awaits (asked ++ (Call.goBack.asks? n.visited).toList) := by
  match two : n.visited with
  | latest :: previous :: earlier =>
    rw [goBack_of_two two]
    exact awaits_await _ asked { path := previous, back := true }
  | [] | [_] =>
    rw [goBack_of_one (by rw [two]; rfl)]
    exact awaits.unasked

theorem call (c : Call) : (n.call c).Awaits (asked ++ (c.asks? n.visited).toList) := by
  cases c with
  | requestLoad path => exact n.awaits_await asked { path }
  | requestCallback source => exact awaits.requestCallback source
  | interact d selected? =>
    rw [Navigation.call, Navigation.interact, Call.asks?]
    cases selected?.bind d.get? with
    | none => exact awaits.unasked
    | some node => exact awaits.activate node.content
  | goBack => exact awaits.goBack
  | complete visit => exact Awaits.unasked ⟨awaits.load, awaits.callback⟩

end Awaits

theorem visited_call (n : Navigation) (c : Call) : (n.call c).visited = c.leaves n.visited := by
  cases c with
  | requestLoad path => rfl
  | requestCallback source => rfl
  | interact d selected? => exact n.visited_interact d selected?
  | goBack =>
    match two : n.visited with
    | latest :: previous :: earlier =>
      rw [call, goBack_of_two two]
      rfl
    | [] | [_] =>
      rw [call, goBack_of_one (by rw [two]; rfl), two]
      rfl
  | complete visit => rfl

theorem visited_callAll (n : Navigation) (calls : List Call) :
    (n.callAll calls).visited = calls.foldl Call.leaves n.visited := by
  induction calls generalizing n with
  | nil => rfl
  | cons c calls ih => exact (ih (n.call c)).trans (congrArg (calls.foldl Call.leaves) (n.visited_call c))

theorem Awaits.callAll {n : Navigation} {asked : List Action} (awaits : n.Awaits asked) (calls : List Call) :
    (n.callAll calls).Awaits (asked ++ Call.asked n.visited calls) := by
  induction calls generalizing n asked with
  | nil =>
    rw [Call.asked, List.append_nil]
    exact awaits
  | cons c calls ih =>
    rw [Call.asked, ← List.append_assoc, ← n.visited_call c]
    exact ih (awaits.call c)

theorem Awaits.ticks {n : Navigation} (awaits : n.Awaits []) (intervals : List (List Call)) :
    (n.ticks intervals).Awaits [] := by
  induction intervals generalizing n with
  | nil => exact awaits
  | cons calls intervals ih => exact ih (n.callAll calls).awaits_take

theorem Awaits.take_subset {n : Navigation} {asked : List Action} (awaits : n.Awaits asked) :
    n.take.1.toList ⊆ asked := by
  intro action taken
  rw [awaits.take, Option.mem_toList, Option.or_eq_some_iff] at taken
  rcases taken with load | ⟨-, callback⟩
  · exact List.mem_of_mem_filter (List.mem_of_getLast? load)
  · exact List.mem_of_mem_filter (List.mem_of_getLast? callback)

/-- The action taken next is the last load that was asked for since the action before it was taken, and if there was
none the last callback. Then nothing waits any more. What was asked for and is not taken is never taken, as any action
that is taken later was asked for in the interval before it. -/
theorem take_callAll (n : Navigation) (calls : List Call) :
    let start := n.take.2
    let m := start.callAll calls
    let asked := Call.asked start.visited calls
    m.take.1 = (asked.filter Action.isLoad).getLast?.or (asked.filter (!·.isLoad)).getLast? ∧
    m.visited = calls.foldl Call.leaves start.visited ∧
    m.take.2 = { m with pending? := none, callback? := none } ∧ m.take.2.take.1 = none ∧
    ∀ intervals last, let later := m.take.2.ticks intervals
      (later.callAll last).take.1.toList ⊆ Call.asked later.visited last := by
  intro start m asked
  have awaits : m.Awaits asked := n.awaits_take.callAll calls
  refine ⟨awaits.take, start.visited_callAll calls, ?_, m.awaits_take.take, fun intervals last => ?_⟩
  · cases pending : m.pending? with
    | none => rw [take_of_no_pending pending, ← pending]
    | some visit => rw [take_of_pending pending]
  · exact ((m.awaits_take.ticks intervals).callAll last).take_subset

/-- Going back twice asks for the first of three pages, and the callbacks before and after it are forgotten. -/
example :
    let n : Navigation := { visited := ["/c.3ml", "/b.3ml", "/a.3ml"], current? := some "/c.3ml" }
    let m := n.callAll [.requestCallback "one", .goBack, .requestLoad "/d.3ml", .goBack, .goBack,
      .requestCallback "two"]
    m.take = (some (.load { path := "/a.3ml", back := true }),
      { visited := ["/a.3ml"], current? := some "/c.3ml" }) := by
  decide

end PocketReader.Navigation
