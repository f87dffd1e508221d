import PocketReader.Proofs.Page.Generations
import PocketReader.Proofs.Page.Head
import PocketReader.Proofs.Script.Confined

/-! What assigning markup does to a page. Markup that can be read comes to stand below a node that is there, as the
trees it is when it is loaded by itself, and all else stays; any other assignment does nothing to the page. That the
page changed is on record exactly when an assignment changed it since the record was taken last. -/
namespace PocketReader

namespace Document

/-- The trees below a node, read back from its children. -/
def treesBelow (d : Document) (h : Handle) : Forest Content :=
  (d.treesAt d.slots.size (d.children h)).map Located.content

/-- The trees below a node have been exchanged for others, and nothing else has changed. -/
structure Refilled (before after : Document) (h : Handle) (forest : Forest Content) : Prop where
  below : after.treesBelow h = forest
  whole : after.forest = before.located.refill h forest
  top : after.top = before.top
  removed : ∀ k ∈ (before.located.under h).handles, after.get? k = none
  kept : ∀ k node, before.get? k = some node → k ∉ (before.located.under h).handles →
    ∃ next, after.get? k = some next ∧ next.content = node.content ∧ (k ≠ h → next.children = node.children)

theorem Reachable.refilled {d : Document} (reachable : d.Reachable) {h : Handle} (there : (d.get? h).isSome)
    (forest : Forest Content) : ∃ after, d.replaceChildren? h forest = some after ∧ d.Refilled after h forest := by
  have represents := reachable.represents
  obtain ⟨node, found⟩ := Option.isSome_iff_exists.mp there
  obtain ⟨after, g, result, replaced⟩ := represents.replace found forest
  have children : after.children h = g.rootHandles := by
    rw [Document.children, replaced.parent, found]
    rfl
  have size := replaced.holds.size_le replaced.nodup
  refine ⟨after, result, ?_, replaced.forest represents (represents.mem_of_get? found), replaced.top,
    fun k below => (replaced.spent k below).get?_eq_none, fun k node here above => replaced.kept here above⟩
  rw [treesBelow, children, replaced.holds.treesAt (Nat.le_trans g.depth_le_size size), replaced.content]

end Document

namespace Script

variable {γ : Type}

/-- The markup reads as these trees, the page is not held, and the node is there. -/
def World.Accepts (w : World γ) (node : Handle) (source : String) (forest : Forest Content) : Prop :=
  w.parser.read source = .ok forest ∧ w.held = false ∧ (w.document.get? node).isSome

theorem assignMarkup_of_accepts {w : World γ} (reachable : w.document.Reachable) {node : Handle} {source : String}
    {forest : Forest Content} (accepts : w.Accepts node source forest) :
    ∃ after, w.document.Refilled after node forest ∧
      w.assignMarkup node source = { w with document := after, context := { w.context with mutated := true } } := by
  obtain ⟨read, free, there⟩ := accepts
  obtain ⟨after, result, refilled⟩ := reachable.refilled there forest
  refine ⟨after, refilled, ?_⟩
  simp only [World.assignMarkup, read, free, Bool.false_eq_true, if_false, result]

theorem assignMarkup_of_refuses {w : World γ} {node : Handle} {source : String}
    (refuses : ∀ forest, ¬ w.Accepts node source forest) :
    (w.assignMarkup node source).document = w.document ∧ (w.assignMarkup node source).context = w.context := by
  unfold World.assignMarkup
  cases read : w.parser.read source with
  | error cause => exact ⟨rfl, rfl⟩
  | ok forest =>
    cases free : w.held with
    | true => exact ⟨rfl, rfl⟩
    | false =>
      have gone : w.document.replaceChildren? node forest = none := by
        rw [← Option.not_isSome_iff_eq_none, Document.isSome_replaceChildren?]
        exact fun there => refuses forest ⟨read, free, there⟩
      dsimp only
      rw [gone]
      exact ⟨rfl, rfl⟩

/-- Markup that is assigned while the page is held is reported if it can be read. -/
theorem assignMarkup_of_held {w : World γ} {node : Handle} {source : String} {forest : Forest Content}
    (read : w.parser.read source = .ok forest) (held : w.held = true) :
    w.assignMarkup node source = w.note (.warning .documentBusy) := by
  simp only [World.assignMarkup, read, held, if_true]

/-- What scripts do to what they can reach, and the record being taken of what they changed. -/
inductive Act (γ : Type) where
  | assign (node : Handle) (source : String)
  | take
  | memory (f : γ → γ)
  | console (level : Level) (line : String)
  | hold (held : Bool)

namespace Act

def perform (w : World γ) : Act γ → World γ
  | .assign node source => w.assignMarkup node source
  | .take => w.takeMutation.2
  | .memory f => w.mapMemory f
  | .console level line => w.note (.console level line)
  | .hold held => w.hold held

def isTake : Act γ → Bool
  | .take => true
  | .assign .. | .memory _ | .console .. | .hold _ => false

def isAssign : Act γ → Bool
  | .assign .. => true
  | .take | .memory _ | .console .. | .hold _ => false

end Act

def World.performAll (w : World γ) (acts : List (Act γ)) : World γ := acts.foldl Act.perform w

theorem performAll_append (w : World γ) (acts more : List (Act γ)) :
    w.performAll (acts ++ more) = (w.performAll acts).performAll more := List.foldl_append

/-- What a script does is a number of acts. -/
theorem Effects.acts {w last : World γ} (effects : Effects w last) :
    ∃ acts : List (Act γ), (∀ act ∈ acts, act.isTake = false) ∧ last = w.performAll acts := by
  induction effects with
  | refl => exact ⟨[], by simp, rfl⟩
  | @tail before after _ effect ih =>
    obtain ⟨acts, untaken, rfl⟩ := ih
    have one : ∃ act : Act γ, act.isTake = false ∧ after = act.perform (w.performAll acts) := by
      cases effect with
      | memory f => exact ⟨.memory f, rfl, rfl⟩
      | console level line => exact ⟨.console level line, rfl, rfl⟩
      | markup node source => exact ⟨.assign node source, rfl, rfl⟩
      | hold held => exact ⟨.hold held, rfl, rfl⟩
    obtain ⟨act, other, rfl⟩ := one
    refine ⟨acts ++ [act], ?_, (performAll_append w acts [act]).symm⟩
    simp only [List.forall_mem_append, List.forall_mem_singleton]
    exact ⟨untaken, other⟩

/-- An assignment is accepted, and the record is not taken after it. -/
def World.Changed (w : World γ) (acts : List (Act γ)) : Prop :=
  ∃ done node source rest forest, acts = done ++ .assign node source :: rest ∧ (∀ act ∈ rest, act.isTake = false) ∧
    (w.performAll done).Accepts node source forest

theorem changed_cons (w : World γ) (act : Act γ) (acts : List (Act γ)) :
    w.Changed (act :: acts) ↔
      (∃ node source forest, act = .assign node source ∧ w.Accepts node source forest ∧
        ∀ later ∈ acts, later.isTake = false) ∨ (act.perform w).Changed acts := by
  constructor
  · rintro ⟨done, node, source, rest, forest, split, untaken, accepts⟩
    cases done with
    | nil =>
      rw [List.nil_append, List.cons.injEq] at split
      obtain ⟨rfl, rfl⟩ := split
      exact .inl ⟨node, source, forest, rfl, accepts, untaken⟩
    | cons first done =>
      rw [List.cons_append, List.cons.injEq] at split
      obtain ⟨rfl, rfl⟩ := split
      exact .inr ⟨done, node, source, rest, forest, rfl, untaken, accepts⟩
  · rintro (⟨node, source, forest, rfl, accepts, untaken⟩ | ⟨done, node, source, rest, forest, rfl, untaken, accepts⟩)
    · exact ⟨[], node, source, acts, forest, rfl, untaken, accepts⟩
    · exact ⟨act :: done, node, source, rest, forest, rfl, untaken, accepts⟩

theorem reachable_perform {w : World γ} (reachable : w.document.Reachable) (act : Act γ) :
    (act.perform w).document.Reachable := by
  cases act with
  | assign node source => exact (recorded_assignMarkup w node source).reachable reachable
  | take | memory f | console level line | hold held => exact reachable

theorem reachable_performAll {w : World γ} (reachable : w.document.Reachable) (acts : List (Act γ)) :
    (w.performAll acts).document.Reachable := by
  induction acts generalizing w with
  | nil => exact reachable
  | cons act acts ih => exact ih (reachable_perform reachable act)

theorem mutated_perform {w : World γ} (reachable : w.document.Reachable) (act : Act γ) :
    (act.perform w).context.mutated = true ↔
      (∃ node source forest, act = .assign node source ∧ w.Accepts node source forest) ∨
        w.context.mutated = true ∧ act.isTake = false := by
  cases act with
  | assign node source =>
    by_cases accepts : ∃ forest, w.Accepts node source forest
    · obtain ⟨forest, accepts⟩ := accepts
      obtain ⟨after, -, assigned⟩ := assignMarkup_of_accepts reachable accepts
      rw [Act.perform, assigned]
      exact ⟨fun _ => .inl ⟨node, source, forest, rfl, accepts⟩, fun _ => rfl⟩
    · obtain ⟨-, context⟩ := assignMarkup_of_refuses (not_exists.mp accepts)
      rw [Act.perform, context]
      refine ⟨fun mutated => .inr ⟨mutated, rfl⟩, ?_⟩
      rintro (⟨_, _, forest, same, accepted⟩ | ⟨mutated, -⟩)
      · cases same
        exact absurd ⟨forest, accepted⟩ accepts
      · exact mutated
  | take => simp [Act.perform, World.takeMutation, Act.isTake]
  | memory f => simp [Act.perform, World.mapMemory, Act.isTake]
  | console level line => simp [Act.perform, World.note, Act.isTake]
  | hold held => simp [Act.perform, World.hold, Act.isTake]

/-- The record says what was done since it was taken last. -/
theorem mutated_performAll {w : World γ} (reachable : w.document.Reachable) (acts : List (Act γ)) :
    (w.performAll acts).context.mutated = true ↔
      w.Changed acts ∨ w.context.mutated = true ∧ ∀ act ∈ acts, act.isTake = false := by
  induction acts generalizing w with
  | nil =>
    have unchanged : ¬ w.Changed [] := by
      rintro ⟨done, _, _, _, _, split, -⟩
      cases done <;> cases split
    simp [World.performAll, unchanged]
  | cons act acts ih =>
    rw [changed_cons, List.forall_mem_cons]
    refine (ih (reachable_perform reachable act)).trans ?_
    rw [mutated_perform reachable act]
    constructor
    · rintro (changed | ⟨⟨node, source, forest, same, accepts⟩ | ⟨mutated, other⟩, untaken⟩)
      · exact .inl (.inr changed)
      · exact .inl (.inl ⟨node, source, forest, same, accepts, untaken⟩)
      · exact .inr ⟨mutated, other, untaken⟩
    · rintro ((⟨node, source, forest, same, accepts, untaken⟩ | changed) | ⟨mutated, other, untaken⟩)
      · exact .inr ⟨.inl ⟨node, source, forest, same, accepts⟩, untaken⟩
      · exact .inl changed
      · exact .inr ⟨.inr ⟨mutated, other⟩, untaken⟩

def assignments (acts : List (Act γ)) : Nat := acts.countP Act.isAssign

theorem document_perform (w : World γ) (act : Act γ) :
    (act.perform w).document = w.document ∨
      assignments [act] = 1 ∧ ∃ node forest,
        (act.perform w).document = (w.document.replaceChildren? node forest).getD w.document := by
  cases act with
  | assign node source =>
    rcases document_assignMarkup w node source with same | ⟨forest, changed⟩
    · exact .inl same
    · exact .inr ⟨rfl, node, forest, changed⟩
  | take | memory f | console level line | hold held => exact .inl rfl

theorem assignments_cons (act : Act γ) (acts : List (Act γ)) :
    assignments (act :: acts) = assignments acts + assignments [act] := by
  simp only [assignments, List.countP_cons, List.countP_nil, Nat.zero_add]

theorem young_perform {w : World γ} {count : Nat} (young : w.document.Young count) (act : Act γ) :
    (act.perform w).document.Young (count + assignments [act]) := by
  rcases document_perform w act with same | ⟨one, node, forest, changed⟩
  · rw [same]
    exact young.mono (Nat.le_add_right _ _)
  · rw [changed, one]
    exact young.replace node forest

theorem young_performAll {w : World γ} {count : Nat} (young : w.document.Young count) (acts : List (Act γ)) :
    (w.performAll acts).document.Young (count + assignments acts) := by
  induction acts generalizing w count with
  | nil => exact young
  | cons act acts ih =>
    rw [assignments_cons, Nat.add_comm (assignments acts), ← Nat.add_assoc]
    exact ih (young_perform young act)

section

variable {w : World γ} {count : Nat} (young : w.document.Young count) {h : Handle}

include young

theorem outlived_perform {act : Act γ} (few : count + assignments [act] < UInt32.size)
    (outlived : w.document.Outlived h) :
    (act.perform w).document.Outlived h := by
  rcases document_perform w act with same | ⟨one, node, forest, changed⟩
  · rw [same]
    exact outlived
  · rw [one] at few
    rw [changed]
    exact outlived.replace young few node forest

theorem outlived_performAll {acts : List (Act γ)} (few : count + assignments acts < UInt32.size)
    (outlived : w.document.Outlived h) : (w.performAll acts).document.Outlived h := by
  induction acts generalizing w count with
  | nil => exact outlived
  | cons act acts ih =>
    rw [assignments_cons] at few
    exact ih (young_perform young act) (by omega) (outlived_perform young (by omega) outlived)

/-- A handle that finds its node no longer has been outlived. -/
theorem outlived_of_lost (reachable : w.document.Reachable) {acts : List (Act γ)}
    (few : count + assignments acts < UInt32.size) {node : Node} (found : w.document.get? h = some node)
    (lost : (w.performAll acts).document.get? h = none) : (w.performAll acts).document.Outlived h := by
  induction acts generalizing w count node with
  | nil =>
    rw [World.performAll, List.foldl_nil, found] at lost
    cases lost
  | cons act acts ih =>
    rw [assignments_cons] at few
    have later : count + assignments [act] + assignments acts < UInt32.size := by omega
    cases still : (act.perform w).document.get? h with
    | some next => exact ih (young_perform young act) (reachable_perform reachable act) later still lost
    | none =>
      refine outlived_performAll (young_perform young act) later ?_
      rcases document_perform w act with same | ⟨one, target, forest, changed⟩
      · rw [same, found] at still
        cases still
      · rw [one] at few
        rw [changed] at still ⊢
        exact Document.outlived_of_lost young (by omega) reachable found target forest still

end

/-- Whatever scripts assign, to whatever elements they have come by, and whenever the record of it is taken: markup
that is assigned to an element whose node is there, while no element is being made, comes to stand below it as the
trees it is when it is loaded by itself, if it can be read, and nothing else in the page changes; otherwise the page
stays as it is. The record, when it is taken, says whether an assignment was of the first kind since it was taken
last. And in fewer assignments than there are generations, an element whose node was removed never has one again. -/
theorem assignments_like_loads [Engine γ] (confined : Engine.Confined γ) :
    (∀ (chance : Chance) (w : World γ) (source : ByteArray), ∀ ended ∈ Engine.run chance w source,
      ended.2.held = w.held ∧
        ∃ acts : List (Act γ), (∀ act ∈ acts, act.isTake = false) ∧ ended.2 = w.performAll acts) ∧
    (∀ chance, (Context.fresh chance : Context γ).mutated = false) ∧
    ∀ (w : World γ) (acts : List (Act γ)), w.document.Reachable → w.context.mutated = false →
      let last := w.performAll acts
      (∀ node source forest, last.Accepts node source forest →
        ∃ after, last.document.Refilled after node forest ∧
          after.treesBelow node = (Document.ofForest forest).forest ∧
          last.assignMarkup node source =
            { last with document := after, context := { last.context with mutated := true } }) ∧
      (∀ node source, (∀ forest, ¬ last.Accepts node source forest) →
        (last.assignMarkup node source).document = last.document ∧
          (last.assignMarkup node source).context = last.context) ∧
      (∀ node source forest, last.parser.read source = .ok forest → last.held = true →
        last.assignMarkup node source = last.note (.warning .documentBusy)) ∧
      (last.takeMutation.1 = true ↔ w.Changed acts) ∧
      ∀ page h (more later : List (Act γ)), w.document = .ofForest page →
        assignments (acts ++ more ++ later) < UInt32.size → (last.document.get? h).isSome →
        (last.performAll more).document.get? h = none → (last.performAll (more ++ later)).document.get? h = none := by
  refine ⟨fun chance w source ended ran => ?_, fun _ => rfl, ?_⟩
  · obtain ⟨effects, held⟩ := confined chance w source ended ran
    exact ⟨held, effects.acts⟩
  intro w acts reachable unmutated last
  have there : last.document.Reachable := reachable_performAll reachable acts
  refine ⟨?_, ?_, ?_, ?_, ?_⟩
  · intro node source forest accepts
    obtain ⟨after, refilled, assigned⟩ := assignMarkup_of_accepts there accepts
    refine ⟨after, refilled, ?_, assigned⟩
    rw [refilled.below, Document.forest_ofForest]
  · intro node source refuses
    exact assignMarkup_of_refuses refuses
  · intro node source forest read held
    exact assignMarkup_of_held read held
  · refine (mutated_performAll reachable acts).trans ?_
    rw [unmutated]
    exact or_iff_left fun was => Bool.false_ne_true was.1
  · intro page h more later start few found lost
    have young : last.document.Young (assignments acts) := by
      have begins : w.document.Young 0 := start ▸ Document.young_ofForest page
      have grown := young_performAll begins acts
      rwa [Nat.zero_add] at grown
    obtain ⟨node, found⟩ := Option.isSome_iff_exists.mp found
    simp only [assignments, List.countP_append] at few
    have gone := outlived_of_lost young there (by simp only [assignments]; omega) found lost
    rw [performAll_append]
    refine (outlived_performAll (young_performAll young more) ?_ gone).get?_eq_none
    simp only [assignments]
    omega

/-- A division is filled anew, the record is taken, and then markup is assigned to the text that was in the division,
markup that cannot be read to the division, and markup that can be read while the page is held. -/
theorem assignments_like_loads_refused :
    let text := fun line => Forest.single (Content.text [line]) .nil
    let page := Forest.single { kind := .body } (.single { kind := .container } (text "old"))
    let w : World := { context := .fresh fun _ => false, document := .ofForest page, parser := Markup.tagParser }
    let acts : List (Act Heap) :=
      [.assign ⟨1, 0⟩ "<a>one</a>two", .take, .assign ⟨0, 0⟩ "three", .assign ⟨1, 0⟩ "<div>", .hold true,
        .assign ⟨1, 0⟩ "four", .hold false]
    let last := w.performAll acts
    let held := w.performAll (acts ++ [.hold true])
    (Engine.Confined Heap ∧ w.document.Reachable ∧ w.context.mutated = false ∧
      last.Accepts ⟨1, 0⟩ "four" (text "four") ∧ held.parser.read "four" = .ok (text "four") ∧ held.held = true) ∧
    (last.document.get? ⟨0, 0⟩ = none ∧ last.context.mutated = false) ∧
    (∃ after, last.document.Refilled after ⟨1, 0⟩ (text "four") ∧
      after.treesBelow ⟨1, 0⟩ = (Document.ofForest (text "four")).forest ∧
      last.assignMarkup ⟨1, 0⟩ "four" =
        { last with document := after, context := { last.context with mutated := true } }) ∧
    (last.assignMarkup ⟨0, 0⟩ "three").document = last.document ∧
    held.assignMarkup ⟨1, 0⟩ "four" = held.note (.warning .documentBusy) ∧
    ¬ w.Changed acts ∧
    (w.performAll (acts ++ [.assign ⟨1, 0⟩ "four"])).document.get? ⟨0, 0⟩ = none := by
  intro text page w acts last held
  have reachable : w.document.Reachable := .ofForest page
  have readable : held.parser.read "four" = .ok (text "four") := by decide +kernel
  have busy : held.held = true := by decide +kernel
  have accepts : last.Accepts ⟨1, 0⟩ "four" (text "four") := ⟨by decide +kernel, by decide +kernel, by decide +kernel⟩
  have gone : last.document.get? ⟨0, 0⟩ = none := by decide +kernel
  have untouched : last.context.mutated = false := by decide +kernel
  obtain ⟨-, -, all⟩ := assignments_like_loads confined_heap
  obtain ⟨accepted, refused, -, recorded, -⟩ := all w acts reachable rfl
  obtain ⟨-, -, dropped, -⟩ := all w (acts ++ [.hold true]) reachable rfl
  obtain ⟨-, -, -, -, lost⟩ := all w [] reachable rfl
  refine ⟨⟨confined_heap, reachable, rfl, accepts, readable, busy⟩, ⟨gone, untouched⟩, accepted _ _ _ accepts, ?_,
    ?_, ?_, ?_⟩
  · refine (refused ⟨0, 0⟩ "three" ?_).1
    rintro forest ⟨-, -, there⟩
    rw [gone] at there
    cases there
  · exact dropped ⟨1, 0⟩ "four" (text "four") readable busy
  · rw [← recorded, World.takeMutation, untouched]
    exact Bool.false_ne_true
  · exact lost page ⟨0, 0⟩ acts [.assign ⟨1, 0⟩ "four"] rfl (by decide) (by decide +kernel) gone

/-- A setter that scripts gave to all objects is called while an element is made, and assigns markup to an element
whose node is there. The markup could be read, yet the page stays as it is, and no change is on record. -/
theorem assignment_dropped_while_held :
    let text := fun line => Forest.single (Content.text [line]) .nil
    let page : Forest Content :=
      .node { kind := .container, id? := some "a", attributes := [("id", "a")] } (text "old")
        (.single { kind := .container, id? := some "b", attributes := [("id", "b"), ("data", "1")] } .nil)
    let w : World := { context := .fresh fun _ => false, document := .ofForest page, parser := Markup.tagParser }
    let source := "var kept = document.getElementById('a'); function f() \x7b kept.innerHTML = 'new' \x7d" ++
      "Object.prototype.__defineSetter__('data', f); document.getElementById('b')"
    let ended := w.evaluate (fun _ => false) source.toUTF8
    (w.parser.read "new" = .ok (text "new") ∧ (w.document.get? ⟨1, 0⟩).isSome) ∧
    ended.1 = .ok () ∧ ended.2.document.forest = page ∧ ended.2.takeMutation.1 = false ∧
    (ended.2.log matches [.warning .documentBusy]) := by
  intro text page w source ended
  decide +kernel

end Script
end PocketReader
