import PocketReader.Proofs.Page.Search
import PocketReader.Proofs.Script.Scripted
import PocketReader.Proofs.Text.Units
import PocketReader.Script.Evaluate

/-! The elements that scripts are given. The element of a name is a fresh object for the nearest node of that name. It
has the attributes of the node with the values they have first, since each set attribute takes the place of those set
before it; so it is on objects of which this can be relied on, and the objects of the interpreter are such until
scripts put something in the way of properties. -/
namespace PocketReader.Script

open PocketReader.Text

section

variable {γ ε ω : Type}

/-- What can be relied on when properties are set, as long as nothing that scripts did is in the way of their names: a
property that is set can be read, and the others stay as they are. That an object has a text as a property is what
`reads` says. -/
structure Objects.Obey (objects : Objects γ ε ω) (free : γ → String → Prop) (plain : γ → ω → Prop)
    (reads : γ → ω → String → String → Prop) : Prop where
  create : ∀ w : World γ, ∃ o memory, objects.create.run.run w = (.ok o, w.mapMemory fun _ => memory) ∧
    plain memory o ∧ ∀ name, free w.context.memory name → free memory name
  /-- The name that stands for the prototype of an object takes no text. -/
  set : ∀ (w : World γ) o name value, plain w.context.memory o → free w.context.memory name → ∃ memory,
    (objects.set o name value).run.run w = (.ok (), w.mapMemory fun _ => memory) ∧ plain memory o ∧
      (∀ other, free w.context.memory other → free memory other) ∧
      (name ≠ "__proto__" → reads memory o name value) ∧
      ∀ other text, other ≠ name → reads w.context.memory o other text → reads memory o other text
  acceptMarkup : ∀ (w : World γ) o node, plain w.context.memory o → ∃ memory,
    (objects.acceptMarkup o node).run.run w = (.ok (), w.mapMemory fun _ => memory) ∧
      ∀ other text, other ≠ "innerHTML" → reads w.context.memory o other text → reads memory o other text

theorem run_elementById (objects : Objects γ ε ω) (w : World γ) (id : String) :
    (elementById objects id).run.run w =
      match found? w.document id with
      | none => (.ok none, w)
      | some (node, c) =>
        match (holding (makeElement objects node c)).run.run w with
        | (.ok o, after) => (.ok (some o), after)
        | (.error e, after) => (.error e, after) := by
  have start : (elementById objects id).run.run w =
      (match found? w.document id with
        | none => pure none
        | some (node, c) => holding (makeElement objects node c) >>= fun o => pure (some o) :
          Task γ ε (Option ω)).run.run w := rfl
  rw [start]
  split
  · rfl
  · rw [run_bind]
    rfl

namespace Objects.Obey

variable {objects : Objects γ ε ω} {free : γ → String → Prop} {plain : γ → ω → Prop}
  {reads : γ → ω → String → String → Prop} (obey : objects.Obey free plain reads)

include obey

/-- Of several values that a property is set to, the last stays. -/
theorem sets (o : ω) (attributes : List (String × String)) (w : World γ) (here : plain w.context.memory o)
    (clear : ∀ entry ∈ attributes, free w.context.memory entry.1) :
    ∃ memory,
      (attributes.forM fun (name, value) => objects.set o name value).run.run w =
        (.ok (), w.mapMemory fun _ => memory) ∧
      plain memory o ∧
      (∀ name value, name ≠ "__proto__" → attributes.reverse.lookup name = some value → reads memory o name value) ∧
      ∀ other text, attributes.reverse.lookup other = none → reads w.context.memory o other text →
        reads memory o other text := by
  induction attributes generalizing w with
  | nil =>
    refine ⟨w.context.memory, rfl, here, fun name value _ found => ?_, fun _ _ _ had => had⟩
    cases found
  | cons entry rest ih =>
    obtain ⟨name, value⟩ := entry
    obtain ⟨foremost, others⟩ := List.forall_mem_cons.mp clear
    obtain ⟨first, ran, still, remain, read, kept⟩ := obey.set w o name value here foremost
    obtain ⟨last, ranRest, plainly, readRest, keptRest⟩ :=
      ih (w.mapMemory fun _ => first) still fun entry member => remain _ (others entry member)
    refine ⟨last, (run_bind_ok _ ran).trans ranRest, plainly, ?_, ?_⟩
    · intro other text ordinary found
      rw [List.reverse_cons, List.lookup_append] at found
      cases later : rest.reverse.lookup other with
      | some v =>
        rw [later, Option.some_or] at found
        exact readRest other text ordinary (later.trans found)
      | none =>
        -- No later value takes the place of this one.
        rw [later, Option.none_or, List.lookup_cons] at found
        by_cases same : other = name
        · subst same
          rw [beq_self_eq_true] at found
          cases found
          exact keptRest other value later (read ordinary)
        · rw [beq_false_of_ne same] at found
          cases found
    · intro other text absent had
      rw [List.reverse_cons, List.lookup_append, Option.or_eq_none_iff, List.lookup_cons] at absent
      have another : other ≠ name := by
        rintro rfl
        rw [beq_self_eq_true] at absent
        cases absent.2
      exact keptRest other text absent.1 (kept other text another had)

/-- An element has the first value of each attribute. -/
theorem makeElement (node : Handle) (c : Content) (w : World γ)
    (clear : ∀ entry ∈ c.attributes, free w.context.memory entry.1) : ∃ o memory,
    (makeElement objects node c).run.run w = (.ok o, w.mapMemory fun _ => memory) ∧
      ∀ name value, name ≠ "innerHTML" → name ≠ "__proto__" → c.attribute? name = some value →
        reads memory o name value := by
  obtain ⟨o, fresh, created, here, remain⟩ := obey.create w
  obtain ⟨full, set, still, read, -⟩ := obey.sets o c.attributes.reverse (w.mapMemory fun _ => fresh) here
    fun entry member => remain _ (clear entry (List.mem_reverse.mp member))
  obtain ⟨memory, accepted, kept⟩ := obey.acceptMarkup (w.mapMemory fun _ => full) o node still
  refine ⟨o, memory, ?_, ?_⟩
  · exact (run_bind_ok _ created).trans ((run_bind_ok _ set).trans (run_bind_ok _ accepted))
  · intro name value other ordinary valued
    refine kept name value other (read name value ordinary ?_)
    rwa [List.reverse_reverse]

end Objects.Obey

/-- What an object has of a node: of the values of one name the first, except under the two names that mean something
else. -/
def Carries (n : Located) (reads : String → String → Prop) : Prop :=
  ∀ before name value later, n.content.attributes = before ++ (name, value) :: later →
    (∀ entry ∈ before, entry.1 ≠ name) → name ≠ "innerHTML" → name ≠ "__proto__" →
    n.content.attribute? name = some value ∧ reads name value

/-- What a look-up that finds this node gives, and what it leaves. -/
inductive Gives (reads : γ → ω → String → String → Prop) (w : World γ) :
    Option Located → Except ε (Option ω) × World γ → Prop
  | nothing : Gives reads w none (.ok none, w)
  | element {n : Located} {o : ω} {memory : γ} : Carries n (reads memory o) →
      Gives reads w (some n) (.ok (some o), w.mapMemory fun _ => memory)

theorem mem_preorder_of_nearest {d : Document} {P : Located → Prop} {n : Located}
    (nearest : Nearest P d.located.ranked (some n)) : n ∈ d.located.preorder := by
  obtain ⟨-, depth, member⟩ := nearest.mem
  rw [← Forest.map_snd_ranked]
  exact List.mem_map_of_mem member

/-- Nothing is found exactly when no node has the name. Otherwise the node is found that is least deep, and of several
the first. The element for it has each attribute with its first value, if nothing that scripts did is in the way of
these attributes. Any name can be asked for. -/
theorem getElementById_finds_nearest {objects : Objects γ ε ω} {free : γ → String → Prop} {plain : γ → ω → Prop}
    {reads : γ → ω → String → String → Prop} (obey : objects.Obey free plain reads) {w : World γ}
    (reachable : w.document.Reachable) (id : String) :
    (w.document.findById? id = none ↔ ∀ n ∈ w.document.located.preorder, n.content.id? ≠ some id) ∧
      ∃ found : Option Located, w.document.findById? id = found.map Located.handle ∧
        Nearest (fun n => n.content.id? = some id) w.document.located.ranked found ∧
        ((∀ n ∈ found, ∀ entry ∈ n.content.attributes, free w.context.memory entry.1) →
          Gives reads w found ((elementById objects id).run.run w)) := by
  obtain ⟨found, same, nearest⟩ := Document.findById?_nearest reachable id
  refine ⟨?_, found, same.symm, nearest, fun clear => ?_⟩
  · rw [← same, Option.map_eq_none_iff, nearest.eq_none_iff, ← Forest.map_snd_ranked, List.forall_mem_map]
  rw [run_elementById, found?, ← same]
  cases found with
  | none => exact .nothing
  | some n =>
    obtain ⟨children, there, -⟩ := reachable.represents.holds.get? (mem_preorder_of_nearest nearest)
    obtain ⟨o, memory, made, read⟩ := obey.makeElement n.handle n.content (w.hold true) (clear n rfl)
    have held : (holding (Script.makeElement objects n.handle n.content)).run.run w =
        (.ok o, w.mapMemory fun _ => memory) :=
      congrArg (fun ended : Except ε ω × World γ => (ended.1, ended.2.hold w.held)) made
    rw [Option.map_some, Option.bind_some, there]
    dsimp only [Option.map_some]
    rw [held]
    refine .element ?_
    intro before name value later split first other ordinary
    have valued : n.content.attribute? name = some value := by
      rw [Content.attribute?, split, List.lookup_eq_some_iff]
      exact ⟨before, later, rfl, fun entry member => by simpa using (first entry member).symm⟩
    exact ⟨valued, read name value other ordinary valued⟩

end

/-! The objects of the interpreter. -/

/-- Whether a property of this name lets others be added to objects that have it from elsewhere: a value that can be
written does, and the setter of prototypes takes no text. -/
def Property.isOpen (name : String) : Property → Bool
  | .data _ true => true
  | .accessor _ .prototype => name == "__proto__"
  | _ => false

/-- Whether nothing is in the way of a property of this name in the object that the others have theirs from. -/
def Heap.isOpen (heap : Heap) (name : String) : Bool :=
  heap[Standard.objectPrototype]?.any fun o => o.prototype?.isNone && (o.own? name).all fun p => p.isOpen name

/-- An object that holds nothing but values that can be written. -/
def Heap.Plain (heap : Heap) (address : Nat) : Prop :=
  ∃ o, heap[address]? = some o ∧ o.form = .plain ∧ o.prototype? = some Standard.objectPrototype ∧
    ∀ name p, o.properties.lookup name = some p → ∃ v, p = .data v true

/-- An object has a text as a property of its own. -/
def Heap.Reads (heap : Heap) (address : Nat) (name text : String) : Prop :=
  ∃ o, heap[address]? = some o ∧ o.own? name = some (.data (Standard.textValue text) true)

theorem run_getProperty {w : World} {address : Nat} {name text : String}
    (reads : Heap.Reads w.context.memory address name text) :
    (getProperty (.object address) name).run.run w = (.ok (Standard.textValue text), w) := by
  obtain ⟨o, there, own⟩ := reads
  have found : w.context.memory.property? (.object address) name =
      some (.data (Standard.textValue text) true) := by
    rw [Heap.property?, Heap.find?, Heap.findFrom?, there]
    simp [own]
  have memory : heap.run.run w = (.ok w.context.memory, w) := rfl
  unfold getProperty
  simp only [run_bind, memory, found]
  rfl

theorem own?_of_plain {o : Object} (plain : o.form = .plain) (name : String) :
    o.own? name = o.properties.lookup name := by
  have short : o.length? = none := by rw [Object.length?, plain]
  rw [Object.own?, short, ite_self]
  split
  · exact .symm ‹_›
  · exact .symm ‹_›

namespace Heap

variable {heap : Heap} {address : Nat}

theorem of_isOpen {name : String} (free : heap.isOpen name = true) : ∃ o, heap[Standard.objectPrototype]? = some o ∧
    o.prototype? = none ∧ ∀ p, o.own? name = some p → p.isOpen name = true := by
  unfold isOpen at free
  cases there : heap[Standard.objectPrototype]? with
  | none =>
    rw [there] at free
    cases free
  | some o =>
    rw [there, Option.any_some, Bool.and_eq_true, Option.isNone_iff_eq_none] at free
    obtain ⟨last, passes⟩ := free
    refine ⟨o, rfl, last, fun p own => ?_⟩
    rwa [own, Option.all_some] at passes

theorem isOpen_congr {other : Heap} (same : other[Standard.objectPrototype]? = heap[Standard.objectPrototype]?)
    (name : String) : other.isOpen name = heap.isOpen name := by rw [isOpen, isOpen, same]

/-- The memory with a property of an object put in its place. -/
def withProperty (heap : Heap) (address : Nat) (name : String) (p : Property) : Heap :=
  heap.change address fun o => { o with properties := setKey name p o.properties }

namespace Plain

variable (plain : heap.Plain address)

include plain

theorem ne_prototype {name : String} (free : heap.isOpen name = true) : address ≠ Standard.objectPrototype := by
  rintro rfl
  obtain ⟨o, there, -, from', -⟩ := plain
  obtain ⟨top, same, last, -⟩ := of_isOpen free
  rw [there, Option.some.injEq] at same
  rw [same, last] at from'
  cases from'

/-- What is in the way of a property: nothing, or the setter of prototypes. -/
theorem place_eq {name : String} (free : heap.isOpen name = true) :
    heap.place (.object address) name = .value ∨ heap.place (.object address) name = .vacant ∨
      name = "__proto__" ∧ heap.place (.object address) name = .setter .prototype := by
  obtain ⟨o, there, form, prototype, values⟩ := plain
  obtain ⟨top, above, last, passes⟩ := of_isOpen free
  have listed : o.isArray = false := by rw [Object.isArray, form]
  cases own : o.own? name with
  | some p =>
    rw [own?_of_plain form] at own
    obtain ⟨v, rfl⟩ := values name p own
    rw [← own?_of_plain form] at own
    left
    simp [place, there, own, listed]
  | none =>
    have size : heap.size + 1 = (heap.size - 1) + 1 + 1 := by
      have inside : address < heap.size := (Array.getElem?_eq_some_iff.mp there).1
      omega
    have looked : heap.place (.object address) name =
        heap.obstacleFrom name (heap.size - 1 + 1) Standard.objectPrototype := by
      simp only [place, there, own, obstacle]
      rw [size, obstacleFrom]
      simp only [there, own, prototype]
    rw [looked, obstacleFrom, above]
    cases inherited : top.own? name with
    | none => simp [inherited, last]
    | some p =>
      have passing := passes p inherited
      cases p with
      | data v writable =>
        cases writable with
        | true => simp [inherited, last]
        | false => cases passing
      | accessor get? set =>
        cases set with
        | prototype => exact .inr (.inr ⟨eq_of_beq passing, by simp [inherited]⟩)
        | forbidden | markup node | function f => cases passing

theorem there_withProperty (name : String) (p : Property) : ∃ o next, heap[address]? = some o ∧
    (heap.withProperty address name p)[address]? = some next ∧ next.form = .plain ∧
    next.prototype? = some Standard.objectPrototype ∧
    ∀ other, next.properties.lookup other = if other = name then some p else o.properties.lookup other := by
  obtain ⟨o, there, form, prototype, -⟩ := plain
  refine ⟨o, { o with properties := setKey name p o.properties }, there, ?_, form, prototype, fun other => ?_⟩
  · rw [withProperty, change, Array.getElem?_modify, if_pos rfl, there, Option.map_some]
  · exact lookup_setKey name other p o.properties

theorem withProperty (name : String) (v : Value) : (heap.withProperty address name (.data v true)).Plain address := by
  obtain ⟨o, there, -, -, values⟩ := id plain
  obtain ⟨same, next, there', stored, form, prototype, properties⟩ := plain.there_withProperty name (.data v true)
  rw [there, Option.some.injEq] at there'
  subst there'
  refine ⟨next, stored, form, prototype, fun other p found => ?_⟩
  rw [properties] at found
  split at found
  · exact ⟨v, (Option.some.inj found).symm⟩
  · exact values other p found

/-- Properties of a plain object are in the way of none in others. -/
theorem isOpen_withProperty {other : String} (free : heap.isOpen other = true) (name : String) (p : Property) :
    (heap.withProperty address name p).isOpen other = true := by
  refine (isOpen_congr ?_ other).trans free
  rw [Heap.withProperty, change, Array.getElem?_modify, if_neg (plain.ne_prototype free)]

theorem reads_withProperty {name other text : String} (p : Property) (another : other ≠ name)
    (had : heap.Reads address other text) : (heap.withProperty address name p).Reads address other text := by
  obtain ⟨o, there, own⟩ := had
  obtain ⟨same, next, there', stored, form, -, properties⟩ := plain.there_withProperty name p
  obtain ⟨o', there'', form', -⟩ := id plain
  rw [there, Option.some.injEq] at there' there''
  subst there' there''
  refine ⟨next, stored, ?_⟩
  rw [own?_of_plain form, properties, if_neg another, ← own?_of_plain form', own]

theorem reads_stored (name text : String) :
    (heap.withProperty address name (.data (Standard.textValue text) true)).Reads address name text := by
  obtain ⟨_, next, -, stored, form, -, properties⟩ :=
    plain.there_withProperty name (.data (Standard.textValue text) true)
  exact ⟨next, stored, by rw [own?_of_plain form, properties, if_pos rfl]⟩

end Plain

end Heap

/-- A text is set as a property of a plain object, or it is no prototype and passes. -/
theorem run_setProperty (invoke : Invoke) {w : World} {address : Nat} (plain : w.context.memory.Plain address)
    {name : String} (free : w.context.memory.isOpen name = true) (text : String) :
    (setProperty invoke (.object address) name (Standard.textValue text)).run.run w =
        (.ok (), w.mapMemory fun heap => heap.withProperty address name (.data (Standard.textValue text) true)) ∨
      name = "__proto__" ∧
        (setProperty invoke (.object address) name (Standard.textValue text)).run.run w = (.ok (), w) := by
  have memory : heap.run.run w = (.ok w.context.memory, w) := rfl
  unfold setProperty write
  rcases plain.place_eq free with value | vacant | ⟨same, setter⟩
  · left
    rw [run_bind_ok _ memory, value]
    rfl
  · left
    rw [run_bind_ok _ memory, vacant]
    rfl
  · right
    refine ⟨same, ?_⟩
    rw [run_bind_ok _ memory, setter]
    rfl

/-- Elements made by the interpreter have what they are given, wherever the object that all objects have properties
from has no other kind of property than values. -/
theorem heapObjects_obey (invoke : Invoke) :
    (heapObjects invoke).Obey (fun heap name => heap.isOpen name = true) Heap.Plain Heap.Reads where
  create w := by
    refine ⟨w.context.memory.size, w.context.memory.push _, rfl, ?_, fun name free => ?_⟩
    · refine ⟨_, Array.getElem?_push_size, rfl, rfl, fun name p found => ?_⟩
      cases found
    · refine (Heap.isOpen_congr ?_ name).trans free
      obtain ⟨o, there, -⟩ := Heap.of_isOpen free
      have inside : Standard.objectPrototype < w.context.memory.size := (Array.getElem?_eq_some_iff.mp there).1
      rw [Array.getElem?_push, if_neg (Nat.ne_of_lt inside)]
  set w address name value plain free := by
    rcases run_setProperty invoke plain free value with stored | ⟨same, passed⟩
    · refine ⟨_, stored, plain.withProperty _ _, fun _ open' => plain.isOpen_withProperty open' _ _,
        fun _ => plain.reads_stored name value, ?_⟩
      intro other text another had
      exact plain.reads_withProperty _ another had
    · exact ⟨w.context.memory, passed, plain, fun _ => id, fun ordinary => absurd same ordinary,
        fun _ _ _ had => had⟩
  acceptMarkup w address node plain := by
    refine ⟨w.context.memory.withProperty address "innerHTML" (.accessor none (.markup node)), rfl, ?_⟩
    intro other text another had
    exact plain.reads_withProperty _ another had

/-- Scripts can look up any text. -/
theorem run_getElementById (invoke : Invoke) (w : World) (receiver : Value) (others : List Value) (id : String) :
    (callNative invoke .getElementById receiver (Standard.textValue id :: others)).run.run w =
      match (elementById (heapObjects invoke) id).run.run w with
      | (.ok none, after) => (.ok .undefined, after)
      | (.ok (some address), after) => (.ok (.object address), after)
      | (.error e, after) => (.error e, after) := by
  have start : callNative invoke .getElementById receiver (Standard.textValue id :: others) =
      wholeText (Units.ofString id) >>= findElement invoke := rfl
  have read : wholeText (Units.ofString id) = pure id := by rw [wholeText, Units.toString?_ofString]
  rw [start, read, pure_bind, findElement, run_bind]
  rcases (elementById (heapObjects invoke) id).run.run w with ⟨outcome, after⟩
  cases outcome with
  | error e => rfl
  | ok found => cases found <;> rfl

/-- Two nodes of one name, the deeper one in front. -/
def twoNamed : Forest Content :=
  .node { kind := .container } (.single { kind := .heading, id? := some "x" } .nil)
    (.single { kind := .link, id? := some "x", attributes := [("id", "x"), ("data", "1"), ("data", "2")] } .nil)

def twoNamedPage : World :=
  { context := { memory := Standard.heap }, document := .ofForest twoNamed, parser := Markup.tagParser }

/-- Of two values of one attribute the element has the first. -/
theorem getElementById_finds_nearest_twoNamed :
    let w := twoNamedPage
    let objects := heapObjects (invoke callDepth)
    (objects.Obey (fun heap name => heap.isOpen name = true) Heap.Plain Heap.Reads ∧ w.document.Reachable) ∧
    w.document.findById? "x" = some ⟨2, 0⟩ ∧
    (∃ found : Option Located, w.document.findById? "x" = found.map Located.handle ∧
      Nearest (fun n => n.content.id? = some "x") w.document.located.ranked found ∧
      (∀ n ∈ found, ∀ entry ∈ n.content.attributes, w.context.memory.isOpen entry.1 = true) ∧
      Gives Heap.Reads w found ((elementById objects "x").run.run w)) ∧
    ∃ address memory, (elementById objects "x").run.run w = (.ok (some address), w.mapMemory fun _ => memory) ∧
      memory.Reads address "data" "1" := by
  intro w objects
  have obey := heapObjects_obey (invoke callDepth)
  have reachable : w.document.Reachable := .ofForest twoNamed
  have nearest : w.document.findById? "x" = some ⟨2, 0⟩ := by decide
  have node : ((w.document.get? ⟨2, 0⟩).map fun node => node.content.attributes) =
      some [("id", "x"), ("data", "1"), ("data", "2")] := by decide
  obtain ⟨-, found, same, least, gives⟩ := getElementById_finds_nearest obey reachable "x"
  have attributes : ∀ n ∈ found, n.content.attributes = [("id", "x"), ("data", "1"), ("data", "2")] := by
    rintro n rfl
    obtain ⟨children, there, -⟩ := reachable.represents.holds.get? (mem_preorder_of_nearest least)
    rw [nearest, Option.map_some, Option.some.injEq] at same
    rwa [same, there, Option.map_some, Option.some.injEq] at node
  have clear : ∀ n ∈ found, ∀ entry ∈ n.content.attributes, w.context.memory.isOpen entry.1 = true := by
    intro n member
    rw [attributes n member]
    decide +kernel
  have given := gives clear
  refine ⟨⟨obey, reachable⟩, nearest, ⟨found, same, least, clear, given⟩, ?_⟩
  rw [nearest] at same
  revert given
  generalize (elementById objects "x").run.run w = ended
  intro given
  cases given with
  | nothing => cases same
  | @element n address memory carries =>
    have carried := carries [("id", "x")] "data" "1" [("data", "2")] (attributes n rfl)
    exact ⟨address, memory, rfl, (carried (by decide) (by decide) (by decide)).2⟩

/-- Scripts gave all objects a setter of the name of an attribute. It is called with the value while the element is
made, and the element is left without the attribute. -/
theorem attribute_lost_to_setter :
    let node : Content := { kind := .container, id? := some "b", attributes := [("id", "b"), ("data", "1")] }
    let w : World :=
      { context := .fresh fun _ => false, document := .ofForest (.single node .nil), parser := Markup.tagParser }
    let source := "function f() \x7b \x7d Object.prototype.__defineSetter__('data', f);" ++
      "console.log(document.getElementById('b').id, document.getElementById('b').data)"
    let ended := w.evaluate (fun _ => false) source.toUTF8
    (w.document.findById? "b" = some ⟨0, 0⟩ ∧ node.attribute? "id" = some "b" ∧ node.attribute? "data" = some "1") ∧
      ended.1 = .ok () ∧ (ended.2.log matches [.console .info "b undefined"]) := by
  intro node w source ended
  decide +kernel

end PocketReader.Script
