import PocketReader.Proofs.Script.Effects
import PocketReader.Script.Evaluate

/-! The interpreter is put together from what a script can do and see. It reads and changes the memory of its engine,
sees the page and holds it, writes to the console and assigns markup, and each of its functions does nothing else,
given calls that do nothing else; calls are then so by induction on how many may be under way. -/
namespace PocketReader.Script

/-- A run that is put together from what a script can do and see, one thing after another. -/
inductive Scripted : {α : Type} → Run α → Prop
  | pure {α : Type} (a : α) : Scripted (Pure.pure a : Run α)
  | throw {α : Type} (e : Thrown) : Scripted (MonadExcept.throw e : Run α)
  | bind {α β : Type} {m : Run α} {f : α → Run β} : Scripted m → (∀ a, Scripted (f a)) → Scripted (m >>= f)
  | heap : Scripted heap
  | page : Scripted page
  | memory {α : Type} (read : Heap → α) (f : Heap → Heap) :
    Scripted (modifyGet fun w => (read w.context.memory, w.mapMemory f) : Run α)
  | console (level : Level) (line : String) : Scripted (report (.console level line))
  | markup (node : Handle) (source : String) : Scripted (setInnerMarkup node source)
  | holding {α : Type} {m : Run α} : Scripted m → Scripted (holding m)

namespace Scripted

variable {α β : Type}

theorem fail (message : String) : Scripted (Script.fail message : Run α) := throw _

theorem undefinedName (name : String) : Scripted (Script.undefinedName name : Run α) := fail _

theorem ite {m n : Run α} {p : Prop} [Decidable p] (yes : Scripted m) (no : Scripted n) :
    Scripted (if p then m else n) := by
  split
  · exact yes
  · exact no

theorem mapM {γ : Type} {f : γ → Run β} (each : ∀ c, Scripted (f c)) (l : List γ) : Scripted (l.mapM f) := by
  induction l with
  | nil => exact pure _
  | cons c l ih =>
    rw [List.mapM_cons]
    exact (each c).bind fun _ => ih.bind fun _ => pure _

theorem forM {γ : Type} {f : γ → Run PUnit} (each : ∀ c, Scripted (f c)) (l : List γ) : Scripted (l.forM f) := by
  induction l with
  | nil => exact pure _
  | cons c l ih => exact (each c).bind fun _ => ih

end Scripted

/-! Objects and properties. -/

theorem scripted_allocate (o : Object) : Scripted (allocate o) := .memory Array.size fun heap => heap.push o

theorem scripted_makeObject (form : Form) (prototype : Nat) : Scripted (makeObject form prototype) :=
  (scripted_allocate _).bind fun _ => .pure _

theorem scripted_makeArray (items : List Value) (length : Nat) : Scripted (makeArray items length) :=
  scripted_makeObject _ _

theorem scripted_change (address : Nat) (f : Object → Object) : Scripted (change address f) :=
  .memory (fun _ => ()) fun heap => heap.change address f

theorem scripted_store (address : Nat) (name : String) (v : Value) : Scripted (store address name v) :=
  scripted_change _ _

theorem scripted_read (receiver : Value) (p : Property) : Scripted (p.read receiver) := by
  unfold Property.read
  split
  · exact .pure _
  · exact .pure _
  · exact Scripted.heap.bind fun _ => .pure _
  · exact .fail _

theorem scripted_getProperty (v : Value) (name : String) : Scripted (getProperty v name) := by
  unfold getProperty
  split
  · exact .fail _
  · exact .fail _
  · refine Scripted.heap.bind fun heap => ?_
    split
    · exact scripted_read _ _
    · exact .pure _

theorem scripted_isVariable (name : String) : Scripted (isVariable name) := Scripted.heap.bind fun _ => .pure _

theorem scripted_readVariable (name : String) : Scripted (readVariable name) := by
  refine Scripted.heap.bind fun heap => ?_
  split
  · exact scripted_read _ _
  · exact .undefinedName _

theorem scripted_setPrototype (address : Nat) (prototype? : Option Nat) :
    Scripted (setPrototype address prototype?) := by
  refine Scripted.heap.bind fun heap => ?_
  exact .ite (.pure _) (.ite (.fail _) (.ite (.fail _) (scripted_change _ _)))

theorem scripted_declare (name : String) : Scripted (declare name) :=
  Scripted.heap.bind fun _ => .ite (scripted_store _ _ _) (.pure _)

theorem scripted_permitFunction (name : String) : Scripted (permitFunction name) := by
  refine Scripted.heap.bind fun heap => ?_
  split
  · exact .fail _
  · exact .pure _

theorem scripted_define (f : Function) : Scripted (define f) :=
  (scripted_allocate _).bind fun _ => (scripted_allocate _).bind fun _ => (scripted_store _ _ _).bind fun _ =>
    scripted_store _ _ _

/-! Values. -/

theorem scripted_textOfPlain (v : Value) : Scripted (textOfPlain v) := by
  unfold textOfPlain
  split
  · exact .pure _
  · exact .fail _

theorem scripted_numberOfPlain (v : Value) : Scripted (numberOfPlain v) := by
  unfold numberOfPlain
  split
  · exact .pure _
  · exact .fail _

theorem scripted_wholeText (u : PocketReader.Text.Units) : Scripted (wholeText u) := by
  unfold wholeText
  split
  · exact .pure _
  · exact .fail _

theorem scripted_toObject (v : Value) : Scripted (toObject v) := by
  refine Scripted.heap.bind fun heap => ?_
  split
  · exact .pure _
  · exact scripted_makeObject _ _
  · exact .fail _

theorem scripted_unwrapped (v : Value) : Scripted (unwrapped v) := by
  refine Scripted.heap.bind fun heap => ?_
  split
  · exact .pure _
  · exact .pure _

theorem scripted_objectText (v : Value) : Scripted (objectText v) := by
  unfold objectText
  split
  · exact .pure _
  · exact .pure _
  · refine (scripted_toObject _).bind fun o => ?_
    split
    · exact Scripted.heap.bind fun _ => .pure _
    · exact .pure _

section

variable {invoke : Invoke} (calls : ∀ f receiver arguments, Scripted (invoke f receiver arguments))

include calls

theorem scripted_plainBy (v : Value) (names : List String) : Scripted (plainBy invoke v names) := by
  induction names with
  | nil => exact .fail _
  | cons name others ih =>
    refine (scripted_getProperty v name).bind fun f => Scripted.heap.bind fun heap => .ite ?_ ih
    refine (calls f v []).bind fun result => ?_
    split
    · exact ih
    · exact .pure _

theorem scripted_plainForText (v : Value) : Scripted (plainForText invoke v) := by
  unfold plainForText
  split
  · exact scripted_plainBy calls _ _
  · exact .pure _

theorem scripted_plainForSum (v : Value) : Scripted (plainForSum invoke v) := by
  unfold plainForSum
  split
  · exact scripted_plainBy calls _ _
  · exact .pure _

theorem scripted_toText (v : Value) : Scripted (toText invoke v) :=
  (scripted_plainForText calls v).bind fun _ => scripted_textOfPlain _

theorem scripted_toNumber (v : Value) : Scripted (toNumber invoke v) :=
  (scripted_plainForSum calls v).bind fun _ => scripted_numberOfPlain _

theorem scripted_add (left right : Value) : Scripted (add invoke left right) := by
  refine (scripted_plainForSum calls left).bind fun a => (scripted_plainForSum calls right).bind fun b => .ite ?_ ?_
  · exact (scripted_textOfPlain a).bind fun _ => (scripted_textOfPlain b).bind fun _ => .pure _
  · exact (scripted_numberOfPlain a).bind fun _ => (scripted_numberOfPlain b).bind fun _ => .pure _

/-! Assignments. -/

theorem scripted_toArrayLength (v : Value) : Scripted (toArrayLength invoke v) := by
  refine (scripted_toNumber calls v).bind fun first => ?_
  dsimp only
  split
  · refine (scripted_toNumber calls _).bind fun x => ?_
    split
    · exact .pure _
    · exact .fail _
  · refine (Scripted.pure first).bind fun x => ?_
    split
    · exact .pure _
    · exact .fail _

theorem scripted_setArrayLength (address : Nat) (v : Value) : Scripted (setArrayLength invoke address v) :=
  (scripted_toArrayLength calls v).bind fun _ => scripted_change _ _

theorem scripted_setter (target v : Value) (set : Setter) : Scripted (set.write invoke target v) := by
  unfold Setter.write
  split
  · exact .fail _
  · refine (scripted_toText calls v).bind fun u => (scripted_wholeText u).bind fun source => ?_
    exact .markup _ _
  · exact (calls _ _ _).bind fun _ => .pure _
  · split
    · exact scripted_setPrototype _ _
    · exact scripted_setPrototype _ _
    · exact .pure _

theorem scripted_write (target : Value) (name : String) (v : Value) {add : Run Unit} (adds : Scripted add) :
    Scripted (write invoke target name v add) := by
  refine Scripted.heap.bind fun heap => ?_
  split
  · exact scripted_store _ _ _
  · exact scripted_setArrayLength calls _ _
  · exact .fail _
  · exact scripted_setter calls _ _ _
  · exact adds

theorem scripted_setProperty (target : Value) (name : String) (v : Value) :
    Scripted (setProperty invoke target name v) := by
  unfold setProperty
  split
  · exact .fail _
  · exact .fail _
  · exact scripted_write calls _ _ _ (scripted_store _ _ _)
  · exact scripted_write calls _ _ _ (.fail _)

theorem scripted_writeVariable (name : String) (v : Value) : Scripted (writeVariable invoke name v) :=
  scripted_write calls _ _ _ (.undefinedName _)

/-! Elements. -/

omit calls in
theorem scripted_defineSetter (address : Nat) (name : String) (f : Nat) : Scripted (defineSetter address name f) :=
  Scripted.heap.bind fun _ => .ite (.fail _) (scripted_change _ _)

theorem scripted_makeElement (node : Handle) (c : Content) : Scripted (makeElement (heapObjects invoke) node c) := by
  refine (scripted_allocate _).bind fun address => ?_
  have sets := Scripted.forM
    (fun entry : String × String =>
      scripted_setProperty calls (.object address) entry.1 (Standard.textValue entry.2))
    c.attributes.reverse
  exact sets.bind fun _ => (scripted_change _ _).bind fun _ => .pure _

theorem scripted_findElement (id : String) : Scripted (findElement invoke id) := by
  have found : Scripted (elementById (heapObjects invoke) id) := by
    refine Scripted.page.bind fun document => ?_
    split
    · exact .pure _
    · exact (Scripted.holding (scripted_makeElement calls _ _)).bind fun _ => .pure _
  refine found.bind fun element => ?_
  split
  · exact .pure _
  · exact .pure _

/-! Texts of objects. -/

/-- What is done with a property made text, or with what stands for it if it is not there. -/
theorem scripted_orElse {β : Type} (v : Value) (absent : PocketReader.Text.Units)
    {next : PocketReader.Text.Units → Run β} (after : ∀ u, Scripted (next u)) :
    Scripted (match v with
      | .undefined => do
        let u ← pure absent
        next u
      | v => do
        let u ← toText invoke v
        next u) := by
  split
  · exact (Scripted.pure absent).bind after
  · exact (scripted_toText calls _).bind after

theorem scripted_functionText (f : Value) : Scripted (functionText invoke f) := by
  refine Scripted.heap.bind fun heap => ?_
  split
  · exact .pure _
  · exact (scripted_getProperty f "name").bind fun name => scripted_orElse calls name _ fun _ => .pure _
  · exact .fail _

theorem scripted_errorText (v : Value) : Scripted (errorText invoke v) :=
  (scripted_getProperty v "name").bind fun name => scripted_orElse calls name _ fun _ =>
    (scripted_getProperty v "message").bind fun message => scripted_orElse calls message _ fun _ => .pure _

theorem scripted_itemText (address place : Nat) : Scripted (itemText invoke address place) := by
  refine Scripted.heap.bind fun heap => ?_
  split
  · exact .pure _
  · exact .pure _
  · exact .pure _
  · exact scripted_toText calls _

theorem scripted_toLength (v : Value) : Scripted (toLength invoke v) :=
  (scripted_toNumber calls v).bind fun _ => .pure _

theorem scripted_join (receiver separator : Value) : Scripted (join invoke receiver separator) := by
  refine (scripted_toObject receiver).bind fun o => ?_
  split
  · refine (scripted_getProperty _ "length").bind fun v => (scripted_toLength calls v).bind fun length => ?_
    refine scripted_orElse calls separator _ fun between => .ite (.fail _) ?_
    exact (Scripted.mapM (scripted_itemText calls _) _).bind fun _ => .pure _
  · exact .pure _

theorem scripted_arrayText (receiver : Value) : Scripted (arrayText invoke receiver) := by
  refine (scripted_getProperty receiver "join").bind fun f => Scripted.heap.bind fun heap => .ite (calls _ _ _) ?_
  exact (scripted_objectText receiver).bind fun _ => .pure _

/-! Functions that exist before any script runs. -/

theorem scripted_makeError (prototype : Nat) (message : Value) : Scripted (makeError invoke prototype message) := by
  unfold makeError
  dsimp only
  split
  · exact (Scripted.pure _).bind fun _ => (scripted_allocate _).bind fun _ => .pure _
  · refine (scripted_toText calls _).bind fun _ => (Scripted.pure _).bind fun _ => ?_
    exact (scripted_allocate _).bind fun _ => .pure _

omit calls in
theorem scripted_arrayOf (arguments : List Value) : Scripted (arrayOf arguments) := by
  unfold arrayOf
  split
  · split
    · exact scripted_makeArray _ _
    · exact .fail _
  · exact scripted_makeArray _ _

omit calls in
theorem scripted_changeArray (n : Native) (receiver : Value) (arguments : List Value) :
    Scripted (changeArray n receiver arguments) := by
  refine Scripted.heap.bind fun heap => ?_
  split
  · exact (scripted_change _ _).bind fun _ => .pure _
  · exact .pure _

omit calls in
theorem scripted_expecting (receiver : Value) (kind : String) (is : Value → Bool) :
    Scripted (expecting receiver kind is) :=
  (scripted_unwrapped receiver).bind fun _ => .ite (.pure _) (.fail _)

theorem scripted_describe (v : Value) : Scripted (describe invoke v) := by
  unfold describe
  split
  · exact .pure _
  · exact (scripted_toText calls _).bind fun _ => .pure _

omit calls in
theorem scripted_madeOf (arguments : List Value) (empty : Value) {make : Value → Run Value}
    (makes : ∀ v, Scripted (make v)) : Scripted (madeOf arguments empty make) := by
  unfold madeOf
  split
  · exact .pure _
  · exact makes _

theorem scripted_numberValue (v : Value) : Scripted (numberValue invoke v) :=
  (scripted_toNumber calls v).bind fun _ => .pure _

omit calls in
theorem scripted_argumentsOf (v : Value) : Scripted (argumentsOf v) := by
  refine Scripted.heap.bind fun heap => ?_
  split
  · exact .pure _
  · exact .pure _
  · exact .pure _
  · exact .pure _
  · exact .fail _

theorem scripted_callThrough (f receiver : Value) {arguments : Run (List Value)} (found : Scripted arguments) :
    Scripted (callThrough invoke f receiver arguments) :=
  Scripted.heap.bind fun _ => .ite (found.bind fun _ => calls _ _ _) (.fail _)

theorem scripted_callNative (n : Native) (receiver : Value) (arguments : List Value) :
    Scripted (callNative invoke n receiver arguments) := by
  unfold callNative
  dsimp only
  cases n with
  | getElementById =>
    dsimp only
    split
    · exact (scripted_wholeText _).bind fun _ => scripted_findElement calls _
    · exact .pure _
  | console level => exact Scripted.heap.bind fun _ => (Scripted.console _ _).bind fun _ => .pure _
  | nothing => exact .pure _
  | nothingOnObject => exact (scripted_toObject _).bind fun _ => .pure _
  | nothingOnText => exact .ite (.fail _) (.pure _)
  | make prototype => exact scripted_makeObject _ _
  | makeOnly prototype => exact .fail _
  | same => exact .pure _
  | object => exact .ite (scripted_makeObject _ _) (scripted_toObject _)
  | objectText => exact (scripted_objectText _).bind fun _ => .pure _
  | objectLocalText => exact (scripted_getProperty _ _).bind fun _ => scripted_callThrough calls _ _ (.pure _)
  | objectValue => exact scripted_toObject _
  | hasOwnProperty =>
    refine (scripted_toText calls _).bind fun name => (scripted_toObject _).bind fun o => ?_
    split
    · exact Scripted.heap.bind fun _ => .pure _
    · exact .pure _
  | isPrototypeOf =>
    refine (scripted_toObject _).bind fun o => ?_
    split
    · exact Scripted.heap.bind fun _ => .pure _
    · exact .pure _
  | defineSetter =>
    refine (scripted_toObject _).bind fun o => ?_
    split
    · refine Scripted.heap.bind fun heap => .ite ?_ (.fail _)
      refine (scripted_toText calls _).bind fun u => ?_
      split
      · exact .pure _
      · exact (scripted_defineSetter _ _ _).bind fun _ => .pure _
    · exact .fail _
  | function => exact scripted_makeObject _ _
  | functionText => exact (scripted_functionText calls _).bind fun _ => .pure _
  | call => exact scripted_callThrough calls _ _ (.pure _)
  | apply => exact scripted_callThrough calls _ _ (scripted_argumentsOf _)
  | error prototype => exact scripted_makeError calls _ _
  | errorText =>
    dsimp only
    split
    · exact (scripted_errorText calls _).bind fun _ => .pure _
    · exact .fail _
  | errorOfMany prototype =>
    exact (scripted_makeError calls _ _).bind fun _ => (scripted_getProperty _ _).bind fun _ => .pure _
  | array => exact scripted_arrayOf _
  | isArray =>
    refine Scripted.heap.bind fun heap => ?_
    split
    · exact .pure _
    · exact .pure _
  | arrayText => exact (scripted_toObject _).bind fun _ => scripted_arrayText calls _
  | join => exact (scripted_join calls _ _).bind fun _ => .pure _
  | push | pop | shift | unshift | reverse => exact scripted_changeArray _ _ _
  | text => exact scripted_madeOf _ _ (scripted_describe calls)
  | textValue => exact scripted_expecting _ _ _
  | boolean => exact .pure _
  | booleanText => exact (scripted_expecting _ _ _).bind fun _ => (scripted_toText calls _).bind fun _ => .pure _
  | booleanValue => exact scripted_expecting _ _ _
  | number => exact scripted_madeOf _ _ (scripted_numberValue calls)
  | numberText => exact (scripted_expecting _ _ _).bind fun _ => (scripted_toText calls _).bind fun _ => .pure _
  | numberValue => exact scripted_expecting _ _ _
  | symbol =>
    dsimp only
    split
    · exact .pure _
    · exact (scripted_toText calls _).bind fun _ => .pure _
  | symbolText => exact (scripted_expecting _ _ _).bind fun _ => scripted_describe calls _
  | symbolValue => exact scripted_expecting _ _ _
  | bigInteger => exact .fail _
  | isNaN => exact (scripted_toNumber calls _).bind fun _ => .pure _
  | isFinite => exact (scripted_toNumber calls _).bind fun _ => .pure _
  | parseInteger =>
    refine (scripted_toText calls _).bind fun text => (scripted_toNumber calls _).bind fun x => ?_
    split
    · exact .pure _
    · exact .pure _
  | parseNumber => exact (scripted_toText calls _).bind fun _ => .pure _
  | asText => exact (scripted_toText calls _).bind fun _ => .pure _
  | patternText => exact .pure _
  | withFunction => exact Scripted.heap.bind fun _ => .ite (.pure _) (.fail _)
  | arithmetic operation => exact (scripted_toNumber calls _).bind fun _ => .pure _
  | extreme largest => exact (Scripted.mapM (scripted_toNumber calls) _).bind fun _ => .pure _

theorem scripted_constructNative (n : Native) (arguments : List Value) :
    Scripted (constructNative invoke n arguments) := by
  unfold constructNative
  dsimp only
  split
  · exact scripted_makeObject _ _
  · split
    · exact (Scripted.pure _).bind fun _ => scripted_makeObject _ _
    · exact (scripted_toText calls _).bind fun _ => scripted_makeObject _ _
  · exact scripted_makeObject _ _
  · exact (scripted_madeOf _ _ (scripted_numberValue calls)).bind fun _ => scripted_makeObject _ _
  · exact scripted_callNative calls _ _ _
  · exact scripted_callNative calls _ _ _
  · exact scripted_callNative calls _ _ _
  · exact scripted_callNative calls _ _ _
  · exact scripted_callNative calls _ _ _
  · exact scripted_callNative calls _ _ _
  · exact .fail _

theorem scripted_construct (f : Value) (arguments : List Value) : Scripted (construct invoke f arguments) := by
  refine Scripted.heap.bind fun heap => ?_
  split
  · refine (scripted_getProperty _ _).bind fun found => ?_
    exact (scripted_makeObject _ _).bind fun o => (calls _ _ _).bind fun _ => .pure _
  · exact scripted_constructNative calls _ _
  · exact .fail _
  · exact .fail _

end

/-! Expressions and statements. -/

mutual

theorem scripted_evaluate {invoke : Invoke} (calls : ∀ f receiver arguments, Scripted (invoke f receiver arguments))
    (receiver : Value) : (e : Expression) → Scripted (evaluate invoke receiver e)
  | .constant c => by
    unfold evaluate
    exact .pure _
  | .name name => by
    unfold evaluate
    exact scripted_readVariable name
  | .receiver => by
    unfold evaluate
    exact .pure _
  | .array items => by
    unfold evaluate
    exact (scripted_evaluateAll calls receiver items).bind fun _ => scripted_makeArray _ _
  | .record => by
    unfold evaluate
    exact scripted_makeObject _ _
  | .member object property => by
    unfold evaluate
    exact (scripted_evaluate calls receiver object).bind fun _ => scripted_getProperty _ _
  | .call callee arguments => by
    cases callee with
    | member object property =>
      unfold evaluate
      exact (scripted_evaluate calls receiver object).bind fun _ => (scripted_getProperty _ _).bind fun _ =>
        (scripted_evaluateAll calls receiver arguments).bind fun _ => calls _ _ _
    | _ =>
      unfold evaluate
      exact (scripted_evaluate calls receiver _).bind fun _ =>
        (scripted_evaluateAll calls receiver arguments).bind fun _ => calls _ _ _
  | .construct callee arguments => by
    unfold evaluate
    exact (scripted_evaluate calls receiver callee).bind fun _ =>
      (scripted_evaluateAll calls receiver arguments).bind fun _ => scripted_construct calls _ _
  | .sum left right => by
    unfold evaluate
    exact (scripted_evaluate calls receiver left).bind fun _ => (scripted_evaluate calls receiver right).bind fun _ =>
      scripted_add calls _ _
  | .positive e => by
    unfold evaluate
    exact (scripted_evaluate calls receiver e).bind fun _ => (scripted_toNumber calls _).bind fun _ => .pure _
  | .negative e => by
    unfold evaluate
    exact (scripted_evaluate calls receiver e).bind fun _ => (scripted_toNumber calls _).bind fun _ => .pure _
  | .assign name value => by
    unfold evaluate
    refine (scripted_isVariable name).bind fun known => (scripted_evaluate calls receiver value).bind fun v => ?_
    dsimp only
    split
    · exact (scripted_writeVariable calls _ _).bind fun _ => .pure _
    · exact (Scripted.undefinedName name).bind fun _ => .pure _
  | .extend name value => by
    unfold evaluate
    exact (scripted_readVariable name).bind fun _ => (scripted_evaluate calls receiver value).bind fun _ =>
      (scripted_add calls _ _).bind fun _ => (scripted_writeVariable calls _ _).bind fun _ => .pure _
  | .assignMember object property value => by
    unfold evaluate
    exact (scripted_evaluate calls receiver object).bind fun _ =>
      (scripted_evaluate calls receiver value).bind fun _ =>
        (scripted_setProperty calls _ _ _).bind fun _ => .pure _
  | .extendMember object property value => by
    unfold evaluate
    exact (scripted_evaluate calls receiver object).bind fun _ => (scripted_getProperty _ _).bind fun _ =>
      (scripted_evaluate calls receiver value).bind fun _ => (scripted_add calls _ _).bind fun _ =>
        (scripted_setProperty calls _ _ _).bind fun _ => .pure _
  | .sequence first second => by
    unfold evaluate
    exact (scripted_evaluate calls receiver first).bind fun _ => scripted_evaluate calls receiver second

theorem scripted_evaluateAll {invoke : Invoke}
    (calls : ∀ f receiver arguments, Scripted (invoke f receiver arguments))
    (receiver : Value) : (l : List Expression) → Scripted (evaluateAll invoke receiver l)
  | [] => by
    unfold evaluateAll
    exact .pure _
  | e :: rest => by
    unfold evaluateAll
    exact (scripted_evaluate calls receiver e).bind fun _ =>
      (scripted_evaluateAll calls receiver rest).bind fun _ => .pure _

end

section

variable {invoke : Invoke} (calls : ∀ f receiver arguments, Scripted (invoke f receiver arguments)) (receiver : Value)

include calls

theorem scripted_perform (s : Statement) : Scripted (perform invoke receiver s) := by
  unfold perform
  split
  · exact .pure _
  · exact (scripted_evaluate calls receiver _).bind fun _ => scripted_writeVariable calls _ _
  · exact (scripted_evaluate calls receiver _).bind fun _ => .throw _
  · exact (scripted_evaluate calls receiver _).bind fun _ => .pure _

theorem scripted_performAll (l : List Statement) : Scripted (performAll invoke receiver l) := by
  induction l with
  | nil => exact .pure _
  | cons s rest ih => exact (scripted_perform calls receiver s).bind fun _ => ih

end

/-- The induction is on the number of calls that may be under way. -/
theorem scripted_invoke (depth : Nat) (f receiver : Value) (arguments : List Value) :
    Scripted (invoke depth f receiver arguments) := by
  induction depth generalizing f receiver arguments with
  | zero =>
    unfold invoke
    exact Scripted.heap.bind fun _ => .ite (.fail _) (.fail _)
  | succ depth ih =>
    unfold invoke
    refine Scripted.heap.bind fun heap => ?_
    split
    · exact (scripted_performAll ih _ _).bind fun _ => .pure _
    · exact scripted_callNative ih _ _ _
    · exact .fail _

theorem scripted_run (p : Program) : Scripted p.run := by
  unfold Program.run
  have permits := Scripted.forM (fun f : Function => scripted_permitFunction f.name) p.functions
  have defines := Scripted.forM scripted_define p.functions
  have declares := Scripted.forM scripted_declare (p.statements.filterMap Statement.declared?)
  have body := scripted_performAll (scripted_invoke callDepth) globals p.statements
  exact permits.bind fun _ => defines.bind fun _ => declares.bind fun _ => body

theorem scripted_tell (thrown : Thrown) : Scripted thrown.tell := by
  unfold Thrown.tell
  split
  · exact .pure _
  · exact .pure _
  · refine Scripted.heap.bind fun heap => ?_
    split
    · refine (scripted_getProperty _ _).bind fun message => ?_
      split
      · exact .pure _
      · exact .pure _
      · exact (scripted_toText (scripted_invoke callDepth) _).bind fun _ => .pure _
    · exact .pure _

end PocketReader.Script
