import PocketReader.Button.Queue
import PocketReader.Proofs.Button

/-! What goes through the channel between the buttons and the reader. A transition classifies a reading, offers its
events one by one, and answers with how many found room; anybody may publish or receive before it is through. Whoever
offers, and however the steps alternate, the channel takes in what it has room for and gives it out in the order in
which it was taken in; and what is dropped is of no consequence for what is offered later. -/
namespace PocketReader

/-- What a channel is known to do. -/
structure Channel.Bounded (κ : Type) [Channel κ] (capacity : Nat) : Prop where
  empty : waiting (Channel.empty : κ) = []
  /-- An event is refused only when there is no room for it. -/
  room (channel : κ) (event : ButtonEvent) : (trySend channel event).1 = true ↔ (waiting channel).length < capacity
  accepted {channel : κ} {event : ButtonEvent} :
    (trySend channel event).1 = true → waiting (trySend channel event).2 = waiting channel ++ [event]
  refused {channel : κ} {event : ButtonEvent} :
    (trySend channel event).1 = false → waiting (trySend channel event).2 = waiting channel
  /-- What comes in first goes out first. -/
  received (channel : κ) : (tryReceive channel).1.toList ++ waiting (tryReceive channel).2 = waiting channel

theorem EventQueue.bounded : Channel.Bounded EventQueue Channel.capacity where
  empty := rfl
  room q event := by
    change (q.offer event).1 = true ↔ q.events.length < Channel.capacity
    unfold offer
    split <;> simp [*]
  accepted {q event} := by
    change (q.offer event).1 = true → (q.offer event).2.events = q.events ++ [event]
    unfold offer
    split <;> simp
  refused {q event} := by
    change (q.offer event).1 = false → (q.offer event).2.events = q.events
    unfold offer
    split <;> simp
  received := by
    rintro ⟨_ | ⟨event, events⟩⟩ <;> rfl

/-- A channel that always has room. -/
structure Backlog where
  events : List ButtonEvent := []
  deriving DecidableEq

instance : Channel Backlog where
  empty := {}
  trySend b event := (true, ⟨b.events ++ [event]⟩)
  tryReceive b := (b.events.head?, ⟨b.events.tail⟩)
  waiting := Backlog.events

namespace Keypad

variable {κ : Type} (k : Keypad κ)

@[simp] theorem channel_setClassifier (c : Classifier) (button : Button) :
    (k.setClassifier c button).channel = k.channel := by
  cases button <;> rfl

theorem classifier_setClassifier (c : Classifier) (button other : Button) :
    (k.setClassifier c button).classifier other = if other = button then c else k.classifier other := by
  cases button <;> cases other <;> rfl

variable [Channel κ]

@[simp] theorem classifier_publish (event : ButtonEvent) (button : Button) :
    (k.publish event).2.classifier button = k.classifier button := by
  cases button <;> rfl

@[simp] theorem classifier_receive (button : Button) : k.receive.2.classifier button = k.classifier button := by
  cases button <;> rfl

end Keypad

/-- An event that was offered. -/
structure Offer where
  event : ButtonEvent
  /-- Which transition offered it; others are published. -/
  call? : Option Nat
  /-- How many events were waiting at that moment. -/
  held : Nat
  /-- What the one who offered it was answered. -/
  accepted : Bool
  deriving DecidableEq

/-- A transition whose reading has been classified. When it has nothing left to offer, it answers with its count. -/
structure Call where
  reading : Reading
  given : List ButtonEvent
  left : List ButtonEvent
  count : Nat := 0
  deriving DecidableEq

/-- A transition offered what was given to it, as far as it has come, and counts what found room. -/
structure Call.Fair (call : Call) (made : List Offer) : Prop where
  events : made.map Offer.event ++ call.left = call.given
  count : call.count = made.countP Offer.accepted

/-- A keypad, and what went through its channel so far. -/
structure Traffic (κ : Type) where
  keypad : Keypad κ
  /-- The transitions that have answered, in the order in which they were made. -/
  answered : List Call := []
  underWay? : Option Call := none
  offers : List Offer := []
  received : List ButtonEvent := []
  deriving DecidableEq

namespace Traffic

/-- A step of those who share a keypad. -/
inductive Act where
  /-- A transition begins, if the one before is through: its reading is classified. -/
  | begin (reading : Reading)
  /-- The transition under way offers its next event, or it answers. -/
  | proceed
  | publish (event : ButtonEvent)
  | receive
  deriving DecidableEq

section

variable {κ : Type}

/-- The transitions that were made, the one under way at the end. -/
def calls (t : Traffic κ) : List Call := t.answered ++ t.underWay?.toList

def readings (t : Traffic κ) : List Reading := t.calls.map Call.reading

/-- The events that were taken in, in the order in which they were offered. -/
def accepted (t : Traffic κ) : List ButtonEvent := (t.offers.filter Offer.accepted).map Offer.event

/-- What one transition offered. -/
def offersOf (t : Traffic κ) (number : Nat) : List Offer := t.offers.filter (·.call? = some number)

/-- What transitions offered. -/
def emitted (t : Traffic κ) : List ButtonEvent := (t.offers.filter (·.call?.isSome)).map Offer.event

/-- What the transition under way has still to offer. -/
def left (t : Traffic κ) : List ButtonEvent := t.underWay?.elim [] Call.left

def begin (t : Traffic κ) (reading : Reading) : Traffic κ :=
  match t.underWay? with
  | some _ => t
  | none =>
    let (c, given) := (t.keypad.classifier reading.button).update reading.pressed reading.now
    { t with
      keypad := t.keypad.setClassifier c reading.button
      underWay? := some { reading, given, left := given } }

variable [Channel κ]

def start (threshold : UInt64) : Traffic κ := { keypad := .withThreshold threshold }

/-- An event is offered, by a transition or by somebody who publishes it. -/
def put (t : Traffic κ) (event : ButtonEvent) (call? : Option Nat) : Traffic κ :=
  let (accepted, keypad) := t.keypad.publish event
  let held := (Channel.waiting t.keypad.channel).length
  { t with keypad, offers := t.offers ++ [{ event, call?, held, accepted }] }

def proceed (t : Traffic κ) : Traffic κ :=
  match t.underWay? with
  | none => t
  | some call =>
    match call.left with
    | [] => { t with answered := t.answered ++ [call], underWay? := none }
    | event :: left =>
      let count := call.count + if (t.keypad.publish event).1 then 1 else 0
      { t.put event (some t.answered.length) with underWay? := some { call with left, count } }

def step (t : Traffic κ) : Act → Traffic κ
  | .begin reading => t.begin reading
  | .proceed => t.proceed
  | .publish event => t.put event none
  | .receive =>
    let (event?, keypad) := t.keypad.receive
    { t with keypad, received := t.received ++ event?.toList }

def run (t : Traffic κ) (acts : List Act) : Traffic κ := acts.foldl step t

theorem run_keeps {P : Traffic κ → Prop} (kept : ∀ t act, P t → P (t.step act)) {t : Traffic κ} (before : P t)
    (acts : List Act) : P (t.run acts) := by
  induction acts generalizing t with
  | nil => exact before
  | cons act acts ih => exact ih (kept t act before)

end

variable {κ : Type} {t : Traffic κ}

theorem begin_of_busy {call : Call} (busy : t.underWay? = some call) (reading : Reading) : t.begin reading = t := by
  simp only [begin, busy]

theorem begin_of_idle (idle : t.underWay? = none) (reading : Reading) :
    t.begin reading =
      let given := (t.keypad.classifier reading.button).update reading.pressed reading.now
      { t with
        keypad := t.keypad.setClassifier given.1 reading.button
        underWay? := some { reading, given := given.2, left := given.2 } } := by
  simp only [begin, idle]

variable [Channel κ]

theorem proceed_of_idle (idle : t.underWay? = none) : t.proceed = t := by
  simp only [proceed, idle]

theorem proceed_of_nil {call : Call} (busy : t.underWay? = some call) (through : call.left = []) :
    t.proceed = { t with answered := t.answered ++ [call], underWay? := none } := by
  simp only [proceed, busy, through]

theorem proceed_of_cons {call : Call} {event : ButtonEvent} {left : List ButtonEvent} (busy : t.underWay? = some call)
    (more : call.left = event :: left) :
    t.proceed =
      { t.put event (some t.answered.length) with
        underWay? := some
          { call with left, count := call.count + if (t.keypad.publish event).1 then 1 else 0 } } := by
  simp only [proceed, busy, more]

/-- What an offer keeps, and the begin and the end of a transition, and a receipt, every step keeps. -/
theorem step_keeps {P : Traffic κ → Prop} (before : P t)
    (begun : ∀ reading, t.underWay? = none → P (t.begin reading))
    (offered : ∀ call event left, t.underWay? = some call → call.left = event :: left → P t.proceed)
    (through : ∀ call, t.underWay? = some call → call.left = [] → P t.proceed)
    (published : ∀ event, P (t.put event none)) (received : P (t.step .receive)) (act : Act) : P (t.step act) := by
  cases act with
  | begin reading =>
    cases busy : t.underWay? with
    | some call =>
      rw [step, begin_of_busy busy]
      exact before
    | none => exact begun reading busy
  | proceed =>
    cases busy : t.underWay? with
    | none =>
      rw [step, proceed_of_idle busy]
      exact before
    | some call =>
      cases more : call.left with
      | nil => exact through call busy more
      | cons event left => exact offered call event left busy more
  | publish event => exact published event
  | receive => exact received

/-! The channel. -/

/-- The channel is within its bound, each verdict was right, and what was taken in has been received or waits. -/
structure Kept (capacity : Nat) (t : Traffic κ) : Prop where
  bound : (Channel.waiting t.keypad.channel).length ≤ capacity
  verdict : ∀ o ∈ t.offers, o.accepted = true ↔ o.held < capacity
  order : t.received ++ Channel.waiting t.keypad.channel = t.accepted

section

variable {capacity : Nat} (bounded : Channel.Bounded κ capacity)

include bounded

theorem kept_start (threshold : UInt64) : (start threshold : Traffic κ).Kept capacity := by
  have empty : Channel.waiting (start threshold : Traffic κ).keypad.channel = [] := bounded.empty
  refine ⟨?_, fun _ member => (List.not_mem_nil member).elim, ?_⟩
  · rw [empty]
    exact Nat.zero_le _
  · rw [empty]
    rfl

namespace Kept

variable (kept : t.Kept capacity)

include kept

theorem put (event : ButtonEvent) (call? : Option Nat) : (t.put event call?).Kept capacity := by
  have room := bounded.room t.keypad.channel event
  have verdict : ∀ o ∈ (t.put event call?).offers, o.accepted = true ↔ o.held < capacity := by
    intro o member
    rcases List.mem_append.mp member with early | last
    · exact kept.verdict o early
    · rw [List.mem_singleton.mp last]
      exact room
  have order := kept.order
  unfold accepted at order
  cases sent : (Channel.trySend t.keypad.channel event).1 with
  | true =>
    have after := bounded.accepted sent
    refine ⟨?_, verdict, ?_⟩
    · change (Channel.waiting (Channel.trySend t.keypad.channel event).2).length ≤ capacity
      rw [after, List.length_append]
      exact room.mp sent
    · change t.received ++ Channel.waiting (Channel.trySend t.keypad.channel event).2 = _
      rw [after, ← List.append_assoc, order]
      simp [Traffic.put, Keypad.publish, accepted, sent]
  | false =>
    have after := bounded.refused sent
    refine ⟨?_, verdict, ?_⟩
    · change (Channel.waiting (Channel.trySend t.keypad.channel event).2).length ≤ capacity
      rw [after]
      exact kept.bound
    · change t.received ++ Channel.waiting (Channel.trySend t.keypad.channel event).2 = _
      rw [after, order]
      simp [Traffic.put, Keypad.publish, accepted, sent]

theorem receive : (t.step .receive).Kept capacity := by
  have received := bounded.received t.keypad.channel
  refine ⟨?_, kept.verdict, ?_⟩
  · have fewer := congrArg List.length received
    rw [List.length_append] at fewer
    exact Nat.le_trans (Nat.le_of_add_left_le (Nat.le_of_eq fewer)) kept.bound
  · change (t.received ++ (Channel.tryReceive t.keypad.channel).1.toList) ++ _ = _
    rw [List.append_assoc]
    exact (congrArg (t.received ++ ·) received).trans kept.order

theorem step (act : Act) : (t.step act).Kept capacity := by
  refine step_keeps kept ?_ ?_ ?_ (kept.put bounded · none) (kept.receive bounded) act
  · intro reading idle
    have same : Channel.waiting (t.begin reading).keypad.channel = Channel.waiting t.keypad.channel := by
      rw [begin_of_idle idle]
      exact congrArg Channel.waiting (Keypad.channel_setClassifier _ _ _)
    have others : (t.begin reading).offers = t.offers ∧ (t.begin reading).received = t.received := by
      rw [begin_of_idle idle]
      exact ⟨rfl, rfl⟩
    obtain ⟨bound, verdict, order⟩ := kept
    refine ⟨same ▸ bound, others.1 ▸ verdict, ?_⟩
    rw [same, others.2, order, accepted, accepted, others.1]
  · intro call event left busy more
    obtain ⟨bound, verdict, order⟩ := kept.put bounded event (some t.answered.length)
    rw [proceed_of_cons busy more]
    exact ⟨bound, verdict, order⟩
  · intro call busy through
    rw [proceed_of_nil busy through]
    exact ⟨kept.bound, kept.verdict, kept.order⟩

end Kept
end

/-! The transitions. -/

@[simp] theorem emitted_put (t : Traffic κ) (event : ButtonEvent) (call? : Option Nat) :
    (t.put event call?).emitted = t.emitted ++ if call?.isSome then [event] else [] := by
  simp only [put, emitted, List.filter_append, List.map_append]
  cases call? <;> rfl

theorem offersOf_put (t : Traffic κ) (event : ButtonEvent) (call? : Option Nat) (number : Nat) :
    (t.put event call?).offersOf number =
      t.offersOf number ++
        if call? = some number then
          [⟨event, call?, (Channel.waiting t.keypad.channel).length, (t.keypad.publish event).1⟩]
        else [] := by
  simp only [put, offersOf, List.filter_append, List.filter_cons, List.filter_nil, decide_eq_true_eq]

/-- Every transition was fair, and nothing is offered in the name of one that was not made. -/
structure Fair (t : Traffic κ) : Prop where
  call : ∀ (number : Nat) (call : Call), t.calls[number]? = some call → call.Fair (t.offersOf number)
  unmade : ∀ number, t.calls.length ≤ number → t.offersOf number = []
  through : ∀ call ∈ t.answered, call.left = []

theorem fair_start (threshold : UInt64) : (start threshold : Traffic κ).Fair where
  call _ _ made := absurd made (by simp [start, calls])
  unmade _ _ := rfl
  through _ member := (List.not_mem_nil member).elim

omit [Channel κ] in
theorem calls_of_busy {call : Call} (busy : t.underWay? = some call) : t.calls = t.answered ++ [call] := by
  rw [calls, busy]
  rfl

omit [Channel κ] in
theorem calls_of_idle (idle : t.underWay? = none) : t.calls = t.answered := by
  rw [calls, idle]
  exact List.append_nil _

omit [Channel κ] in
/-- The calls are those before and one more; of what is offered nothing changes for those before. -/
theorem Fair.of_last {u : Traffic κ} (fair : t.Fair) {last : Call} (calls : u.calls = t.answered ++ [last])
    (answered : ∀ call ∈ u.answered, call.left = [])
    (others : ∀ number, number ≠ t.answered.length → u.offersOf number = t.offersOf number)
    (own : last.Fair (u.offersOf t.answered.length)) : u.Fair := by
  refine ⟨?_, ?_, answered⟩
  · intro number call made
    rw [calls] at made
    rcases Nat.lt_trichotomy number t.answered.length with before | rfl | beyond
    · rw [List.getElem?_append_left before] at made
      rw [others number (Nat.ne_of_lt before)]
      refine fair.call number call ?_
      rw [Traffic.calls, List.getElem?_append_left before]
      exact made
    · rw [List.getElem?_concat_length] at made
      exact Option.some.inj made ▸ own
    · have none : (t.answered ++ [last])[number]? = none := by simpa using Nat.succ_le_of_lt beyond
      rw [none] at made
      cases made
  · intro number beyond
    rw [calls, List.length_append, List.length_singleton] at beyond
    rw [others number (Nat.ne_of_gt beyond)]
    refine fair.unmade number ?_
    have most : t.underWay?.toList.length ≤ 1 := by cases t.underWay? <;> simp
    rw [Traffic.calls, List.length_append]
    omega

namespace Fair

variable (fair : t.Fair)

include fair

omit [Channel κ] in
theorem begin (idle : t.underWay? = none) (reading : Reading) : (t.begin reading).Fair := by
  have none : t.offersOf t.answered.length = [] := fair.unmade _ (Nat.le_of_eq (congrArg _ (calls_of_idle idle)))
  rw [begin_of_idle idle]
  refine fair.of_last (calls_of_busy rfl) fair.through (fun _ _ => rfl) ?_
  change Call.Fair _ (t.offersOf t.answered.length)
  rw [none]
  exact ⟨rfl, rfl⟩

theorem proceed_of_cons {call : Call} {event : ButtonEvent} {left : List ButtonEvent}
    (busy : t.underWay? = some call) (more : call.left = event :: left) : t.proceed.Fair := by
  have own := fair.call t.answered.length call (by rw [calls_of_busy busy, List.getElem?_concat_length])
  rw [Traffic.proceed_of_cons busy more]
  refine fair.of_last (calls_of_busy rfl) fair.through ?_ ?_
  · intro number other
    have same := t.offersOf_put event (some t.answered.length) number
    rw [if_neg (fun named => other (Option.some.inj named).symm), List.append_nil] at same
    exact same
  · have made := t.offersOf_put event (some t.answered.length) t.answered.length
    rw [if_pos rfl] at made
    change Call.Fair _ ((t.put event (some t.answered.length)).offersOf t.answered.length)
    rw [made]
    refine ⟨?_, ?_⟩
    · rw [List.map_append, List.append_assoc, ← own.events, more]
      rfl
    · rw [List.countP_append, ← own.count]
      cases (t.keypad.publish event).1 <;> simp

theorem proceed_of_nil {call : Call} (busy : t.underWay? = some call) (through : call.left = []) :
    t.proceed.Fair := by
  have own := fair.call t.answered.length call (by rw [calls_of_busy busy, List.getElem?_concat_length])
  rw [Traffic.proceed_of_nil busy through]
  have made : calls { t with answered := t.answered ++ [call], underWay? := none } = t.answered ++ [call] :=
    calls_of_idle rfl
  refine fair.of_last made ?_ (fun _ _ => rfl) own
  intro answered member
  rcases List.mem_append.mp member with early | last
  · exact fair.through answered early
  · rw [List.mem_singleton.mp last]
    exact through

theorem step (act : Act) : (t.step act).Fair := by
  refine step_keeps fair (fun reading idle => fair.begin idle reading)
    (fun _ _ _ busy more => fair.proceed_of_cons busy more) (fun _ busy through => fair.proceed_of_nil busy through)
    ?_ ⟨fair.call, fair.unmade, fair.through⟩ act
  intro event
  have same : ∀ number, (t.put event none).offersOf number = t.offersOf number := fun number =>
    (t.offersOf_put event none number).trans (List.append_nil _)
  exact ⟨fun number call made => same number ▸ fair.call number call made,
    fun number beyond => (same number).trans (fair.unmade number beyond), fair.through⟩

end Fair

/-! The classifiers. -/

/-- Each button has a classifier that has had the readings of this button to itself, and what that gave has been
offered or will be next. -/
def Lone (threshold : UInt64) (t : Traffic κ) : Prop :=
  ∀ button, ({ button, threshold } : Classifier).updateAll (t.readings.filter (·.button = button)) =
    (t.keypad.classifier button, (t.emitted ++ t.left).filter (·.button = button))

theorem lone_start (threshold : UInt64) : (start threshold : Traffic κ).Lone threshold := by
  intro button
  cases button <;> rfl

namespace Lone

variable {threshold : UInt64} (lone : t.Lone threshold)

omit [Channel κ] in
include lone in
theorem begin (idle : t.underWay? = none) (reading : Reading) : (t.begin reading).Lone threshold := by
  have named : (t.keypad.classifier reading.button).button = reading.button :=
    (congrArg (fun fed => fed.1.button) (lone reading.button)).symm.trans (Classifier.button_updateAll _ _)
  have own : ∀ event ∈ ((t.keypad.classifier reading.button).update reading.pressed reading.now).2,
      event.button = reading.button := fun event given => (Classifier.button_of_mem_update given).trans named
  have before : t.left = [] := by rw [left, idle]; rfl
  have made : (t.begin reading).readings = t.readings ++ [reading] := by
    rw [readings, readings, calls_of_idle idle, begin_of_idle idle, calls_of_busy rfl]
    exact List.map_append
  intro button
  rw [made, List.filter_append, Classifier.updateAll_append, lone button, before, List.append_nil, begin_of_idle idle]
  dsimp only
  rw [Keypad.classifier_setClassifier]
  change _ = (_, List.filter _ (t.emitted ++ _))
  rw [List.filter_append]
  by_cases same : reading.button = button
  · subst same
    rw [if_pos rfl, List.filter_cons_of_pos (by simp), List.filter_nil]
    have all := List.filter_eq_self.mpr fun event given => decide_eq_true (own event given)
    exact congrArg (fun events => (_, List.filter _ t.emitted ++ events)) ((List.append_nil _).trans all.symm)
  · -- What is given here is of another button.
    have none := List.filter_eq_nil_iff.mpr fun event given other =>
      same ((own event given).symm.trans (of_decide_eq_true other))
    rw [if_neg (Ne.symm same), List.filter_cons_of_neg (by simpa using same), List.filter_nil]
    exact congrArg (fun events => (_, List.filter _ t.emitted ++ events)) none.symm

include lone in
theorem step (act : Act) : (t.step act).Lone threshold := by
  refine step_keeps lone (fun reading idle => lone.begin idle reading) ?_ ?_ ?_ ?_ act
  · intro call event left busy more
    have made : t.proceed.readings = t.readings := by
      rw [readings, readings, proceed_of_cons busy more, calls_of_busy rfl, calls_of_busy busy, List.map_append,
        List.map_append]
      rfl
    have offered : t.proceed.emitted ++ t.proceed.left = t.emitted ++ t.left := by
      rw [proceed_of_cons busy more, Traffic.left, Traffic.left, busy]
      change (t.put event (some t.answered.length)).emitted ++ left = t.emitted ++ call.left
      rw [emitted_put, more]
      exact List.append_assoc _ _ _
    intro button
    rw [made, offered, lone button, proceed_of_cons busy more]
    exact congrArg (·, _) (Keypad.classifier_publish _ event button).symm
  · intro call busy through
    have made : t.proceed.readings = t.readings := by
      rw [readings, readings, proceed_of_nil busy through, calls_of_idle rfl, calls_of_busy busy]
    have offered : t.proceed.emitted ++ t.proceed.left = t.emitted ++ t.left := by
      rw [proceed_of_nil busy through, Traffic.left, Traffic.left, busy]
      exact congrArg (t.emitted ++ ·) through.symm
    intro button
    rw [made, offered, lone button, proceed_of_nil busy through]
  · intro event button
    have offered : (t.put event none).emitted = t.emitted := (emitted_put t event none).trans (List.append_nil _)
    change _ = ((t.keypad.publish event).2.classifier button, ((t.put event none).emitted ++ t.left).filter _)
    rw [Keypad.classifier_publish, offered]
    exact lone button
  · intro button
    change _ = (t.keypad.receive.2.classifier button, _)
    rw [Keypad.classifier_receive]
    exact lone button

end Lone

/-! Another channel in its place. -/

section

variable {κ' : Type} [Channel κ'] {u : Traffic κ'}

/-- The same has been classified, and the same offered by transitions, whatever became of it. -/
structure Alongside (t : Traffic κ) (u : Traffic κ') : Prop where
  classifier : ∀ button, t.keypad.classifier button = u.keypad.classifier button
  left : t.underWay?.map Call.left = u.underWay?.map Call.left
  emitted : t.emitted = u.emitted

namespace Alongside

omit [Channel κ] [Channel κ'] in
theorem idle (alongside : t.Alongside u) (idle : t.underWay? = none) : u.underWay? = none := by
  have left := alongside.left
  rw [idle] at left
  exact Option.map_eq_none_iff.mp left.symm

omit [Channel κ] [Channel κ'] in
theorem busy (alongside : t.Alongside u) {call : Call} (busy : t.underWay? = some call) :
    ∃ other, u.underWay? = some other ∧ other.left = call.left := by
  have left := alongside.left
  rw [busy] at left
  exact Option.map_eq_some_iff.mp left.symm

theorem step (alongside : t.Alongside u) (act : Act) : (t.step act).Alongside (u.step act) := by
  have ⟨classifier, left, emitted⟩ := alongside
  cases act with
  | begin reading =>
    cases underWay : t.underWay? with
    | some call =>
      obtain ⟨other, busy, -⟩ := alongside.busy underWay
      rw [Traffic.step, Traffic.step, begin_of_busy underWay, begin_of_busy busy]
      exact alongside
    | none =>
      rw [Traffic.step, Traffic.step, begin_of_idle underWay, begin_of_idle (alongside.idle underWay), classifier]
      refine ⟨fun button => ?_, rfl, emitted⟩
      dsimp only
      rw [Keypad.classifier_setClassifier, Keypad.classifier_setClassifier, classifier button]
  | proceed =>
    cases underWay : t.underWay? with
    | none =>
      rw [Traffic.step, Traffic.step, proceed_of_idle underWay, proceed_of_idle (alongside.idle underWay)]
      exact alongside
    | some call =>
      obtain ⟨other, busy, same⟩ := alongside.busy underWay
      cases more : call.left with
      | nil =>
        rw [Traffic.step, Traffic.step, proceed_of_nil underWay more, proceed_of_nil busy (same.trans more)]
        exact ⟨classifier, rfl, emitted⟩
      | cons event left =>
        rw [Traffic.step, Traffic.step, proceed_of_cons underWay more, proceed_of_cons busy (same.trans more)]
        refine ⟨fun button => ?_, rfl, ?_⟩
        · exact (t.keypad.classifier_publish event button).trans
            ((classifier button).trans (u.keypad.classifier_publish event button).symm)
        · have mine := t.emitted_put event (some t.answered.length)
          have theirs := u.emitted_put event (some u.answered.length)
          rw [emitted] at mine
          exact mine.trans theirs.symm
  | publish event =>
    refine ⟨fun button => ?_, left, ?_⟩
    · exact (t.keypad.classifier_publish event button).trans
        ((classifier button).trans (u.keypad.classifier_publish event button).symm)
    · rw [Traffic.step, Traffic.step, emitted_put, emitted_put, emitted]
  | receive =>
    refine ⟨fun button => ?_, left, emitted⟩
    exact (t.keypad.classifier_receive button).trans
      ((classifier button).trans (u.keypad.classifier_receive button).symm)

theorem run (alongside : t.Alongside u) (acts : List Act) : (t.run acts).Alongside (u.run acts) := by
  induction acts generalizing t u with
  | nil => exact alongside
  | cons act acts ih => exact ih (alongside.step act)

end Alongside
end

/-! Calls that nobody interrupts. -/

/-- A transition that is let go on offers what is left all at once, and as many find room as are counted. -/
theorem exists_run_proceed {call : Call} (busy : t.underWay? = some call) :
    ∃ made : List Offer,
      let sent := Channel.sendAll t.keypad.channel call.left
      t.run (List.replicate (call.left.length + 1) .proceed) =
        { t with
          keypad := { t.keypad with channel := sent.2 }
          answered := t.answered ++ [{ call with left := [], count := call.count + sent.1 }]
          underWay? := none
          offers := t.offers ++ made } := by
  generalize more : call.left = left
  induction left generalizing t call with
  | nil =>
    obtain ⟨reading, given, left, count⟩ := call
    cases more
    refine ⟨[], (proceed_of_nil busy rfl).trans ?_⟩
    rw [List.append_nil]
    rfl
  | cons event left ih =>
    have offered := proceed_of_cons busy more
    obtain ⟨made, last⟩ := ih (t := t.proceed) (by rw [offered]) rfl
    refine ⟨⟨event, some t.answered.length, (Channel.waiting t.keypad.channel).length,
      (t.keypad.publish event).1⟩ :: made, last.trans ?_⟩
    have counted : (call.count + if (t.keypad.publish event).1 then 1 else 0) +
          (Channel.sendAll (t.keypad.publish event).2.channel left).1 =
        call.count + (Channel.sendAll t.keypad.channel (event :: left)).1 := Nat.add_assoc _ _ _
    rw [← counted, List.append_cons t.offers, offered]
    rfl

/-- A transition that nobody interrupts is its steps one after the other. -/
theorem exists_run_transition (idle : t.underWay? = none) (reading : Reading) :
    ∃ made : List Offer,
      let given := ((t.keypad.classifier reading.button).update reading.pressed reading.now).2
      let answer := t.keypad.transition reading.button reading.pressed reading.now
      t.run (.begin reading :: List.replicate (given.length + 1) .proceed) =
        { t with
          keypad := answer.2
          answered := t.answered ++ [{ reading, given, left := [], count := answer.1 }]
          offers := t.offers ++ made } := by
  have begun := begin_of_idle idle reading
  obtain ⟨made, last⟩ := exists_run_proceed (t := t.begin reading) (by rw [begun])
  refine ⟨made, last.trans ?_⟩
  rw [begun, Keypad.channel_setClassifier, Nat.zero_add, ← idle]
  rfl

/-- The way from the buttons to the reader drops events and does nothing worse. However the steps of transitions,
publications and receipts alternate, the channel keeps to its bound and takes in each event that it has room for; what
it took in has been received or waits, in the order in which it was offered; and transitions offer what they would
offer to any other channel, such as one that always has room: of each button the events of a classifier that has the
button to itself. A transition answers with the number of its events that were taken in, also when it was
interrupted. -/
theorem drops_what_finds_no_room {ν : Type} [Channel ν] (bounded : Channel.Bounded κ Channel.capacity)
    (threshold : UInt64) (acts : List Act) :
    let t : Traffic κ := (start threshold).run acts
    let u : Traffic ν := (start threshold).run acts
    (Channel.waiting t.keypad.channel).length ≤ Channel.capacity ∧
    (∀ o ∈ t.offers, o.accepted = true ↔ o.held < Channel.capacity) ∧
    t.received ++ Channel.waiting t.keypad.channel = t.accepted ∧
    t.emitted = u.emitted ∧
    (∀ button, (t.emitted ++ t.left).filter (·.button = button) =
      (({ button, threshold } : Classifier).updateAll (t.readings.filter (·.button = button))).2) ∧
    (∀ (number : Nat) (call : Call), t.calls[number]? = some call → call.Fair (t.offersOf number)) ∧
    (∀ call ∈ t.answered, call.left = []) ∧
    (∀ event, t.step (.publish event) =
      { t with
        keypad := (t.keypad.publish event).2
        offers := t.offers ++
          [⟨event, none, (Channel.waiting t.keypad.channel).length, (t.keypad.publish event).1⟩] }) ∧
    (t.underWay? = none → ∀ reading, ∃ made : List Offer,
      let given := ((t.keypad.classifier reading.button).update reading.pressed reading.now).2
      let answer := t.keypad.transition reading.button reading.pressed reading.now
      t.run (.begin reading :: List.replicate (given.length + 1) .proceed) =
        { t with
          keypad := answer.2
          answered := t.answered ++ [{ reading, given, left := [], count := answer.1 }]
          offers := t.offers ++ made }) := by
  intro t u
  have kept : t.Kept Channel.capacity := run_keeps (fun _ act before => before.step bounded act)
    (kept_start bounded threshold) acts
  have fair : t.Fair := run_keeps (fun _ act before => before.step act) (fair_start threshold) acts
  have lone : t.Lone threshold := run_keeps (fun _ act before => before.step act) (lone_start threshold) acts
  have same : (start threshold : Traffic κ).Alongside (start threshold : Traffic ν) :=
    ⟨fun button => by cases button <;> rfl, rfl, rfl⟩
  exact ⟨kept.bound, kept.verdict, kept.order, (same.run acts).emitted,
    fun button => (congrArg Prod.snd (lone button)).symm, fair.call, fair.through, fun _ => rfl,
    exists_run_transition⟩

/-- Of a press and a release that come upon a queue with one place left, the classification finds no room, and the
release does, as an event is received before it is offered; the transition answers that it was one. A transition after
that offers two events and neither is taken in. -/
theorem drops_what_finds_no_room_between :
    let acts : List Act := List.replicate 7 (.publish ⟨.previous, .click⟩) ++
      [.begin ⟨.next, true, 0⟩, .proceed, .proceed, .begin ⟨.next, false, 80⟩, .proceed, .receive, .proceed, .proceed,
        .begin ⟨.next, true, 90⟩, .proceed, .proceed]
    let t : Traffic EventQueue := (start 500).run acts
    let u : Traffic Backlog := (start 500).run acts
    Channel.Bounded EventQueue Channel.capacity ∧
      (t.offers.drop 7).map (fun o => (o.event.gesture, o.accepted)) =
        [(.press, true), (.click, false), (.release, true), (.press, false)] ∧
      t.accepted = List.replicate 7 ⟨.previous, .click⟩ ++ [⟨.next, .press⟩, ⟨.next, .release⟩] ∧
      t.received ++ Channel.waiting t.keypad.channel = t.accepted ∧ t.emitted = u.emitted ∧
      u.accepted = List.replicate 7 ⟨.previous, .click⟩ ++
        [⟨.next, .press⟩, ⟨.next, .click⟩, ⟨.next, .release⟩, ⟨.next, .press⟩] ∧
      (∃ call, t.calls[1]? = some call ∧ call.count = 1 ∧ call.Fair (t.offersOf 1)) ∧
      (t.underWay? = none ∧ (t.keypad.transition .next false 600).1 = 0) ∧
      ∃ made : List Offer, t.run [.begin ⟨.next, false, 600⟩, .proceed, .proceed, .proceed] =
        { t with
          keypad := (t.keypad.transition .next false 600).2
          answered := t.answered ++ [⟨⟨.next, false, 600⟩, [⟨.next, .hold⟩, ⟨.next, .release⟩], [], 0⟩]
          offers := t.offers ++ made } := by
  intro acts t u
  obtain ⟨-, -, order, same, -, fair, -, -, uninterrupted⟩ :=
    drops_what_finds_no_room (ν := Backlog) EventQueue.bounded 500 acts
  have idle : t.underWay? = none := by decide
  obtain ⟨made, last⟩ := uninterrupted idle ⟨.next, false, 600⟩
  refine ⟨EventQueue.bounded, by decide, by decide, order, same, by decide, ?_, ⟨idle, by decide⟩, made, last⟩
  exact ⟨_, rfl, by decide, fair 1 _ rfl⟩

end Traffic
end PocketReader
