import PocketReader.Proofs.Button

/-! What a classifier makes of the readings of its button, whatever they are. Only readings that find the button
changed count, and they are by turns of a button that went down and of one that went up. So the events are strokes: a
press, then a classification by the times of these two readings, then a release. The last stroke may have only
begun. -/
namespace PocketReader

/-- The readings that find the button other than it was; before the first of them it is `down` or not. -/
def Reading.changes (down : Bool) : List Reading → List Reading
  | [] => []
  | reading :: rest =>
    if reading.pressed = down then changes down rest else reading :: changes reading.pressed rest

namespace Gesture

def isClassification : Gesture → Bool
  | .click | .hold => true
  | .press | .release => false

/-- Any number of strokes, each a press, its classification and a release. -/
inductive Strokes : List Gesture → Prop
  | nil : Strokes []
  | stroke {kind : Gesture} {rest : List Gesture} : kind.isClassification → Strokes rest →
      Strokes (.press :: kind :: .release :: rest)

end Gesture

namespace Reading

/-- The readings that count are by turns of a button that is down and of one that is not. -/
theorem pressed_changes {down : Bool} {readings : List Reading} {i : Nat} {reading : Reading}
    (there : (changes down readings)[i]? = some reading) : reading.pressed = (down ^^ decide (i % 2 = 0)) := by
  induction readings generalizing down i with
  | nil => cases there
  | cons first rest ih =>
    rw [changes] at there
    split at there
    · exact ih there
    · rename_i changed
      have turned : first.pressed = !down := Bool.eq_not.mpr changed
      cases i with
      | zero =>
        cases there
        rw [turned]
        cases down <;> rfl
      | succ i =>
        have next : decide ((i + 1) % 2 = 0) = !decide (i % 2 = 0) := by
          rw [← decide_not, decide_eq_decide]
          omega
        rw [ih there, turned, next, Bool.not_xor, Bool.xor_not]

end Reading

namespace Classifier

theorem classify_eq (c : Classifier) (since now : UInt64) :
    c.classify since now = if c.threshold.toNat ≤ now.toNat - since.toNat then .hold else .click := by
  have time : (elapsed since now).toNat = now.toNat - since.toNat := by
    unfold elapsed
    split
    · rename_i forwards
      exact UInt64.toNat_sub_of_le _ _ forwards
    · rename_i backwards
      rw [UInt64.le_iff_toNat_le] at backwards
      rw [UInt64.toNat_zero]
      omega
  simp only [classify, UInt64.le_iff_toNat_le, time]

theorem isClassification_classify (c : Classifier) (since now : UInt64) :
    (c.classify since now).isClassification = true := by
  unfold classify
  split <;> rfl

theorem update_of_same {c : Classifier} {pressed : Bool} (same : pressed = c.isPressed) (now : UInt64) :
    c.update pressed now = (c, []) := by
  obtain ⟨button, threshold, since?⟩ := c
  cases since? <;> cases same <;> rfl

theorem isPressed_update (c : Classifier) (pressed : Bool) (now : UInt64) :
    (c.update pressed now).1.isPressed = pressed := by
  obtain ⟨button, threshold, since?⟩ := c
  cases since? <;> cases pressed <;> rfl

/-- Without the readings that find the button as it was, everything is the same. -/
theorem updateAll_changes (c : Classifier) (readings : List Reading) :
    c.updateAll (Reading.changes c.isPressed readings) = c.updateAll readings := by
  induction readings generalizing c with
  | nil => rfl
  | cons reading rest ih =>
    rw [Reading.changes]
    split
    · rename_i same
      rw [ih, updateAll_cons, update_of_same same]
      rfl
    · have further := ih (c.update reading.pressed reading.now).1
      rw [isPressed_update] at further
      rw [updateAll_cons, further, updateAll_cons]

/-- The last reading that counts says whether the button is down. -/
theorem isPressed_updateAll (c : Classifier) (readings : List Reading) :
    (c.updateAll readings).1.isPressed =
      ((Reading.changes c.isPressed readings).getLast?.map Reading.pressed).getD c.isPressed := by
  induction readings generalizing c with
  | nil => rfl
  | cons reading rest ih =>
    have further := ih (c.update reading.pressed reading.now).1
    rw [isPressed_update] at further
    rw [updateAll_cons, further, Reading.changes]
    split
    · rename_i same
      rw [same]
    · rw [List.getLast?_cons]
      cases (Reading.changes reading.pressed rest).getLast? <;> rfl

/-- The events of a button that goes down and up by turns at these times. -/
def strokes (c : Classifier) : List UInt64 → List ButtonEvent
  | [] => []
  | [_] => [⟨c.button, .press⟩]
  | down :: up :: rest =>
    ⟨c.button, .press⟩ :: ⟨c.button, c.classify down up⟩ :: ⟨c.button, .release⟩ :: c.strokes rest

/-- If the button is down, the stroke that is given has begun with a press that was given before. -/
theorem strokes_changes (button : Button) (threshold : UInt64) (since? : Option UInt64) (readings : List Reading) :
    let c : Classifier := { button, threshold }
    let now : Classifier := { c with pressedAt? := since? }
    (since?.toList.map fun _ => ⟨button, .press⟩) ++ (now.updateAll readings).2 =
      c.strokes (since?.toList ++ (Reading.changes now.isPressed readings).map Reading.now) := by
  intro c now
  induction readings generalizing since? with
  | nil => cases since? <;> rfl
  | cons reading rest ih =>
    rw [updateAll_cons, Reading.changes]
    split
    · rename_i same
      rw [update_of_same same]
      exact ih since?
    · rename_i changed
      have turned : reading.pressed = !now.isPressed := Bool.eq_not.mpr changed
      cases since? with
      | none =>
        have began : now.update reading.pressed reading.now =
            ({ c with pressedAt? := some reading.now }, [⟨button, .press⟩]) := by
          rw [turned]
          rfl
        rw [began, turned]
        exact ih (some reading.now)
      | some since =>
        have ended : now.update reading.pressed reading.now =
            (c, [⟨button, c.classify since reading.now⟩, ⟨button, .release⟩]) := by
          rw [turned]
          rfl
        have later : (c.updateAll rest).2 = c.strokes ((Reading.changes false rest).map Reading.now) := ih none
        rw [ended, turned]
        change _ :: _ :: _ :: (c.updateAll rest).2 = _ :: _ :: _ :: c.strokes _
        rw [later]
        rfl

section

variable (c : Classifier)

theorem button_of_mem_strokes (times : List UInt64) : ∀ event ∈ c.strokes times, event.button = c.button := by
  induction times using strokes.induct with
  | case1 => exact fun _ member => (List.not_mem_nil member).elim
  | case2 down => exact List.forall_mem_singleton.mpr rfl
  | case3 down up rest ih =>
    simp only [strokes, List.forall_mem_cons, true_and]
    exact ih

/-- The last stroke can have only begun. -/
theorem exists_strokes (times : List UInt64) :
    ∃ word, Gesture.Strokes word ∧ (c.strokes times).map ButtonEvent.gesture <+: word := by
  induction times using strokes.induct with
  | case1 => exact ⟨[], .nil, List.prefix_refl _⟩
  | case2 down => exact ⟨[.press, .click, .release], .stroke rfl .nil, _, rfl⟩
  | case3 down up rest ih =>
    obtain ⟨word, strokes, front⟩ := ih
    refine ⟨_, .stroke (c.isClassification_classify down up) strokes, ?_⟩
    simp only [Classifier.strokes, List.map_cons, List.prefix_cons_inj]
    exact front

/-- Each stroke is classified by the two times that are its own. -/
theorem getElem?_classifications (times : List UInt64) (i : Nat) :
    (((c.strokes times).map ButtonEvent.gesture).filter Gesture.isClassification)[i]? =
      times[2 * i]?.bind fun down => times[2 * i + 1]?.map (c.classify down) := by
  induction times using strokes.induct generalizing i with
  | case1 => rfl
  | case2 down => cases i <;> rfl
  | case3 down up rest ih =>
    have kept : ((c.strokes (down :: up :: rest)).map ButtonEvent.gesture).filter Gesture.isClassification =
        c.classify down up :: ((c.strokes rest).map ButtonEvent.gesture).filter Gesture.isClassification := by
      simp only [strokes, List.map_cons, List.filter_cons, isClassification_classify]
      rfl
    rw [kept]
    cases i with
    | zero => rfl
    | succ i => exact ih i

end

/-- A new classifier gives the events of its own button, a prefix of strokes, and the same events if the readings that
find the button as it was are left out. Those that are left are by turns of a button that went down and of one that
went up, the first of one that went down. Each stroke is a hold if the time between its own two readings reaches the
threshold, no time if the clock went back, and a click otherwise; and the button is down if the last of them says
so. -/
theorem updateAll_strokes (button : Button) (threshold : UInt64) (readings : List Reading) :
    let c : Classifier := { button, threshold }
    let seen := Reading.changes false readings
    let events := (c.updateAll readings).2
    (∃ word, Gesture.Strokes word ∧ events.map ButtonEvent.gesture <+: word) ∧
    events = (c.updateAll seen).2 ∧
    (∀ i reading, seen[i]? = some reading → reading.pressed = decide (i % 2 = 0)) ∧
    (∀ i, ((events.map ButtonEvent.gesture).filter Gesture.isClassification)[i]? =
      seen[2 * i]?.bind fun press => seen[2 * i + 1]?.map fun release =>
        if threshold.toNat ≤ release.now.toNat - press.now.toNat then .hold else .click) ∧
    (∀ event ∈ events, event.button = button) ∧
    (c.updateAll readings).1.isPressed = seen.getLast?.any Reading.pressed := by
  intro c seen events
  have strokes : events = c.strokes (seen.map Reading.now) := strokes_changes button threshold none readings
  refine ⟨?_, (congrArg Prod.snd (c.updateAll_changes readings)).symm, ?_, ?_, ?_, ?_⟩
  · rw [strokes]
    exact c.exists_strokes _
  · intro i reading there
    rw [Reading.pressed_changes there, Bool.false_xor]
  · intro i
    rw [strokes, getElem?_classifications, List.getElem?_map, List.getElem?_map]
    cases seen[2 * i]? with
    | none => rfl
    | some press =>
      cases seen[2 * i + 1]? with
      | none => rfl
      | some release => exact congrArg some (c.classify_eq press.now release.now)
  · rw [strokes]
    exact c.button_of_mem_strokes _
  · refine (c.isPressed_updateAll readings).trans ?_
    change (seen.getLast?.map Reading.pressed).getD false = _
    cases seen.getLast? <;> rfl

/-- The time is measured from the first of two presses, and a clock that goes back makes a click. -/
theorem updateAll_strokes_repeated :
    let reading := fun pressed now => (⟨.next, pressed, now⟩ : Reading)
    let readings := [reading false 0, reading true 100, reading true 400, reading false 600, reading false 900,
      reading true 1000, reading false 10, reading true 20]
    let seen := Reading.changes false readings
    let made := ({ button := .next, threshold := 500 : Classifier }).updateAll readings
    seen = [reading true 100, reading false 600, reading true 1000, reading false 10, reading true 20] ∧
      seen[4]? = some (reading true 20) ∧ (reading true 20).pressed = decide (4 % 2 = 0) ∧
      made.2.map ButtonEvent.gesture = [.press, .hold, .release, .press, .click, .release, .press] ∧
      ((made.2.map ButtonEvent.gesture).filter Gesture.isClassification)[1]? = some .click ∧
      made.1.isPressed = true := by
  intro reading readings seen made
  obtain ⟨-, -, turns, classified, -, down⟩ := updateAll_strokes .next 500 readings
  have last : seen[4]? = some (reading true 20) := by decide
  exact ⟨by decide, last, turns 4 (reading true 20) last, by decide, (classified 1).trans (by decide),
    down.trans (by decide)⟩

end Classifier
end PocketReader
