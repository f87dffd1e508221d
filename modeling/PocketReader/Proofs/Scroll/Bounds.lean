import PocketReader.Proofs.Scroll.Words

/-! How far a page can be scrolled. As long as the largest offset is one that the signed target can hold, the target
is never above the top of the page, and while a page does not change in place, target and offset stay where the window
can be filled. A change in place forgets the height and leaves both where they were; once the page is measured again,
the next frame brings the target back, and frames bring the offset back. A page that is longer than that is sent above
its top. -/
namespace PocketReader.Scroll.Words

/-- Whether the page changes in place. -/
def Operation.isChange : Operation → Bool
  | .resetLayout .. => true
  | .next _ | .previous _ | .clamp | .beginFrame | .finishLayout _ | .reset => false

/-- The largest offset that a frame learns of is one that the target can hold. -/
def Operation.Fits (viewport : UInt64) : Operation → Prop
  | .finishLayout reached => reached.toNat < 2 ^ 63 + viewport.toNat
  | .next _ | .previous _ | .clamp | .beginFrame | .reset | .resetLayout .. => True

instance (viewport : UInt64) : DecidablePred (Operation.Fits viewport) := fun operation => by
  cases operation <;> unfold Operation.Fits <;> infer_instance

theorem run_append (s : Words) (first second : List Operation) : s.run (first ++ second) = (s.run first).run second :=
  List.foldl_append

theorem run_cons (s : Words) (operation : Operation) (rest : List Operation) :
    s.run (operation :: rest) = (s.perform operation).run rest := rfl

/-- What is never lost for a window of this height: the largest offset fits, and the target is not above the top. -/
structure Sound (viewport : UInt64) (s : Words) : Prop where
  window : s.viewport = viewport
  height : s.height.toNat < 2 ^ 63 + viewport.toNat
  target : 0 ≤ s.target.toInt

theorem sound_fresh (viewport step : UInt64) : ({ viewport, step } : Words).Sound viewport := by
  refine ⟨rfl, ?_, Int.le_refl 0⟩
  change (0 : UInt64).toNat < _
  exact Nat.lt_add_right _ (by decide)

/-- Target and offset are where the window can be filled, as far as the height is known. -/
def Clamped (s : Words) : Prop := s.target.toInt ≤ s.limit.toNat

def Inside (s : Words) : Prop := s.offset.toNat ≤ s.limit.toNat

section

variable {viewport : UInt64} {s : Words} (sound : s.Sound viewport)

include sound

theorem Sound.limit : s.limit.toNat < 2 ^ 63 := by
  have height := sound.height
  rw [toNat_limit, sound.window]
  omega

/-- Wherever the page is sent, clamping brings the target between the top and the largest offset. -/
theorem Sound.head (selected? : Option Nat) (target : Int64) :
    let t := clamp { s with selected?, target }
    t.Sound viewport ∧ t.Clamped := by
  intro t
  have limit := sound.limit
  have same : ({ s with selected?, target } : Words).limit = s.limit := rfl
  have clamped := toInt_target_clamp (s := { s with selected?, target }) limit
  rw [same] at clamped
  refine ⟨⟨?_, ?_, ?_⟩, ?_⟩
  · exact (viewport_clamp _).trans sound.window
  · rw [height_clamp]
    exact sound.height
  · exact clamped ▸ Int.le_max_left _ _
  · rw [Clamped, limit_clamp, same, clamped]
    omega

theorem Sound.clamp : s.clamp.Sound viewport ∧ s.clamp.Clamped := sound.head s.selected? s.target

theorem Sound.moves {t : Words} (moves : s.Moves t) : t.Sound viewport ∧ (s.Clamped → t.Clamped) := by
  cases moves with
  | stay selected? => exact ⟨{ sound with }, id⟩
  | head selected? target => exact (sound.head selected? target).imp_right fun clamped _ => clamped

/-- A frame of a measured page clamps the target and takes the offset no further than that. -/
theorem Sound.beginFrame_of_measured (measured : s.measured = true) :
    s.beginFrame.Sound viewport ∧ s.beginFrame.Clamped ∧
      s.beginFrame.offset.toNat ≤ max s.offset.toNat s.limit.toNat ∧
      (s.limit.toNat < s.offset.toNat → s.beginFrame.offset.toNat < s.offset.toNat) := by
  obtain ⟨kept, clamped⟩ := sound.clamp
  have target := toNat_toUInt64 kept.target
  have most := clamped
  rw [Clamped, limit_clamp] at most
  have moved := toNat_approach_le s.offset s.clamp.target.toUInt64
  have framed : s.beginFrame = { s.clamp with offset := approach s.offset s.clamp.target.toUInt64 } := by
    unfold Words.beginFrame
    rw [if_pos measured]
    dsimp only
    rw [offset_clamp]
  rw [framed]
  refine ⟨{ kept with }, clamped, ?_, fun above => toNat_approach_lt ?_⟩
  · dsimp only
    omega
  · omega

omit sound in
theorem beginFrame_of_not_measured (unmeasured : s.measured = false) : s.beginFrame = s := by
  rw [beginFrame, unmeasured, if_neg Bool.false_ne_true]

theorem Sound.beginFrame : s.beginFrame.Sound viewport := by
  cases measured : s.measured with
  | true => exact (sound.beginFrame_of_measured measured).1
  | false =>
    rw [beginFrame_of_not_measured measured]
    exact sound

theorem Sound.perform {operation : Operation} (fits : operation.Fits viewport) :
    (s.perform operation).Sound viewport := by
  cases operation with
  | next extents => exact (sound.moves (s.moves_next extents)).1
  | previous extents => exact (sound.moves (s.moves_previous extents)).1
  | clamp => exact sound.clamp.1
  | beginFrame => exact sound.beginFrame
  | finishLayout reached =>
    refine { sound with height := ?_ }
    change (max s.height reached).toNat < 2 ^ 63 + viewport.toNat
    rw [UInt64.toNat_max]
    exact Nat.max_lt.mpr ⟨sound.height, fits⟩
  | reset => exact sound.window ▸ sound_fresh s.viewport s.step
  | resetLayout count kept? => exact { sound with height := (sound_fresh viewport s.step).height }

theorem Sound.run {operations : List Operation} (fits : ∀ o ∈ operations, o.Fits viewport) :
    (s.run operations).Sound viewport := by
  induction operations generalizing s with
  | nil => exact sound
  | cons operation rest ih =>
    rw [List.forall_mem_cons] at fits
    exact ih (sound.perform fits.1) fits.2

end

/-- What operations keep that are no change in place is kept by a run of them. -/
theorem run_keeps {viewport : UInt64} {P : Words → Prop}
    (step : ∀ s o, s.Sound viewport → o.Fits viewport → o.isChange = false → P s → P (s.perform o)) {s : Words}
    (sound : s.Sound viewport) (before : P s) {operations : List Operation}
    (fits : ∀ o ∈ operations, o.Fits viewport) (steady : ∀ o ∈ operations, o.isChange = false) :
    P (s.run operations) := by
  induction operations generalizing s with
  | nil => exact before
  | cons operation rest ih =>
    rw [List.forall_mem_cons] at fits steady
    exact ih (sound.perform fits.1) (step s operation sound fits.1 steady.1 before) fits.2 steady.2

section

variable {viewport : UInt64} {s : Words} {operation : Operation}

/-- Nothing but a frame moves the offset, and what learns of a height learns of a greater one. -/
theorem stays_perform (s : Words) (steady : operation.isChange = false) (framed : operation ≠ .beginFrame)
    (other : operation ≠ .reset) :
    (s.perform operation).offset = s.offset ∧ s.limit.toNat ≤ (s.perform operation).limit.toNat ∧
      (s.measured = true → (s.perform operation).measured = true) := by
  have moved : ∀ {t : Words}, s.Moves t →
      t.offset = s.offset ∧ s.limit.toNat ≤ t.limit.toNat ∧ (s.measured = true → t.measured = true) := by
    intro t moves
    cases moves with
    | stay selected? => exact ⟨rfl, Nat.le_refl _, id⟩
    | head selected? target =>
      rw [offset_clamp, limit_clamp, measured_clamp]
      exact ⟨rfl, Nat.le_refl _, id⟩
  cases operation with
  | next extents => exact moved (s.moves_next extents)
  | previous extents => exact moved (s.moves_previous extents)
  | clamp => exact moved (.head s.selected? s.target)
  | beginFrame => exact absurd rfl framed
  | finishLayout reached =>
    refine ⟨rfl, ?_, fun _ => rfl⟩
    rw [toNat_limit, toNat_limit]
    change _ ≤ (max s.height reached).toNat - s.viewport.toNat
    rw [UInt64.toNat_max]
    omega
  | reset => exact absurd rfl other
  | resetLayout count kept? => cases steady

theorem Clamped.perform (sound : s.Sound viewport) (steady : operation.isChange = false) (clamped : s.Clamped) :
    (s.perform operation).Clamped := by
  cases operation with
  | next extents => exact (sound.moves (s.moves_next extents)).2 clamped
  | previous extents => exact (sound.moves (s.moves_previous extents)).2 clamped
  | clamp => exact sound.clamp.2
  | beginFrame =>
    cases measured : s.measured with
    | true => exact (sound.beginFrame_of_measured measured).2.1
    | false =>
      rw [Words.perform, beginFrame_of_not_measured measured]
      exact clamped
  | finishLayout reached =>
    have steady : Operation.isChange (.finishLayout reached) = false := rfl
    have grown := (s.stays_perform steady (by simp) (by simp)).2.1
    exact Int.le_trans clamped (Int.ofNat_le.mpr grown)
  | reset => exact Int.natCast_nonneg _
  | resetLayout count kept? => cases steady

theorem Inside.perform (sound : s.Sound viewport) (steady : operation.isChange = false) (inside : s.Inside) :
    (s.perform operation).Inside := by
  by_cases framed : operation = .beginFrame
  · subst framed
    cases measured : s.measured with
    | true =>
      have moved := (sound.beginFrame_of_measured measured).2.2.1
      have same : s.beginFrame.limit = s.limit := by
        rw [beginFrame, if_pos measured]
        exact limit_clamp s
      rw [Inside, Words.perform, same]
      exact Nat.le_trans moved (Nat.max_le.mpr ⟨inside, Nat.le_refl _⟩)
    | false =>
      rw [Words.perform, beginFrame_of_not_measured measured]
      exact inside
  · by_cases other : operation = .reset
    · subst other
      exact Nat.zero_le _
    · obtain ⟨offset, limit, -⟩ := s.stays_perform steady framed other
      rw [Inside, offset]
      exact Nat.le_trans inside limit

/-- A page that has been laid out since it changed, or is another page by now. -/
def Regained (s : Words) : Prop := s.measured = true ∨ s.Clamped ∧ s.Inside

theorem Regained.perform (sound : s.Sound viewport) (steady : operation.isChange = false) (regained : s.Regained) :
    (s.perform operation).Regained := by
  rcases regained with measured | ⟨clamped, inside⟩
  · by_cases framed : operation = .beginFrame
    · subst framed
      refine .inl ?_
      rw [Words.perform, beginFrame, if_pos measured]
      exact (measured_clamp s).trans measured
    · by_cases other : operation = .reset
      · subst other
        exact .inr ⟨Int.natCast_nonneg _, Nat.zero_le _⟩
      · exact .inl ((s.stays_perform steady framed other).2.2 measured)
  · exact .inr ⟨clamped.perform sound steady, inside.perform sound steady⟩

theorem Regained.clamped_beginFrame (sound : s.Sound viewport) (regained : s.Regained) : s.beginFrame.Clamped := by
  rcases regained with measured | ⟨clamped, -⟩
  · exact (sound.beginFrame_of_measured measured).2.1
  · have steady : Operation.isChange .beginFrame = false := rfl
    have kept := clamped.perform sound steady
    exact kept

end

section

variable {viewport : UInt64} {s : Words} (sound : s.Sound viewport) {operations : List Operation}
  (fits : ∀ o ∈ operations, o.Fits viewport) (steady : ∀ o ∈ operations, o.isChange = false)

include sound fits steady

theorem clamped_run (clamped : s.Clamped) : (s.run operations).Clamped :=
  run_keeps (fun _ _ sound _ steady before => before.perform sound steady) sound clamped fits steady

theorem inside_run (inside : s.Inside) : (s.run operations).Inside :=
  run_keeps (fun _ _ sound _ steady before => before.perform sound steady) sound inside fits steady

theorem regained_run (regained : s.Regained) : (s.run operations).Regained :=
  run_keeps (fun _ _ sound _ steady before => before.perform sound steady) sound regained fits steady

/-- A frame that is begun once the page is known again leaves the target in reach for as long as the page stays. -/
theorem clamped_run_of_regained (regained : s.Regained) (framed : .beginFrame ∈ operations) :
    (s.run operations).Clamped := by
  obtain ⟨early, late, rfl⟩ := List.append_of_mem framed
  rw [List.forall_mem_append, List.forall_mem_cons] at fits steady
  have known := regained_run sound fits.1 steady.1 regained
  have kept := sound.run fits.1
  rw [run_append, run_cons]
  exact clamped_run kept.beginFrame fits.2.2 steady.2.2 (known.clamped_beginFrame kept)

end

/-- At the start, and after each reset, nothing is known of the page. -/
theorem exists_run_of_fresh (viewport step : UInt64) {operations : List Operation}
    (fresh : operations = [] ∨ operations.getLast? = some .reset) :
    ∃ v p, run { viewport, step } operations = { viewport := v, step := p } := by
  rcases fresh with rfl | last
  · exact ⟨viewport, step, rfl⟩
  · obtain ⟨early, rfl⟩ := List.getLast?_eq_some_iff.mp last
    rw [run_append]
    exact ⟨_, _, rfl⟩

/-- The target is never above the top. As long as a page does not change in place, target and offset are in reach from
its loading on. Whatever happened before, from when a page is laid out until it changes in place, the target is in
reach once a frame has begun, each frame brings an offset closer that is out of reach, and one in reach stays there.
This is so for all operations by which the largest offset remains one that a signed word can hold. -/
theorem bounds_run (viewport step : UInt64) :
    (∀ operations, (∀ o ∈ operations, o.Fits viewport) → 0 ≤ (run { viewport, step } operations).target) ∧
    (∀ before after, (∀ o ∈ before ++ after, o.Fits viewport) → (before = [] ∨ before.getLast? = some .reset) →
      (∀ o ∈ after, o.isChange = false) →
      let s := run { viewport, step } (before ++ after)
      s.target.toInt ≤ s.limit.toNat ∧ s.offset ≤ s.limit) ∧
    (∀ before reached after, (∀ o ∈ before ++ .finishLayout reached :: after, o.Fits viewport) →
      (∀ o ∈ after, o.isChange = false) →
      let s := run { viewport, step } (before ++ .finishLayout reached :: after)
      (.beginFrame ∈ after → s.target.toInt ≤ s.limit.toNat) ∧
      (s.limit < s.offset → s.beginFrame.offset < s.offset) ∧
      (s.offset ≤ s.limit → ∀ more, (∀ o ∈ more, o.Fits viewport) → (∀ o ∈ more, o.isChange = false) →
        (s.run more).offset ≤ (s.run more).limit)) := by
  have fresh := sound_fresh viewport step
  simp only [UInt64.le_iff_toNat_le, UInt64.lt_iff_toNat_lt, Int64.le_iff_toInt_le]
  refine ⟨fun operations fits => (fresh.run fits).target, ?_, ?_⟩
  · intro before after fits new steady
    rw [List.forall_mem_append] at fits
    have sound := fresh.run fits.1
    obtain ⟨v, p, loaded⟩ := exists_run_of_fresh viewport step new
    rw [run_append]
    rw [loaded] at sound ⊢
    exact ⟨clamped_run sound fits.2 steady (Int.natCast_nonneg _), inside_run sound fits.2 steady (Nat.zero_le _)⟩
  · intro before reached after fits steady
    rw [List.forall_mem_append, List.forall_mem_cons] at fits
    have sound := (fresh.run fits.1).perform fits.2.1
    have laidOut : ((run { viewport, step } before).perform (.finishLayout reached)).Regained := .inl rfl
    rw [run_append, run_cons]
    have kept := sound.run fits.2.2
    refine ⟨clamped_run_of_regained sound fits.2.2 steady laidOut, fun outside => ?_, ?_⟩
    · rcases regained_run sound fits.2.2 steady laidOut with measured | ⟨-, inside⟩
      · exact (kept.beginFrame_of_measured measured).2.2.2 outside
      · exact absurd outside (Nat.not_lt.mpr inside)
    · intro inside more room calm
      exact inside_run kept room calm inside

/-- A page that is scrolled down to its end, and then is shorter. -/
theorem bounds_run_shortened :
    let down : List Operation := [.finishLayout 400, .next [], .next [], .next [], .next [], .beginFrame, .beginFrame]
    let shorter : List Operation := [.resetLayout 0 none, .beginFrame, .finishLayout 160, .next [], .beginFrame]
    let before : Words := run { viewport := 150, step := 40 } down
    let after : Words := run { viewport := 150, step := 40 } (down ++ shorter)
    (∀ o ∈ down ++ shorter, o.Fits 150) ∧ 0 ≤ after.target ∧
      before.target = 160 ∧ before.offset = 70 ∧ before.target.toInt ≤ before.limit.toNat ∧
      before.offset ≤ before.limit ∧ after.limit = 10 ∧ after.offset = 55 ∧
      after.target.toInt ≤ after.limit.toNat ∧ after.beginFrame.offset < after.offset := by
  intro down shorter before after
  obtain ⟨above, fresh, regained⟩ := bounds_run 150 40
  obtain ⟨target, offset⟩ := fresh [] down (by decide) (.inl rfl) (by decide)
  obtain ⟨back, closer, -⟩ :=
    regained (down ++ [.resetLayout 0 none, .beginFrame]) 160 [.next [], .beginFrame] (by decide) (by decide)
  exact ⟨by decide, above _ (by decide), by decide, by decide, target, offset, by decide, by decide, back (by decide),
    closer (by decide)⟩

/-- A page whose largest offset is beyond a signed word is sent above its top as soon as its target is clamped. -/
theorem target_above_top :
    (run { viewport := 150, step := 40 } [.finishLayout 18446744073709551615, .clamp]).target = -151 ∧
      ¬ ∀ viewport step operations, 0 ≤ (run { viewport, step } operations).target := by
  have above : (run { viewport := 150, step := 40 } [.finishLayout 18446744073709551615, .clamp]).target = -151 := by
    decide +kernel
  refine ⟨above, fun never => ?_⟩
  have low := never 150 40 [.finishLayout 18446744073709551615, .clamp]
  rw [above] at low
  exact absurd low (by decide)

/-- It is so wherever the page was sent before. -/
theorem target_above_top_of_long {s : Words} (low : 0 ≤ s.target) (long : 2 ^ 63 ≤ s.limit.toNat) :
    s.clamp.target < 0 := by
  rw [Int64.lt_iff_toInt_lt]
  exact toInt_target_clamp_neg (Int64.le_iff_toInt_le.mp low) long

end PocketReader.Scroll.Words
