import DalvikRules.Proofs.ForwardValues

/-!
# Instructions without effect

An instruction that neither tracks nor overwrites a register can be put into a stream without any
influence on its values, except at one place: between an invocation and the instruction that takes
its result. There the result is no longer on offer, so the register that should have taken it is
only overwritten, and the stream has one value less. Two flows that have the same values and
bindings are told apart only by an instruction that takes a result, and after one instruction both
offer the same.
-/

namespace DalvikRules

/-- What is known at the end of a stream of instructions. -/
def flowAfter (instructions : List Instruction) : ValueFlow :=
  ValueFlow.run (instructions.map Instruction.effect)

namespace ValueFlow

variable {flow other : ValueFlow} {effect : Effect}

/-- The flow with no result on offer. -/
def withhold (flow : ValueFlow) : ValueFlow :=
  { flow with pending := none }

/-- Only an instruction that takes a result asks for what is on offer. -/
theorem step_withhold (h : ∀ dest, effect ≠ .moveResult dest) :
    flow.withhold.step effect = flow.step effect := by
  cases effect with
  | moveResult dest => exact absurd rfl (h dest)
  | create _ _ | move _ _ | invoke _ _ | overwrite _ | inert => rfl

/-- Where no result is on offer, none is withheld. -/
theorem withhold_of_pending (h : flow.pending = none) : flow.withhold = flow := by
  rw [withhold, ← h]

/-- What is on offer after an effect is known from the effect. -/
theorem pending_step (flow : ValueFlow) (effect : Effect) :
    (flow.step effect).pending =
      match effect with
      | .invoke _ target => some target
      | _ => none := by
  cases effect with
  | move dest source =>
    rw [step, move]
    split <;> rfl
  | moveResult dest =>
    rw [step]
    split <;> rfl
  | create _ _ | invoke _ _ | overwrite _ | inert => rfl

/-- At most one value is added by an effect, and whether there is one depends on the effect and on
what is on offer. -/
theorem size_values_step (flow : ValueFlow) (effect : Effect) :
    (flow.step effect).values.size =
      flow.values.size + (effect.arrival? flow.pending).toList.length := by
  cases effect with
  | create dest origin => simp [step, create, Effect.arrival?]
  | move dest source =>
    rw [step, move]
    split <;> simp [Effect.arrival?]
  | moveResult dest =>
    rw [step]
    cases hpending : flow.pending <;> simp [create, Effect.arrival?]
  | invoke arguments target =>
    have hsize (positions : List Nat) (values : Array TrackedValue) :
        (positions.foldl (fun values position =>
          values.modify position (TrackedValue.handTo target)) values).size = values.size := by
      induction positions generalizing values with
      | nil => rfl
      | cons position rest ih => rw [List.foldl_cons, ih, Array.size_modify]
    simp [step, invoke, hsize, Effect.arrival?]
  | overwrite dest | inert => simp [step, Effect.arrival?]

/-- Two flows that offer the same go on to create the same number of values. -/
theorem size_values_foldl {effects : List Effect} (hpending : flow.pending = other.pending)
    (hsize : flow.values.size + 1 = other.values.size) :
    (effects.foldl step flow).values.size + 1 = (effects.foldl step other).values.size := by
  induction effects generalizing flow other with
  | nil => exact hsize
  | cons effect rest ih =>
    refine ih ?_ ?_
    · rw [pending_step, pending_step]
    · rw [size_values_step, size_values_step, hpending]
      omega

end ValueFlow

variable {before after : List Instruction} {inst : Instruction} {target : CallTarget}
  {dest : Register}

theorem flowAfter_append (before after : List Instruction) :
    flowAfter (before ++ after) =
      (after.map Instruction.effect).foldl ValueFlow.step (flowAfter before) := by
  rw [flowAfter, flowAfter, ValueFlow.run, ValueFlow.run, List.map_append, List.foldl_append]

theorem flowAfter_insert (h : inst.effect = .inert) :
    flowAfter (before ++ inst :: after) =
      (after.map Instruction.effect).foldl ValueFlow.step (flowAfter before).withhold := by
  rw [flowAfter_append, List.map_cons, List.foldl_cons, h]
  rfl

/-- A result is on offer at the end of a stream if an invocation ends it. -/
theorem pending_flowAfter_eq_some_iff :
    (flowAfter before).pending = some target ↔
      ∃ outer call arguments, before = outer ++ [call] ∧ call.effect = .invoke arguments target := by
  rcases List.eq_nil_or_concat before with rfl | ⟨outer, call, rfl⟩
  · refine iff_of_false (by simp [flowAfter, ValueFlow.run]) ?_
    rintro ⟨outer, call, _, hend, _⟩
    simp at hend
  · have hlast : (flowAfter (outer ++ [call])).pending =
        match call.effect with
        | .invoke _ target => some target
        | _ => none := by
      rw [flowAfter_append]
      exact ValueFlow.pending_step _ _
    rw [List.concat_eq_append, hlast]
    constructor
    · intro hpending
      cases heffect : call.effect with
      | invoke arguments found =>
        rw [heffect] at hpending
        cases hpending
        exact ⟨outer, call, arguments, rfl, heffect⟩
      | create _ _ | move _ _ | moveResult _ | overwrite _ | inert =>
        rw [heffect] at hpending
        cases hpending
    · rintro ⟨other, found, arguments, hend, heffect⟩
      obtain ⟨-, rfl⟩ := List.append_singleton_inj.mp hend
      rw [heffect]

/-- Between two streams a result changes hands: the first one ends with an invocation of `target`,
and the second one begins by taking the result in `dest`. -/
structure HandsOver (before after : List Instruction) (target : CallTarget) (dest : Register) :
    Prop where
  called : ∃ outer call arguments, before = outer ++ [call] ∧
    call.effect = .invoke arguments target
  taken : ∃ taker rest, after = taker :: rest ∧ taker.effect = .moveResult dest

/-- Where no result changes hands, nothing depends on what was on offer. -/
theorem foldl_withhold (h : ∀ target dest, ¬ HandsOver before after target dest) :
    let flow := flowAfter (before ++ after)
    let withheld := (after.map Instruction.effect).foldl ValueFlow.step (flowAfter before).withhold
    withheld.values = flow.values ∧ withheld.bindings = flow.bindings := by
  dsimp only
  rw [flowAfter_append]
  cases after with
  | nil => exact ⟨rfl, rfl⟩
  | cons taker rest =>
    have hstep : (flowAfter before).withhold.step taker.effect =
        (flowAfter before).step taker.effect := by
      by_cases htaker : ∃ dest, taker.effect = .moveResult dest
      · obtain ⟨dest, hdest⟩ := htaker
        have hnone : (flowAfter before).pending = none := by
          rw [Option.eq_none_iff_forall_ne_some]
          intro target htarget
          exact h target dest ⟨pending_flowAfter_eq_some_iff.mp htarget, taker, rest, rfl, hdest⟩
        rw [ValueFlow.withhold_of_pending hnone]
      · exact ValueFlow.step_withhold fun dest hdest => htaker ⟨dest, hdest⟩
    rw [List.map_cons, List.foldl_cons, List.foldl_cons, hstep]
    exact ⟨rfl, rfl⟩

/-- The flow in which a register was written without being tracked. -/
def ValueFlow.forget (flow : ValueFlow) (dest : Register) : ValueFlow :=
  { flow with bindings := flow.bindings.unbind dest, pending := none }

/-- Where a result changes hands, it makes a new value, and without the offer the register that
takes it is only overwritten. -/
theorem HandsOver.foldl_eq (h : HandsOver before after target dest) :
    flowAfter (before ++ after) = (after.tail.map Instruction.effect).foldl ValueFlow.step
        ((flowAfter before).create dest none [target.text]) ∧
      (after.map Instruction.effect).foldl ValueFlow.step (flowAfter before).withhold =
        (after.tail.map Instruction.effect).foldl ValueFlow.step
          ((flowAfter before).forget dest) := by
  obtain ⟨taker, rest, rfl, htaker⟩ := h.taken
  have hpending := pending_flowAfter_eq_some_iff.mpr h.called
  rw [flowAfter_append, List.map_cons, List.foldl_cons, List.foldl_cons, htaker, List.tail_cons]
  refine ⟨?_, rfl⟩
  rw [ValueFlow.step, hpending]

/-- An instruction without effect can be put anywhere into a stream: the values of the stream and
what the registers name at the end stay the same, precisely unless it stands between an invocation
and an instruction that takes its result. There this instruction, which made a new value, now only
overwrites its destination; the stream goes on from there in both cases, with one value less. -/
theorem flowAfter_insert_inert (before after : List Instruction) (inst : Instruction)
    (h : inst.effect = .inert) :
    let flow := flowAfter (before ++ after)
    let longer := flowAfter (before ++ inst :: after)
    (longer.values = flow.values ∧ longer.bindings = flow.bindings ↔
      ∀ target dest, ¬ HandsOver before after target dest) ∧
    ∀ target dest, HandsOver before after target dest →
      flow = (after.tail.map Instruction.effect).foldl ValueFlow.step
        ((flowAfter before).create dest none [target.text]) ∧
      longer = (after.tail.map Instruction.effect).foldl ValueFlow.step
        ((flowAfter before).forget dest) ∧
      longer.values.size + 1 = flow.values.size := by
  intro flow longer
  have hlonger : longer = (after.map Instruction.effect).foldl ValueFlow.step
      (flowAfter before).withhold := flowAfter_insert h
  have hexception : ∀ target dest, HandsOver before after target dest →
      flow = (after.tail.map Instruction.effect).foldl ValueFlow.step
        ((flowAfter before).create dest none [target.text]) ∧
      longer = (after.tail.map Instruction.effect).foldl ValueFlow.step
        ((flowAfter before).forget dest) ∧
      longer.values.size + 1 = flow.values.size := by
    intro target dest hover
    obtain ⟨hcreated, hforgotten⟩ := hover.foldl_eq
    change flow = _ at hcreated
    rw [← hlonger] at hforgotten
    refine ⟨hcreated, hforgotten, ?_⟩
    rw [hforgotten, hcreated]
    exact ValueFlow.size_values_foldl rfl (Array.size_push _).symm
  refine ⟨⟨fun hsame target dest hover => ?_, fun hnone => ?_⟩, hexception⟩
  · obtain ⟨-, -, hsize⟩ := hexception target dest hover
    rw [hsame.1] at hsize
    omega
  · rw [hlonger]
    exact foldl_withhold hnone

/-- A call whose operand names no method has no effect. Before the call of `make` it changes
nothing, and behind it the value that `v0` would take is lost. -/
theorem flowAfter_insert_inert_unreadable :
    let make : Instruction := ⟨0, "invoke-static", [], some "LA;->make()I"⟩
    let take : Instruction := ⟨3, "move-result", [⟨"v0"⟩], none⟩
    let unreadable : Instruction := ⟨4, "invoke-static", [⟨"v0"⟩], some "LA;.make()I"⟩
    unreadable.effect = .inert ∧
      (flowAfter [unreadable, make, take]).values = (flowAfter [make, take]).values ∧
      (flowAfter [make, take]).values = #[⟨[⟨"v0"⟩], none, ["LA;->make()I"]⟩] ∧
      (flowAfter [make, unreadable, take]).values.size + 1 = (flowAfter [make, take]).values.size := by
  intro make take unreadable
  have hunreadable : unreadable.effect = .inert := by decide +kernel
  have hmake : make.effect = .invoke [] ⟨"LA;", "make", "()I"⟩ := by decide +kernel
  have htake : take.effect = .moveResult ⟨"v0"⟩ := by decide +kernel
  have hover : HandsOver [make] [take] ⟨"LA;", "make", "()I"⟩ ⟨"v0"⟩ :=
    ⟨⟨[], make, [], rfl, hmake⟩, ⟨take, [], rfl, htake⟩⟩
  have hfront : ∀ target dest, ¬ HandsOver [] [make, take] target dest := by
    rintro target dest ⟨⟨outer, call, _, hend, _⟩, _⟩
    simp at hend
  have hbefore := flowAfter_insert_inert [] [make, take] unreadable hunreadable
  have hbetween := flowAfter_insert_inert [make] [take] unreadable hunreadable
  exact ⟨hunreadable, (hbefore.1.mpr hfront).1, by decide +kernel, (hbetween.2 _ _ hover).2.2⟩

end DalvikRules
