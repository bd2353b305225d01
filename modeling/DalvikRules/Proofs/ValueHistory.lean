import DalvikRules.Proofs.InertInstructions

/-!
# The history of a value

What is known about a value only grows: one more effect touches each value that exists already, by
at most one entry at the end, and adds at most one value behind them. From this it follows, for
every prefix of a stream, that a bound register names a value of the table which lists the register,
and that the invocations a value has seen are among those of the stream, in their order.
-/

namespace DalvikRules

/-- The method that an effect invokes. -/
def Effect.target? : Effect → Option CallTarget
  | invoke _ target => some target
  | _ => none

/-- The texts of the invocations of a stream, in the order of the stream. -/
def invocationTexts (instructions : List Instruction) : List String :=
  (instructions.filterMap Instruction.callTarget?).map CallTarget.text

/-- A value is found again with the same origin, and what it listed stands in front. -/
structure TrackedValue.GrowsTo (value later : TrackedValue) : Prop where
  origin : later.origin = value.origin
  registers : value.registers <+: later.registers
  usedBy : value.usedBy <+: later.usedBy

namespace TrackedValue.GrowsTo

variable {value later last : TrackedValue}

theorem refl (value : TrackedValue) : value.GrowsTo value :=
  ⟨rfl, List.prefix_refl _, List.prefix_refl _⟩

theorem trans (h : value.GrowsTo later) (h' : later.GrowsTo last) : value.GrowsTo last :=
  ⟨h'.origin.trans h.origin, h.registers.trans h'.registers, h.usedBy.trans h'.usedBy⟩

end TrackedValue.GrowsTo

/-- How many registers and invocations a value lists. -/
def TrackedValue.entries (value : TrackedValue) : Nat :=
  value.registers.length + value.usedBy.length

namespace Effect

variable {isHeld : Register → Bool} {effect : Effect} {value : TrackedValue}

theorem growsTo_touch : value.GrowsTo (effect.touch isHeld value) :=
  ⟨rfl, List.prefix_append _ _, List.prefix_append _ _⟩

/-- No effect is both a move and an invocation, so a value gains one entry at most. -/
theorem entries_touch_le : (effect.touch isHeld value).entries ≤ value.entries + 1 := by
  have hone : (effect.taker? isHeld).toList.length +
      (effect.receiver? isHeld).toList.length ≤ 1 := by
    cases effect with
    | move dest source =>
      rw [taker?]
      split <;> simp [receiver?]
    | invoke arguments target =>
      rw [receiver?]
      split <;> simp [taker?]
    | create _ _ | moveResult _ | overwrite _ | inert => simp [taker?, receiver?]
  simp only [TrackedValue.entries, touch, List.length_append]
  omega

/-- The only text that an effect adds to a value is the one of its own invocation. -/
theorem receiver?_sublist :
    (effect.receiver? isHeld).toList.Sublist (effect.target?.map CallTarget.text).toList := by
  cases effect with
  | invoke arguments target =>
    rw [receiver?]
    split
    · exact List.Sublist.refl _
    · exact List.nil_sublist _
  | create _ _ | move _ _ | moveResult _ | overwrite _ | inert => exact List.nil_sublist _

/-- A value arrives in the register that is written and lists just that one. What it was used by is
the invocation directly before, if anything. -/
theorem of_arrival? {call : Option CallTarget} (h : effect.arrival? call = some value) :
    (∃ dest, effect.written? = some dest ∧ value.registers = [dest]) ∧
      value.usedBy.Sublist (call.map CallTarget.text).toList := by
  cases effect with
  | create dest origin =>
    cases h
    exact ⟨⟨dest, rfl, rfl⟩, List.nil_sublist _⟩
  | moveResult dest =>
    obtain ⟨target, rfl, rfl⟩ := Option.map_eq_some_iff.mp h
    exact ⟨⟨dest, rfl, rfl⟩, List.Sublist.refl _⟩
  | move _ _ | invoke _ _ | overwrite _ | inert => cases h

end Effect

namespace ValueFlow

variable {flow : ValueFlow} {effect : Effect} {calls : List String}

/-- Whether a register names the value at a position. -/
def names (flow : ValueFlow) (position : Nat) (register : Register) : Bool :=
  flow.bindings.lookup? register = some position

/-- Where no value arrives, the table may only change before its end. -/
private theorem getElem?_of_no_arrival {arrival : Option TrackedValue} (harrival : arrival = none)
    {values : Array TrackedValue} {change : TrackedValue → TrackedValue} {position : Nat} :
    values[position]?.map change =
      if position = values.size then arrival else values[position]?.map change := by
  split
  · next hlast => simp [hlast, harrival]
  · rfl

/-- After one more effect each value stands where it stood, touched by the effect, and a value that
arrives stands behind them all. -/
theorem getElem?_values_step (flow : ValueFlow) (effect : Effect) (position : Nat) :
    (flow.step effect).values[position]? =
      if position = flow.values.size then effect.arrival? flow.pending
      else flow.values[position]?.map (effect.touch (flow.names position)) := by
  cases effect with
  | create dest origin =>
    rw [Effect.touch_eq_id rfl rfl, Option.map_id_fun]
    exact Array.getElem?_push
  | move dest source =>
    refine Eq.trans ?_ (getElem?_of_no_arrival rfl)
    rw [step, move]
    cases hsource : flow.bindings.lookup? source with
    | none =>
      have htaker : Effect.taker? (flow.names position) (.move dest source) = none := by
        simp [Effect.taker?, names, hsource]
      rw [Effect.touch_eq_id htaker rfl, Option.map_id_fun]
      rfl
    | some held =>
      have htouch : Effect.touch (flow.names position) (.move dest source) =
          if held = position then TrackedValue.hold dest else id := by
        funext value
        by_cases hheld : held = position <;>
          simp [Effect.touch, Effect.taker?, Effect.receiver?, names, hsource, hheld,
            TrackedValue.hold]
      rw [htouch]
      refine Array.getElem?_modify.trans ?_
      split <;> simp
  | moveResult dest =>
    rw [Effect.touch_eq_id rfl rfl, step]
    cases flow.pending with
    | none =>
      refine Eq.trans ?_ (getElem?_of_no_arrival rfl)
      rw [Option.map_id_fun, id]
    | some target =>
      rw [Option.map_id_fun]
      exact Array.getElem?_push
  | invoke arguments target =>
    refine Eq.trans ?_ (getElem?_of_no_arrival rfl)
    have htouch : Effect.touch (flow.names position) (.invoke arguments target) =
        if arguments.any (flow.names position) then TrackedValue.handTo target else id := by
      funext value
      by_cases hany : arguments.any (flow.names position) = true <;>
        simp [Effect.touch, Effect.taker?, Effect.receiver?, hany, TrackedValue.handTo]
    rw [htouch]
    refine (getElem?_invoke flow arguments target position).trans ?_
    simp only [List.any_eq_true, names, decide_eq_true_eq]
    split <;> simp
  | overwrite dest | inert =>
    refine Eq.trans ?_ (getElem?_of_no_arrival rfl)
    rw [Effect.touch_eq_id rfl rfl, Option.map_id_fun]
    rfl

/-- After one more effect a register that is written names what the source of a move has named, or
what arrives; all other registers name what they named. -/
theorem lookup?_step (flow : ValueFlow) (effect : Effect) (register : Register) :
    (flow.step effect).bindings.lookup? register =
      if effect.written? = some register then
        match effect with
        | .move _ source => flow.bindings.lookup? source
        | _ => (effect.arrival? flow.pending).map fun _ => flow.values.size
      else flow.bindings.lookup? register := by
  cases effect with
  | create dest origin =>
    simp [step, create, Bindings.lookup?_bind, Effect.written?, Effect.arrival?, eq_comm]
  | move dest source =>
    rw [step, move]
    cases hsource : flow.bindings.lookup? source <;>
      simp [Bindings.lookup?_unbind, Bindings.lookup?_bind, Effect.written?, hsource,
        eq_comm (a := dest)]
  | moveResult dest =>
    rw [step]
    cases flow.pending <;>
      simp [create, Bindings.lookup?_unbind, Bindings.lookup?_bind, Effect.written?,
        Effect.arrival?, eq_comm]
  | overwrite dest =>
    simp [step, Bindings.lookup?_unbind, Effect.written?, Effect.arrival?, eq_comm]
  | invoke _ _ | inert => simp [step, invoke, Effect.written?]

/-- One more effect keeps every value at its position. The value may gain an entry, but no more than
one. -/
theorem exists_growsTo_step (effect : Effect) {position : Nat} {value : TrackedValue}
    (h : flow.values[position]? = some value) :
    ∃ later, (flow.step effect).values[position]? = some later ∧ value.GrowsTo later ∧
      later.entries ≤ value.entries + 1 := by
  obtain ⟨hlt, -⟩ := Array.getElem?_eq_some_iff.mp h
  refine ⟨effect.touch (flow.names position) value, ?_, Effect.growsTo_touch,
    Effect.entries_touch_le⟩
  rw [getElem?_values_step, if_neg (Nat.ne_of_lt hlt), h, Option.map_some]

/-- Further effects keep every value at its position and only add to it at the end. -/
theorem exists_growsTo_foldl (effects : List Effect) {position : Nat} {value : TrackedValue}
    (h : flow.values[position]? = some value) :
    ∃ later, (effects.foldl step flow).values[position]? = some later ∧ value.GrowsTo later := by
  induction effects generalizing flow value with
  | nil => exact ⟨value, h, .refl value⟩
  | cons effect rest ih =>
    obtain ⟨next, hnext, hgrows, -⟩ := exists_growsTo_step effect h
    obtain ⟨later, hlater, hgrows'⟩ := ih hnext
    exact ⟨later, hlater, hgrows.trans hgrows'⟩

/-- What holds after every stream of effects that invokes the given texts. -/
structure Sound (flow : ValueFlow) (calls : List String) : Prop where
  /-- A bound register names a value of the table, and the value lists the register. -/
  bound : ∀ register position, flow.bindings.lookup? register = some position →
    ∃ hlt : position < flow.values.size, register ∈ flow.values[position].registers
  /-- No value is without a register that took it. -/
  taken : ∀ value ∈ flow.values, value.registers ≠ []
  /-- A value was used by some of the invocations, in their order. -/
  used : ∀ value ∈ flow.values, value.usedBy.Sublist calls
  /-- What is on offer is the result of an invocation. -/
  offered : ∀ target, flow.pending = some target → target.text ∈ calls

namespace Sound

/-- Before the first effect there is nothing to be wrong about. -/
theorem empty : ({} : ValueFlow).Sound [] where
  bound _ _ h := by cases h
  taken _ h := absurd h (Array.not_mem_empty _)
  used _ h := absurd h (Array.not_mem_empty _)
  offered _ h := by cases h

/-- A value after one more effect is one that was there before, touched by the effect, or it has
just arrived. -/
private theorem exists_origin {value : TrackedValue} (h : value ∈ (flow.step effect).values) :
    (∃ position, ∃ earlier ∈ flow.values,
        value = effect.touch (flow.names position) earlier) ∨
      effect.arrival? flow.pending = some value := by
  obtain ⟨position, hposition⟩ := Array.mem_iff_getElem?.mp h
  rw [getElem?_values_step] at hposition
  split at hposition
  · exact .inr hposition
  · obtain ⟨earlier, hearlier, htouch⟩ := Option.map_eq_some_iff.mp hposition
    exact .inl ⟨position, earlier, Array.mem_iff_getElem?.mpr ⟨position, hearlier⟩, htouch.symm⟩

/-- The position that a register names after one more effect holds a value that lists it. -/
private theorem bound_step (hsound : flow.Sound calls) {register : Register} {position : Nat}
    (h : (flow.step effect).bindings.lookup? register = some position) :
    ∃ value, (flow.step effect).values[position]? = some value ∧ register ∈ value.registers := by
  have hkept {named : Register} (hnamed : flow.bindings.lookup? named = some position) :
      ∃ value, named ∈ value.registers ∧ (flow.step effect).values[position]? =
        some (effect.touch (flow.names position) value) := by
    obtain ⟨hlt, hlisted⟩ := hsound.bound named position hnamed
    refine ⟨_, hlisted, ?_⟩
    rw [getElem?_values_step, if_neg (Nat.ne_of_lt hlt), Array.getElem?_eq_getElem hlt,
      Option.map_some]
  rw [lookup?_step] at h
  by_cases hwritten : effect.written? = some register
  case neg =>
    rw [if_neg hwritten] at h
    obtain ⟨value, hlisted, hvalue⟩ := hkept h
    exact ⟨_, hvalue, Effect.growsTo_touch.registers.subset hlisted⟩
  case pos =>
    rw [if_pos hwritten] at h
    cases effect with
    | move dest source =>
      obtain ⟨value, -, hvalue⟩ := hkept h
      obtain rfl := Option.some.inj hwritten
      refine ⟨_, hvalue, ?_⟩
      have hnames : flow.names position source = true := decide_eq_true h
      simp [Effect.touch, Effect.taker?, hnames]
    | create _ _ | moveResult _ | overwrite _ =>
      obtain ⟨value, harrival, rfl⟩ := Option.map_eq_some_iff.mp h
      obtain ⟨⟨dest, hdest, hregisters⟩, -⟩ := Effect.of_arrival? harrival
      obtain rfl := Option.some.inj (hdest.symm.trans hwritten)
      refine ⟨value, ?_, by simp [hregisters]⟩
      rw [getElem?_values_step, if_pos rfl]
      exact harrival
    | invoke _ _ | inert => cases hwritten

/-- One more effect keeps what holds, with its own invocation as the last one. -/
theorem step (hsound : flow.Sound calls) (effect : Effect) :
    (flow.step effect).Sound (calls ++ (effect.target?.map CallTarget.text).toList) where
  bound register position h := by
    obtain ⟨value, hvalue, hlisted⟩ := hsound.bound_step h
    obtain ⟨hlt, rfl⟩ := Array.getElem?_eq_some_iff.mp hvalue
    exact ⟨hlt, hlisted⟩
  taken value h := by
    obtain ⟨position, earlier, hearlier, rfl⟩ | harrival := exists_origin h
    · have hgrows : earlier.GrowsTo (effect.touch (flow.names position) earlier) :=
        Effect.growsTo_touch
      exact hgrows.registers.ne_nil (hsound.taken earlier hearlier)
    · obtain ⟨⟨dest, -, hregisters⟩, -⟩ := Effect.of_arrival? harrival
      simp [hregisters]
  used value h := by
    obtain ⟨position, earlier, hearlier, rfl⟩ | harrival := exists_origin h
    · exact (hsound.used earlier hearlier).append Effect.receiver?_sublist
    · obtain ⟨-, hcall⟩ := Effect.of_arrival? harrival
      have hoffered : (flow.pending.map CallTarget.text).toList.Sublist calls := by
        cases hpending : flow.pending with
        | none => exact List.nil_sublist _
        | some target => exact List.singleton_sublist.mpr (hsound.offered target hpending)
      exact (hcall.trans hoffered).trans (List.sublist_append_left _ _)
  offered target h := by
    have hpending : (flow.step effect).pending = effect.target? := pending_step flow effect
    rw [← hpending, h]
    simp

/-- What holds before some effects holds after them, with all their invocations at the end. -/
theorem foldl (hsound : flow.Sound calls) (effects : List Effect) :
    (effects.foldl ValueFlow.step flow).Sound
      (calls ++ (effects.filterMap Effect.target?).map CallTarget.text) := by
  induction effects generalizing flow calls with
  | nil => simpa using hsound
  | cons effect rest ih =>
    have hrest := ih (hsound.step effect)
    rw [List.append_assoc] at hrest
    have htexts : ((effect :: rest).filterMap Effect.target?).map CallTarget.text =
        (effect.target?.map CallTarget.text).toList ++
          (rest.filterMap Effect.target?).map CallTarget.text := by
      cases htarget : effect.target? <;> simp [htarget]
    rw [htexts]
    exact hrest

end Sound

end ValueFlow

/-- After every stream of instructions each bound register names a value of the table, which lists
that register; every value lists some register; and what a value was used by are invocations of the
stream in their order. One more instruction adds at most one entry to a value. All values stay where
they are whatever follows: their origin is kept, and they are added to at the end only. -/
theorem flowAfter_only_grows (instructions : List Instruction) :
    (flowAfter instructions).Sound (invocationTexts instructions) ∧
      ∀ (position : Nat) (value : TrackedValue),
        (flowAfter instructions).values[position]? = some value →
          (∀ inst, ∃ next : TrackedValue,
            (flowAfter (instructions ++ [inst])).values[position]? = some next ∧
              value.GrowsTo next ∧ next.entries ≤ value.entries + 1) ∧
          ∀ following, ∃ later : TrackedValue,
            (flowAfter (instructions ++ following)).values[position]? = some later ∧
              value.GrowsTo later := by
  refine ⟨?sound, fun position value h => ⟨fun inst => ?next, fun following => ?later⟩⟩
  case sound =>
    have htargets : Instruction.callTarget? = Effect.target? ∘ Instruction.effect := rfl
    have hsound := ValueFlow.Sound.empty.foldl (instructions.map Instruction.effect)
    rw [List.nil_append, List.filterMap_map, ← htargets] at hsound
    exact hsound
  case next =>
    rw [flowAfter_append]
    exact ValueFlow.exists_growsTo_step inst.effect h
  case later =>
    rw [flowAfter_append]
    exact ValueFlow.exists_growsTo_foldl _ h

end DalvikRules
