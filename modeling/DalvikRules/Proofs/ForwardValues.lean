import DalvikRules.Proofs.ReachingDefinition
import Mathlib.Data.List.Induction

/-!
# Running forwards and reading backwards

The table that is built instruction by instruction holds exactly the values that the backward
reading of the stream gives. The invariant `Represents` compares the two after a prefix of the
stream: the values, what each register names, and the invocation whose result is on offer. Every
effect keeps it.
-/

namespace DalvikRules

theorem Instruction.origin_eq_of_effect_eq_create {inst : Instruction} {dest : Register}
    {origin : Option String} (h : inst.effect = .create dest origin) :
    origin = inst.parameter := by
  have huntracked : inst.untrackedEffect ≠ .create dest origin := by
    rw [Instruction.untrackedEffect]
    split
    · simp
    · split <;> simp
  rw [Instruction.effect] at h
  split at h
  · split at h
    · cases h
    · exact absurd h huntracked
  · cases h
  · cases h
    rfl
  · cases h
  · exact absurd h huntracked

namespace ValueFlow

/-- A flow knows exactly what the backward reading of the effects so far gives. -/
structure Represents (flow : ValueFlow) (effects : List Effect) : Prop where
  values : flow.values.toList = Reaching.values effects
  lookup : ∀ register, flow.bindings.lookup? register = Reaching.index? effects register
  pending : flow.pending = Reaching.callBefore? effects effects.length

/-- Before the first effect there is nothing to know. -/
theorem represents_empty : ({} : ValueFlow).Represents [] where
  values := rfl
  lookup register := by
    rw [Reaching.index?, List.length_nil, Reaching.resolve?_of_unwritten rfl]
    rfl
  pending := rfl

private theorem nodup_eraseDups (positions : List Nat) : positions.eraseDups.Nodup := by
  induction hlength : positions.length using Nat.strongRecOn generalizing positions with
  | ind length ih =>
    cases positions with
    | nil => simp
    | cons position rest =>
      rw [List.eraseDups_cons, List.nodup_cons]
      refine ⟨fun hmem => ?_, ih _ ?_ _ rfl⟩
      · simp [List.mem_eraseDups] at hmem
      · have := List.length_filter_le (fun other => !other == position) rest
        simp only [List.length_cons] at hlength
        omega

/-- Changing the values at a list of different positions changes each of them once. -/
private theorem getElem?_foldl_modify (change : TrackedValue → TrackedValue)
    {positions : List Nat} (hnodup : positions.Nodup) (values : Array TrackedValue) (index : Nat) :
    (positions.foldl (fun values position => values.modify position change) values)[index]? =
      if index ∈ positions then values[index]?.map change else values[index]? := by
  induction positions generalizing values with
  | nil => simp
  | cons position rest ih =>
    obtain ⟨hposition, hrest⟩ := List.nodup_cons.mp hnodup
    rw [List.foldl_cons, ih hrest, Array.getElem?_modify]
    by_cases heq : position = index
    · subst heq
      simp [hposition]
    · have hne : index ≠ position := fun h => heq h.symm
      simp [heq, hne]

theorem mem_handed {flow : ValueFlow} {arguments : List Register} {index : Nat} :
    index ∈ flow.handed arguments ↔
      ∃ register ∈ arguments, flow.bindings.lookup? register = some index := by
  simp [handed, List.mem_eraseDups]

theorem getElem?_invoke (flow : ValueFlow) (arguments : List Register) (target : CallTarget)
    (index : Nat) :
    (flow.invoke arguments target).values[index]? =
      if ∃ register ∈ arguments, flow.bindings.lookup? register = some index then
        flow.values[index]?.map (TrackedValue.handTo target)
      else flow.values[index]? := by
  have hmodify := getElem?_foldl_modify (TrackedValue.handTo target)
    (nodup_eraseDups (arguments.filterMap flow.bindings.lookup?)) flow.values index
  exact hmodify.trans (if_congr mem_handed rfl rfl)

namespace Represents

variable {flow : ValueFlow} {effects : List Effect} {effect : Effect}

theorem getElem?_values (hrep : flow.Represents effects) (index : Nat) :
    flow.values[index]? =
      (Reaching.creations effects)[index]?.bind (Reaching.valueAt? effects) := by
  rw [← Array.getElem?_toList, hrep.values, Reaching.values]
  simpa using Reaching.getElem?_filterMap_creations effects (fun _ => id) index

/-- If an effect creates nothing, the table has to change exactly where the effect touches a
value. -/
private theorem values_of_touch {table : Array TrackedValue} (touched : Nat → Prop)
    [DecidablePred touched] (change : TrackedValue → TrackedValue)
    (hrep : flow.Represents effects)
    (harrival : effect.arrival? (Reaching.callBefore? effects effects.length) = none)
    (htable : ∀ index, table[index]? =
      if touched index then flow.values[index]?.map change else flow.values[index]?)
    (htouch : ∀ index creation, (Reaching.creations effects)[index]? = some creation →
      effect.touch (Reaching.isHeld effects creation effects.length) =
        if touched index then change else id) :
    table.toList = Reaching.values (effects ++ [effect]) := by
  rw [Reaching.values_snoc, harrival, Option.toList_none, List.append_nil]
  refine List.ext_getElem? fun index => ?_
  rw [Reaching.getElem?_filterMap_creations, Array.getElem?_toList, htable,
    hrep.getElem?_values]
  cases hcreation : (Reaching.creations effects)[index]? with
  | none => simp
  | some creation =>
    rw [Option.bind_some, Option.bind_some, htouch index creation hcreation]
    split
    · rfl
    · rw [Option.map_id_fun, id]

/-- An effect that touches no value and creates none leaves the table as it is. -/
private theorem values_of_untouched (hrep : flow.Represents effects)
    (htouch : ∀ creation, effect.touch (Reaching.isHeld effects creation effects.length) = id) :
    flow.values.toList ++
        (effect.arrival? (Reaching.callBefore? effects effects.length)).toList =
      Reaching.values (effects ++ [effect]) := by
  rw [Reaching.values_snoc, hrep.values, Reaching.values]
  simp [htouch]

/-- A value that arrives in `dest` is added at the end of the table. -/
private theorem create {dest : Register} {origin : Option String} {usedBy : List String}
    (hrep : flow.Represents effects)
    (harrival : effect.arrival? (Reaching.callBefore? effects effects.length) =
      some ⟨[dest], origin, usedBy⟩)
    (hwritten : effect.written? = some dest)
    (htouch : ∀ creation, effect.touch (Reaching.isHeld effects creation effects.length) = id) :
    (flow.create dest origin usedBy).Represents (effects ++ [effect]) where
  values := by
    rw [← hrep.values_of_untouched htouch, harrival]
    simp [ValueFlow.create]
  lookup register := by
    have hsize : flow.values.size = (Reaching.creations effects).length := by
      rw [← Array.length_toList, hrep.values, Reaching.length_values]
    rw [ValueFlow.create, Bindings.lookup?_bind, Reaching.index?_snoc, hwritten, hrep.lookup,
      harrival, hsize]
    cases effect with
    | move _ _ => simp [Effect.arrival?] at harrival
    | _ => simp [eq_comm]
  pending := by
    rw [Reaching.callBefore?_snoc]
    cases effect <;> simp_all [Effect.arrival?, ValueFlow.create]

/-- A write that is not tracked takes the binding away and leaves the table as it is. -/
private theorem unbind {dest : Register} (hrep : flow.Represents effects)
    (harrival : effect.arrival? (Reaching.callBefore? effects effects.length) = none)
    (hwritten : effect.written? = some dest)
    (hsource : ∀ source, effect = .move dest source → Reaching.index? effects source = none)
    (htouch : ∀ creation, effect.touch (Reaching.isHeld effects creation effects.length) = id) :
    ({ flow with bindings := flow.bindings.unbind dest, pending := none } : ValueFlow).Represents
      (effects ++ [effect]) where
  values := by
    rw [← hrep.values_of_untouched htouch, harrival, Option.toList_none, List.append_nil]
  lookup register := by
    rw [Bindings.lookup?_unbind, Reaching.index?_snoc, hwritten, hrep.lookup, harrival]
    cases effect with
    | move _ source =>
      obtain rfl := Option.some.inj hwritten
      simp [hsource source rfl, eq_comm]
    | _ => simp [eq_comm]
  pending := by
    rw [Reaching.callBefore?_snoc]
    cases effect <;> simp_all [Effect.written?]

/-- A move from a register without a value is a write that is not tracked, and a move from one
that has a value lets its destination name the value too. -/
private theorem move (hrep : flow.Represents effects) (dest source : Register) :
    (flow.move dest source).Represents (effects ++ [.move dest source]) := by
  rw [ValueFlow.move]
  have hlookup := hrep.lookup source
  cases hindex : Reaching.index? effects source with
  | none =>
    rw [hlookup, hindex]
    refine hrep.unbind rfl rfl (fun other h => ?_) fun creation => ?_
    · cases h
      exact hindex
    · have hheld : Reaching.isHeld effects creation effects.length source = false := by
        rw [Reaching.index?, Option.map_eq_none_iff] at hindex
        simp [Reaching.isHeld, hindex]
      exact Effect.touch_eq_id (by simp [Effect.taker?, hheld]) rfl
  | some position =>
    rw [hlookup, hindex]
    constructor
    · refine values_of_touch (position = ·) (TrackedValue.hold dest) hrep rfl (fun index => ?_)
        fun index creation hcreation => ?_
      · exact Array.getElem?_modify
      · have hheld : Reaching.index? effects source = some index ↔
            Reaching.isHeld effects creation effects.length source :=
          Reaching.index?_eq_some_iff hcreation
        rw [hindex, Option.some.injEq] at hheld
        funext value
        by_cases hposition : position = index
        · simp [Effect.touch, Effect.taker?, Effect.receiver?, hheld.mp hposition, hposition,
            TrackedValue.hold]
        · have hfalse : Reaching.isHeld effects creation effects.length source = false := by
            simpa using fun h => hposition (hheld.mpr h)
          simp [Effect.touch, Effect.taker?, Effect.receiver?, hfalse, hposition]
    · intro register
      rw [Bindings.lookup?_bind, Reaching.index?_snoc, hrep.lookup]
      simp [Effect.written?, hindex, eq_comm]
    · rw [Reaching.callBefore?_snoc]

private theorem invoke (hrep : flow.Represents effects) (arguments : List Register)
    (target : CallTarget) :
    (flow.invoke arguments target).Represents (effects ++ [.invoke arguments target]) where
  values := by
    refine values_of_touch _ _ hrep rfl (getElem?_invoke flow arguments target)
      fun index creation hcreation => ?_
    have hheld : (∃ register ∈ arguments, flow.bindings.lookup? register = some index) ↔
        arguments.any (Reaching.isHeld effects creation effects.length) := by
      simp only [hrep.lookup, Reaching.index?_eq_some_iff hcreation, List.any_eq_true]
    funext value
    simp only [hheld]
    by_cases hany : arguments.any (Reaching.isHeld effects creation effects.length) = true
    · rw [if_pos hany, Effect.touch, Effect.receiver?, if_pos hany]
      simp [Effect.taker?, TrackedValue.handTo]
    · rw [if_neg hany, Effect.touch, Effect.receiver?, if_neg hany]
      simp [Effect.taker?]
  lookup register := by
    rw [Reaching.index?_snoc]
    exact hrep.lookup register
  pending := by
    rw [Reaching.callBefore?_snoc]
    rfl

/-- Every effect keeps table and backward reading in step. -/
theorem step (hrep : flow.Represents effects) (effect : Effect) :
    (flow.step effect).Represents (effects ++ [effect]) := by
  cases effect with
  | create dest origin =>
    exact hrep.create rfl rfl fun _ => Effect.touch_eq_id rfl rfl
  | move dest source => exact hrep.move dest source
  | moveResult dest =>
    rw [ValueFlow.step, hrep.pending]
    cases hcall : Reaching.callBefore? effects effects.length with
    | some target =>
      exact hrep.create (by simp [Effect.arrival?, hcall]) rfl fun _ => Effect.touch_eq_id rfl rfl
    | none =>
      exact hrep.unbind (by simp [Effect.arrival?, hcall]) rfl (fun _ h => by cases h)
        fun _ => Effect.touch_eq_id rfl rfl
  | invoke arguments target => exact hrep.invoke arguments target
  | overwrite dest =>
    exact hrep.unbind rfl rfl (fun _ h => by cases h) fun _ => Effect.touch_eq_id rfl rfl
  | inert =>
    constructor
    · rw [← hrep.values_of_untouched fun _ => Effect.touch_eq_id rfl rfl]
      simp [ValueFlow.step, Effect.arrival?]
    · intro register
      rw [Reaching.index?_snoc]
      exact hrep.lookup register
    · rw [Reaching.callBefore?_snoc]
      rfl

end Represents

/-- After every prefix of a stream the flow knows what the backward reading of the prefix gives. -/
theorem represents_run (effects : List Effect) : (run effects).Represents effects := by
  induction effects using List.reverseRecOn with
  | nil => exact represents_empty
  | append_singleton effects effect ih =>
    rw [run, List.foldl_append]
    exact ih.step effect

/-- Running a stream forwards gives exactly the backward semantics of reaching definitions: one
value for each creation, in ascending order, and in the end every register names the value that
its last write resolves to. The origin of a value that an instruction brings is the operand of
this instruction. -/
theorem run_eq_reaching (effects : List Effect) :
    (run effects).values.toList = Reaching.values effects ∧
      (run effects).values.size = (Reaching.creations effects).length ∧
      (∀ register, (run effects).bindings.lookup? register =
        (Reaching.resolve? effects register effects.length).map
          (Reaching.creations effects).idxOf) ∧
      ∀ (inst : Instruction) (dest : Register) (origin : Option String),
        inst.effect = .create dest origin → origin = inst.parameter := by
  have hrep := represents_run effects
  refine ⟨hrep.values, ?_, hrep.lookup, fun inst dest origin h => ?_⟩
  · rw [← Array.length_toList, hrep.values, Reaching.length_values]
  · exact Instruction.origin_eq_of_effect_eq_create h

/-- The result of an invocation goes through a move and into another invocation, while the first
value loses its register. -/
example :
    (run [.create ⟨"v0"⟩ (some "1"), .invoke [⟨"v0"⟩] ⟨"LA;", "a", "()I"⟩, .moveResult ⟨"v0"⟩,
      .move ⟨"v1"⟩ ⟨"v0"⟩, .invoke [⟨"v1"⟩, ⟨"v0"⟩] ⟨"LB;", "b", "(II)V"⟩]).values =
      #[⟨[⟨"v0"⟩], some "1", ["LA;->a()I"]⟩,
        ⟨[⟨"v0"⟩, ⟨"v1"⟩], none, ["LA;->a()I", "LB;->b(II)V"]⟩] := by
  cbv

end ValueFlow

end DalvikRules
