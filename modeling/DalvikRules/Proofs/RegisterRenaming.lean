import DalvikRules.Proofs.HandledValues
import Mathlib.Data.List.Forall2
import Mathlib.Data.Set.Function

/-!
# Names of registers

A register is told from other registers by its name, and the name says nothing else. If the
registers of a stream get other names, and different ones stay different, then everything that is
known of the values of the stream is known of them under the new names: the effects of the
instructions, the table after each of them, and what the registers name at the end. The texts of
invocations do not change at all, so no question about shared values is answered differently.
-/

namespace DalvikRules

variable {relabel : Register → Register} {named : Set Register}

/-- An instruction with other names for its registers. -/
def Instruction.rename (relabel : Register → Register) (inst : Instruction) : Instruction :=
  { inst with registers := inst.registers.map relabel }

/-- The registers that occur in a stream of instructions. -/
def registersOf (instructions : List Instruction) : Set Register :=
  {register | ∃ inst ∈ instructions, register ∈ inst.registers}

namespace Effect

/-- An effect with other names for its registers. -/
def rename (relabel : Register → Register) : Effect → Effect
  | create dest origin => create (relabel dest) origin
  | move dest source => move (relabel dest) (relabel source)
  | moveResult dest => moveResult (relabel dest)
  | invoke arguments target => invoke (arguments.map relabel) target
  | overwrite dest => overwrite (relabel dest)
  | inert => inert

/-- The registers that an effect reads or writes. -/
def registers : Effect → List Register
  | create dest _ | moveResult dest | overwrite dest => [dest]
  | move dest source => [dest, source]
  | invoke arguments _ => arguments
  | inert => []

end Effect

namespace Instruction

variable (inst : Instruction)

theorem untrackedEffect_rename :
    (inst.rename relabel).untrackedEffect = inst.untrackedEffect.rename relabel := by
  obtain ⟨offset, mnemonic, registers, parameter⟩ := inst
  cases registers with
  | nil => rfl
  | cons dest rest =>
    change (if Mnemonic.overwrites mnemonic then Effect.overwrite (relabel dest) else .inert) =
      (if Mnemonic.overwrites mnemonic then Effect.overwrite dest else .inert).rename relabel
    split <;> rfl

/-- An instruction is decoded by its mnemonic and the number of its registers, and not by their
names. -/
theorem effect_rename : (inst.rename relabel).effect = inst.effect.rename relabel := by
  have huntracked : (inst.rename relabel).untrackedEffect =
      inst.untrackedEffect.rename relabel := inst.untrackedEffect_rename
  have hmnemonic : (inst.rename relabel).mnemonic = inst.mnemonic := rfl
  have hparameter : (inst.rename relabel).parameter = inst.parameter := rfl
  have hregisters : (inst.rename relabel).registers = inst.registers.map relabel := rfl
  rw [effect, effect, hmnemonic, hparameter, hregisters, huntracked]
  cases Mnemonic.family inst.mnemonic with
  | invoke => cases inst.parameter.bind CallTarget.parse? <;> rfl
  | moveResult | create => cases inst.registers <;> rfl
  | move => rcases inst.registers with _ | ⟨_, _ | _⟩ <;> rfl
  | untracked => rfl

/-- An effect is one on registers of the instruction. -/
theorem mem_registers_of_effect {register : Register} (h : register ∈ inst.effect.registers) :
    register ∈ inst.registers := by
  have huntracked (h : register ∈ inst.untrackedEffect.registers) : register ∈ inst.registers := by
    rw [untrackedEffect] at h
    split at h
    · cases h
    · next dest rest hregisters =>
      split at h
      · rw [hregisters, List.mem_singleton.mp h]
        exact List.mem_cons_self
      · cases h
  rw [effect] at h
  split at h
  · split at h
    · exact h
    · exact huntracked h
  · next dest rest _ hregisters =>
    rw [hregisters, List.mem_singleton.mp h]
    exact List.mem_cons_self
  · next dest rest _ hregisters =>
    rw [hregisters, List.mem_singleton.mp h]
    exact List.mem_cons_self
  · next dest source rest _ hregisters =>
    rw [hregisters]
    exact List.mem_append_left rest h
  · exact huntracked h

end Instruction

/-- A value under the new names of the registers that took it. -/
def TrackedValue.rename (relabel : Register → Register) (value : TrackedValue) : TrackedValue :=
  { value with registers := value.registers.map relabel }

namespace Bindings

/-- What the registers name, under their new names. -/
def rename (relabel : Register → Register) (bindings : Bindings) : Bindings :=
  bindings.map fun (register, position) => (relabel register, position)

/-- All registers that name something are among the given ones. -/
def BoundIn (bindings : Bindings) (named : Set Register) : Prop :=
  ∀ binding ∈ bindings, binding.1 ∈ named

variable {bindings : Bindings} {register : Register}

theorem BoundIn.unbind (h : bindings.BoundIn named) (register : Register) :
    (bindings.unbind register).BoundIn named :=
  fun binding hbinding => h binding (List.mem_filter.mp hbinding).1

theorem BoundIn.bind (h : bindings.BoundIn named) (hregister : register ∈ named)
    (position : Nat) : (bindings.bind register position).BoundIn named := by
  intro binding hbinding
  rcases List.mem_cons.mp hbinding with rfl | hold
  · exact hregister
  · exact h.unbind register binding hold

/-- Different registers keep different names, so the same binding is taken away. -/
theorem unbind_rename (hinj : Set.InjOn relabel named) (h : bindings.BoundIn named)
    (hregister : register ∈ named) :
    (bindings.rename relabel).unbind (relabel register) =
      (bindings.unbind register).rename relabel := by
  rw [unbind, unbind, rename, rename, List.filter_map]
  congr 1
  refine List.filter_congr fun binding hbinding => ?_
  have hsame : relabel binding.1 = relabel register ↔ binding.1 = register :=
    hinj.eq_iff (h binding hbinding) hregister
  simp [hsame]

theorem bind_rename (hinj : Set.InjOn relabel named) (h : bindings.BoundIn named)
    (hregister : register ∈ named) (position : Nat) :
    (bindings.rename relabel).bind (relabel register) position =
      (bindings.bind register position).rename relabel := by
  rw [bind, bind, unbind_rename hinj h hregister]
  rfl

/-- A register names under its new name what it named under its old one. -/
theorem lookup?_rename (hinj : Set.InjOn relabel named) (h : bindings.BoundIn named)
    (hregister : register ∈ named) :
    (bindings.rename relabel).lookup? (relabel register) = bindings.lookup? register := by
  induction bindings with
  | nil => rfl
  | cons binding rest ih =>
    have hrest := ih fun other hother => h other (List.mem_cons_of_mem _ hother)
    have hsame : relabel register = relabel binding.1 ↔ register = binding.1 :=
      hinj.eq_iff hregister (h binding List.mem_cons_self)
    obtain ⟨bound, position⟩ := binding
    simp only [lookup?, rename, List.map_cons, List.lookup_cons] at hrest ⊢
    by_cases heq : register = bound
    · simp [heq]
    · have hold : (register == bound) = false := beq_false_of_ne heq
      have hnew : (relabel register == relabel bound) = false :=
        beq_false_of_ne (hsame.not.mpr heq)
      rw [hold, hnew]
      exact hrest

theorem mem_of_lookup? {position : Nat} (h : bindings.lookup? register = some position) :
    (register, position) ∈ bindings := by
  obtain ⟨earlier, later, rfl, -⟩ := List.lookup_eq_some_iff.mp h
  simp

/-- Under the new names nothing else is named than under the old ones. -/
theorem lookup?_rename_eq_some_iff (hinj : Set.InjOn relabel named) (h : bindings.BoundIn named)
    {position : Nat} :
    (bindings.rename relabel).lookup? register = some position ↔
      ∃ old ∈ named, relabel old = register ∧ bindings.lookup? old = some position := by
  constructor
  · intro hlookup
    obtain ⟨⟨old, _⟩, hold, hpair⟩ := List.mem_map.mp (mem_of_lookup? hlookup)
    cases hpair
    have hnamed : old ∈ named := h _ hold
    exact ⟨old, hnamed, rfl, (lookup?_rename hinj h hnamed).symm.trans hlookup⟩
  · rintro ⟨old, hnamed, rfl, hlookup⟩
    rw [lookup?_rename hinj h hnamed, hlookup]

end Bindings

namespace ValueFlow

variable {flow : ValueFlow}

/-- A flow under the new names of the registers. -/
def rename (relabel : Register → Register) (flow : ValueFlow) : ValueFlow where
  values := flow.values.map (TrackedValue.rename relabel)
  bindings := flow.bindings.rename relabel
  pending := flow.pending

/-- An effect on the given registers binds only them. -/
theorem boundIn_step {effect : Effect} (h : flow.bindings.BoundIn named)
    (heffect : ∀ register ∈ effect.registers, register ∈ named) :
    (flow.step effect).bindings.BoundIn named := by
  cases effect with
  | create dest origin => exact h.bind (heffect dest (by simp [Effect.registers])) _
  | move dest source =>
    rw [step, move]
    split
    · exact h.bind (heffect dest (by simp [Effect.registers])) _
    · exact h.unbind dest
  | moveResult dest =>
    rw [step]
    split
    · exact h.bind (heffect dest (by simp [Effect.registers])) _
    · exact h.unbind dest
  | overwrite dest => exact h.unbind dest
  | invoke arguments target => exact h
  | inert => exact h

/-- A change that does the same to renamed values does the same to a table of them. -/
private theorem modify_map {change other : TrackedValue → TrackedValue}
    (hchange : ∀ value, other (value.rename relabel) = (change value).rename relabel)
    (values : Array TrackedValue) (position : Nat) :
    (values.map (TrackedValue.rename relabel)).modify position other =
      (values.modify position change).map (TrackedValue.rename relabel) := by
  apply Array.ext_getElem?
  intro index
  rw [Array.getElem?_modify, Array.getElem?_map, Array.getElem?_map, Array.getElem?_modify]
  split
  · rw [Option.map_map, Option.map_map]
    exact congrArg (Option.map · values[index]?) (funext hchange)
  · rfl

private theorem foldl_modify_map {change other : TrackedValue → TrackedValue}
    (hchange : ∀ value, other (value.rename relabel) = (change value).rename relabel)
    (positions : List Nat) (values : Array TrackedValue) :
    positions.foldl (fun values position => values.modify position other)
        (values.map (TrackedValue.rename relabel)) =
      (positions.foldl (fun values position => values.modify position change) values).map
        (TrackedValue.rename relabel) := by
  induction positions generalizing values with
  | nil => rfl
  | cons position rest ih =>
    rw [List.foldl_cons, List.foldl_cons, modify_map hchange, ih]

section Step

variable (hinj : Set.InjOn relabel named) (h : flow.bindings.BoundIn named)

include hinj h

theorem create_rename {dest : Register} (hdest : dest ∈ named) (origin : Option String)
    (usedBy : List String) :
    (flow.rename relabel).create (relabel dest) origin usedBy =
      (flow.create dest origin usedBy).rename relabel := by
  simp only [create, rename, Array.map_push, Array.size_map,
    Bindings.bind_rename hinj h hdest]
  rfl

/-- Without a value for its source, a move takes a binding away; with one, the value is held by one
more register. -/
theorem move_rename {dest source : Register} (hdest : dest ∈ named) (hsource : source ∈ named) :
    (flow.rename relabel).move (relabel dest) (relabel source) =
      (flow.move dest source).rename relabel := by
  have hlookup : (flow.rename relabel).bindings.lookup? (relabel source) =
      flow.bindings.lookup? source := Bindings.lookup?_rename hinj h hsource
  rw [move, move, hlookup]
  cases flow.bindings.lookup? source with
  | none =>
    simp only [rename, Bindings.unbind_rename hinj h hdest]
  | some position =>
    have hhold : ∀ value : TrackedValue, (value.rename relabel).hold (relabel dest) =
        (value.hold dest).rename relabel := by
      intro value
      simp [TrackedValue.hold, TrackedValue.rename]
    simp only [rename, Bindings.bind_rename hinj h hdest, modify_map hhold]

/-- The arguments of an invocation hand over the same values under their new names. -/
theorem invoke_rename {arguments : List Register}
    (harguments : ∀ register ∈ arguments, register ∈ named) (target : CallTarget) :
    (flow.rename relabel).invoke (arguments.map relabel) target =
      (flow.invoke arguments target).rename relabel := by
  have hhanded : (flow.rename relabel).handed (arguments.map relabel) = flow.handed arguments := by
    rw [handed, handed, List.filterMap_map]
    congr 1
    exact List.filterMap_congr fun register hregister =>
      Bindings.lookup?_rename hinj h (harguments register hregister)
  have hhandTo : ∀ value : TrackedValue, (value.rename relabel).handTo target =
      (value.handTo target).rename relabel := fun _ => rfl
  rw [invoke, invoke, hhanded]
  simp only [rename, foldl_modify_map hhandTo]

/-- Every effect does the same under the new names. -/
theorem step_rename {effect : Effect}
    (heffect : ∀ register ∈ effect.registers, register ∈ named) :
    (flow.rename relabel).step (effect.rename relabel) =
      (flow.step effect).rename relabel := by
  cases effect with
  | create dest origin => exact create_rename hinj h (heffect dest (by simp [Effect.registers])) _ _
  | move dest source =>
    exact move_rename hinj h (heffect dest (by simp [Effect.registers]))
      (heffect source (by simp [Effect.registers]))
  | moveResult dest =>
    have hdest : dest ∈ named := heffect dest (by simp [Effect.registers])
    have hpending : (flow.rename relabel).pending = flow.pending := rfl
    simp only [step, Effect.rename, hpending]
    cases flow.pending with
    | none => simp only [rename, Bindings.unbind_rename hinj h hdest]
    | some target => exact create_rename hinj h hdest _ _
  | invoke arguments target => exact invoke_rename hinj h heffect target
  | overwrite dest =>
    have hdest : dest ∈ named := heffect dest (by simp [Effect.registers])
    simp only [step, rename, Effect.rename, Bindings.unbind_rename hinj h hdest]
  | inert => rfl

end Step

/-- A run does the same under the new names. -/
theorem foldl_step_rename (hinj : Set.InjOn relabel named) {effects : List Effect}
    (heffects : ∀ effect ∈ effects, ∀ register ∈ effect.registers, register ∈ named)
    (h : flow.bindings.BoundIn named) :
    (effects.map (Effect.rename relabel)).foldl step (flow.rename relabel) =
        (effects.foldl step flow).rename relabel ∧
      (effects.foldl step flow).bindings.BoundIn named := by
  induction effects generalizing flow with
  | nil => exact ⟨rfl, h⟩
  | cons effect rest ih =>
    obtain ⟨heffect, hrest⟩ := List.forall_mem_cons.mp heffects
    rw [List.map_cons, List.foldl_cons, List.foldl_cons, step_rename hinj h heffect]
    exact ih hrest (boundIn_step h heffect)

end ValueFlow

section Instructions

variable {instructions : List Instruction}

theorem registersOf_effects {effect : Effect}
    (h : effect ∈ instructions.map Instruction.effect) :
    ∀ register ∈ effect.registers, register ∈ registersOf instructions := by
  obtain ⟨inst, hinst, rfl⟩ := List.mem_map.mp h
  exact fun register hregister => ⟨inst, hinst, inst.mem_registers_of_effect hregister⟩

theorem effects_rename :
    (instructions.map (Instruction.rename relabel)).map Instruction.effect =
      (instructions.map Instruction.effect).map (Effect.rename relabel) := by
  rw [List.map_map, List.map_map]
  exact List.map_congr_left fun inst _ => inst.effect_rename

/-- The run of a stream under other names is the run of the stream, under these names. -/
theorem run_rename (hinj : Set.InjOn relabel (registersOf instructions)) :
    ValueFlow.run ((instructions.map (Instruction.rename relabel)).map Instruction.effect) =
        (ValueFlow.run (instructions.map Instruction.effect)).rename relabel ∧
      (ValueFlow.run (instructions.map Instruction.effect)).bindings.BoundIn
        (registersOf instructions) := by
  have hnothing : ({} : ValueFlow).bindings.BoundIn (registersOf instructions) :=
    fun _ h => absurd h List.not_mem_nil
  have hstart : ({} : ValueFlow).rename relabel = {} := by
    simp [ValueFlow.rename, Bindings.rename]
  have hfold := ValueFlow.foldl_step_rename hinj (fun _ => registersOf_effects) hnothing
  rw [hstart] at hfold
  rw [effects_rename]
  exact hfold

theorem valuesOf_rename (hinj : Set.InjOn relabel (registersOf instructions)) :
    valuesOf (instructions.map (Instruction.rename relabel)) =
      (valuesOf instructions).map (TrackedValue.rename relabel) := by
  rw [valuesOf, (run_rename hinj).1]
  rfl

end Instructions

namespace Body

/-- A body with other names for its registers. -/
def rename (relabel : Register → Register) (body : Body) : Body :=
  { body with instructions := body.instructions.map (Instruction.rename relabel) }

/-- A body differs from another one at most by the names of its registers: different registers of
the one have different names in the other. -/
def RenamedTo (body other : Body) : Prop :=
  ∃ relabel, Set.InjOn relabel (registersOf body.instructions) ∧ other = body.rename relabel

/-- What a body shares is told by the texts of its invocations. -/
theorem RenamedTo.sharesValue_eq {body other : Body} (h : body.RenamedTo other)
    (first second : String) : other.sharesValue first second = body.sharesValue first second := by
  obtain ⟨relabel, hinj, rfl⟩ := h
  rw [sharesValue, sharesValue, rename, valuesOf_rename hinj, Array.any_map]
  rfl

end Body

/-- Programs whose bodies differ by the names of their registers share the same values. -/
theorem Program.sharesValue_of_renamed {program other : Program}
    (h : List.Forall₂ Body.RenamedTo program.bodies other.bodies) (common : MethodRef)
    (first second : String) :
    other.sharesValue common first second = program.sharesValue common first second := by
  let answer (body : Body) : MethodKey × Bool := (body.method.key, body.sharesValue first second)
  have hanswers : program.bodies.map answer = other.bodies.map answer := by
    rw [← List.forall₂_eq_eq_eq, List.forall₂_map_left_iff, List.forall₂_map_right_iff]
    refine h.imp fun body renamed hrenamed => ?_
    have hmethod : renamed.method = body.method := by
      obtain ⟨_, _, rfl⟩ := hrenamed
      rfl
    simp only [answer, hmethod, hrenamed.sharesValue_eq]
  have hshares (asked : Program) : asked.sharesValue common first second = true ↔
      (common.key, true) ∈ asked.bodies.map answer := by
    rw [Program.sharesValue_iff_body, List.mem_map]
    simp only [answer, Prod.mk.injEq]
  rw [Bool.eq_iff_iff, hshares, hshares, hanswers]

/-- The names of registers carry no meaning. Under other names that keep different registers of a
stream apart, decoding and running the stream gives the same table with the new names in the place
of the old ones: as many values, of the same origins and handled by the same invocations; and at the
end each register names under its new name what it named under its old one, and nothing else is
named. So programs whose bodies differ by the names of their registers, each body by names of its
own, answer alike which values are shared. -/
theorem registers_carry_no_meaning :
    (∀ (instructions : List Instruction) (relabel : Register → Register),
      Set.InjOn relabel (registersOf instructions) →
        let renamed := instructions.map (Instruction.rename relabel)
        let flow := ValueFlow.run (instructions.map Instruction.effect)
        let renamedFlow := ValueFlow.run (renamed.map Instruction.effect)
        renamed.map Instruction.effect =
            (instructions.map Instruction.effect).map (Effect.rename relabel) ∧
        valuesOf renamed = (valuesOf instructions).map (TrackedValue.rename relabel) ∧
        ∀ register position, renamedFlow.bindings.lookup? register = some position ↔
          ∃ old ∈ registersOf instructions, relabel old = register ∧
            flow.bindings.lookup? old = some position) ∧
    ∀ program other : Program, List.Forall₂ Body.RenamedTo program.bodies other.bodies →
      ∀ common first second,
        other.sharesValue common first second = program.sharesValue common first second := by
  refine ⟨fun instructions relabel hinj =>
    ⟨effects_rename, valuesOf_rename hinj, fun register position => ?_⟩,
    fun _ _ => Program.sharesValue_of_renamed⟩
  obtain ⟨hrun, hbound⟩ := run_rename hinj
  rw [hrun]
  exact Bindings.lookup?_rename_eq_some_iff hinj hbound

/-- Two registers that hold one value change places. Other registers all get one name, which does not
matter because none of them occurs. -/
theorem registers_carry_no_meaning_swapped :
    let make : Instruction := ⟨0, "const-string", [⟨"v0"⟩], some "sms"⟩
    let copy : Instruction := ⟨2, "move-object", [⟨"v1"⟩, ⟨"v0"⟩], none⟩
    let swap (register : Register) : Register := if register = ⟨"v0"⟩ then ⟨"v1"⟩ else ⟨"v0"⟩
    Set.InjOn swap (registersOf [make, copy]) ∧
      valuesOf [make, copy] = #[⟨[⟨"v0"⟩, ⟨"v1"⟩], some "sms", []⟩] ∧
      valuesOf ([make, copy].map (Instruction.rename swap)) =
        #[⟨[⟨"v1"⟩, ⟨"v0"⟩], some "sms", []⟩] := by
  intro make copy swap
  have hoccurs : ∀ register ∈ registersOf [make, copy], register = ⟨"v0"⟩ ∨ register = ⟨"v1"⟩ := by
    rintro register ⟨inst, hinst, hregister⟩
    rcases List.mem_pair.mp hinst with rfl | rfl
    · exact .inl (List.mem_singleton.mp hregister)
    · exact (List.mem_pair.mp hregister).symm
  have hinj : Set.InjOn swap (registersOf [make, copy]) := by
    intro one hone other hother heq
    rcases hoccurs one hone with rfl | rfl <;> rcases hoccurs other hother with rfl | rfl <;>
      simp_all [swap]
  have hvalues : valuesOf [make, copy] = #[⟨[⟨"v0"⟩, ⟨"v1"⟩], some "sms", []⟩] := by
    decide +kernel
  refine ⟨hinj, hvalues, ?_⟩
  rw [(registers_carry_no_meaning.1 _ swap hinj).2.1, hvalues]
  simp [TrackedValue.rename, swap]

end DalvikRules
