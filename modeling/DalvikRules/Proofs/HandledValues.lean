import DalvikRules.Proofs.BodyOrder
import DalvikRules.Proofs.ForwardValues
import DalvikRules.SharedValue

/-!
# Values handled by two calls

The table of a body tells of each value which texts were recorded for it. By the backward reading
these are the texts of the invocations that handle the value: the one that produced it, and every
one that receives it in an argument register. So two names share a value in a method if, in one body
of the method, one value is handled by an invocation whose text holds the first name and by one
whose text holds the second.
-/

namespace DalvikRules

/-- The text that is kept of an invocation is the operand of its instruction. -/
theorem Instruction.parameter_eq_of_effect_eq_invoke {inst : Instruction}
    {arguments : List Register} {target : CallTarget} (h : inst.effect = .invoke arguments target) :
    inst.parameter = some target.text := by
  have huntracked : inst.untrackedEffect ≠ .invoke arguments target := by
    rw [Instruction.untrackedEffect]
    split
    · simp
    · split <;> simp
  rw [Instruction.effect] at h
  split at h
  · split at h
    · next found hfound =>
      cases h
      obtain ⟨operand, hoperand, hparse⟩ := Option.bind_eq_some_iff.mp hfound
      rw [hoperand, CallTarget.text_of_parse? hparse]
    · exact absurd h huntracked
  · cases h
  · cases h
  · cases h
  · exact absurd h huntracked

namespace Reaching

variable {effects : List Effect} {creation position : Nat} {target : CallTarget}

/-- The invocation of `target` at a position handles the value that is created at `creation`. -/
inductive Handles (effects : List Effect) : Nat → Nat → CallTarget → Prop
  /-- The value is the result that the next instruction takes. -/
  | produces {position : Nat} {arguments : List Register} {target : CallTarget} {dest : Register}
      (hcall : effects[position]? = some (.invoke arguments target))
      (htaken : effects[position + 1]? = some (.moveResult dest)) :
      Handles effects (position + 1) position target
  /-- An argument register holds the value. -/
  | receives {creation position : Nat} {arguments : List Register} {target : CallTarget}
      {register : Register} (hcall : effects[position]? = some (.invoke arguments target))
      (hargument : register ∈ arguments)
      (hheld : resolve? effects register position = some creation) :
      Handles effects creation position target

/-- Before a move-result stands the invocation that its value comes from. -/
theorem callBefore?_eq_some_iff :
    callBefore? effects creation = some target ↔
      ∃ position arguments, creation = position + 1 ∧
        effects[position]? = some (.invoke arguments target) := by
  cases creation with
  | zero => simp [callBefore?]
  | succ previous =>
    rw [callBefore?]
    constructor
    · intro h
      split at h
      · next arguments found hcall =>
        cases h
        exact ⟨previous, arguments, rfl, hcall⟩
      · cases h
    · rintro ⟨position, arguments, heq, hcall⟩
      obtain rfl : previous = position := by omega
      rw [hcall]

/-- The text with which a value arrives is that of the invocation that produced it. -/
theorem mem_usedBy_created? {value : TrackedValue} (h : created? effects creation = some value)
    {text : String} :
    text ∈ value.usedBy ↔ ∃ position arguments target dest, creation = position + 1 ∧
      effects[position]? = some (.invoke arguments target) ∧
      effects[position + 1]? = some (.moveResult dest) ∧ target.text = text := by
  obtain ⟨effect, heffect, harrival⟩ := Option.bind_eq_some_iff.mp h
  cases effect with
  | create dest origin =>
    cases harrival
    refine iff_of_false (by simp) ?_
    rintro ⟨position, _, _, _, rfl, _, htaken, _⟩
    rw [heffect] at htaken
    cases htaken
  | moveResult dest =>
    obtain ⟨target, htarget, rfl⟩ := Option.map_eq_some_iff.mp harrival
    obtain ⟨position, arguments, rfl, hcall⟩ := callBefore?_eq_some_iff.mp htarget
    rw [List.mem_singleton]
    constructor
    · rintro rfl
      exact ⟨position, arguments, target, dest, rfl, hcall, heffect, rfl⟩
    · rintro ⟨other, _, found, _, heq, hfound, _, rfl⟩
      obtain rfl : position = other := by omega
      rw [hcall] at hfound
      cases hfound
      rfl
  | move _ _ | invoke _ _ | overwrite _ | inert => cases harrival

/-- The texts that later effects add to a value are those of the invocations that receive it. -/
theorem mem_receivers {text : String} :
    text ∈ receivers effects creation ↔ ∃ position arguments target, ∃ register ∈ arguments,
      effects[position]? = some (.invoke arguments target) ∧
      resolve? effects register position = some creation ∧ target.text = text := by
  rw [receivers, reports, List.mem_filterMap]
  constructor
  · rintro ⟨position, -, hreport⟩
    obtain ⟨effect, heffect, hreceiver⟩ := Option.bind_eq_some_iff.mp hreport
    cases effect with
    | invoke arguments target =>
      rw [Effect.receiver?] at hreceiver
      split at hreceiver
      · next hany =>
        obtain ⟨register, hargument, hheld⟩ := List.any_eq_true.mp hany
        rw [isHeld, decide_eq_true_eq] at hheld
        cases hreceiver
        exact ⟨position, arguments, target, register, hargument, heffect, hheld, rfl⟩
      · cases hreceiver
    | create _ _ | move _ _ | moveResult _ | overwrite _ | inert => cases hreceiver
  · rintro ⟨position, arguments, target, register, hargument, hcall, hheld, rfl⟩
    have hany : arguments.any (isHeld effects creation position) = true :=
      List.any_eq_true.mpr ⟨register, hargument, by rw [isHeld, decide_eq_true_eq, hheld]⟩
    have hlt := (List.getElem?_eq_some_iff.mp hcall).1
    refine ⟨position, ?_, ?_⟩
    · -- A register holds only what was created before.
      simp [behind, hlt, (resolve?_created hheld).1]
    · rw [hcall, Option.bind_some, Effect.receiver?, if_pos hany]

/-- The texts recorded for a value are those of the invocations that handle it. -/
theorem mem_usedBy_valueAt? {value : TrackedValue} (h : valueAt? effects creation = some value)
    {text : String} :
    text ∈ value.usedBy ↔
      ∃ position target, Handles effects creation position target ∧ target.text = text := by
  obtain ⟨arrived, harrived, rfl⟩ := Option.map_eq_some_iff.mp h
  rw [List.mem_append, mem_usedBy_created? harrived, mem_receivers]
  constructor
  · rintro (⟨position, arguments, target, dest, rfl, hcall, htaken, htext⟩ |
      ⟨position, arguments, target, register, hargument, hcall, hheld, htext⟩)
    · exact ⟨position, target, .produces hcall htaken, htext⟩
    · exact ⟨position, target, .receives hcall hargument hheld, htext⟩
  · rintro ⟨position, target, hhandles, htext⟩
    cases hhandles with
    | produces hcall htaken => exact .inl ⟨_, _, _, _, rfl, hcall, htaken, htext⟩
    | receives hcall hargument hheld =>
      exact .inr ⟨_, _, _, _, hargument, hcall, hheld, htext⟩

/-- Whether some invocation that handles a value has `fragment` in its text. -/
def HandledUnder (effects : List Effect) (creation : Nat) (fragment : String) : Prop :=
  ∃ position target, Handles effects creation position target ∧
    fragment.toList <:+: target.text.toList

theorem usedByAny_valueAt? {value : TrackedValue} (h : valueAt? effects creation = some value)
    {fragment : String} :
    value.usedByAny fragment = true ↔ HandledUnder effects creation fragment := by
  rw [TrackedValue.usedByAny, List.any_eq_true]
  simp only [Text.contains_iff_infix, mem_usedBy_valueAt? h]
  constructor
  · rintro ⟨_, ⟨position, target, hhandles, rfl⟩, hinfix⟩
    exact ⟨position, target, hhandles, hinfix⟩
  · rintro ⟨position, target, hhandles, hinfix⟩
    exact ⟨_, ⟨position, target, hhandles, rfl⟩, hinfix⟩

/-- An invocation handles a value under the name of the method that it calls. -/
theorem Handles.handledUnder_name (h : Handles effects creation position target) :
    HandledUnder effects creation target.name :=
  ⟨position, target, h, target.name_infix_text⟩

/-- What is handled was created. -/
theorem Handles.mem_creations (h : Handles effects creation position target) :
    creation ∈ creations effects := by
  cases h with
  | produces hcall htaken =>
    have hbefore : callBefore? effects (position + 1) = some target :=
      callBefore?_eq_some_iff.mpr ⟨position, _, rfl, hcall⟩
    refine Reaching.mem_creations.mpr ⟨(List.getElem?_eq_some_iff.mp htaken).1, ?_⟩
    rw [created?, htaken, hbefore]
    rfl
  | receives hcall _ hheld =>
    have hlt := (List.getElem?_eq_some_iff.mp hcall).1
    obtain ⟨hbefore, hcreated⟩ := resolve?_created hheld
    exact Reaching.mem_creations.mpr ⟨Nat.lt_trans hbefore hlt, hcreated⟩

end Reaching

namespace Body

/-- What the instructions of a body do. -/
def effects (body : Body) : List Effect :=
  body.instructions.map Instruction.effect

/-- Two names share a value in a body if one value is handled under both of them. -/
theorem sharesValue_iff {body : Body} {first second : String} :
    body.sharesValue first second = true ↔ ∃ creation ∈ Reaching.creations body.effects,
      Reaching.HandledUnder body.effects creation first ∧
        Reaching.HandledUnder body.effects creation second := by
  have hvalues : (valuesOf body.instructions).toList = Reaching.values body.effects :=
    (ValueFlow.represents_run body.effects).values
  rw [sharesValue, ← Array.any_toList, hvalues, Reaching.values, List.any_eq_true]
  simp only [List.mem_filterMap, Bool.and_eq_true]
  constructor
  · rintro ⟨value, ⟨creation, hcreation, hvalue⟩, hfirst, hsecond⟩
    exact ⟨creation, hcreation, (Reaching.usedByAny_valueAt? hvalue).mp hfirst,
      (Reaching.usedByAny_valueAt? hvalue).mp hsecond⟩
  · rintro ⟨creation, hcreation, hfirst, hsecond⟩
    obtain ⟨value, hvalue⟩ := Option.isSome_iff_exists.mp (Reaching.isSome_valueAt? hcreation)
    exact ⟨value, ⟨creation, hcreation, hvalue⟩, (Reaching.usedByAny_valueAt? hvalue).mpr hfirst,
      (Reaching.usedByAny_valueAt? hvalue).mpr hsecond⟩

end Body

namespace Program

variable {program : Program} {common : MethodRef} {first second : String}

/-- One body of the method has to share the value. -/
theorem sharesValue_iff_body :
    program.sharesValue common first second = true ↔
      ∃ body ∈ program.bodies, body.method.key = common.key ∧
        body.sharesValue first second = true := by
  rw [sharesValue, List.any_eq_true]
  simp only [mem_bodiesOf, and_assoc]

/-- Two calls of one body that handle the same value share it under their names. -/
theorem sharesValue_of_handles {body : Body} {creation position later : Nat}
    {target other : CallTarget} (hbody : body ∈ program.bodies)
    (hkey : body.method.key = common.key)
    (hfirst : Reaching.Handles body.effects creation position target)
    (hsecond : Reaching.Handles body.effects creation later other) :
    program.sharesValue common target.name other.name = true := by
  have hshared : body.sharesValue target.name other.name = true :=
    Body.sharesValue_iff.mpr ⟨creation, hfirst.mem_creations, hfirst.handledUnder_name,
      hsecond.handledUnder_name⟩
  exact sharesValue_iff_body.mpr ⟨body, hbody, hkey, hshared⟩

/-- Alone in a program, a body of the method gives its own answer. -/
theorem sharesValue_ofBody {body : Body} (hkey : body.method.key = common.key) :
    (ofBody body).sharesValue common first second = body.sharesValue first second := by
  rw [Bool.eq_iff_iff, sharesValue_iff_body]
  constructor
  · rintro ⟨other, hother, -, hshared⟩
    rwa [List.mem_singleton.mp hother] at hshared
  · exact fun hshared => ⟨body, List.mem_singleton_self body, hkey, hshared⟩

/-- Two names share a value in a method precisely if one body of the method creates a value that is
handled by an invocation whose operand holds the first name and by one whose operand holds the
second; the operand is the text of the instruction. So the names may change places, what one body
does never adds to what another does, and two invocations of the very names that handle one value
are always found. -/
theorem sharesValue_iff_handled (program : Program) (common : MethodRef) (first second : String) :
    (program.sharesValue common first second = true ↔
      ∃ body ∈ program.bodies, body.method.key = common.key ∧
        ∃ creation ∈ Reaching.creations body.effects,
          Reaching.HandledUnder body.effects creation first ∧
            Reaching.HandledUnder body.effects creation second) ∧
    (∀ (inst : Instruction) (arguments : List Register) (target : CallTarget),
      inst.effect = .invoke arguments target → inst.parameter = some target.text) ∧
    program.sharesValue common second first = program.sharesValue common first second ∧
    (program.sharesValue common first second = true ↔
      ∃ body ∈ program.bodiesOf common, (ofBody body).sharesValue common first second = true) ∧
    ∀ body ∈ program.bodies, body.method.key = common.key →
      ∀ (creation position later : Nat) (target other : CallTarget),
        Reaching.Handles body.effects creation position target →
          Reaching.Handles body.effects creation later other →
            target.name = first → other.name = second →
              program.sharesValue common first second = true := by
  refine ⟨?shared, ?operand, ?symm, ?apart, ?found⟩
  case shared =>
    rw [sharesValue_iff_body]
    simp only [Body.sharesValue_iff]
  case operand => exact fun _ _ _ => Instruction.parameter_eq_of_effect_eq_invoke
  case symm => exact sharesValue_comm program common first second
  case apart =>
    rw [sharesValue, List.any_eq_true]
    refine exists_congr fun body => and_congr_right fun hbody => ?_
    rw [sharesValue_ofBody (mem_bodiesOf.mp hbody).2]
  case found =>
    rintro body hbody hkey creation position later target other hfirst hsecond rfl rfl
    exact sharesValue_of_handles hbody hkey hfirst hsecond

end Program

end DalvikRules
