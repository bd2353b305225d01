import DalvikRules.ValueFlow
import Mathlib.Data.List.Basic

/-!
# Reaching definitions

The value that a register holds at a position of a stream of effects can be read off backwards: the
last write to the register decides, and a move passes the question on to its source. This file
defines the values of a stream through that backward reading alone, without a table that changes
from instruction to instruction. What is read off a position depends only on what stands before it,
and one more effect changes the reading in one place.
-/

namespace DalvikRules

namespace Effect

/-- The register that an effect writes. -/
def written? : Effect → Option Register
  | create dest _ | move dest _ | moveResult dest | overwrite dest => some dest
  | invoke _ _ | inert => none

/-- The value that an effect brings into the body, if `call` is the invocation directly before. -/
def arrival? (call : Option CallTarget) : Effect → Option TrackedValue
  | create dest origin => some ⟨[dest], origin, []⟩
  | moveResult dest => call.map fun target => ⟨[dest], none, [target.text]⟩
  | _ => none

/-- The register that takes a value through a move, if `isHeld` says which registers hold it. -/
def taker? (isHeld : Register → Bool) : Effect → Option Register
  | move dest source => if isHeld source then some dest else none
  | _ => none

/-- The text of the invocation that receives a value as an argument, if `isHeld` says which
registers hold it. -/
def receiver? (isHeld : Register → Bool) : Effect → Option String
  | invoke arguments target => if arguments.any isHeld then some target.text else none
  | _ => none

/-- What an effect adds to a value that exists already, if `isHeld` says which registers hold it. -/
def touch (isHeld : Register → Bool) (effect : Effect) (value : TrackedValue) : TrackedValue :=
  { value with
    registers := value.registers ++ (effect.taker? isHeld).toList
    usedBy := value.usedBy ++ (effect.receiver? isHeld).toList }

theorem touch_eq_id {isHeld : Register → Bool} {effect : Effect}
    (htaker : effect.taker? isHeld = none) (hreceiver : effect.receiver? isHeld = none) :
    effect.touch isHeld = id := by
  funext value
  simp [touch, htaker, hreceiver]

end Effect

namespace Reaching

/-- The last position before `stop` at which `register` is written. -/
def lastWrite? (effects : List Effect) (register : Register) : Nat → Option Nat
  | 0 => none
  | stop + 1 =>
    if effects[stop]?.bind Effect.written? = some register then some stop
    else lastWrite? effects register stop

theorem lt_of_lastWrite? {effects : List Effect} {register : Register} {stop position : Nat}
    (h : lastWrite? effects register stop = some position) : position < stop := by
  induction stop with
  | zero => simp [lastWrite?] at h
  | succ stop ih =>
    rw [lastWrite?] at h
    split at h
    · cases h
      exact Nat.lt_succ_self _
    · exact Nat.lt_succ_of_lt (ih h)

/-- The invocation directly before a position. -/
def callBefore? (effects : List Effect) : Nat → Option CallTarget
  | 0 => none
  | previous + 1 =>
    match effects[previous]? with
    | some (.invoke _ target) => some target
    | _ => none

/-- The value that is created at a position, as it is on its arrival: an effect that brings a value
of its own, or the result of an invocation directly before. -/
def created? (effects : List Effect) (position : Nat) : Option TrackedValue :=
  effects[position]?.bind (Effect.arrival? (callBefore? effects position))

/-- The position at which the value was created that `register` holds before `stop`. The last write
decides: a creation gives its own position, a move asks for its source, and anything else leaves
the register without a value. -/
def resolve? (effects : List Effect) (register : Register) (stop : Nat) : Option Nat :=
  match _hwrite : lastWrite? effects register stop with
  | none => none
  | some position =>
    match effects[position]? with
    | some (.move _ source) => resolve? effects source position
    | _ => if (created? effects position).isSome then some position else none
termination_by stop
decreasing_by exact lt_of_lastWrite? _hwrite

theorem resolve?_of_unwritten {effects : List Effect} {register : Register} {stop : Nat}
    (h : lastWrite? effects register stop = none) : resolve? effects register stop = none := by
  rw [resolve?]
  split
  · rfl
  · simp_all

theorem resolve?_of_write {effects : List Effect} {register : Register} {stop position : Nat}
    (h : lastWrite? effects register stop = some position) :
    resolve? effects register stop =
      match effects[position]? with
      | some (.move _ source) => resolve? effects source position
      | _ => if (created? effects position).isSome then some position else none := by
  rw [resolve?]
  split
  · simp_all
  · next found hfound =>
    obtain rfl : found = position := Option.some.inj (hfound.symm.trans h)
    rfl

/-- The positions at which values are created, in ascending order. -/
def creations (effects : List Effect) : List Nat :=
  (List.range effects.length).filter fun position => (created? effects position).isSome

/-- Whether a register holds the value created at `creation` before `stop`. -/
def isHeld (effects : List Effect) (creation stop : Nat) (register : Register) : Bool :=
  resolve? effects register stop = some creation

/-- The positions behind a creation. -/
def behind (effects : List Effect) (creation : Nat) : List Nat :=
  (List.range effects.length).filter (creation < ·)

/-- What the later effects report about a value, in the order of the stream. -/
def reports {α : Type} (report? : (Register → Bool) → Effect → Option α) (effects : List Effect)
    (creation : Nat) : List α :=
  (behind effects creation).filterMap fun position =>
    effects[position]?.bind (report? (isHeld effects creation position))

/-- The registers that take a value through later moves, in the order of the stream. -/
def takers (effects : List Effect) (creation : Nat) : List Register :=
  reports Effect.taker? effects creation

/-- The texts of the later invocations that receive a value, in the order of the stream. -/
def receivers (effects : List Effect) (creation : Nat) : List String :=
  reports Effect.receiver? effects creation

/-- The value created at a position, with everything that happens to it later. -/
def valueAt? (effects : List Effect) (creation : Nat) : Option TrackedValue :=
  (created? effects creation).map fun value =>
    { value with
      registers := value.registers ++ takers effects creation
      usedBy := value.usedBy ++ receivers effects creation }

/-- The values of a stream, one for each creation, in the order of creation. -/
def values (effects : List Effect) : List TrackedValue :=
  (creations effects).filterMap (valueAt? effects)

section Prefix

variable {effects rest : List Effect} {register : Register} {stop position : Nat}

theorem lastWrite?_append (h : stop ≤ effects.length) :
    lastWrite? (effects ++ rest) register stop = lastWrite? effects register stop := by
  induction stop with
  | zero => rfl
  | succ stop ih =>
    rw [lastWrite?, lastWrite?, List.getElem?_append_left h, ih (Nat.le_of_succ_le h)]

theorem callBefore?_append (h : position ≤ effects.length) :
    callBefore? (effects ++ rest) position = callBefore? effects position := by
  cases position with
  | zero => rfl
  | succ previous => rw [callBefore?, callBefore?, List.getElem?_append_left h]

theorem created?_append (h : position < effects.length) :
    created? (effects ++ rest) position = created? effects position := by
  rw [created?, created?, List.getElem?_append_left h, callBefore?_append (Nat.le_of_lt h)]

/-- What a register holds at a position depends only on what stands before the position. -/
theorem resolve?_append (h : stop ≤ effects.length) :
    resolve? (effects ++ rest) register stop = resolve? effects register stop := by
  induction stop using Nat.strongRecOn generalizing register with
  | ind stop ih =>
    cases hwrite : lastWrite? effects register stop with
    | none =>
      have hwrite' : lastWrite? (effects ++ rest) register stop = none :=
        (lastWrite?_append h).trans hwrite
      rw [resolve?_of_unwritten hwrite, resolve?_of_unwritten hwrite']
    | some position =>
      have hwrite' : lastWrite? (effects ++ rest) register stop = some position :=
        (lastWrite?_append h).trans hwrite
      have hlt := lt_of_lastWrite? hwrite
      rw [resolve?_of_write hwrite, resolve?_of_write hwrite',
        List.getElem?_append_left (by omega), created?_append (by omega)]
      split
      · exact ih position hlt (by omega)
      · rfl

end Prefix

theorem resolve?_succ_of_unwritten {effects : List Effect} {register : Register} {stop : Nat}
    (h : effects[stop]?.bind Effect.written? ≠ some register) :
    resolve? effects register (stop + 1) = resolve? effects register stop := by
  have hsame : lastWrite? effects register (stop + 1) = lastWrite? effects register stop := by
    rw [lastWrite?, if_neg h]
  cases hwrite : lastWrite? effects register stop with
  | none => rw [resolve?_of_unwritten hwrite, resolve?_of_unwritten (hsame.trans hwrite)]
  | some position => rw [resolve?_of_write hwrite, resolve?_of_write (hsame.trans hwrite)]

/-- A register holds only values that were created before. -/
theorem resolve?_created {effects : List Effect} {register : Register} {stop creation : Nat}
    (h : resolve? effects register stop = some creation) :
    creation < stop ∧ (created? effects creation).isSome := by
  induction stop using Nat.strongRecOn generalizing register with
  | ind stop ih =>
    cases hwrite : lastWrite? effects register stop with
    | none => simp [resolve?_of_unwritten hwrite] at h
    | some position =>
      have hlt := lt_of_lastWrite? hwrite
      rw [resolve?_of_write hwrite] at h
      split at h
      · have hsource := ih position hlt h
        exact ⟨by omega, hsource.2⟩
      · split at h
        · next hcreated =>
          obtain rfl : position = creation := Option.some.inj h
          exact ⟨hlt, hcreated⟩
        · simp at h

theorem mem_creations {effects : List Effect} {creation : Nat} :
    creation ∈ creations effects ↔
      creation < effects.length ∧ (created? effects creation).isSome := by
  simp [creations]

theorem mem_creations_of_resolve? {effects : List Effect} {register : Register} {creation : Nat}
    (h : resolve? effects register effects.length = some creation) :
    creation ∈ creations effects :=
  mem_creations.mpr (resolve?_created h)

theorem nodup_creations (effects : List Effect) : (creations effects).Nodup :=
  List.nodup_range.filter _

section Snoc

variable (effects : List Effect) (effect : Effect)

theorem created?_snoc :
    created? (effects ++ [effect]) effects.length =
      effect.arrival? (callBefore? effects effects.length) := by
  rw [created?, callBefore?_append (Nat.le_refl _)]
  simp

/-- After a move its source answers for the destination, after any other write the effect itself
does, and all other registers keep what they held. -/
theorem resolve?_snoc (register : Register) :
    resolve? (effects ++ [effect]) register (effects.length + 1) =
      if effect.written? = some register then
        match effect with
        | .move _ source => resolve? effects source effects.length
        | _ => (effect.arrival? (callBefore? effects effects.length)).map fun _ => effects.length
      else resolve? effects register effects.length := by
  have hlast : (effects ++ [effect])[effects.length]? = some effect := by simp
  by_cases hwritten : effect.written? = some register
  · have hwrite : lastWrite? (effects ++ [effect]) register (effects.length + 1) =
        some effects.length := by
      rw [lastWrite?, if_pos (by simpa [hlast] using hwritten)]
    have hmap (value? : Option TrackedValue) :
        (if value?.isSome then some effects.length else none) =
          value?.map fun _ => effects.length := by
      cases value? <;> rfl
    rw [if_pos hwritten, resolve?_of_write hwrite, hlast, created?_snoc]
    cases effect with
    | move dest source => exact resolve?_append (Nat.le_refl _)
    | _ => exact hmap _
  · rw [if_neg hwritten, resolve?_succ_of_unwritten (by simpa [hlast] using hwritten),
      resolve?_append (Nat.le_refl _)]

theorem creations_snoc :
    creations (effects ++ [effect]) = creations effects ++
      ((effect.arrival? (callBefore? effects effects.length)).map fun _ => effects.length).toList := by
  rw [creations, List.length_append, List.length_singleton, List.range_succ, List.filter_append]
  congr 1
  · refine List.filter_congr fun position hposition => ?_
    rw [created?_append (List.mem_range.mp hposition)]
  · rw [List.filter_singleton, created?_snoc]
    cases effect.arrival? (callBefore? effects effects.length) <;> rfl

theorem behind_snoc (creation : Nat) :
    behind (effects ++ [effect]) creation =
      behind effects creation ++ if creation < effects.length then [effects.length] else [] := by
  rw [behind, List.length_append, List.length_singleton, List.range_succ, List.filter_append,
    List.filter_singleton]
  simp [behind]

theorem reports_snoc {α : Type} (report? : (Register → Bool) → Effect → Option α)
    (creation : Nat) :
    reports report? (effects ++ [effect]) creation = reports report? effects creation ++
      if creation < effects.length then
        (report? (isHeld effects creation effects.length) effect).toList
      else [] := by
  rw [reports, behind_snoc, List.filterMap_append]
  have hheld {stop : Nat} (h : stop ≤ effects.length) :
      isHeld (effects ++ [effect]) creation stop = isHeld effects creation stop := by
    funext register
    rw [isHeld, isHeld, resolve?_append h]
  congr 1
  · refine List.filterMap_congr fun position hposition => ?_
    have hlt : position < effects.length := by
      simpa using (List.mem_filter.mp hposition).1
    rw [List.getElem?_append_left hlt, hheld (Nat.le_of_lt hlt)]
  · split
    · simp only [List.filterMap_cons, List.filterMap_nil, hheld (Nat.le_refl _),
        List.getElem?_concat_length, Option.bind_some]
      cases report? (isHeld effects creation effects.length) effect <;> rfl
    · rfl

/-- One more effect touches every value created before. -/
theorem valueAt?_snoc {creation : Nat} (h : creation < effects.length) :
    valueAt? (effects ++ [effect]) creation =
      (valueAt? effects creation).map
        (effect.touch (isHeld effects creation effects.length)) := by
  rw [valueAt?, valueAt?, created?_append h, Option.map_map]
  congr 1
  funext value
  simp [Effect.touch, takers, receivers, reports_snoc, h]

/-- A value that was created last is still as it was on its arrival. -/
theorem valueAt?_snoc_last :
    valueAt? (effects ++ [effect]) effects.length =
      effect.arrival? (callBefore? effects effects.length) := by
  have hbehind : behind (effects ++ [effect]) effects.length = [] := by
    rw [behind, List.filter_eq_nil_iff]
    intro position hposition
    have hlt := List.mem_range.mp hposition
    rw [List.length_append, List.length_singleton] at hlt
    rw [decide_eq_true_eq]
    omega
  simp [valueAt?, created?_snoc, takers, receivers, reports, hbehind]

/-- The values of a longer stream: the earlier ones, touched by the last effect, and the one that
this effect creates. -/
theorem values_snoc :
    values (effects ++ [effect]) =
      (creations effects).filterMap (fun creation =>
        (valueAt? effects creation).map (effect.touch (isHeld effects creation effects.length))) ++
      (effect.arrival? (callBefore? effects effects.length)).toList := by
  rw [values, creations_snoc, List.filterMap_append]
  congr 1
  · refine List.filterMap_congr fun creation hcreation => ?_
    exact valueAt?_snoc effects effect (mem_creations.mp hcreation).1
  · have hlast := valueAt?_snoc_last effects effect
    cases harrival : effect.arrival? (callBefore? effects effects.length) <;>
      simp [harrival, hlast]

end Snoc

theorem isSome_valueAt? {effects : List Effect} {creation : Nat}
    (h : creation ∈ creations effects) : (valueAt? effects creation).isSome := by
  simpa [valueAt?] using (mem_creations.mp h).2

theorem length_values (effects : List Effect) :
    (values effects).length = (creations effects).length :=
  List.filterMap_length_eq_length.mpr fun _ h => isSome_valueAt? h

/-- The value at an index of the table is that of the creation at this index. -/
theorem getElem?_filterMap_creations (effects : List Effect)
    (change : Nat → TrackedValue → TrackedValue) (index : Nat) :
    ((creations effects).filterMap fun creation =>
        (valueAt? effects creation).map (change creation))[index]? =
      (creations effects)[index]?.bind fun creation =>
        (valueAt? effects creation).map (change creation) := by
  have hsome : ∀ creation ∈ creations effects, (valueAt? effects creation).isSome :=
    fun _ h => isSome_valueAt? h
  generalize creations effects = positions at hsome ⊢
  induction positions generalizing index with
  | nil => rfl
  | cons creation rest ih =>
    obtain ⟨value, hvalue⟩ := Option.isSome_iff_exists.mp (hsome creation (by simp))
    have hrest := fun index => ih index fun other h => hsome other (List.mem_cons_of_mem _ h)
    cases index with
    | zero => simp [hvalue]
    | succ index => simpa [hvalue] using hrest index

/-- The index in the table of values that a register names at the end of a stream. -/
def index? (effects : List Effect) (register : Register) : Option Nat :=
  (resolve? effects register effects.length).map (creations effects).idxOf

theorem index?_eq_some_iff {effects : List Effect} {register : Register} {index creation : Nat}
    (h : (creations effects)[index]? = some creation) :
    index? effects register = some index ↔ isHeld effects creation effects.length register := by
  obtain ⟨hlt, hget⟩ := List.getElem?_eq_some_iff.mp h
  rw [index?, Option.map_eq_some_iff, isHeld, decide_eq_true_eq]
  constructor
  · rintro ⟨held, hheld, hindex⟩
    subst hindex
    rw [hheld, ← hget, List.getElem_idxOf]
  · intro hheld
    refine ⟨creation, hheld, ?_⟩
    rw [← hget]
    exact (nodup_creations effects).idxOf_getElem index hlt

theorem callBefore?_snoc (effects : List Effect) (effect : Effect) :
    callBefore? (effects ++ [effect]) (effects ++ [effect]).length =
      match effect with
      | .invoke _ target => some target
      | _ => none := by
  rw [List.length_append, List.length_singleton, callBefore?]
  simp only [List.getElem?_concat_length]
  cases effect <;> rfl

/-- Old values keep their index when the stream goes on. -/
theorem index?_snoc (effects : List Effect) (effect : Effect) (register : Register) :
    index? (effects ++ [effect]) register =
      if effect.written? = some register then
        match effect with
        | .move _ source => index? effects source
        | _ => (effect.arrival? (callBefore? effects effects.length)).map
            fun _ => (creations effects).length
      else index? effects register := by
  have hold (register : Register) :
      (resolve? effects register effects.length).map (creations (effects ++ [effect])).idxOf =
        index? effects register := by
    refine Option.map_congr fun creation hcreation => ?_
    rw [creations_snoc, List.idxOf_append, if_pos (mem_creations_of_resolve? hcreation)]
  have hnew : effects.length ∉ creations effects := fun h =>
    Nat.lt_irrefl _ (mem_creations.mp h).1
  rw [index?, List.length_append, List.length_singleton, resolve?_snoc]
  split
  · split
    · exact hold _
    · rw [creations_snoc]
      cases effect.arrival? (callBefore? effects effects.length) with
      | none => rfl
      | some value => simp [List.idxOf_append, hnew]
  · exact hold register

end Reaching

end DalvikRules
