import DalvikRules.Instruction
import Mathlib.Data.List.Infix
import Mathlib.Data.List.TakeWhile

/-!
# The grammar of call targets

An operand is read as a call target exactly if it is an owner, an arrow, a name and a descriptor one
after another, with no arrow in the owner, no parenthesis in the name, and a descriptor that starts
with a parenthesis or is missing. Since the first arrow ends the owner and the first parenthesis
behind it ends the name, no operand can be taken apart in two ways.
-/

namespace DalvikRules

namespace CallTarget

/-- A text is split at its first parenthesis: there is none before, and it starts what is behind, if
there is anything. -/
private theorem splitParenthesis_iff {text name descriptor : List Char} :
    text.takeWhile (· ≠ '(') = name ∧ text.dropWhile (· ≠ '(') = descriptor ↔
      text = name ++ descriptor ∧ '(' ∉ name ∧ ∀ c ∈ descriptor.head?, c = '(' := by
  constructor
  · rintro ⟨rfl, rfl⟩
    refine ⟨List.takeWhile_append_dropWhile.symm, fun hmem => ?_, fun c hc => ?_⟩
    · simpa using List.mem_takeWhile_imp hmem
    · have hstop := List.head?_dropWhile_not (fun c => decide (c ≠ '(')) text
      rw [Option.mem_def.mp hc] at hstop
      simpa using hstop
  · rintro ⟨rfl, hname, hdescriptor⟩
    have hpass : ∀ c ∈ name, decide (c ≠ '(') = true := by
      rintro c hc
      simpa using ne_of_mem_of_not_mem hc hname
    rw [List.takeWhile_append_of_pos hpass, List.dropWhile_append_of_pos hpass]
    cases descriptor with
    | nil => simp
    | cons c rest =>
      obtain rfl := hdescriptor c rfl
      simp

/-- The characters of the arrow. -/
def arrow : List Char := ['-', '>']

/-- The last character of a text that an arrow follows is no beginning of another arrow. -/
private theorem arrow_prefix_append_iff {before rest : List Char} :
    arrow <+: before ++ arrow ++ rest ↔ before = [] ∨ arrow <+: before := by
  match before with
  | [] => simp
  | [_] => simp [arrow]
  | _ :: _ :: _ => simp [arrow]

private theorem splitArrow?_cons (c : Char) (text : List Char) :
    splitArrow? (c :: text) =
      if arrow <+: c :: text then some ([], text.tail)
      else (splitArrow? text).map fun (owner, rest) => (c :: owner, rest) := by
  rw [splitArrow?.eq_def]
  split
  · contradiction
  · next heq =>
    cases heq
    exact (if_pos (List.prefix_append arrow _)).symm
  · next other hfirst heq =>
    cases heq
    rw [if_neg]
    rintro ⟨rest, hrest⟩
    cases hrest
    exact hfirst rest rfl rfl

/-- A text is split at its first arrow: it is written with that arrow, and there is none before. -/
theorem splitArrow?_eq_some_iff {text owner rest : List Char} :
    splitArrow? text = some (owner, rest) ↔
      text = owner ++ arrow ++ rest ∧ ¬ arrow <:+: owner := by
  induction text generalizing owner with
  | nil => simp [splitArrow?, arrow]
  | cons c text ih =>
    rw [splitArrow?_cons]
    by_cases hfirst : arrow <+: c :: text
    case pos =>
      rw [if_pos hfirst]
      constructor
      · intro h
        obtain ⟨behind, hbehind⟩ := hfirst
        cases hbehind
        cases h
        exact ⟨rfl, by simp [arrow]⟩
      · rintro ⟨htext, howner⟩
        rw [htext, arrow_prefix_append_iff] at hfirst
        obtain rfl | hstart := hfirst
        · cases htext
          rfl
        · exact absurd hstart.isInfix howner
    case neg =>
      rw [if_neg hfirst, Option.map_eq_some_iff]
      constructor
      · rintro ⟨⟨before, behind⟩, hsplit, hparts⟩
        cases hparts
        obtain ⟨rfl, hbefore⟩ := ih.mp hsplit
        refine ⟨rfl, fun hinfix => ?_⟩
        obtain hstart | hlater := List.infix_cons_iff.mp hinfix
        · exact hfirst (hstart.trans ⟨arrow ++ rest, by simp⟩)
        · exact hbefore hlater
      · rintro ⟨htext, howner⟩
        cases owner with
        | nil => exact absurd ⟨rest, htext.symm⟩ hfirst
        | cons d before =>
          cases htext
          refine ⟨(before, rest), ih.mpr ⟨rfl, fun hinfix => ?_⟩, rfl⟩
          exact howner (List.infix_cons_iff.mpr (.inr hinfix))

/-- An operand is written as a target: the parts of the target stand one after another, and each of
them ends where the next one can first be seen to start. -/
structure WrittenAs (operand : String) (target : CallTarget) : Prop where
  text : operand = target.owner ++ "->" ++ target.name ++ target.descriptor
  owner_ne : target.owner ≠ ""
  owner_free : Text.contains target.owner "->" = false
  name_ne : target.name ≠ ""
  name_free : '(' ∉ target.name.toList
  descriptor : target.descriptor = "" ∨ Text.startsWith target.descriptor "(" = true

private theorem contains_arrow_iff {text : String} :
    Text.contains text "->" = false ↔ ¬ arrow <:+: text.toList := by
  rw [← Bool.not_eq_true, Text.contains_iff_infix]
  rfl

private theorem ne_empty_iff {text : String} : text ≠ "" ↔ text.toList.isEmpty = false := by
  rw [List.isEmpty_eq_false_iff, ne_eq, ne_eq, ← String.toList_inj]
  rfl

private theorem descriptor_iff {text : String} :
    text = "" ∨ Text.startsWith text "(" = true ↔ ∀ c ∈ text.toList.head?, c = '(' := by
  have hopen : "(".toList = ['('] := rfl
  have hempty : "".toList = [] := rfl
  rw [← String.toList_inj, Text.startsWith, hopen, hempty]
  cases text.toList with
  | nil => simp
  | cons c rest => simpa using eq_comm

/-- Reading an operand finds the target that the operand is written as. -/
theorem parse?_eq_some_iff {operand : String} {target : CallTarget} :
    parse? operand = some target ↔ WrittenAs operand target := by
  constructor
  · intro h
    have htext := text_of_parse? h
    rw [parse?] at h
    split at h
    · cases h
    · next owner rest hsplit =>
      dsimp only at h
      split at h
      · cases h
      · next hpresent =>
        cases h
        obtain ⟨-, hfree⟩ := splitArrow?_eq_some_iff.mp hsplit
        obtain ⟨-, hname, hdescriptor⟩ := (@splitParenthesis_iff rest _ _).mp ⟨rfl, rfl⟩
        rw [Bool.or_eq_true, not_or, Bool.not_eq_true, Bool.not_eq_true] at hpresent
        constructor
        case text => exact htext.symm
        case owner_ne => simpa [ne_empty_iff] using hpresent.1
        case owner_free => simpa [contains_arrow_iff] using hfree
        case name_ne => simpa [ne_empty_iff] using hpresent.2
        case name_free => simpa using hname
        case descriptor =>
          rw [descriptor_iff]
          simpa using hdescriptor
  · intro h
    have hsplit : splitArrow? operand.toList =
        some (target.owner.toList, target.name.toList ++ target.descriptor.toList) := by
      refine splitArrow?_eq_some_iff.mpr ⟨?_, contains_arrow_iff.mp h.owner_free⟩
      rw [h.text]
      simp [arrow]
    obtain ⟨hname, hdescriptor⟩ :=
      splitParenthesis_iff.mpr ⟨rfl, h.name_free, descriptor_iff.mp h.descriptor⟩
    rw [parse?, hsplit]
    dsimp only
    rw [hname, hdescriptor, ne_empty_iff.mp h.owner_ne, ne_empty_iff.mp h.name_ne]
    simp

/-- The method that a target names is written as a target without a descriptor. -/
theorem WrittenAs.text_method {operand : String} {target : CallTarget}
    (h : WrittenAs operand target) :
    WrittenAs target.method.text { target with descriptor := "" } where
  text := by simp [MethodRef.text, method]
  owner_ne := h.owner_ne
  owner_free := h.owner_free
  name_ne := h.name_ne
  name_free := h.name_free
  descriptor := .inl rfl

/-- Exactly the operands that are written as a target are read as one, namely as the only one that
they are written as. The parts of the target give the operand back, its name is a part of the
operand, and the written form of the method is read again as that method without a descriptor. -/
theorem parse?_inverts_text (operand : String) :
    ((parse? operand).isSome = true ↔ ∃ target, WrittenAs operand target) ∧
      (∀ target, parse? operand = some target ↔ WrittenAs operand target) ∧
      (∀ target other, WrittenAs operand target → WrittenAs operand other → target = other) ∧
      ∀ target, parse? operand = some target →
        target.text = operand ∧ Text.contains operand target.name = true ∧
          parse? (toString target.method) =
            some { owner := target.owner, name := target.name, descriptor := "" } := by
  refine ⟨?accepts, fun _ => parse?_eq_some_iff, ?unique, ?recovers⟩
  case accepts => simp only [Option.isSome_iff_exists, parse?_eq_some_iff]
  case unique =>
    intro target other h h'
    exact Option.some.inj ((parse?_eq_some_iff.mpr h).symm.trans (parse?_eq_some_iff.mpr h'))
  case recovers =>
    intro target h
    have htext := text_of_parse? h
    refine ⟨htext, ?_, parse?_eq_some_iff.mpr (parse?_eq_some_iff.mp h).text_method⟩
    rw [Text.contains_iff_infix, ← htext]
    exact target.name_infix_text

/-- Dashes before the first arrow, a parenthesis in the owner, and arrows behind the first one. -/
example : parse? "a(b-->c->d(->e" = some ⟨"a(b-", "c->d", "(->e"⟩ := by
  cbv

end CallTarget

end DalvikRules
