import DalvikRules.Method

/-!
# Call targets

The operand of an invocation names the called method as `owner->name` followed by a descriptor
such as `(I)V`. The first arrow ends the owner and the first parenthesis after it starts the
descriptor, so each text has at most one reading, and the text is given back by writing the parts
one after another.
-/

namespace DalvikRules

/-- The method named by an invocation, together with its descriptor. -/
structure CallTarget where
  owner : String
  name : String
  descriptor : String
deriving DecidableEq, Repr, Inhabited

namespace CallTarget

/-- The reference of the called method, without its descriptor. -/
def method (target : CallTarget) : MethodRef := ⟨target.owner, target.name⟩

/-- The operand as it is written in an instruction. -/
def text (target : CallTarget) : String :=
  target.owner ++ "->" ++ target.name ++ target.descriptor

/-- The characters before and after the first arrow. -/
def splitArrow? : List Char → Option (List Char × List Char)
  | [] => none
  | '-' :: '>' :: rest => some ([], rest)
  | c :: rest => (splitArrow? rest).map fun (owner, tail) => (c :: owner, tail)

/-- What was split at an arrow is written with that arrow again. -/
theorem eq_of_splitArrow? {text owner tail : List Char}
    (h : splitArrow? text = some (owner, tail)) :
    text = owner ++ '-' :: '>' :: tail := by
  fun_induction splitArrow? text generalizing owner with
  | case1 => cases h
  | case2 rest =>
    cases h
    rfl
  | case3 c rest _ ih =>
    obtain ⟨⟨before, after⟩, hsplit, hparts⟩ := Option.map_eq_some_iff.mp h
    cases hparts
    rw [ih hsplit, List.cons_append]

/-- Reads an operand. The owner and the name have to be non-empty; the descriptor may be missing. -/
def parse? (operand : String) : Option CallTarget :=
  match splitArrow? operand.toList with
  | none => none
  | some (owner, rest) =>
    let name := rest.takeWhile (· ≠ '(')
    let descriptor := rest.dropWhile (· ≠ '(')
    if owner.isEmpty || name.isEmpty then none
    else some ⟨String.ofList owner, String.ofList name, String.ofList descriptor⟩

/-- The text of a target is the operand that it was read from. -/
theorem text_of_parse? {operand : String} {target : CallTarget} (h : parse? operand = some target) :
    target.text = operand := by
  rw [parse?] at h
  split at h
  · cases h
  · next owner rest hsplit =>
    dsimp only at h
    split at h
    · cases h
    · cases h
      rw [← String.toList_inj, eq_of_splitArrow? hsplit]
      simp [text]

/-- The text of a target holds the name of the called method. -/
theorem name_infix_text (target : CallTarget) : target.name.toList <:+: target.text.toList := by
  refine ⟨target.owner.toList ++ "->".toList, target.descriptor.toList, ?_⟩
  simp [text]

end CallTarget

end DalvikRules
