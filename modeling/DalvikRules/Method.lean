import Std.Data.ExtTreeSet

/-!
# Method references

A method is named by its declaring class and its own name. Class descriptors end in `;`, which
some documents leave out, so a method is looked up by a key in which that terminator is gone.
References are ordered by class and then by name, both by code points; sets of references are
listed in that order.
-/

namespace DalvikRules

/-- Two values that agree under a lexicographic comparison of two texts agree in both texts. -/
private theorem texts_eq_of_compareLex {α : Type} {f g : α → String} {a b : α}
    (h : compareLex (compareOn f) (compareOn g) a b = .eq) : f a = f b ∧ g a = g b := by
  have hboth : (compareOn f a b).then (compareOn g a b) = .eq := h
  rw [Ordering.then_eq_eq] at hboth
  exact ⟨Std.LawfulEqOrd.eq_of_compare hboth.1, Std.LawfulEqOrd.eq_of_compare hboth.2⟩

/-- The name of a method: its declaring class and the method's own name, as they were written. -/
structure MethodRef where
  className : String
  name : String
deriving DecidableEq, Repr, Inhabited

namespace MethodRef

/-- References are ordered by class, then by name. -/
instance : Ord MethodRef := ⟨compareLex (compareOn className) (compareOn name)⟩

instance : Std.TransOrd MethodRef :=
  inferInstanceAs (Std.TransCmp (compareLex (compareOn className) (compareOn name)))

instance : Std.LawfulEqOrd MethodRef where
  eq_of_compare {a b} h := by
    obtain ⟨hclass, hname⟩ := texts_eq_of_compareLex h
    cases a
    cases b
    exact congr (congrArg mk hclass) hname

/-- A reference is written as its class, an arrow and its name. -/
def text (method : MethodRef) : String :=
  method.className ++ "->" ++ method.name

instance : ToString MethodRef := ⟨text⟩

end MethodRef

/-- A class name without its descriptor terminator: one trailing `;` is dropped. -/
def classKey (className : String) : String :=
  if className.toList.getLast? = some ';' then String.ofList className.toList.dropLast
  else className

/-- What a method is looked up by: two references that differ only in the terminator of the class
have one key. -/
structure MethodKey where
  classKey : String
  name : String
deriving DecidableEq, Repr, Inhabited

namespace MethodKey

instance : Ord MethodKey := ⟨compareLex (compareOn classKey) (compareOn name)⟩

instance : Std.TransOrd MethodKey :=
  inferInstanceAs (Std.TransCmp (compareLex (compareOn classKey) (compareOn name)))

instance : Std.LawfulEqOrd MethodKey where
  eq_of_compare {a b} h := by
    obtain ⟨hclass, hname⟩ := texts_eq_of_compareLex h
    cases a
    cases b
    exact congr (congrArg mk hclass) hname

end MethodKey

/-- The key under which a method is looked up. -/
def MethodRef.key (method : MethodRef) : MethodKey :=
  ⟨DalvikRules.classKey method.className, method.name⟩

/-- A finite set of method references, listed in ascending order. -/
abbrev MethodSet := Std.ExtTreeSet MethodRef

/-- A set is no larger than a list that holds its members. -/
theorem MethodSet.size_le_length {methods : MethodSet} {listed : List MethodRef}
    (h : ∀ method ∈ methods, method ∈ listed) : methods.size ≤ listed.length := by
  have hnodup : methods.toList.Nodup := by
    refine Std.ExtTreeSet.distinct_toList.imp ?_
    rintro method _ hne rfl
    exact hne Std.ReflCmp.compare_self
  rw [← Std.ExtTreeSet.length_toList]
  apply hnodup.length_le_of_subset
  intro method hmethod
  exact h method (Std.ExtTreeSet.mem_toList.mp hmethod)

end DalvikRules
