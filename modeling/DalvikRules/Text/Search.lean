/-!
# Parts of a text

A text starts with another, or holds it somewhere. Both are decided on the list of characters, and
`occursIn_iff_infix` says that the second test finds exactly the parts that a text can be split
around.
-/

namespace DalvikRules.Text

/-- Whether `text` begins with the characters of `start`. -/
def startsWith (text start : String) : Bool :=
  start.toList.isPrefixOf text.toList

/-- Whether `part` stands somewhere in a list of characters. -/
def occursIn (part : List Char) : List Char → Bool
  | [] => part.isEmpty
  | c :: rest => part.isPrefixOf (c :: rest) || occursIn part rest

/-- Whether `text` holds the characters of `part` side by side. -/
def contains (text part : String) : Bool :=
  occursIn part.toList text.toList

theorem occursIn_iff_infix {part : List Char} {text : List Char} :
    occursIn part text = true ↔ part <:+: text := by
  induction text with
  | nil => simp [occursIn]
  | cons c rest ih =>
    rw [occursIn, Bool.or_eq_true, ih, List.isPrefixOf_iff_prefix, List.infix_cons_iff]

theorem contains_iff_infix {text part : String} :
    contains text part = true ↔ part.toList <:+: text.toList :=
  occursIn_iff_infix

end DalvikRules.Text
