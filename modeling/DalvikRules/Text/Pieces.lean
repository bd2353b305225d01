/-!
# Pieces of a text

A text, of characters or of bytes, is cut at every occurrence of a separator. There is always one
piece more than there are separators, so the components of a path and the lines of a message keep
their empty ones.
-/

namespace DalvikRules.Text

section

variable {α : Type} [DecidableEq α]

/-- The pieces with one more element in front. -/
def cutBefore (separator a : α) : List (List α) → List (List α)
  | [] => [[a]]
  | piece :: others => if a = separator then [] :: piece :: others else (a :: piece) :: others

/-- The pieces of a text between the occurrences of `separator`. -/
def piecesBetween (separator : α) (text : List α) : List (List α) :=
  text.foldr (cutBefore separator) [[]]

theorem piecesBetween_nil (separator : α) : piecesBetween separator [] = [[]] := rfl

theorem piecesBetween_cons (separator a : α) (rest : List α) :
    piecesBetween separator (a :: rest) = cutBefore separator a (piecesBetween separator rest) :=
  rfl

theorem piecesBetween_ne_nil (separator : α) (text : List α) :
    piecesBetween separator text ≠ [] := by
  cases text with
  | nil => simp [piecesBetween_nil]
  | cons a rest =>
    rw [piecesBetween_cons, cutBefore.eq_def]
    split
    · simp
    · split <;> simp

/-- A text without separators is a piece of its own. -/
theorem piecesBetween_of_notMem {separator : α} {text : List α} (h : separator ∉ text) :
    piecesBetween separator text = [text] := by
  induction text with
  | nil => rfl
  | cons a rest ih =>
    simp only [List.mem_cons, not_or] at h
    rw [piecesBetween_cons, ih h.2, cutBefore, if_neg (Ne.symm h.1)]

/-- A text can be cut at one of its separators first. -/
theorem piecesBetween_append_cons (separator : α) (text after : List α) :
    piecesBetween separator (text ++ separator :: after) =
      piecesBetween separator text ++ piecesBetween separator after := by
  induction text with
  | nil =>
    obtain ⟨piece, others, hpieces⟩ :=
      List.exists_cons_of_ne_nil (piecesBetween_ne_nil separator after)
    rw [List.nil_append, piecesBetween_cons, hpieces, cutBefore, if_pos rfl, piecesBetween_nil,
      List.singleton_append]
  | cons a rest ih =>
    obtain ⟨piece, others, hpieces⟩ :=
      List.exists_cons_of_ne_nil (piecesBetween_ne_nil separator rest)
    rw [List.cons_append, piecesBetween_cons, ih, piecesBetween_cons, hpieces]
    by_cases ha : a = separator <;> simp [cutBefore, ha]

end

/-- The lines of a text. -/
def lines (text : String) : List String :=
  (piecesBetween '\n' text.toList).map String.ofList

end DalvikRules.Text
