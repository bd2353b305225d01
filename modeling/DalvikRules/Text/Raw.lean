/-!
# Raw texts

What a program is called with, the paths it is given and the names of files are bytes. Mostly they
are a text in UTF-8, but nothing makes sure of it. A raw text is shown with a replacement character
in place of every part that is no character, and it is taken for a text only if there is no such
part.
-/

namespace DalvikRules

/-- Bytes that are a text in UTF-8, as a rule. -/
abbrev RawText := List UInt8

namespace RawText

/-- A text in UTF-8. -/
def ofString (text : String) : RawText :=
  text.toList.flatMap String.utf8EncodeChar

/-! ### Reading the characters of a raw text -/

/-- A character of which some bytes were read: their bits, and for every byte that is missing the
range in which it has to lie. -/
structure Unfinished where
  bits : Nat
  owed : List (Nat × Nat)
deriving DecidableEq, Repr

/-- The range of the bytes after the first one of a character. -/
def continuation : Nat × Nat := (0x80, 0xBF)

/-- The character that begins with a byte. The second byte of some has a narrower range: what it
leaves out is written with fewer bytes, is half of a surrogate pair or lies beyond the last code
point. -/
def Unfinished.ofFirst? (byte : UInt8) : Option Unfinished :=
  let n := byte.toNat
  if n < 0x80 then some ⟨n, []⟩
  else if n < 0xC2 then none
  else if n < 0xE0 then some ⟨n - 0xC0, [continuation]⟩
  else if n < 0xF0 then
    let second := if n = 0xE0 then (0xA0, 0xBF) else if n = 0xED then (0x80, 0x9F)
      else continuation
    some ⟨n - 0xE0, [second, continuation]⟩
  else if n < 0xF5 then
    let second := if n = 0xF0 then (0x90, 0xBF) else if n = 0xF4 then (0x80, 0x8F)
      else continuation
    some ⟨n - 0xF0, [second, continuation, continuation]⟩
  else none

/-- A character with one more byte, if that lies in its range. -/
def Unfinished.extend? (unfinished : Unfinished) (byte : UInt8) : Option Unfinished :=
  match unfinished.owed with
  | [] => none
  | (least, greatest) :: owed =>
    if least ≤ byte.toNat ∧ byte.toNat ≤ greatest then
      some ⟨unfinished.bits * 64 + (byte.toNat - 0x80), owed⟩
    else none

/-- The characters of a raw text after an unfinished one. Where bytes belong to no character, there
is `none` for as many of them as could have been the beginning of one. -/
def charactersAfter (unfinished : Option Unfinished) : RawText → List (Option Char)
  | [] => if unfinished.isSome then [none] else []
  | byte :: rest =>
    let longer := unfinished.bind (·.extend? byte)
    (if unfinished.isSome ∧ longer.isNone then [none] else []) ++
      match longer.or (Unfinished.ofFirst? byte) with
      | none => none :: charactersAfter none rest
      | some ⟨bits, []⟩ => some (Char.ofNat bits) :: charactersAfter none rest
      | some next => charactersAfter (some next) rest

/-- A raw text for the eye. -/
def shown (raw : RawText) : String :=
  String.ofList ((charactersAfter none raw).map (·.getD '\uFFFD'))

/-- The text that a raw text is, if none of it is broken. -/
def toString? (raw : RawText) : Option String :=
  ((charactersAfter none raw).mapM id).map String.ofList

/-! ### The bytes of a text -/

/-- The characters of a raw text after a character that may be complete. -/
def charactersFrom (unfinished : Unfinished) (rest : RawText) : List (Option Char) :=
  if unfinished.owed = [] then some (Char.ofNat unfinished.bits) :: charactersAfter none rest
  else charactersAfter (some unfinished) rest

section

variable {n bits : Nat} {owed : List (Nat × Nat)} {rest : RawText}

theorem charactersAfter_of_ofFirst? {begun : Unfinished}
    (h : Unfinished.ofFirst? (UInt8.ofNat n) = some begun) :
    charactersAfter none (UInt8.ofNat n :: rest) = charactersFrom begun rest := by
  obtain ⟨bits, owed⟩ := begun
  rw [charactersAfter, Option.bind_none, Option.none_or, h]
  cases owed <;> rfl

/-- A byte in the range that is owed makes the character longer. -/
theorem charactersFrom_cons {range : Nat × Nat} (hleast : range.1 ≤ n + 0x80)
    (hgreatest : n + 0x80 ≤ range.2) (hn : n < 0x80) :
    charactersFrom ⟨bits, range :: owed⟩ (UInt8.ofNat (n + 0x80) :: rest) =
      charactersFrom ⟨bits * 64 + n, owed⟩ rest := by
  have hbyte : (UInt8.ofNat (n + 0x80)).toNat = n + 0x80 :=
    UInt8.toNat_ofNat_of_lt' (Nat.add_lt_add_right hn 0x80)
  have hextend : Unfinished.extend? ⟨bits, range :: owed⟩ (UInt8.ofNat (n + 0x80)) =
      some ⟨bits * 64 + n, owed⟩ := by
    simp only [Unfinished.extend?, hbyte]
    rw [if_pos ⟨hleast, hgreatest⟩, Nat.add_sub_cancel]
  rw [charactersFrom, if_neg (List.cons_ne_nil _ _), charactersAfter, Option.bind_some, hextend]
  cases owed <;> rfl

theorem charactersFrom_continuation (hn : n < 64) :
    charactersFrom ⟨bits, continuation :: owed⟩ (UInt8.ofNat (n + 0x80) :: rest) =
      charactersFrom ⟨bits * 64 + n, owed⟩ rest :=
  charactersFrom_cons (Nat.le_add_left ..) (Nat.add_le_add_right (Nat.le_pred_of_lt hn) 0x80)
    (by omega)

theorem ofFirst?_of_one (h : n < 0x80) : Unfinished.ofFirst? (UInt8.ofNat n) = some ⟨n, []⟩ := by
  have hbyte : (UInt8.ofNat n).toNat = n := UInt8.toNat_ofNat_of_lt' (show n < 256 by omega)
  rw [Unfinished.ofFirst?, hbyte, if_pos h]

theorem ofFirst?_of_two (hleast : 2 ≤ n) (hgreatest : n < 32) :
    Unfinished.ofFirst? (UInt8.ofNat (n + 192)) = some ⟨n, [continuation]⟩ := by
  have hbyte : (UInt8.ofNat (n + 192)).toNat = n + 192 :=
    UInt8.toNat_ofNat_of_lt' (show n + 192 < 256 by omega)
  simp (disch := omega) only [Unfinished.ofFirst?, hbyte, if_neg, if_pos, Nat.add_sub_cancel]

/-- The second of three bytes: its range leaves out what two bytes hold, and surrogates. -/
theorem exists_ofFirst?_of_three (hn : n < 16) {second : Nat} (hsecond : second < 64)
    (hleast : 2048 ≤ (n * 64 + second) * 64)
    (hvalid : n * 64 + second < 0x360 ∨ 0x380 ≤ n * 64 + second) :
    ∃ range, Unfinished.ofFirst? (UInt8.ofNat (n + 224)) = some ⟨n, [range, continuation]⟩ ∧
      range.1 ≤ second + 0x80 ∧ second + 0x80 ≤ range.2 := by
  have hbyte : (UInt8.ofNat (n + 224)).toNat = n + 224 :=
    UInt8.toNat_ofNat_of_lt' (show n + 224 < 256 by omega)
  simp (disch := omega) only [Unfinished.ofFirst?, hbyte, if_neg, if_pos, Nat.add_sub_cancel]
  refine ⟨_, rfl, ?_⟩
  split
  · exact ⟨by omega, by omega⟩
  split
  · exact ⟨by omega, by omega⟩
  · exact ⟨Nat.le_add_left .., Nat.add_le_add_right (Nat.le_pred_of_lt hsecond) 0x80⟩

/-- The second of four bytes: its range leaves out what three bytes hold, and what lies beyond the
last code point. -/
theorem exists_ofFirst?_of_four (hn : n < 5) {second : Nat} (hsecond : second < 64)
    (hleast : 16 ≤ n * 64 + second) (hgreatest : n * 64 + second < 272) :
    ∃ range, Unfinished.ofFirst? (UInt8.ofNat (n + 240)) =
        some ⟨n, [range, continuation, continuation]⟩ ∧
      range.1 ≤ second + 0x80 ∧ second + 0x80 ≤ range.2 := by
  have hbyte : (UInt8.ofNat (n + 240)).toNat = n + 240 :=
    UInt8.toNat_ofNat_of_lt' (show n + 240 < 256 by omega)
  simp (disch := omega) only [Unfinished.ofFirst?, hbyte, if_neg, if_pos, Nat.add_sub_cancel]
  refine ⟨_, rfl, ?_⟩
  split
  · exact ⟨by omega, by omega⟩
  split
  · exact ⟨by omega, by omega⟩
  · exact ⟨Nat.le_add_left .., Nat.add_le_add_right (Nat.le_pred_of_lt hsecond) 0x80⟩

end

/-- The bytes of a character are read as that character. -/
theorem charactersAfter_utf8EncodeChar (c : Char) (rest : RawText) :
    charactersAfter none (String.utf8EncodeChar c ++ rest) =
      some c :: charactersAfter none rest := by
  have hvalid : c.val.toNat < 0xD800 ∨ 0xDFFF < c.val.toNat ∧ c.val.toNat < 0x110000 := c.valid
  have hshown : ∀ bits, bits = c.val.toNat →
      charactersFrom ⟨bits, []⟩ rest = some c :: charactersAfter none rest := by
    rintro _ rfl
    rw [charactersFrom, if_pos rfl, show Char.ofNat c.val.toNat = c from Char.ofNat_toNat c]
  rw [String.utf8EncodeChar]
  generalize c.val.toNat = v at hvalid hshown ⊢
  split
  next hone =>
    rw [List.singleton_append, charactersAfter_of_ofFirst? (ofFirst?_of_one (by omega))]
    exact hshown v rfl
  split
  next htwo =>
    rw [List.cons_append, List.singleton_append,
      charactersAfter_of_ofFirst? (ofFirst?_of_two (by omega) (by omega)),
      charactersFrom_continuation (by omega)]
    exact hshown _ (by omega)
  split
  next hthree =>
    obtain ⟨range, hfirst, hleast, hgreatest⟩ :=
      exists_ofFirst?_of_three (show v / 4096 % 16 < 16 by omega)
        (show v / 64 % 64 < 64 by omega) (by omega) (by omega)
    simp only [List.cons_append, List.nil_append]
    rw [charactersAfter_of_ofFirst? hfirst, charactersFrom_cons hleast hgreatest (by omega),
      charactersFrom_continuation (by omega)]
    exact hshown _ (by omega)
  next hfour =>
    obtain ⟨range, hfirst, hleast, hgreatest⟩ :=
      exists_ofFirst?_of_four (show v / 262144 % 8 < 5 by omega)
        (show v / 4096 % 64 < 64 by omega) (by omega) (by omega)
    simp only [List.cons_append, List.nil_append]
    rw [charactersAfter_of_ofFirst? hfirst, charactersFrom_cons hleast hgreatest (by omega),
      charactersFrom_continuation (by omega), charactersFrom_continuation (by omega)]
    exact hshown _ (by omega)

/-- The bytes of a text are read as that text. -/
theorem toString?_ofString (text : String) : (ofString text).toString? = some text := by
  have hread : ∀ characters : List Char,
      charactersAfter none (characters.flatMap String.utf8EncodeChar) = characters.map some := by
    intro characters
    induction characters with
    | nil => rfl
    | cons c rest ih => rw [List.flatMap_cons, charactersAfter_utf8EncodeChar, ih, List.map_cons]
  have hwhole : (text.toList.map some).mapM id = some text.toList := by
    induction text.toList with
    | nil => rfl
    | cons c rest ih => rw [List.map_cons, List.mapM_cons, ih]; rfl
  rw [toString?, ofString, hread, hwhole, Option.map_some, String.ofList_toList]

end RawText

end DalvikRules
