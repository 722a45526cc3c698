import Mathlib.Data.List.Basic

/-!
# The byte order of texts

A text is stored as the bytes of its characters, one to four for each. The character with the
greater number has the greater bytes, and it is found greater within them, so whatever follows does
not matter. Hence texts are ordered by their bytes as they are ordered by their characters.

* `append_lt_append` : the bytes of characters;
* `bytes_lt_iff` : the bytes of texts.
-/

namespace PlcWorkbench.Text

open String (utf8EncodeChar)

/-- The bytes in which a text is stored. -/
def bytes (text : String) : List UInt8 :=
  text.toUTF8.data.toList

/-- The bytes of a text are those of its characters. -/
theorem bytes_eq (text : String) : bytes text = text.toList.flatMap utf8EncodeChar := by
  have stored : text.toUTF8 = text.toList.utf8Encode := by simp [String.toUTF8]
  rw [bytes, stored, List.utf8Encode]
  simp [List.data_toByteArray]

/-- The number of a character has twenty-one bits. -/
theorem toNat_val_lt (c : Char) : c.val.toNat < 0x110000 := by
  have hvalid := c.valid
  simp only [UInt32.isValidChar, Nat.isValidChar] at hvalid
  omega

/-- The bytes of the greater character are greater, whatever follows either. -/
theorem append_lt_append {c d : Char} (h : c < d) (after after' : List UInt8) :
    utf8EncodeChar c ++ after < utf8EncodeChar d ++ after' := by
  have hval : c.val.toNat < d.val.toNat := UInt32.lt_iff_toNat_lt.1 h
  have hbound : d.val.toNat < 0x110000 := toNat_val_lt d
  unfold utf8EncodeChar
  simp only
  -- either the first bytes differ as the lengths do, or the numbers are compared digit by digit
  split_ifs <;>
    simp only [List.cons_append, List.nil_append, List.cons_lt_cons_iff, UInt8.lt_iff_toNat_lt,
      UInt8.toNat_ofNat', ← UInt8.toNat_inj] <;>
    simp (disch := omega) only [Nat.mod_eq_of_lt] <;>
    omega

/-- Where characters are ascending, so are the bytes. -/
theorem flatMap_lt_flatMap {characters characters' : List Char} (h : characters < characters') :
    characters.flatMap utf8EncodeChar < characters'.flatMap utf8EncodeChar := by
  induction characters generalizing characters' with
  | nil =>
    cases characters' with
    | nil => exact absurd h (List.lt_irrefl [])
    | cons d rest =>
      obtain ⟨first, others, hbytes⟩ :=
        List.exists_cons_of_ne_nil (String.utf8EncodeChar_ne_nil (c := d))
      rw [List.flatMap_nil, List.flatMap_cons, hbytes]
      exact List.nil_lt_cons _ _
  | cons c rest ih =>
    cases characters' with
    | nil => exact absurd h (List.not_lt_nil _)
    | cons d rest' =>
      rw [List.flatMap_cons, List.flatMap_cons]
      rcases List.cons_lt_cons_iff.1 h with hless | ⟨rfl, hrest⟩
      · exact append_lt_append hless _ _
      · exact List.append_left_lt (ih hrest)

/-- **Texts are ordered by their bytes** as they are ordered by their characters. -/
theorem bytes_lt_iff {text text' : String} : bytes text < bytes text' ↔ text < text' := by
  rw [bytes_eq, bytes_eq]
  show _ ↔ text.toList < text'.toList
  constructor
  · intro hbytes
    by_contra hnot
    have hle : text' ≤ text := String.not_lt.1 hnot
    by_cases heq : text' = text
    · rw [heq] at hbytes
      exact List.lt_irrefl _ hbytes
    · have hgreater : text' < text := Std.lt_of_le_of_ne hle heq
      exact List.lt_asymm hbytes (flatMap_lt_flatMap hgreater)
  · exact flatMap_lt_flatMap

end PlcWorkbench.Text
