import PlcWorkbench.Proofs.Text.Blank
import PlcWorkbench.Text.Numeral

/-!
# The numerals that are read

A decimal numeral is an optional plus sign and one or more digits, any number of which may be zeros
in front. Reading it gives its value, or fails if that is too large for a word: the value so far
only grows from digit to digit, so it is found too large before it could wrap around.

* `IsNumeral` : the numerals with their values;
* `extend_eq_ok_iff` : the digits of a numeral, after others;
* `readSigned_eq_ok_iff` : numerals that are read;
* `Denotes`, `readSigned_trim_eq_ok_iff` : the same between blank characters.
-/

namespace PlcWorkbench.Text.Numeral

variable {characters digits : List Char} {text : String} {value n n' : Nat}

/-- The characters are a decimal numeral for `n`. -/
def IsNumeral (characters : List Char) (n : Nat) : Prop :=
  ∃ digits, (characters = digits ∨ characters = '+' :: digits) ∧ digits ≠ []
    ∧ (∀ c ∈ digits, c.isDigit = true)
    ∧ Nat.ofDigitChars 10 digits 0 = n

/-! ## Digits -/

/-- The decimal digits are those of ASCII. -/
theorem digitValue?_ten (c : Char) :
    digitValue? 10 c = if c.isDigit then some (c.toNat - '0'.toNat) else none := by
  have digit : c.isDigit = true ↔ '0' ≤ c ∧ c ≤ '9' := by
    rw [Char.isDigit_iff_toNat]
    exact Iff.rfl
  rw [digitValue?]
  by_cases hdigit : c.isDigit = true
  · have range := Char.isDigit_iff_toNat.1 hdigit
    have small : c.toNat - '0'.toNat < 10 := by
      simp only [Char.reduceToNat] at range ⊢
      omega
    simp only [if_pos (digit.1 hdigit), if_pos small, if_pos hdigit]
  · simp only [if_neg (mt digit.2 hdigit), if_neg hdigit]
    rw [if_neg]
    split
    · omega
    · split
      · omega
      · omega

/-- Further digits do not make a value smaller. -/
theorem le_ofDigitChars (digits : List Char) (value : Nat) :
    value ≤ Nat.ofDigitChars 10 digits value := by
  induction digits generalizing value with
  | nil => exact Nat.le_refl value
  | cons c rest ih =>
    rw [Nat.ofDigitChars_cons]
    have first := ih (10 * value + (c.toNat - '0'.toNat))
    omega

/-- **Digits continue a numeral** to their value, if that fits into a word. -/
theorem extend_eq_ok_iff (hvalue : value < wordLimit) :
    extend 10 value digits = .ok n
      ↔ (∀ c ∈ digits, c.isDigit = true) ∧ Nat.ofDigitChars 10 digits value = n
          ∧ n < wordLimit := by
  induction digits generalizing value with
  | nil =>
    rw [extend, Except.ok.injEq]
    constructor
    · rintro rfl
      exact ⟨List.forall_mem_nil _, rfl, hvalue⟩
    · rintro ⟨-, rfl, -⟩
      rfl
  | cons c rest ih =>
    rw [extend, digitValue?_ten, List.forall_mem_cons, Nat.ofDigitChars_cons, Nat.mul_comm 10 value]
    by_cases hdigit : c.isDigit = true
    · simp only [if_pos hdigit]
      rw [and_iff_right hdigit]
      by_cases hfits : value * 10 + (c.toNat - '0'.toNat) < wordLimit
      · rw [if_pos hfits, ih hfits]
      · -- what is too large here stays too large
        rw [if_neg hfits]
        have grows := le_ofDigitChars rest (value * 10 + (c.toNat - '0'.toNat))
        refine iff_of_false (fun h => by cases h) ?_
        rintro ⟨-, rfl, hsmall⟩
        omega
    · simp only [if_neg hdigit]
      exact iff_of_false (fun h => by cases h) fun h => hdigit h.1.1

/-- A run of digits is read to its value, if there is any and the value fits into a word. -/
theorem read_eq_ok_iff :
    read 10 digits = .ok n
      ↔ digits ≠ [] ∧ (∀ c ∈ digits, c.isDigit = true) ∧ Nat.ofDigitChars 10 digits 0 = n
          ∧ n < wordLimit := by
  cases digits with
  | nil => exact iff_of_false (fun h => by cases h) fun h => h.1 rfl
  | cons c rest =>
    rw [read, extend_eq_ok_iff (by decide)]
    · exact (and_iff_right (List.cons_ne_nil c rest)).symm
    · exact List.cons_ne_nil c rest

/-! ## Signs -/

/-- A sign is no digit. -/
theorem isDigit_plus : '+'.isDigit = false := by decide

/-- Without a sign, a numeral is its digits. -/
theorem isNumeral_iff_of_ne (h : characters.head? ≠ some '+') :
    IsNumeral characters n
      ↔ characters ≠ [] ∧ (∀ c ∈ characters, c.isDigit = true)
          ∧ Nat.ofDigitChars 10 characters 0 = n := by
  constructor
  · rintro ⟨digits, rfl | rfl, hdigits⟩
    · exact hdigits
    · exact absurd rfl h
  · intro hdigits
    exact ⟨characters, .inl rfl, hdigits⟩

/-- After a sign, a numeral is the digits that follow. -/
theorem isNumeral_plus_iff :
    IsNumeral ('+' :: digits) n
      ↔ digits ≠ [] ∧ (∀ c ∈ digits, c.isDigit = true) ∧ Nat.ofDigitChars 10 digits 0 = n := by
  constructor
  · rintro ⟨others, hsign | hsign, hothers⟩
    · -- no digit is a sign
      have plus : '+'.isDigit = true := hothers.2.1 '+' (hsign ▸ List.mem_cons_self)
      rw [isDigit_plus] at plus
      cases plus
    · obtain rfl := (List.cons.inj hsign).2
      exact hothers
  · intro hdigits
    exact ⟨digits, .inr rfl, hdigits⟩

/-- A numeral has one value. -/
theorem IsNumeral.unique (h : IsNumeral characters n) (h' : IsNumeral characters n') : n = n' := by
  by_cases hsign : characters.head? = some '+'
  · obtain ⟨digits, rfl⟩ := List.head?_eq_some_iff.1 hsign
    exact (isNumeral_plus_iff.1 h).2.2.symm.trans (isNumeral_plus_iff.1 h').2.2
  · exact ((isNumeral_iff_of_ne hsign).1 h).2.2.symm.trans ((isNumeral_iff_of_ne hsign).1 h').2.2

/-- **What is read is a numeral** whose value fits into a word, and every such numeral is read. -/
theorem readSigned_eq_ok_iff :
    readSigned characters = .ok n ↔ IsNumeral characters n ∧ n < wordLimit := by
  unfold readSigned
  split
  · -- a sign alone
    rw [isNumeral_plus_iff]
    exact iff_of_false (fun h => by cases h) fun h => h.1.1 rfl
  · rw [read_eq_ok_iff, isNumeral_plus_iff, and_assoc, and_assoc]
  · rename_i hdigits
    have unsigned : characters.head? ≠ some '+' := by
      intro hsign
      obtain ⟨digits, rfl⟩ := List.head?_eq_some_iff.1 hsign
      exact hdigits digits rfl
    rw [read_eq_ok_iff, isNumeral_iff_of_ne unsigned, and_assoc, and_assoc]

/-! ## Blank characters at the ends -/

/-- The text is a decimal numeral for `n` with nothing but blank characters around it. -/
def Denotes (text : String) (n : Nat) : Prop :=
  ∃ numeral, IsPadded text numeral ∧ IsNumeral numeral n

/-- A digit is not blank. -/
theorem isBlank_of_isDigit {c : Char} (h : c.isDigit = true) : isBlank c = false := by
  have range := Char.isDigit_iff_toNat.1 h
  simp only [Char.reduceToNat] at range
  exact isBlank_of_visible (by omega) (by omega)

/-- A numeral begins with a sign or a digit and ends with a digit, none of which is blank. -/
theorem IsNumeral.hasFirmEnds (h : IsNumeral characters n) : HasFirmEnds characters := by
  obtain ⟨digits, hsign, hne, hdigits, -⟩ := h
  constructor
  · intro c hc
    rcases hsign with rfl | rfl
    · exact isBlank_of_isDigit (hdigits c (List.mem_of_head? hc))
    · obtain rfl : '+' = c := Option.some.inj hc
      decide
  · intro c hc
    rcases hsign with rfl | rfl
    · exact isBlank_of_isDigit (hdigits c (List.mem_of_getLast? hc))
    · rw [List.getLast?_cons_of_ne_nil hne] at hc
      exact isBlank_of_isDigit (hdigits c (List.mem_of_getLast? hc))

/-- Trimming leaves the numeral of a text that has one. -/
theorem denotes_iff_trim : Denotes text n ↔ IsNumeral (trim text).toList n := by
  constructor
  · rintro ⟨numeral, hpadded, hnumeral⟩
    rw [trim_of_isPadded hpadded hnumeral.hasFirmEnds, String.toList_ofList]
    exact hnumeral
  · intro hnumeral
    exact ⟨_, isPadded_trim text, hnumeral⟩

/-- A text denotes one value. -/
theorem Denotes.unique (h : Denotes text n) (h' : Denotes text n') : n = n' :=
  (denotes_iff_trim.1 h).unique (denotes_iff_trim.1 h')

/-- **What is read from a trimmed text** is what the text denotes, if that fits into a word. -/
theorem readSigned_trim_eq_ok_iff :
    readSigned (trim text).toList = .ok n ↔ Denotes text n ∧ n < wordLimit := by
  rw [readSigned_eq_ok_iff, denotes_iff_trim]

example :
    readSigned (trim "\t+0000000008 ").toList = .ok 8
      ∧ readSigned "4294967304".toList = .error .tooLarge := by
  decide

end PlcWorkbench.Text.Numeral
