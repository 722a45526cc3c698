import PlcWorkbench.Text.Blank
import Mathlib.Data.List.DropRight

/-!
# What trimming leaves

Trimming takes a text apart into blank characters, a middle that neither begins nor ends with one,
and blank characters again. There is one way to do so, which is what `trim` finds.

* `IsPadded` : blank characters around a middle;
* `HasFirmEnds` : a middle that cannot be trimmed further;
* `trim_eq_iff` : the trimmed text by these two.
-/

namespace PlcWorkbench.Text

variable {text trimmed : String} {characters before after : List Char}

/-- The text consists of these characters with nothing but blank ones around them. -/
def IsPadded (text : String) (characters : List Char) : Prop :=
  ∃ before after, text.toList = before ++ characters ++ after
    ∧ (∀ c ∈ before, isBlank c = true) ∧ ∀ c ∈ after, isBlank c = true

/-- Neither the first character nor the last one is blank. -/
def HasFirmEnds (characters : List Char) : Prop :=
  (∀ c, characters.head? = some c → isBlank c = false) ∧ ∀ c, characters.getLast? = some c →
    isBlank c = false

/-- The visible characters of ASCII are not blank. -/
theorem isBlank_of_visible {c : Char} (h : 33 ≤ c.toNat) (h' : c.toNat ≤ 126) :
    isBlank c = false := by
  simp only [isBlank, Bool.or_eq_false_iff, Bool.and_eq_false_iff, decide_eq_false_iff_not,
    beq_eq_false_iff_ne]
  omega

/-- What is dropped from the end meets the condition. -/
theorem exists_dropEndWhile (p : Char → Bool) (characters : List Char) :
    ∃ after, characters = dropEndWhile p characters ++ after ∧ ∀ c ∈ after, p c = true := by
  refine ⟨(characters.reverse.takeWhile p).reverse, ?_, ?_⟩
  · rw [dropEndWhile, ← List.reverse_append, List.takeWhile_append_dropWhile, List.reverse_reverse]
  · intro c hc
    exact List.mem_takeWhile_imp (List.mem_reverse.1 hc)

/-- What is left does not end with a character that meets the condition. -/
theorem getLast?_dropEndWhile (p : Char → Bool) (characters : List Char) {c : Char}
    (h : (dropEndWhile p characters).getLast? = some c) : p c = false := by
  have first := List.head?_dropWhile_not p characters.reverse
  rw [dropEndWhile, List.getLast?_reverse] at h
  rw [h] at first
  exact first

/-- What is trimmed off is blank. -/
theorem isPadded_trim (text : String) : IsPadded text (trim text).toList := by
  obtain ⟨after, hafter, hblank⟩ := exists_dropEndWhile isBlank (text.toList.dropWhile isBlank)
  refine ⟨text.toList.takeWhile isBlank, after, ?_, fun c => List.mem_takeWhile_imp, hblank⟩
  rw [trim, String.toList_ofList, List.append_assoc, ← hafter, List.takeWhile_append_dropWhile]

/-- What is left has no blank ends. -/
theorem hasFirmEnds_trim (text : String) : HasFirmEnds (trim text).toList := by
  rw [trim, String.toList_ofList]
  constructor
  · intro c hc
    -- the front is trimmed first, and what is dropped from the end afterwards leaves a prefix of
    -- the rest
    obtain ⟨rest, hrest, -⟩ := exists_dropEndWhile isBlank (text.toList.dropWhile isBlank)
    have first := List.head?_dropWhile_not isBlank text.toList
    rw [hrest, List.head?_append, hc] at first
    exact first
  · intro c hc
    exact getLast?_dropEndWhile isBlank _ hc

/-- What stands between blank characters and has no blank ends is what trimming leaves. -/
theorem trim_of_isPadded (h : IsPadded text characters) (hends : HasFirmEnds characters) :
    trim text = String.ofList characters := by
  obtain ⟨before, after, htext, hbefore, hafter⟩ := h
  have back : ∀ c ∈ after.reverse, isBlank c = true := fun c hc => hafter c (List.mem_reverse.1 hc)
  rw [trim, String.ofList_inj, htext, List.append_assoc, List.dropWhile_append_of_pos hbefore]
  cases characters with
  | nil =>
    -- all of the text is blank
    rw [List.nil_append, List.dropWhile_eq_nil_iff.2 hafter]
    rfl
  | cons c rest =>
    have front : (c :: rest ++ after).dropWhile isBlank = c :: rest ++ after :=
      List.dropWhile_cons_of_neg (Bool.eq_false_iff.1 (hends.1 c rfl))
    have kept : (c :: rest).rdropWhile isBlank = c :: rest := by
      refine List.rdropWhile_eq_self_iff.2 fun hne => Bool.eq_false_iff.1 ?_
      exact hends.2 _ (List.getLast?_eq_some_getLast hne)
    calc dropEndWhile isBlank ((c :: rest ++ after).dropWhile isBlank)
        = ((after.reverse ++ (c :: rest).reverse).dropWhile isBlank).reverse := by
          rw [front, dropEndWhile, List.reverse_append]
      _ = (c :: rest).rdropWhile isBlank := by
        rw [List.dropWhile_append_of_pos back, List.rdropWhile]
      _ = c :: rest := kept

/-- **The trimmed text** is the one that the text has between blank characters and that has no blank
ends itself. -/
theorem trim_eq_iff :
    trim text = trimmed ↔ IsPadded text trimmed.toList ∧ HasFirmEnds trimmed.toList := by
  constructor
  · rintro rfl
    exact ⟨isPadded_trim text, hasFirmEnds_trim text⟩
  · rintro ⟨hpadded, hends⟩
    rw [trim_of_isPadded hpadded hends, String.ofList_toList]

/-- Blank characters around a text are trimmed off with its own. -/
theorem trim_append {front back : String} (hfront : ∀ c ∈ front.toList, isBlank c = true)
    (hback : ∀ c ∈ back.toList, isBlank c = true) (text : String) :
    trim (front ++ text ++ back) = trim text := by
  obtain ⟨before, after, htext, hbefore, hafter⟩ := isPadded_trim text
  refine trim_eq_iff.2 ⟨⟨front.toList ++ before, after ++ back.toList, ?_, ?_, ?_⟩,
    hasFirmEnds_trim text⟩
  · rw [String.toList_append, String.toList_append, htext]
    simp only [List.append_assoc]
  · exact List.forall_mem_append.2 ⟨hfront, hbefore⟩
  · exact List.forall_mem_append.2 ⟨hafter, hback⟩

example : trim " \t+08\u3000\n" = "+08" := by decide

end PlcWorkbench.Text
