import PlcWorkbench.Proofs.Path
import PlcWorkbench.Proofs.Text.Blank
import PlcWorkbench.ScanMode
import Mathlib.Data.List.Forall2

/-!
# How scan modes are recognized

A name is classified by its last segment, which is the one text that the name consists of, or ends
with after a separator, and that holds no separator itself. So there is one token at most for a name
to carry, and it does not matter how the recognized ones are listed.

A property value is read without a look at blank ends and at the case of its letters. What is alike
up to case is told by character, and comes to the same text in lower case.

* `carries_iff` : the last segment by what a name ends with;
* `classify_exact` : what a name is classified as;
* `Text.alikeUpToCase_iff` : texts that are alike up to case;
* `ScanMode.parse_isLenient` : which values are read, and as which mode.
-/

namespace PlcWorkbench

/-! ## Classification -/

/-- The name carries this token: it is the token, or ends with the separator and the token, which
holds no separator. -/
structure Carries (name : String) (separator : Char) (token : String) : Prop where
  no_separator : separator ∉ token.toList
  ends : name = token ∨ separator :: token.toList <:+ name.toList

variable {name token token' fallback : String} {separator : Char} {recognized : List String}

/-- **A name carries its last segment** and no other token. -/
theorem carries_iff :
    Carries name separator token ↔ token.toList = Text.lastSegment separator name.toList := by
  constructor
  · rintro ⟨hno, rfl | ⟨before, hname⟩⟩
    · exact (Text.lastSegment_of_not_mem hno).symm
    · rw [← hname, Text.lastSegment_append hno]
  · intro htoken
    have hno : separator ∉ token.toList := htoken ▸ Text.not_mem_lastSegment separator name.toList
    refine ⟨hno, ?_⟩
    by_cases hseparator : separator ∈ name.toList
    · obtain ⟨before, after, hname, hafter⟩ := Text.exists_lastSegment hseparator
      rw [hname, Text.lastSegment_append hafter] at htoken
      exact .inr ⟨before, by rw [htoken, hname]⟩
    · rw [Text.lastSegment_of_not_mem hseparator] at htoken
      exact .inl (String.toList_inj.1 htoken.symm)

instance : Decidable (Carries name separator token) :=
  decidable_of_iff (token.toList = Text.lastSegment separator name.toList) carries_iff.symm

/-- A name carries one token at most. -/
theorem Carries.unique (h : Carries name separator token) (h' : Carries name separator token') :
    token = token' :=
  String.toList_inj.1 ((carries_iff.1 h).trans (carries_iff.1 h').symm)

/-- A name is classified as the token that it carries, if that is recognized. -/
theorem classify_of_carries (h : Carries name separator token) (hmem : token ∈ recognized) :
    classify name separator recognized fallback = token := by
  have segment : String.ofList (Text.lastSegment separator name.toList) = token := by
    rw [← carries_iff.1 h, String.ofList_toList]
  have found : (recognized.find? (· == token)).isSome = true :=
    List.find?_isSome.2 ⟨token, hmem, beq_self_eq_true token⟩
  obtain ⟨token', htoken'⟩ := Option.isSome_iff_exists.1 found
  rw [classify, segment, htoken', Option.getD_some]
  exact beq_iff_eq.1 (List.find?_some (p := (· == token)) htoken')

/-- A name that carries no recognized token is classified as the fallback. -/
theorem classify_of_not_carries (h : ∀ token ∈ recognized, ¬ Carries name separator token) :
    classify name separator recognized fallback = fallback := by
  have missing :
      recognized.find? (· == String.ofList (Text.lastSegment separator name.toList)) = none := by
    rw [List.find?_eq_none]
    intro token hmem hsegment
    refine h token hmem (carries_iff.2 ?_)
    rw [beq_iff_eq.1 hsegment, String.toList_ofList]
  rw [classify, missing, Option.getD_none]

/-- **Classification by the end of a name.** A name is classified as the recognized token that it
carries, and as the fallback if there is none. There is one at most; so the order and repetition of
the recognized tokens do not matter, nor do those that hold a separator, and one of these is the
answer only if it is the fallback. -/
theorem classify_exact (name : String) (separator : Char) (recognized : List String)
    (fallback : String) :
    (∀ token ∈ recognized, Carries name separator token →
        classify name separator recognized fallback = token)
      ∧ ((∀ token ∈ recognized, ¬ Carries name separator token) →
          classify name separator recognized fallback = fallback)
      ∧ (∀ token token', Carries name separator token → Carries name separator token' →
          token = token')
      ∧ (∀ listed, (∀ token, separator ∉ token.toList → (token ∈ listed ↔ token ∈ recognized)) →
          classify name separator listed fallback = classify name separator recognized fallback)
      ∧ ∀ token, separator ∈ token.toList → classify name separator recognized fallback = token →
          token = fallback := by
  refine ⟨fun token hmem h => classify_of_carries h hmem, classify_of_not_carries,
    fun token token' => Carries.unique, ?_, ?_⟩
  · intro listed hlisted
    by_cases h : ∃ token ∈ recognized, Carries name separator token
    · obtain ⟨token, hmem, hcarries⟩ := h
      have other : token ∈ listed := (hlisted token hcarries.no_separator).2 hmem
      rw [classify_of_carries hcarries hmem, classify_of_carries hcarries other]
    · push Not at h
      have others : ∀ token ∈ listed, ¬ Carries name separator token := by
        intro token hmem hcarries
        exact h token ((hlisted token hcarries.no_separator).1 hmem) hcarries
      rw [classify_of_not_carries h, classify_of_not_carries others]
  · intro token hseparator hclassify
    by_cases h : ∃ token ∈ recognized, Carries name separator token
    · obtain ⟨carried, hmem, hcarries⟩ := h
      rw [classify_of_carries hcarries hmem] at hclassify
      exact absurd hseparator (hclassify ▸ hcarries.no_separator)
    · push Not at h
      exact hclassify.symm.trans (classify_of_not_carries h)

/-- A name that ends with a separator carries the empty token, whatever else is recognized; a token
that holds the separator is not carried, but may be the fallback. -/
theorem classify_exact_dotted :
    Carries "x.y." '.' ""
      ∧ classify "x.y." '.' ["y.", "x.y.", "", "y"] "z" = ""
      ∧ classify "x.y." '.' ["", "y", ""] "z" = classify "x.y." '.' ["y.", "x.y.", "", "y"] "z"
      ∧ (∀ token ∈ ["y.b", "y"], ¬ Carries "x.y.b" '.' token)
      ∧ classify "x.y.b" '.' ["y.b", "y"] "y.b" = "y.b" := by
  have empty : Carries "x.y." '.' "" := by decide
  have other : ∀ token ∈ ["y.b", "y"], ¬ Carries "x.y.b" '.' token := by decide
  have same :
      ∀ token, '.' ∉ token.toList → (token ∈ ["", "y", ""] ↔ token ∈ ["y.", "x.y.", "", "y"]) := by
    intro token hno
    have first : token ≠ "y." := by
      rintro rfl
      exact hno (by decide)
    have second : token ≠ "x.y." := by
      rintro rfl
      exact hno (by decide)
    simp only [List.mem_cons, List.not_mem_nil, or_false, first, second, false_or]
    tauto
  exact ⟨empty, (classify_exact _ _ _ _).1 "" (by decide) empty,
    (classify_exact _ _ _ _).2.2.2.1 _ same, other, (classify_exact _ _ _ _).2.1 other⟩

/-! ## Letter case -/

namespace Text

/-- The same character, or the same letter of ASCII in the other case. -/
def SameLetter (c d : Char) : Prop :=
  c = d ∨ ('A' ≤ c ∧ c ≤ 'Z' ∧ d.toNat = c.toNat + 32)
    ∨ ('A' ≤ d ∧ d ≤ 'Z' ∧ c.toNat = d.toNat + 32)

/-- Texts of one length with the same letters at each place, in whatever case. -/
def AlikeUpToCase (text other : String) : Prop := List.Forall₂ SameLetter text.toList other.toList

/-- Only letters of upper case have another lower case. -/
theorem toLower_of_not_upper {c : Char} (h : ¬ ('A' ≤ c ∧ c ≤ 'Z')) : c.toLower = c := dif_neg h

/-- The lower case of a letter is thirty-two further on. -/
theorem toNat_toLower {c : Char} (h : 'A' ≤ c ∧ c ≤ 'Z') : c.toLower.toNat = c.toNat + 32 := by
  have lower : c.toLower.val = c.val + ('a'.val - 'A'.val) := congrArg Char.val (dif_pos h)
  have offset : ('a'.val - 'A'.val).toNat = 32 := by decide
  have upper : c.val.toNat ≤ 90 := h.2
  show c.toLower.val.toNat = c.val.toNat + 32
  rw [lower, UInt32.toNat_add, offset]
  omega

/-- The range of letters of upper case in numbers. -/
theorem isUpper_iff_toNat {c : Char} : 'A' ≤ c ∧ c ≤ 'Z' ↔ 65 ≤ c.toNat ∧ c.toNat ≤ 90 := Iff.rfl

/-- Letters are the same in whatever case if their lower cases are. -/
theorem sameLetter_iff {c d : Char} : SameLetter c d ↔ c.toLower = d.toLower := by
  rw [SameLetter, ← and_assoc, ← and_assoc, ← Char.toNat_inj, ← Char.toNat_inj (c := c.toLower)]
  by_cases hc : 'A' ≤ c ∧ c ≤ 'Z'
  · have lower := toNat_toLower hc
    rw [isUpper_iff_toNat] at hc
    by_cases hd : 'A' ≤ d ∧ d ≤ 'Z'
    · rw [lower, toNat_toLower hd, isUpper_iff_toNat, isUpper_iff_toNat]
      rw [isUpper_iff_toNat] at hd
      omega
    · rw [lower, toLower_of_not_upper hd, isUpper_iff_toNat, isUpper_iff_toNat]
      rw [isUpper_iff_toNat] at hd
      omega
  · rw [toLower_of_not_upper hc, isUpper_iff_toNat, isUpper_iff_toNat]
    rw [isUpper_iff_toNat] at hc
    by_cases hd : 'A' ≤ d ∧ d ≤ 'Z'
    · rw [toNat_toLower hd]
      rw [isUpper_iff_toNat] at hd
      omega
    · rw [toLower_of_not_upper hd]
      rw [isUpper_iff_toNat] at hd
      omega

/-- **Texts are alike up to case** if they are the same in lower case. -/
theorem alikeUpToCase_iff {text other : String} :
    AlikeUpToCase text other ↔ text.toList.map Char.toLower = other.toList.map Char.toLower := by
  have same : SameLetter = fun c d => c.toLower = d.toLower :=
    funext₂ fun c d => propext sameLetter_iff
  calc AlikeUpToCase text other
      ↔ List.Forall₂ (fun c d => c.toLower = d.toLower) text.toList other.toList := by
        rw [AlikeUpToCase, same]
    _ ↔ List.Forall₂ (· = ·) (text.toList.map Char.toLower) (other.toList.map Char.toLower) := by
      rw [List.forall₂_map_left_iff, List.forall₂_map_right_iff]
    _ ↔ text.toList.map Char.toLower = other.toList.map Char.toLower := by
      rw [List.forall₂_eq_eq_eq]

instance (text other : String) : Decidable (AlikeUpToCase text other) :=
  decidable_of_iff _ alikeUpToCase_iff.symm

/-- A character is blank or not in either case. -/
theorem isBlank_toLower (c : Char) : isBlank c.toLower = isBlank c := by
  by_cases h : 'A' ≤ c ∧ c ≤ 'Z'
  · have lower := toNat_toLower h
    rw [isUpper_iff_toNat] at h
    rw [isBlank_of_visible (c := c) (by omega) (by omega), isBlank_of_visible (by omega) (by omega)]
  · rw [toLower_of_not_upper h]

/-- Trimming and putting letters into lower case commute. -/
theorem map_toLower_trim (text : String) :
    (trim text).toList.map Char.toLower
      = dropEndWhile isBlank ((text.toList.map Char.toLower).dropWhile isBlank) := by
  have same : isBlank ∘ Char.toLower = isBlank := funext isBlank_toLower
  rw [trim, String.toList_ofList, dropEndWhile, dropEndWhile, List.dropWhile_map, same,
    ← List.map_reverse, List.dropWhile_map, same, List.map_reverse]

/-- What is alike up to case is so when it is trimmed. -/
theorem AlikeUpToCase.trim {text other : String} (h : AlikeUpToCase text other) :
    AlikeUpToCase (trim text) (trim other) := by
  rw [alikeUpToCase_iff] at h ⊢
  rw [map_toLower_trim, map_toLower_trim, h]

end Text

/-! ## Property values -/

namespace ScanMode

open Text (AlikeUpToCase alikeUpToCase_iff)

variable {value other : String} {mode : ScanMode}

/-- A mode has the token that it is looked up by, and no other. -/
theorem ofToken?_eq_some_iff : ofToken? token = some mode ↔ token = mode.token := by
  constructor
  · intro h
    rw [ofToken?] at h
    have found := List.find?_some h
    exact (beq_iff_eq.1 found).symm
  · rintro rfl
    cases mode <;> decide

/-- Tokens are written in lower case. -/
theorem map_toLower_token (mode : ScanMode) :
    mode.token.toList.map Char.toLower = mode.token.toList := by
  cases mode <;> decide

/-- No token has blank ends. -/
theorem trim_token (mode : ScanMode) : Text.trim mode.token = mode.token := by
  cases mode <;> decide

/-- **A value is read as a mode** if it is alike the mode's token up to case, when it is trimmed. -/
theorem parse_eq_ok_iff : parse value = .ok mode ↔ AlikeUpToCase (Text.trim value) mode.token := by
  have lower : AlikeUpToCase (Text.trim value) mode.token
      ↔ ofToken? (String.ofList ((Text.trim value).toList.map Char.toLower)) = some mode := by
    rw [alikeUpToCase_iff, map_toLower_token, ofToken?_eq_some_iff, ← String.toList_inj,
      String.toList_ofList]
  rw [lower, parse]
  split
  · rename_i found hfound
    rw [hfound, Except.ok.injEq, Option.some_inj]
  · rename_i hmissing
    rw [hmissing]
    exact iff_of_false (fun h => by cases h) (fun h => by cases h)

/-- Anything else is an invalid property, and the error shows the trimmed value. -/
theorem parse_eq_error (h : ∀ mode, parse value ≠ .ok mode) :
    parse value = .error (.invalidProperty (.scanMode (Text.trim value))) := by
  rw [parse] at h ⊢
  split
  · rename_i mode hfound
    simp only [hfound] at h
    exact absurd rfl (h mode)
  · rfl

/-- The wording of that error. -/
theorem message_scanMode (trimmed : String) :
    (Failure.invalidProperty (.scanMode trimmed)).message
      = "Invalid 'transitionScanMode' property: undefined transition scan mode '" ++ trimmed
          ++ "'" := by
  have front :
      "Invalid '" ++ "transitionScanMode" ++ "' property: " ++ "undefined transition scan mode '"
      = "Invalid 'transitionScanMode' property: undefined transition scan mode '" := by decide
  show "Invalid '" ++ "transitionScanMode" ++ "' property: "
      ++ ("undefined transition scan mode '" ++ trimmed ++ "'") = _
  rw [← String.append_assoc, ← String.append_assoc, front]

/-- **Values are read leniently**, but not beyond blank ends and letter case. Blank characters
around a value change nothing, not even the error; a value that is alike up to case is read as the
same mode or as none, too. A value is read as a mode exactly if it is the mode's token up to case,
when it is trimmed, and so the token itself is; anything else is refused, with the trimmed value in
the error's text. -/
theorem parse_isLenient (value : String) :
    (∀ front back : String, (∀ c ∈ front.toList, Text.isBlank c = true) →
        (∀ c ∈ back.toList, Text.isBlank c = true) → parse (front ++ value ++ back) = parse value)
      ∧ (∀ other, AlikeUpToCase value other → ∀ mode, parse other = .ok mode
          ↔ parse value = .ok mode)
      ∧ (∀ mode, parse value = .ok mode ↔ AlikeUpToCase (Text.trim value) mode.token)
      ∧ (∀ mode, ofToken? value = some mode → parse value = .ok mode)
      ∧ ((∀ mode : ScanMode, ¬ AlikeUpToCase (Text.trim value) mode.token) →
          ∃ cause, parse value = .error cause
            ∧ cause.message
                = "Invalid 'transitionScanMode' property: undefined transition scan mode '"
                ++ Text.trim value ++ "'") := by
  refine ⟨?_, ?_, fun mode => parse_eq_ok_iff, ?_, ?_⟩
  · intro front back hfront hback
    rw [parse, parse, Text.trim_append hfront hback]
  · intro other halike mode
    have trimmed := alikeUpToCase_iff.1 halike.trim
    rw [parse_eq_ok_iff, parse_eq_ok_iff, alikeUpToCase_iff, alikeUpToCase_iff, trimmed]
  · intro mode hmode
    rw [parse_eq_ok_iff, ofToken?_eq_some_iff.1 hmode, trim_token, alikeUpToCase_iff]
  · intro hother
    have refused : ∀ mode, parse value ≠ .ok mode :=
      fun mode hmode => hother mode (parse_eq_ok_iff.1 hmode)
    exact ⟨_, parse_eq_error refused, message_scanMode _⟩

/-- Blank characters of different kinds around a token in mixed case are passed over; a letter
outside ASCII is not taken for the one that it resembles. -/
theorem parse_isLenient_mixed :
    (∀ c ∈ "\u3000\u00a0".toList, Text.isBlank c = true)
      ∧ (∀ c ∈ "\t\r\n".toList, Text.isBlank c = true)
      ∧ AlikeUpToCase "sEqUenTial" "SEQuential"
      ∧ parse ("\u3000\u00a0" ++ "SEQuential" ++ "\t\r\n") = .ok .sequential
      ∧ ofToken? "dual" = some .dual
      ∧ parse "dual" = .ok .dual
      ∧ (∀ mode : ScanMode, ¬ AlikeUpToCase (Text.trim " ſingle") mode.token)
      ∧ ∃ cause, parse " ſingle" = .error cause
        ∧ cause.message = "Invalid 'transitionScanMode' property: undefined transition scan mode '"
            ++ Text.trim " ſingle" ++ "'" := by
  have front : ∀ c ∈ "\u3000\u00a0".toList, Text.isBlank c = true := List.all_eq_true.1 (by decide)
  have back : ∀ c ∈ "\t\r\n".toList, Text.isBlank c = true := List.all_eq_true.1 (by decide)
  have alike : AlikeUpToCase "sEqUenTial" "SEQuential" := by decide
  have read : parse "sEqUenTial" = .ok .sequential := ((parse_isLenient _).2.2.1 _).2 (by decide)
  have long : ∀ mode : ScanMode, ¬ AlikeUpToCase (Text.trim " ſingle") mode.token := by
    intro mode
    cases mode <;> decide
  have dual : ofToken? "dual" = some .dual := by decide
  refine ⟨front, back, alike, ?_, dual, (parse_isLenient _).2.2.2.1 _ dual, long,
    (parse_isLenient _).2.2.2.2 long⟩
  rw [(parse_isLenient _).1 _ _ front back]
  exact ((parse_isLenient _).2.1 _ alike _).2 read

end ScanMode

end PlcWorkbench
