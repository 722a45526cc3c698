import PlcWorkbench.Identifier
import PlcWorkbench.Proofs.Path

/-!
# The grammar of identifiers

The check of an identifier asks for a start, for allowed characters, for no two underscores in a row
and for none at the end. The grammar says the same by building identifiers up: runs of letters and
digits, joined by single underscores, after an underscore or none. The underscores of a text divide
it into segments; those are the runs, if the check passes.

* `IsIdentifier` : the grammar;
* `hasDoubleUnderscore_iff` : two underscores at any place;
* `isIdentifier_of_isValid`, `isValid_of_isIdentifier` : the two readings of the rule;
* `isValid_exact` : the check, and what it refuses in particular.
-/

namespace PlcWorkbench

namespace Identifier

variable {characters body : List Char} {id : String}

/-! ## The grammar -/

/-- A letter or digit of ASCII. -/
def IsLetterOrDigit (c : Char) : Prop := 'A' ≤ c ∧ c ≤ 'Z' ∨ 'a' ≤ c ∧ c ≤ 'z' ∨ '0' ≤ c ∧ c ≤ '9'

instance (c : Char) : Decidable (IsLetterOrDigit c) :=
  inferInstanceAs (Decidable ('A' ≤ c ∧ c ≤ 'Z' ∨ 'a' ≤ c ∧ c ≤ 'z' ∨ '0' ≤ c ∧ c ≤ '9'))

/-- One run of letters and digits or more, none of them empty, joined by single underscores. -/
def AreJoinedRuns (characters : List Char) : Prop :=
  ∃ runs, runs ≠ [] ∧ (∀ run ∈ runs, run ≠ [] ∧ ∀ c ∈ run, IsLetterOrDigit c)
    ∧ characters = List.intercalate ['_'] runs

/-- At most forty characters: joined runs, with one underscore in front or none, that do not start
with a digit. -/
structure IsIdentifier (characters : List Char) : Prop where
  short : characters.length ≤ 40
  form : ∃ body, (characters = body ∨ characters = '_' :: body) ∧ AreJoinedRuns body
  no_digit : ∀ c, characters.head? = some c → ¬ ('0' ≤ c ∧ c ≤ '9')

/-! ## Characters -/

/-- The ranges of letters and digits in numbers. -/
theorem isLetterOrDigit_iff_toNat {c : Char} :
    IsLetterOrDigit c
      ↔ 65 ≤ c.toNat ∧ c.toNat ≤ 90 ∨ 97 ≤ c.toNat ∧ c.toNat ≤ 122
          ∨ 48 ≤ c.toNat ∧ c.toNat ≤ 57 := by
  simp only [IsLetterOrDigit, Char.le_def, UInt32.le_iff_toNat_le]
  rfl

/-- Letters and digits are no underscores. -/
theorem IsLetterOrDigit.ne_underscore {c : Char} (h : IsLetterOrDigit c) : c ≠ '_' := by
  rintro rfl
  have ranges := isLetterOrDigit_iff_toNat.1 h
  simp only [Char.reduceToNat] at ranges
  omega

/-- The letters of upper case are a range. -/
theorem isUpper_iff {c : Char} : c.isUpper = true ↔ 'A' ≤ c ∧ c ≤ 'Z' := by
  show decide ('A'.val ≤ c.val ∧ c.val ≤ 'Z'.val) = true ↔ _
  rw [decide_eq_true_iff]
  exact Iff.rfl

/-- So are those of lower case. -/
theorem isLower_iff {c : Char} : c.isLower = true ↔ 'a' ≤ c ∧ c ≤ 'z' := by
  show (decide ('a'.val ≤ c.val) && decide (c.val ≤ 'z'.val)) = true ↔ _
  rw [Bool.and_eq_true, decide_eq_true_iff, decide_eq_true_iff]
  exact Iff.rfl

/-- And so are the digits. -/
theorem isDigit_iff {c : Char} : c.isDigit = true ↔ '0' ≤ c ∧ c ≤ '9' := by
  show (decide ('0'.val ≤ c.val) && decide (c.val ≤ '9'.val)) = true ↔ _
  rw [Bool.and_eq_true, decide_eq_true_iff, decide_eq_true_iff]
  exact Iff.rfl

/-- A letter is in upper or lower case. -/
theorem isAlpha_iff {c : Char} : c.isAlpha = true ↔ 'A' ≤ c ∧ c ≤ 'Z' ∨ 'a' ≤ c ∧ c ≤ 'z' := by
  show (c.isUpper || c.isLower) = true ↔ _
  rw [Bool.or_eq_true, isUpper_iff, isLower_iff]

/-- A character that may continue an identifier is a letter, a digit or an underscore. -/
theorem isPart_iff {c : Char} : isPart c = true ↔ IsLetterOrDigit c ∨ c = '_' := by
  show ((c.isAlpha || c.isDigit) || c == '_') = true ↔ _
  rw [Bool.or_eq_true, Bool.or_eq_true, isAlpha_iff, isDigit_iff, beq_iff_eq, IsLetterOrDigit,
    or_assoc (a := 'A' ≤ c ∧ c ≤ 'Z')]

/-- One that may start it is the same but for the digits. -/
theorem isStart_iff {c : Char} : isStart c = true ↔ isPart c = true ∧ ¬ ('0' ≤ c ∧ c ≤ '9') := by
  rw [isStart, Bool.or_eq_true, isAlpha_iff, beq_iff_eq, isPart_iff]
  constructor
  · rintro (hletter | rfl)
    · refine ⟨.inl (hletter.elim .inl fun hlower => .inr (.inl hlower)), fun hdigit => ?_⟩
      have letter : 65 ≤ c.toNat ∧ c.toNat ≤ 90 ∨ 97 ≤ c.toNat ∧ c.toNat ≤ 122 := hletter
      have digit : 48 ≤ c.toNat ∧ c.toNat ≤ 57 := hdigit
      omega
    · exact ⟨.inr rfl, by decide⟩
  · rintro ⟨(hupper | hlower | hdigit) | rfl, hno⟩
    · exact .inl (.inl hupper)
    · exact .inl (.inr hlower)
    · exact absurd hdigit hno
    · exact .inr rfl

/-! ## Underscores -/

/-- An underscore makes two if another one follows. -/
theorem hasDoubleUnderscore_cons_underscore :
    hasDoubleUnderscore ('_' :: characters) = true
      ↔ characters.head? = some '_' ∨ hasDoubleUnderscore characters = true := by
  cases characters with
  | nil => simp [hasDoubleUnderscore]
  | cons c rest =>
    by_cases hc : c = '_'
    · subst hc
      simp [hasDoubleUnderscore]
    · have skipped : hasDoubleUnderscore ('_' :: c :: rest) = hasDoubleUnderscore (c :: rest) :=
        hasDoubleUnderscore.eq_2 '_' (c :: rest)
          (by rintro more - heq; exact hc (List.cons.inj heq).1)
      rw [skipped]
      simp [hc]

/-- Any other character does not matter. -/
theorem hasDoubleUnderscore_cons_of_ne {c : Char} (hc : c ≠ '_') :
    hasDoubleUnderscore (c :: characters) = hasDoubleUnderscore characters :=
  hasDoubleUnderscore.eq_2 c characters (by rintro more rfl; exact absurd rfl hc)

/-- Two underscores are found wherever they stand. -/
theorem hasDoubleUnderscore_iff :
    hasDoubleUnderscore characters = true ↔ ['_', '_'] <:+: characters := by
  induction characters with
  | nil => simp [hasDoubleUnderscore]
  | cons c rest ih =>
    rw [List.infix_cons_iff, List.cons_prefix_cons, ← ih]
    by_cases hc : c = '_'
    · subst hc
      rw [hasDoubleUnderscore_cons_underscore, and_iff_right rfl, List.head?_eq_some_iff]
      refine or_congr_left ⟨?_, ?_⟩
      · rintro ⟨more, rfl⟩
        exact ⟨more, rfl⟩
      · rintro ⟨more, rfl⟩
        exact ⟨more, rfl⟩
    · rw [hasDoubleUnderscore_cons_of_ne hc, or_iff_right fun h => hc h.1.symm]

/-- Neither do characters in front that are no underscores. -/
theorem hasDoubleUnderscore_append {run : List Char} (hrun : ∀ c ∈ run, IsLetterOrDigit c) :
    hasDoubleUnderscore (run ++ characters) = hasDoubleUnderscore characters := by
  induction run with
  | nil => rfl
  | cons c rest ih =>
    rw [List.forall_mem_cons] at hrun
    rw [List.cons_append, hasDoubleUnderscore_cons_of_ne hrun.1.ne_underscore, ih hrun.2]

/-! ## From the check to the grammar -/

/-- Without two underscores in a row and without one at the end, no segment but the first is
empty. -/
theorem ne_nil_of_mem_segments (hdouble : hasDoubleUnderscore characters = false)
    (hlast : characters.getLast? ≠ some '_') :
    ∀ run ∈ (Text.segments '_' characters).tail, run ≠ [] := by
  induction characters with
  | nil => exact List.forall_mem_nil _
  | cons c rest ih =>
    by_cases hc : c = '_'
    · subst hc
      rw [← Bool.not_eq_true, hasDoubleUnderscore_cons_underscore, not_or, Bool.not_eq_true]
        at hdouble
      rw [Text.segments_cons_self, List.tail_cons]
      cases rest with
      | nil => exact absurd rfl hlast
      | cons d more =>
        -- the segment after the underscore begins with the character that follows
        have hd : d ≠ '_' := fun heq => hdouble.1 (congrArg some heq)
        have later :=
          ih hdouble.2 (by rwa [List.getLast?_cons_of_ne_nil (List.cons_ne_nil d more)] at hlast)
        obtain ⟨first, others, hmore⟩ := Text.exists_segments '_' more
        rw [Text.segments_cons_of_ne hd hmore] at later ⊢
        exact List.forall_mem_cons.2 ⟨List.cons_ne_nil d first, later⟩
    · rw [hasDoubleUnderscore_cons_of_ne hc] at hdouble
      obtain ⟨first, others, hrest⟩ := Text.exists_segments '_' rest
      rw [Text.segments_cons_of_ne hc hrest, List.tail_cons]
      cases rest with
      | nil =>
        obtain rfl : others = [] := (List.cons.inj hrest).2.symm
        exact List.forall_mem_nil _
      | cons d more =>
        have later :=
          ih hdouble (by rwa [List.getLast?_cons_of_ne_nil (List.cons_ne_nil d more)] at hlast)
        rwa [hrest] at later

/-- The segments of allowed characters consist of letters and digits. -/
theorem isLetterOrDigit_of_mem_segments (hparts : ∀ c ∈ characters, isPart c = true)
    {run : List Char} (hrun : run ∈ Text.segments '_' characters) :
    ∀ c ∈ run, IsLetterOrDigit c := by
  intro c hc
  rcases isPart_iff.1 (hparts c (Text.subset_of_mem_segments hrun hc)) with hletter | rfl
  · exact hletter
  · exact absurd hc (Text.not_mem_of_mem_segments hrun)

/-- Allowed characters are joined runs, after an underscore or not, if there are any, no two
underscores stand next to each other, and none is at the end. -/
theorem exists_areJoinedRuns (hne : characters ≠ []) (hparts : ∀ c ∈ characters, isPart c = true)
    (hdouble : hasDoubleUnderscore characters = false) (hlast : characters.getLast? ≠ some '_') :
    ∃ body, (characters = body ∨ characters = '_' :: body) ∧ AreJoinedRuns body := by
  have filled := ne_nil_of_mem_segments hdouble hlast
  have letters := fun run => @isLetterOrDigit_of_mem_segments _ hparts run
  have joined := Text.intercalate_segments '_' characters
  obtain ⟨first, others, hsegments⟩ := Text.exists_segments '_' characters
  rw [hsegments] at filled letters joined
  rw [List.tail_cons] at filled
  by_cases hfirst : first = []
  · -- the first segment is empty if the text begins with an underscore
    subst hfirst
    cases others with
    | nil => exact absurd joined.symm hne
    | cons second more =>
      rw [List.intercalate_cons_cons] at joined
      refine ⟨List.intercalate ['_'] (second :: more), .inr joined.symm, second :: more,
        List.cons_ne_nil _ _, ?_, rfl⟩
      exact fun run hrun => ⟨filled run hrun, letters run (List.mem_cons_of_mem _ hrun)⟩
  · refine ⟨characters, .inl rfl, first :: others, List.cons_ne_nil _ _, ?_, joined.symm⟩
    intro run hrun
    refine ⟨?_, letters run hrun⟩
    rcases List.mem_cons.1 hrun with rfl | hother
    · exact hfirst
    · exact filled run hother

/-- The parts of the check. -/
theorem isValid_iff :
    isValid id = true
      ↔ hasShape id.toList = true ∧ hasDoubleUnderscore id.toList = false
          ∧ id.toList.getLast? ≠ some '_' := by
  rw [isValid, Bool.and_eq_true, Bool.and_eq_true, Bool.not_eq_true', bne_iff_ne, and_assoc]

/-- The shape that the check asks for: a start, no more than the allowed length, and allowed
characters. -/
theorem hasShape_iff :
    hasShape characters = true
      ↔ characters ≠ [] ∧ characters.length ≤ 40 ∧ (∀ c ∈ characters, isPart c = true)
        ∧ ∀ c, characters.head? = some c → ¬ ('0' ≤ c ∧ c ≤ '9') := by
  cases characters with
  | nil => simp [hasShape]
  | cons c rest =>
    rw [hasShape, Bool.and_eq_true, Bool.and_eq_true, isStart_iff, decide_eq_true_iff,
      List.all_eq_true, maxLength, List.length_cons, List.forall_mem_cons]
    constructor
    · rintro ⟨⟨⟨hpart, hdigit⟩, hlength⟩, hrest⟩
      refine ⟨List.cons_ne_nil c rest, hlength, ⟨hpart, hrest⟩, ?_⟩
      rintro d ⟨⟩
      exact hdigit
    · rintro ⟨-, hlength, ⟨hpart, hrest⟩, hdigit⟩
      exact ⟨⟨⟨hpart, hdigit c rfl⟩, hlength⟩, hrest⟩

/-- One character that is not allowed is enough to fail the check. -/
theorem isValid_of_not_isPart {c : Char} (hc : c ∈ id.toList) (hpart : isPart c = false) :
    isValid id = false := by
  refine Bool.eq_false_iff.2 fun h => ?_
  obtain ⟨hshape, -⟩ := isValid_iff.1 h
  obtain ⟨-, -, hparts, -⟩ := hasShape_iff.1 hshape
  rw [hparts c hc] at hpart
  cases hpart

/-- What passes the check is an identifier. -/
theorem isIdentifier_of_isValid (h : isValid id = true) : IsIdentifier id.toList := by
  obtain ⟨hshape, hdouble, hlast⟩ := isValid_iff.1 h
  obtain ⟨hne, hlength, hparts, hdigit⟩ := hasShape_iff.1 hshape
  exact ⟨hlength, exists_areJoinedRuns hne hparts hdouble hlast, hdigit⟩

/-! ## From the grammar to the check -/

/-- Allowed characters, no underscore at either end, and no two in a row. -/
structure IsSpaced (characters : List Char) : Prop where
  parts : ∀ c ∈ characters, isPart c = true
  starts : ∃ c rest, characters = c :: rest ∧ IsLetterOrDigit c
  ends : characters.getLast? ≠ some '_'
  single : hasDoubleUnderscore characters = false

/-- A run of letters and digits has no underscores at all. -/
theorem IsSpaced.of_run {run : List Char} (hne : run ≠ []) (hrun : ∀ c ∈ run, IsLetterOrDigit c) :
    IsSpaced run where
  parts := fun c hc => isPart_iff.2 (.inl (hrun c hc))
  starts := by
    obtain ⟨c, rest, rfl⟩ := List.exists_cons_of_ne_nil hne
    exact ⟨c, rest, rfl, hrun c List.mem_cons_self⟩
  ends := fun hlast => (hrun '_' (List.mem_of_getLast? hlast)).ne_underscore rfl
  single := by
    have none : hasDoubleUnderscore (run ++ []) = false := hasDoubleUnderscore_append hrun
    rwa [List.append_nil] at none

/-- An underscore after a run separates it from what follows. -/
theorem IsSpaced.join {run : List Char} (hne : run ≠ []) (hrun : ∀ c ∈ run, IsLetterOrDigit c)
    (h : IsSpaced characters) : IsSpaced (run ++ '_' :: characters) := by
  obtain ⟨c, rest, hstart, hc⟩ := h.starts
  constructor
  · intro d hd
    rcases List.mem_append.1 hd with hrun' | hrest
    · exact isPart_iff.2 (.inl (hrun d hrun'))
    · rcases List.mem_cons.1 hrest with rfl | hmem
      · decide
      · exact h.parts d hmem
  · obtain ⟨first, more, rfl⟩ := List.exists_cons_of_ne_nil hne
    exact ⟨first, more ++ '_' :: characters, rfl, hrun first List.mem_cons_self⟩
  · have hfilled : characters ≠ [] := by
      rw [hstart]
      exact List.cons_ne_nil c rest
    rw [List.getLast?_append_of_ne_nil _ (List.cons_ne_nil _ _),
      List.getLast?_cons_of_ne_nil hfilled]
    exact h.ends
  · rw [hasDoubleUnderscore_append hrun, ← Bool.not_eq_true, hasDoubleUnderscore_cons_underscore,
      not_or, Bool.not_eq_true]
    refine ⟨?_, h.single⟩
    rw [hstart]
    exact fun heq => hc.ne_underscore (Option.some.inj heq)

/-- Joined runs are spaced. -/
theorem AreJoinedRuns.isSpaced (h : AreJoinedRuns body) : IsSpaced body := by
  obtain ⟨runs, hne, hruns, rfl⟩ := h
  induction runs with
  | nil => exact absurd rfl hne
  | cons run others ih =>
    obtain ⟨⟨hrun, hletters⟩, hothers⟩ := List.forall_mem_cons.1 hruns
    cases others with
    | nil =>
      rw [List.intercalate_singleton]
      exact .of_run hrun hletters
    | cons second more =>
      rw [List.intercalate_cons_cons, List.append_assoc]
      exact .join hrun hletters (ih (List.cons_ne_nil second more) hothers)

/-- Every identifier passes the check. -/
theorem isValid_of_isIdentifier (h : IsIdentifier id.toList) : isValid id = true := by
  obtain ⟨hlength, ⟨body, hform, hjoined⟩, hdigit⟩ := h
  have spaced := hjoined.isSpaced
  obtain ⟨c, rest, hbody, hc⟩ := spaced.starts
  have filled : body ≠ [] := by
    rw [hbody]
    exact List.cons_ne_nil c rest
  rw [isValid_iff, hasShape_iff]
  rcases hform with heq | heq
  · rw [heq] at hlength hdigit ⊢
    exact ⟨⟨filled, hlength, spaced.parts, hdigit⟩, spaced.single, spaced.ends⟩
  · rw [heq] at hlength hdigit ⊢
    refine ⟨⟨List.cons_ne_nil _ _, hlength, ?_, hdigit⟩, ?_, ?_⟩
    · exact List.forall_mem_cons.2 ⟨by decide, spaced.parts⟩
    · rw [← Bool.not_eq_true, hasDoubleUnderscore_cons_underscore, not_or, Bool.not_eq_true, hbody]
      rw [hbody] at spaced
      exact ⟨fun hhead => hc.ne_underscore (Option.some.inj hhead), spaced.single⟩
    · rw [List.getLast?_cons_of_ne_nil filled]
      exact spaced.ends

/-- **The check accepts the grammar exactly**, and `validate` names what it refuses. In particular
no text with a line break at its end is accepted, none with a character outside ASCII, and none with
an underscore at the end or with two of them in a row anywhere. -/
theorem isValid_exact (id : String) :
    (isValid id = true ↔ IsIdentifier id.toList)
      ∧ (validate id = .ok () ↔ IsIdentifier id.toList)
      ∧ (¬ IsIdentifier id.toList → validate id = .error (.invalidIdentifier id))
      ∧ (id.toList.getLast? = some '\n' → isValid id = false)
      ∧ ((∃ c ∈ id.toList, 128 ≤ c.toNat) → isValid id = false)
      ∧ (id.toList.getLast? = some '_' → isValid id = false)
      ∧ (['_', '_'] <:+: id.toList → isValid id = false) := by
  have accepted : isValid id = true ↔ IsIdentifier id.toList :=
    ⟨isIdentifier_of_isValid, isValid_of_isIdentifier⟩
  refine ⟨accepted, ?_, ?_, ?_, ?_, ?_, ?_⟩
  · rw [← accepted, validate]
    by_cases h : isValid id = true
    · simp [h]
    · simp [h]
  · intro hnot
    rw [validate, if_neg (mt accepted.1 hnot)]
  · intro hbreak
    exact isValid_of_not_isPart (List.mem_of_getLast? hbreak) (by decide)
  · rintro ⟨c, hc, hlarge⟩
    refine isValid_of_not_isPart hc (Bool.eq_false_iff.2 fun hpart => ?_)
    rcases isPart_iff.1 hpart with hletter | rfl
    · have range := isLetterOrDigit_iff_toNat.1 hletter
      omega
    · revert hlarge
      decide
  · intro hlast
    exact Bool.eq_false_iff.2 fun h => (isValid_iff.1 h).2.2 hlast
  · intro hdouble
    refine Bool.eq_false_iff.2 fun h => ?_
    rw [← hasDoubleUnderscore_iff, (isValid_iff.1 h).2.1] at hdouble
    cases hdouble

/-- The longest identifier that starts with an underscore and goes on with digits passes; digits at
the start, a line break at the end, letters of other alphabets and underscores that are out of place
do not. -/
theorem isValid_exact_samples :
    isValid "_123456789012345678901234567890123456789" = true
      ∧ validate "0foo" = .error (.invalidIdentifier "0foo")
      ∧ isValid "spam\n" = false
      ∧ isValid "Größe" = false
      ∧ isValid "foobar_" = false
      ∧ isValid "foo__bar" = false := by
  -- the characters are checked one after the other, not every character there is
  have digits :
      ("123456789012345678901234567890123456789".toList.all fun c => decide (IsLetterOrDigit c))
        = true := by
    decide
  have longest : IsIdentifier "_123456789012345678901234567890123456789".toList := by
    refine ⟨by decide, ⟨_, .inr rfl, ["123456789012345678901234567890123456789".toList], by decide,
      ?_, by decide⟩, ?_⟩
    · refine List.forall_mem_singleton.2 ⟨by decide, fun c hc => ?_⟩
      exact of_decide_eq_true (List.all_eq_true.1 digits c hc)
    · rintro c ⟨⟩
      decide
  have digit : ¬ IsIdentifier "0foo".toList := fun h => h.no_digit '0' rfl (by decide)
  refine ⟨(isValid_exact _).1.2 longest, (isValid_exact _).2.2.1 digit, ?_, ?_, ?_, ?_⟩
  · exact (isValid_exact _).2.2.2.1 (by decide)
  · exact (isValid_exact _).2.2.2.2.1 ⟨'ö', by decide, by decide⟩
  · exact (isValid_exact _).2.2.2.2.2.1 (by decide)
  · exact (isValid_exact _).2.2.2.2.2.2 ⟨"foo".toList, "bar".toList, by decide⟩

end Identifier

end PlcWorkbench
