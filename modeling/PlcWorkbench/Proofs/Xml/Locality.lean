import PlcWorkbench.Proofs.Xml.Accepted
import Mathlib.Data.List.TakeWhile

/-!
# Reading is local

Each construct ends where its own characters say, whatever comes behind it: a text in which a piece
is read can go on without a change to the piece. The one exception is a run of text that ends with
the source, which goes on up to the next bracket. `Markup.next?_append` says both.
-/

namespace PlcWorkbench.Xml

/-! ## Delimiters -/

/-- A start is found in front of more text. -/
theorem dropStart?_append_right {start source after : List Char}
    (h : dropStart? start source = some after) (more : List Char) :
    dropStart? start (source ++ more) = some (after ++ more) := by
  rw [dropStart?_eq_some_iff] at h ⊢
  rw [h, List.append_assoc]

/-- An end mark is found at the same place in front of more text. -/
theorem breakOn?_append_right {stop source before after : List Char}
    (h : breakOn? stop source = some (before, after)) (more : List Char) :
    breakOn? stop (source ++ more) = some (before, after ++ more) := by
  induction source generalizing before with
  | nil =>
    rw [breakOn?, Option.map_eq_some_iff] at h
    obtain ⟨rest, hrest, heq⟩ := h
    cases heq
    exact breakOn?_of_dropStart? (dropStart?_append_right hrest more)
  | cons c source ih =>
    rw [breakOn?] at h
    split at h
    · rename_i found
      cases h
      exact breakOn?_of_dropStart? (dropStart?_append_right found more)
    · rename_i absent
      obtain ⟨⟨before', after'⟩, hrest, heq⟩ := Option.map_eq_some_iff.1 h
      cases heq
      rw [dropStart?_eq_none_iff] at absent
      have stop_ne : stop ≠ [] := by
        rintro rfl
        exact absent List.nil_prefix
      -- the mark further on is all there, so one across the border would begin behind it
      have inside : stop.length ≤ (c :: source).length := by
        obtain ⟨split, -⟩ := split_of_breakOn? stop_ne hrest
        rw [split]
        simp only [List.length_cons, List.length_append]
        omega
      have here : ¬ stop <+: c :: (source ++ more) := by
        intro front
        exact absent (List.prefix_of_prefix_length_le front
          (List.prefix_append (c :: source) more) inside)
      rw [List.cons_append, breakOn?_cons here, ih hrest]
      rfl

/-- A tag ends at the same place in front of more text. -/
theorem breakTag?_append_right {quote : Option Char} {source content after : List Char}
    (h : breakTag? quote source = some (content, after)) (more : List Char) :
    breakTag? quote (source ++ more) = some (content, after ++ more) := by
  fun_induction breakTag? quote source generalizing content with
  | case1 quote => cases h
  | case2 rest =>
    cases h
    rfl
  | case3 c rest hc ih =>
    obtain ⟨⟨content', after'⟩, hrest, heq⟩ := Option.map_eq_some_iff.1 h
    cases heq
    rw [List.cons_append, breakTag?, ih hrest]
    · rfl
    · exact hc
  | case4 quote c rest ih =>
    obtain ⟨⟨content', after'⟩, hrest, heq⟩ := Option.map_eq_some_iff.1 h
    cases heq
    rw [List.cons_append, breakTag?, ih hrest]
    rfl

/-- A document type ends at the same place in front of more text. -/
theorem breakDoctype?_append_right {depth : Nat} {source content after : List Char}
    (h : breakDoctype? depth source = some (content, after)) (more : List Char) :
    breakDoctype? depth (source ++ more) = some (content, after ++ more) := by
  fun_induction breakDoctype? depth source generalizing content with
  | case1 depth => cases h
  | case2 rest =>
    cases h
    rfl
  | case3 depth c rest hc =>
    rename_i ih
    obtain ⟨⟨content', after'⟩, hrest, heq⟩ := Option.map_eq_some_iff.1 h
    cases heq
    rw [List.cons_append, breakDoctype?, ih hrest]
    · rfl
    · exact hc

/-- A start in letters of either case is found in front of more text. -/
theorem dropStartAnyCase?_append_right {start source after : List Char}
    (h : dropStartAnyCase? start source = some after) (more : List Char) :
    dropStartAnyCase? start (source ++ more) = some (after ++ more) := by
  unfold dropStartAnyCase? at h ⊢
  split at h
  · rename_i same
    cases h
    have inside : start.length ≤ source.length := by
      have lengths := congrArg List.length same
      simp only [List.length_map, List.length_take] at lengths
      omega
    rw [List.take_append_of_le_length inside, if_pos same, List.drop_append_of_le_length inside]
  · cases h

/-! ## Pieces -/

namespace Markup

variable {source after : List Char} {m : Markup}

/-- A delimited construct is read the same in front of more text. -/
theorem readDelimited_append_right {start stop : List Char} {piece : List Char → Markup}
    {unclosed : Error} (h : readDelimited start stop piece unclosed source = .ok (m, after))
    (more : List Char) :
    readDelimited start stop piece unclosed (source ++ more) = .ok (m, after ++ more) := by
  obtain ⟨body, content, opened, closed, hm⟩ := readDelimited_eq_ok_iff.1 h
  exact readDelimited_eq_ok_iff.2
    ⟨body ++ more, content, dropStart?_append_right opened more, breakOn?_append_right closed more,
      hm⟩

/-- A document type is read the same in front of more text. -/
theorem readDoctype_append_right (h : readDoctype source = .ok (m, after)) (more : List Char) :
    readDoctype (source ++ more) = .ok (m, after ++ more) := by
  unfold readDoctype at h
  split at h
  · cases h
  · rename_i body opened
    split at h
    · cases h
    · rename_i content rest closed
      split at h
      · cases h
      · rename_i named
        cases h
        unfold readDoctype
        simp only [dropStartAnyCase?_append_right opened more,
          breakDoctype?_append_right closed more, if_neg named]

/-- A processing instruction or declaration is read the same in front of more text. -/
theorem readInstruction_append_right (h : readInstruction source = .ok (m, after))
    (more : List Char) :
    readInstruction (source ++ more) = .ok (m, after ++ more) := by
  unfold readInstruction at h
  split at h
  · cases h
  · rename_i noBracket
    unfold readInstruction
    split
    · rename_i tail heq
      -- the first character is the same as without more text, since there is one
      cases source with
      | nil => cases h
      | cons c source =>
        cases heq
        exact absurd rfl (noBracket source)
    · exact readDelimited_append_right h more

/-- Every construct is read the same in front of more text. -/
theorem readConstruct_append_right (h : readConstruct source = .ok (m, after)) (more : List Char) :
    readConstruct (source ++ more) = .ok (m, after ++ more) := by
  unfold readConstruct at h
  split at h
  · rename_i rest
    show readMarked (rest ++ more) = _
    unfold readMarked at h
    split at h
    · exact readDelimited_append_right h more
    · exact readDelimited_append_right h more
    · exact readDoctype_append_right h more
    · exact readDoctype_append_right h more
    · cases h
  · exact readInstruction_append_right h more
  · split at h
    · cases h
    · rename_i rest content rest' closed
      cases h
      simp only [List.cons_append, readConstruct, breakTag?_append_right closed more]
  · rename_i noMark noInstruction noEnd
    split at h
    · cases h
    · rename_i content rest closed
      cases h
      obtain ⟨c, tail, rfl⟩ : ∃ c tail, source = c :: tail := by
        cases source with
        | nil => cases closed
        | cons c tail => exact ⟨c, tail, rfl⟩
      unfold readConstruct
      split
      · rename_i heq
        cases heq
        exact absurd rfl (noMark tail)
      · rename_i heq
        cases heq
        exact absurd rfl (noInstruction tail)
      · rename_i heq
        cases heq
        exact absurd rfl (noEnd tail)
      · rw [breakTag?_append_right closed more]

/-- A piece is read the same in front of more text, but for text at the end, which may go on. -/
theorem next?_append (h : next? source = .ok (some (m, after))) (more : List Char) :
    next? (source ++ more) = .ok (some (m, after ++ more))
      ∨ '<' ∉ source ∧ after = [] ∧ m = .text source := by
  have read := h
  unfold next? at h
  split at h
  · cases h
  · rename_i rest
    obtain ⟨⟨m', after'⟩, hread, heq⟩ := map_eq_ok_iff.1 h
    cases heq
    left
    show (readConstruct (rest ++ more)).map some = _
    rw [readConstruct_append_right hread more]
    rfl
  · rename_i notEmpty notMarkup
    by_cases mark : '<' ∈ source
    · -- the text ends inside the source, at the first bracket
      left
      obtain ⟨front, rest, rfl, hfront⟩ := List.eq_append_cons_of_mem mark
      have front_ne : front ≠ [] := by
        rintro rfl
        exact notMarkup rest rfl
      rw [next?_text front_ne hfront] at read
      cases read
      rw [List.append_assoc]
      exact next?_text front_ne hfront (rest ++ more)
    · right
      have taken := List.takeWhile_eq_self_iff.2 (ne_bracket mark)
      have nothing := List.dropWhile_eq_nil_iff.2 (ne_bracket mark)
      cases h
      exact ⟨mark, nothing, congrArg Markup.text taken⟩

end Markup

end PlcWorkbench.Xml
