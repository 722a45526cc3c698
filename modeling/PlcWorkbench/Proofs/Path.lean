import PlcWorkbench.Path
import Mathlib.Data.List.Basic
import Mathlib.Data.List.TakeWhile

/-!
# Divided texts and joined paths

A text divides at its separators, and in one way at the last of them. A name without slashes that is
joined to a path becomes the last component, whatever the path ends with.

* `Text.segments_append`, `Text.intercalate_segments` : how a separator divides a text, and how it
  is put together again;
* `Text.exists_lastSegment`, `Text.append_separator_inj` : the division at the last separator;
* `Path.components_join`, `Path.isAbsolute_join` : what a joined path consists of and where it
  starts.
-/

namespace PlcWorkbench

/-! ## Segments -/

namespace Text

variable {separator : Char} {before after segment : List Char}

/-- There is a first segment. -/
theorem exists_segments (separator : Char) (characters : List Char) :
    ∃ first others, segments separator characters = first :: others := by
  cases characters with
  | nil => exact ⟨_, _, rfl⟩
  | cons c rest =>
    rw [segments]
    split
    · exact ⟨_, _, rfl⟩
    · split
      · exact ⟨_, _, rfl⟩
      · exact ⟨_, _, rfl⟩

/-- A text without separators is one segment. -/
theorem segments_of_not_mem (h : separator ∉ after) : segments separator after = [after] := by
  induction after with
  | nil => rfl
  | cons c rest ih =>
    rw [List.mem_cons, not_or] at h
    rw [segments, ih h.2]
    simp only [if_neg (Ne.symm h.1)]

/-- A separator divides the segments before it from those after it. -/
theorem segments_append (separator : Char) (before after : List Char) :
    segments separator (before ++ separator :: after)
      = segments separator before ++ segments separator after := by
  induction before with
  | nil =>
    obtain ⟨first, others, hafter⟩ := exists_segments separator after
    simp only [List.nil_append, segments, hafter, if_true, List.cons_append]
  | cons c rest ih =>
    obtain ⟨first, others, hrest⟩ := exists_segments separator rest
    rw [List.cons_append, segments, ih, segments, hrest]
    simp only [List.cons_append]
    split <;> rfl

/-- A separator in front ends an empty segment. -/
theorem segments_cons_self (separator : Char) (after : List Char) :
    segments separator (separator :: after) = [] :: segments separator after :=
  segments_append separator [] after

/-- Any other character in front belongs to the first segment. -/
theorem segments_cons_of_ne {c : Char} {first : List Char} {others : List (List Char)}
    (hc : c ≠ separator) (hafter : segments separator after = first :: others) :
    segments separator (c :: after) = (c :: first) :: others := by
  rw [segments, hafter]
  exact if_neg hc

/-- The segments of a text, joined by separators, are the text. -/
theorem intercalate_segments (separator : Char) (characters : List Char) :
    List.intercalate [separator] (segments separator characters) = characters := by
  induction characters with
  | nil => rfl
  | cons c rest ih =>
    obtain ⟨first, others, hrest⟩ := exists_segments separator rest
    rw [hrest] at ih
    by_cases hc : c = separator
    · rw [hc, segments_cons_self, hrest, List.intercalate_cons_cons, ih]
      rfl
    · rw [segments_cons_of_ne hc hrest, ← ih]
      cases others with
      | nil => rfl
      | cons second more =>
        rw [List.intercalate_cons_cons, List.intercalate_cons_cons]
        rfl

/-- No segment holds a separator. -/
theorem not_mem_of_mem_segments {characters : List Char}
    (h : segment ∈ segments separator characters) :
    separator ∉ segment := by
  induction characters generalizing segment with
  | nil =>
    rw [segments, List.mem_singleton] at h
    rw [h]
    exact List.not_mem_nil
  | cons c rest ih =>
    obtain ⟨first, others, hrest⟩ := exists_segments separator rest
    rw [hrest] at ih
    rw [segments, hrest] at h
    simp only at h
    split at h
    · rcases List.mem_cons.1 h with rfl | hmem
      · exact List.not_mem_nil
      · exact ih hmem
    · rename_i hc
      rcases List.mem_cons.1 h with rfl | hmem
      · rw [List.mem_cons, not_or]
        exact ⟨Ne.symm hc, ih List.mem_cons_self⟩
      · exact ih (List.mem_cons_of_mem _ hmem)

/-- The characters of a segment are some of the text's. -/
theorem subset_of_mem_segments {characters : List Char}
    (h : segment ∈ segments separator characters) :
    segment ⊆ characters := by
  induction characters generalizing segment with
  | nil =>
    rw [segments, List.mem_singleton] at h
    rw [h]
    exact List.Subset.refl _
  | cons c rest ih =>
    obtain ⟨first, others, hrest⟩ := exists_segments separator rest
    rw [hrest] at ih
    rw [segments, hrest] at h
    simp only at h
    split at h
    · rcases List.mem_cons.1 h with rfl | hmem
      · exact List.nil_subset _
      · exact List.subset_cons_of_subset _ (ih hmem)
    · rcases List.mem_cons.1 h with rfl | hmem
      · exact List.cons_subset_cons _ (ih List.mem_cons_self)
      · exact List.subset_cons_of_subset _ (ih (List.mem_cons_of_mem _ hmem))

/-- A character that is no separator is in some segment. -/
theorem exists_mem_segments {c : Char} {characters : List Char} (h : c ∈ characters)
    (hc : c ≠ separator) :
    ∃ segment ∈ segments separator characters, c ∈ segment := by
  induction characters with
  | nil => cases h
  | cons d rest ih =>
    obtain ⟨first, others, hrest⟩ := exists_segments separator rest
    rw [hrest] at ih
    by_cases hd : d = separator
    · rw [hd, segments_cons_self, hrest]
      obtain ⟨segment, hsegment, hmem⟩ :=
        ih (List.mem_of_ne_of_mem (fun heq => hc (heq.trans hd)) h)
      exact ⟨segment, List.mem_cons_of_mem _ hsegment, hmem⟩
    · rw [segments_cons_of_ne hd hrest]
      rcases List.mem_cons.1 h with rfl | hlater
      · exact ⟨_, List.mem_cons_self, List.mem_cons_self⟩
      · obtain ⟨segment, hsegment, hmem⟩ := ih hlater
        rcases List.mem_cons.1 hsegment with rfl | hothers
        · exact ⟨_, List.mem_cons_self, List.mem_cons_of_mem _ hmem⟩
        · exact ⟨segment, List.mem_cons_of_mem _ hothers, hmem⟩

/-! ## The last segment -/

variable {before' after' characters : List Char}

/-- Read from the end, a text without separators has none. -/
theorem bne_of_mem_reverse (h : separator ∉ characters) :
    ∀ c ∈ characters.reverse, (c != separator) = true := by
  intro c hc
  exact bne_iff_ne.2 fun heq => h (heq ▸ List.mem_reverse.1 hc)

/-- What follows the last separator is the last segment. -/
theorem lastSegment_append (h : separator ∉ after) :
    lastSegment separator (before ++ separator :: after) = after := by
  rw [lastSegment, List.reverse_append, List.reverse_cons, List.append_assoc,
    List.takeWhile_append_of_pos (bne_of_mem_reverse h)]
  simp

/-- A text without separators is its own last segment. -/
theorem lastSegment_of_not_mem (h : separator ∉ characters) :
    lastSegment separator characters = characters := by
  rw [lastSegment, List.takeWhile_eq_self_iff.2 (bne_of_mem_reverse h), List.reverse_reverse]

/-- The last segment holds no separator. -/
theorem not_mem_lastSegment (separator : Char) (characters : List Char) :
    separator ∉ lastSegment separator characters := by
  intro h
  have kept := List.mem_takeWhile_imp (List.mem_reverse.1 h)
  rw [bne_self_eq_false] at kept
  cases kept

/-- A text divides at its last separator. -/
theorem exists_lastSegment (h : separator ∈ characters) :
    ∃ before after, characters = before ++ separator :: after ∧ separator ∉ after := by
  obtain ⟨first, rest, hreverse, hnot⟩ := List.eq_append_cons_of_mem (List.mem_reverse.2 h)
  refine ⟨rest.reverse, first.reverse, ?_, fun hmem => hnot (List.mem_reverse.1 hmem)⟩
  have whole := congrArg List.reverse hreverse
  rw [List.reverse_reverse] at whole
  rw [whole]
  simp

/-- A text divides at its last separator in one way. -/
theorem append_separator_inj (h : separator ∉ after) (h' : separator ∉ after')
    (heq : before ++ separator :: after = before' ++ separator :: after') :
    before = before' ∧ after = after' := by
  have last : lastSegment separator (before ++ separator :: after) = after := lastSegment_append h
  rw [heq, lastSegment_append h'] at last
  subst last
  exact ⟨List.append_cancel_right heq, rfl⟩

end Text

/-! ## Joined paths -/

namespace Path

variable {base : Path} {name : String}

/-- Components hold no slashes. -/
theorem not_mem_of_mem_components (h : name ∈ base.components) : '/' ∉ name.toList := by
  obtain ⟨segment, hsegment, rfl⟩ := List.mem_map.1 h
  rw [String.toList_ofList]
  exact Text.not_mem_of_mem_segments hsegment

/-- The characters of a component are some of the path's. -/
theorem subset_of_mem_components (h : name ∈ base.components) : name.toList ⊆ base.text.toList := by
  obtain ⟨segment, hsegment, rfl⟩ := List.mem_map.1 h
  rw [String.toList_ofList]
  exact Text.subset_of_mem_segments hsegment

/-- A character of a path is a slash or in a component. -/
theorem exists_mem_components {c : Char} (h : c ∈ base.text.toList) (hc : c ≠ '/') :
    ∃ name ∈ base.components, c ∈ name.toList := by
  obtain ⟨segment, hsegment, hmem⟩ := Text.exists_mem_segments h hc
  refine ⟨String.ofList segment, List.mem_map_of_mem hsegment, ?_⟩
  rw [String.toList_ofList]
  exact hmem

/-- In front of the first slash of an absolute path there is nothing. -/
theorem exists_components_of_isAbsolute (h : base.isAbsolute = true) :
    ∃ rest, base.components = "" :: rest := by
  obtain ⟨rest, hrest⟩ := List.head?_eq_some_iff.1 (beq_iff_eq.1 h)
  refine ⟨(Text.segments '/' rest).map String.ofList, ?_⟩
  rw [components, hrest, Text.segments_cons_self]
  rfl

/-- A relative path has something in front of its first slash. -/
theorem components_ne_of_relative (h : base.isAbsolute = false) (hne : base.text ≠ "")
    (rest : List String) :
    base.components ≠ "" :: rest := by
  obtain ⟨c, characters, htext⟩ := List.exists_cons_of_ne_nil (mt String.toList_eq_nil_iff.1 hne)
  have first : c ≠ '/' := by
    rintro rfl
    rw [isAbsolute, htext] at h
    cases h
  obtain ⟨segment, others, hsegments⟩ := Text.exists_segments '/' characters
  rw [components, htext, Text.segments_cons_of_ne first hsegments, List.map_cons]
  intro heq
  have empty := String.toList_inj.2 (List.cons.inj heq).1
  rw [String.toList_ofList] at empty
  cases empty

/-- The components of a path that stay ahead of a name that is joined to it: a slash at the end is
there already. -/
def front (base : Path) : List String :=
  if base.text.isEmpty then []
  else if base.text.toList.getLast? = some '/' then base.components.dropLast
  else base.components

/-- A path that is not empty has the components of its front, and an empty one if it ends in a
slash. -/
theorem components_eq_front (h : base.text.isEmpty = false) :
    base.components = base.front ∨ base.components = base.front ++ [""] := by
  rw [front, h, if_neg Bool.false_ne_true]
  split
  · rename_i hslash
    obtain ⟨characters, hcharacters⟩ := List.getLast?_eq_some_iff.1 hslash
    right
    rw [components, hcharacters, Text.segments_append, List.map_append,
      show (Text.segments '/' []).map String.ofList = [""] from rfl, List.dropLast_concat]
  · exact .inl rfl

/-- A name without slashes is no absolute path. -/
theorem isAbsolute_eq_false (h : '/' ∉ name.toList) : (Path.mk name).isAbsolute = false := by
  rw [isAbsolute, beq_eq_false_iff_ne]
  exact fun hhead => h (List.mem_of_head? hhead)

/-- A name without slashes has one component. -/
theorem components_of_not_mem (h : '/' ∉ name.toList) : (Path.mk name).components = [name] := by
  rw [components, Text.segments_of_not_mem h, List.map_singleton, String.ofList_toList]

/-- A name that is joined is the last component. -/
theorem components_join (base : Path) (h : '/' ∉ name.toList) :
    (base.join name).components = base.front ++ [name] := by
  rw [join, front, isAbsolute_eq_false h, Bool.false_or]
  split
  · exact components_of_not_mem h
  · split
    · rename_i hslash
      obtain ⟨characters, hcharacters⟩ := List.getLast?_eq_some_iff.1 hslash
      rw [components, components, String.toList_append, hcharacters, List.append_assoc,
        List.singleton_append, Text.segments_append, Text.segments_append, List.map_append,
        List.map_append, show (Text.segments '/' []).map String.ofList = [""] from rfl,
        List.dropLast_concat, show (Text.segments '/' name.toList).map String.ofList
          = [name] from components_of_not_mem h]
    · rw [components, components, String.toList_append, String.toList_append,
        show "/".toList = ['/'] from rfl, List.append_assoc, List.singleton_append,
        Text.segments_append, List.map_append,
        show (Text.segments '/' name.toList).map String.ofList
            = [name] from components_of_not_mem h]

/-- A joined path starts where the first one does. -/
theorem isAbsolute_join (base : Path) (h : '/' ∉ name.toList) :
    (base.join name).isAbsolute = base.isAbsolute := by
  rw [join, isAbsolute_eq_false h, Bool.false_or]
  split
  · rename_i hempty
    rw [isAbsolute_eq_false h, isAbsolute, String.isEmpty_iff.1 hempty]
    rfl
  · rename_i hne
    have starts : base.text.toList ≠ [] := by
      rw [ne_eq, String.toList_eq_nil_iff, ← String.isEmpty_iff]
      exact hne
    split
    · rw [isAbsolute, isAbsolute, String.toList_append, List.head?_append_of_ne_nil _ starts]
    · rw [isAbsolute, isAbsolute, String.toList_append, String.toList_append, List.append_assoc,
        List.head?_append_of_ne_nil _ starts]

/-- The front is the first part of the components. -/
theorem front_prefix_components (base : Path) : base.front <+: base.components := by
  cases hempty : base.text.isEmpty with
  | true =>
    rw [front, if_pos hempty]
    exact List.nil_prefix
  | false =>
    rcases components_eq_front hempty with heq | heq
    · exact ⟨[], by rw [List.append_nil, heq]⟩
    · rw [heq]
      exact List.prefix_append _ _

/-- The front stays ahead of a name that is joined, and of what is joined to that. -/
theorem front_prefix_front_join (base : Path) (h : '/' ∉ name.toList) :
    base.front <+: (base.join name).front := by
  cases hempty : base.text.isEmpty with
  | true =>
    rw [front, if_pos hempty]
    exact List.nil_prefix
  | false =>
    have longer : (base.join name).text.isEmpty = false := by
      rw [join, isAbsolute_eq_false h, hempty]
      split
      · contradiction
      · split <;> simp_all
    have whole := components_join base h
    rcases components_eq_front longer with heq | heq
    · rw [← heq, whole]
      exact List.prefix_append _ _
    · rw [heq] at whole
      exact ⟨[], by rw [List.append_nil, (List.append_inj' whole rfl).1]⟩

/-- A name is in front of what is joined to it. -/
theorem front_join (base : Path) (h : '/' ∉ name.toList) (hne : name ≠ "") :
    (base.join name).front = base.front ++ [name] := by
  have whole := components_join base h
  cases hempty : (base.join name).text.isEmpty with
  | true =>
    -- a path that is empty has no component but an empty one
    rw [components, String.isEmpty_iff.1 hempty] at whole
    have last := congrArg List.getLast? whole
    rw [List.getLast?_concat] at last
    exact absurd (Option.some.inj last).symm hne
  | false =>
    rcases components_eq_front hempty with heq | heq
    · rw [← heq, whole]
    · rw [heq] at whole
      exact absurd (List.singleton_inj.1 (List.append_inj' whole rfl).2).symm hne

end Path

end PlcWorkbench
