import PlcWorkbench.Proofs.Xml.Surgery

/-!
# What a removal takes out

Removing the first match takes the first element that meets the condition out of the listing of all
elements, together with the elements inside it, which stand right behind it there. The elements
around it stay, with less in them.

* `Content.map_fst_removeFirst?` : which element is taken out;
* `Content.exists_of_removeFirst?` : what was listed before, and which tags are left;
* `Element.findFirst?_eq_none_iff_of_removeFirst?` : when no element of a name is left.
-/

namespace PlcWorkbench.Xml

variable {condition : Element → Bool} {found : Element} {name : String}

namespace Content

variable {c rest : Content}

/-- The element taken out is the first in document order that meets the condition. -/
theorem map_fst_removeFirst? (condition : Element → Bool) (c : Content) :
    (c.removeFirst? condition).map (·.1) = c.elements.find? condition := by
  induction c with
  | empty => rfl
  | leaf l next ih =>
    rw [removeFirst?, Option.map_map, elements, ← ih]
    rfl
  | element tag inner next ihInner ihNext =>
    rw [removeFirst?, elements, List.find?_cons, List.find?_append, ← ihInner, ← ihNext]
    by_cases here : condition ⟨tag, inner⟩ = true
    · rw [if_pos here, here]
      rfl
    · rw [if_neg here, Bool.eq_false_iff.2 here]
      cases inner.removeFirst? condition with
      | some pair => rfl
      | none =>
        simp only [Option.map_map, Option.map_none, Option.none_or]
        rfl

/-- **A removal cuts one block out of the listing**: the element taken out and those inside it. Of
the others, the tags are left in their order. -/
theorem exists_of_removeFirst? (h : c.removeFirst? condition = some (found, rest)) :
    ∃ before after, c.elements = before ++ (found.elements ++ after)
      ∧ rest.tags = (before ++ after).map (·.toTag) := by
  induction c generalizing rest with
  | empty => cases h
  | leaf l next ih =>
    obtain ⟨⟨_, left⟩, hnext, heq⟩ := Option.map_eq_some_iff.1 h
    cases heq
    obtain ⟨before, after, hlisted, hleft⟩ := ih hnext
    exact ⟨before, after, hlisted, hleft⟩
  | element tag inner next ihInner ihNext =>
    rw [removeFirst?] at h
    split at h
    · -- the element itself
      cases h
      exact ⟨[], next.elements, rfl, (map_toTag_elements next).symm⟩
    · cases hinner : inner.removeFirst? condition with
      | some pair =>
        obtain ⟨_, left⟩ := pair
        rw [hinner] at h
        cases h
        obtain ⟨before, after, hlisted, hleft⟩ := ihInner hinner
        refine ⟨⟨tag, inner⟩ :: before, after ++ next.elements, ?_, ?_⟩
        · rw [elements, hlisted]
          simp only [List.append_assoc, List.cons_append]
        · rw [tags, hleft, ← map_toTag_elements next]
          simp only [List.map_append, List.map_cons, List.append_assoc, List.cons_append]
      | none =>
        rw [hinner] at h
        obtain ⟨⟨_, left⟩, hnext, heq⟩ := Option.map_eq_some_iff.1 h
        cases heq
        obtain ⟨before, after, hlisted, hleft⟩ := ihNext hnext
        refine ⟨⟨tag, inner⟩ :: (inner.elements ++ before), after, ?_, ?_⟩
        · rw [elements, hlisted]
          simp only [List.append_assoc, List.cons_append]
        · rw [tags, hleft, ← map_toTag_elements inner]
          simp only [List.map_append, List.map_cons, List.append_assoc, List.cons_append]

end Content

namespace Element

variable {e rest : Element}

/-- The element taken out is the first in document order that meets the condition, the element
itself aside. -/
theorem map_fst_removeFirst? (condition : Element → Bool) (e : Element) :
    (e.removeFirst? condition).map (·.1) = e.content.elements.find? condition := by
  rw [← Content.map_fst_removeFirst?, removeFirst?, Option.map_map]
  rfl

/-- A removal cuts one block out of the listing behind the element itself, which keeps its tag. -/
theorem exists_of_removeFirst? (h : e.removeFirst? condition = some (found, rest)) :
    ∃ before after, e.elements = e :: before ++ (found.elements ++ after)
      ∧ rest.elements.map (·.toTag) = (e :: before ++ after).map (·.toTag) := by
  obtain ⟨⟨_, left⟩, hcontent, heq⟩ := Option.map_eq_some_iff.1 h
  cases heq
  obtain ⟨before, after, hlisted, hleft⟩ := Content.exists_of_removeFirst? hcontent
  refine ⟨before, after, ?_, ?_⟩
  · rw [elements, hlisted]
    rfl
  · rw [elements, List.map_cons, Content.map_toTag_elements, hleft]
    rfl

/-- What is left without the first match, which is all if there is none. -/
theorem dropFirst_eq_getD (drops : Tag → Bool) (e : Element) :
    e.dropFirst drops = ((e.removeFirst? fun inside => drops inside.toTag).map (·.2)).getD e := by
  rw [removeFirst?_eq]
  split
  · rfl
  · rename_i hnone
    rw [Bool.not_eq_true] at hnone
    rw [dropFirst, Content.dropFirst_eq_self hnone]
    rfl

/-- Among all elements, those of a name. -/
theorem findAll_eq_filter (name : String) (e : Element) :
    e.findAll name = e.elements.filter (·.name == name) := by
  rw [← Content.findAll_ofElement, Content.findAll_eq_filter, Content.elements_ofElement]

/-- A search fails if no element has the name. -/
theorem findFirst?_eq_none_iff :
    e.findFirst? name = none ↔ ∀ t ∈ e.elements.map (·.toTag), t.name ≠ name := by
  rw [← Content.findFirst?_ofElement, Content.findFirst?_eq_none_iff, ← Content.map_toTag_elements,
    Content.elements_ofElement]

/-- A search fails if none is listed. -/
theorem findFirst?_eq_none_iff_findAll : e.findFirst? name = none ↔ e.findAll name = [] := by
  rw [findFirst?_eq_none_iff, findAll_eq_filter, List.filter_eq_nil_iff, List.forall_mem_map]
  simp only [beq_iff_eq]

/-- **No element of a name is left** exactly if all of them were in the one that was taken out. -/
theorem findFirst?_eq_none_iff_of_removeFirst? (h : e.removeFirst? condition = some (found, rest)) :
    rest.findFirst? name = none ↔ e.findAll name = found.findAll name := by
  obtain ⟨before, after, hlisted, hleft⟩ := exists_of_removeFirst? h
  rw [findFirst?_eq_none_iff, hleft, List.forall_mem_map, List.forall_mem_append, findAll_eq_filter,
    findAll_eq_filter, hlisted, List.filter_append, List.filter_append]
  constructor
  · rintro ⟨hbefore, hafter⟩
    have nothing : ∀ {elements : List Element}, (∀ e ∈ elements, e.name ≠ name) →
        elements.filter (·.name == name) = [] :=
      fun h => List.filter_eq_nil_iff.2 fun e he => mt beq_iff_eq.1 (h e he)
    rw [nothing hbefore, nothing hafter, List.nil_append, List.append_nil]
  · intro heq
    -- both lists have the found ones, so there is no room for others
    have sizes := congrArg List.length heq
    simp only [List.length_append] at sizes
    have nothing : ∀ {elements : List Element}, (elements.filter (·.name == name)).length = 0 →
        ∀ e ∈ elements, e.name ≠ name :=
      fun h e he =>
        mt beq_iff_eq.2 (List.filter_eq_nil_iff.1 (List.eq_nil_of_length_eq_zero h) e he)
    exact ⟨nothing (by omega), nothing (by omega)⟩

end Element

end PlcWorkbench.Xml
