import PlcWorkbench.Xml.Search
import Mathlib.Data.List.Basic

/-!
# Conditions on a whole tree

Content put one after another is a monoid. `Content.All` says that every leaf and every tag of a
content meets its condition, at whatever depth; it is kept by appending and inherited by the
elements that a search finds.
-/

namespace PlcWorkbench.Xml

namespace Content

variable {onLeaf onLeaf' : Leaf → Prop} {onTag onTag' : Tag → Prop}

/-! ## Appending -/

/-- Appending nothing changes nothing. -/
@[simp] theorem append_empty (c : Content) : c.append .empty = c := by
  induction c with
  | empty => rfl
  | leaf l next ih => rw [append, ih]
  | element tag inner next _ ih => rw [append, ih]

/-- Appending is associative. -/
theorem append_assoc (c d e : Content) : (c.append d).append e = c.append (d.append e) := by
  induction c with
  | empty => rfl
  | leaf l next ih => rw [append, append, append, ih]
  | element tag inner next _ ih => rw [append, append, append, ih]

/-- The elements of two contents, one after the other. -/
@[simp] theorem elements_append (c d : Content) :
    (c.append d).elements = c.elements ++ d.elements := by
  induction c with
  | empty => rfl
  | leaf l next ih => rw [append, elements, elements, ih]
  | element tag inner next _ ih =>
    rw [append, elements, elements, ih, List.cons_append, List.append_assoc]

/-! ## A condition at every depth -/

/-- Every leaf and every tag of a content, at any depth, meets its condition. -/
def All (onLeaf : Leaf → Prop) (onTag : Tag → Prop) : Content → Prop
  | .empty => True
  | .leaf l next => onLeaf l ∧ next.All onLeaf onTag
  | .element tag inner next => onTag tag ∧ inner.All onLeaf onTag ∧ next.All onLeaf onTag

instance decidableAll [DecidablePred onLeaf] [DecidablePred onTag] :
    (c : Content) → Decidable (c.All onLeaf onTag)
  | .empty => isTrue trivial
  | .leaf l next =>
    have := decidableAll next
    inferInstanceAs (Decidable (onLeaf l ∧ next.All onLeaf onTag))
  | .element tag inner next =>
    have := decidableAll inner
    have := decidableAll next
    inferInstanceAs (Decidable (onTag tag ∧ inner.All onLeaf onTag ∧ next.All onLeaf onTag))

/-- An appended content meets the conditions if both parts do. -/
theorem all_append {c d : Content} :
    (c.append d).All onLeaf onTag ↔ c.All onLeaf onTag ∧ d.All onLeaf onTag := by
  induction c with
  | empty => simp [append, All]
  | leaf l next ih => simp [append, All, ih, and_assoc]
  | element tag inner next _ ih => simp [append, All, ih, and_assoc]

/-- Weaker conditions are met as well. -/
theorem All.imp (hleaf : ∀ l, onLeaf l → onLeaf' l) (htag : ∀ t, onTag t → onTag' t) {c : Content}
    (h : c.All onLeaf onTag) : c.All onLeaf' onTag' := by
  induction c with
  | empty => trivial
  | leaf l next ih => exact ⟨hleaf l h.1, ih h.2⟩
  | element tag inner next ihInner ihNext => exact ⟨htag tag h.1, ihInner h.2.1, ihNext h.2.2⟩

/-- Two pairs of conditions that are met one by one are met together. -/
theorem All.and {c : Content} (h : c.All onLeaf onTag) (h' : c.All onLeaf' onTag') :
    c.All (fun l => onLeaf l ∧ onLeaf' l) (fun t => onTag t ∧ onTag' t) := by
  induction c with
  | empty => trivial
  | leaf l next ih => exact ⟨⟨h.1, h'.1⟩, ih h.2 h'.2⟩
  | element tag inner next ihInner ihNext =>
    exact ⟨⟨h.1, h'.1⟩, ihInner h.2.1 h'.2.1, ihNext h.2.2 h'.2.2⟩

end Content

/-- The tag of an element and every leaf and every tag inside it meet their conditions. -/
def Element.All (onLeaf : Leaf → Prop) (onTag : Tag → Prop) (e : Element) : Prop :=
  onTag e.toTag ∧ e.content.All onLeaf onTag

namespace Content

variable {onLeaf : Leaf → Prop} {onTag : Tag → Prop}

/-- What every part of a content meets, every part of an element in it meets. -/
theorem All.of_mem {c : Content} {found : Element} (h : c.All onLeaf onTag)
    (hmem : found ∈ c.elements) :
    found.All onLeaf onTag := by
  induction c with
  | empty => cases hmem
  | leaf l next ih => exact ih h.2 hmem
  | element tag inner next ihInner ihNext =>
    rw [elements, List.mem_cons, List.mem_append] at hmem
    obtain rfl | inside | after := hmem
    · exact ⟨h.1, h.2.1⟩
    · exact ihInner h.2.1 inside
    · exact ihNext h.2.2 after

/-- What a search finds is one of the elements and has the name. -/
theorem mem_elements_of_findFirst? {c : Content} {found : Element} {name : String}
    (h : c.findFirst? name = some found) : found ∈ c.elements ∧ found.name = name := by
  induction c with
  | empty => cases h
  | leaf l next ih => exact ih h
  | element tag inner next ihInner ihNext =>
    rw [findFirst?] at h
    rw [elements, List.mem_cons, List.mem_append]
    split at h
    · rename_i hname
      cases h
      exact ⟨.inl rfl, hname⟩
    · obtain hinner | ⟨-, hnext⟩ := Option.or_eq_some_iff.1 h
      · exact ⟨.inr (.inl (ihInner hinner).1), (ihInner hinner).2⟩
      · exact ⟨.inr (.inr (ihNext hnext).1), (ihNext hnext).2⟩

end Content

namespace Element

variable {onLeaf onLeaf' : Leaf → Prop} {onTag onTag' : Tag → Prop}

instance [DecidablePred onLeaf] [DecidablePred onTag] (e : Element) :
    Decidable (e.All onLeaf onTag) :=
  inferInstanceAs (Decidable (onTag e.toTag ∧ e.content.All onLeaf onTag))

/-- What a search finds is one of the elements and has the name. -/
theorem mem_elements_of_findFirst? {e found : Element} {name : String}
    (h : e.findFirst? name = some found) :
    found ∈ e.elements ∧ found.name = name := by
  rw [findFirst?] at h
  split at h
  · rename_i hname
    cases h
    exact ⟨List.mem_cons_self, hname⟩
  · obtain ⟨inside, hname⟩ := Content.mem_elements_of_findFirst? h
    exact ⟨List.mem_cons_of_mem _ inside, hname⟩

/-- What every part of an element meets, every part of an element inside it meets. -/
theorem All.of_mem {e found : Element} (h : e.All onLeaf onTag) (hmem : found ∈ e.elements) :
    found.All onLeaf onTag := by
  obtain rfl | inside := List.mem_cons.1 hmem
  · exact h
  · exact h.2.of_mem inside

/-- Two pairs of conditions that are met one by one are met together. -/
theorem All.and {e : Element} (h : e.All onLeaf onTag) (h' : e.All onLeaf' onTag') :
    e.All (fun l => onLeaf l ∧ onLeaf' l) (fun t => onTag t ∧ onTag' t) :=
  ⟨⟨h.1, h'.1⟩, h.2.and h'.2⟩

/-- Weaker conditions are met as well. -/
theorem All.imp (hleaf : ∀ l, onLeaf l → onLeaf' l) (htag : ∀ t, onTag t → onTag' t) {e : Element}
    (h : e.All onLeaf onTag) : e.All onLeaf' onTag' :=
  ⟨htag _ h.1, h.2.imp hleaf htag⟩

end Element

end PlcWorkbench.Xml
