import PlcWorkbench.Proofs.Xml.Tree
import Mathlib.Data.List.Basic

/-!
# Cutting out and filling in

Two operations on whole trees: `prune` drops every element whose tag meets a condition, together
with what is inside it, and `extendFirst` adds content at the end of the first element of a name.
They describe what a removal and an edit of the first match do, and unlike these they have laws:

* `removeFirst?_eq`, `prune_eq_dropFirst` : removing the first match is `dropFirst`, which prunes if
  there is no other match;
* `updateFirst?_push` : adding to the first element of a name is `extendFirst`;
* `searchInduction` : induction along the search for the first element of a name;
* `prune_prune`, `extendFirst_extendFirst` : repeated pruning and repeated filling combine;
* `prune_extendFirst` : the two commute, if pruning spares the element that is filled.
-/

namespace PlcWorkbench.Xml

namespace Content

/-- The content without the elements whose tag meets the condition; everything else stays in
place. -/
def prune (drops : Tag → Bool) : Content → Content
  | .empty => .empty
  | .leaf l next => .leaf l (next.prune drops)
  | .element tag inner next =>
    if drops tag then next.prune drops else .element tag (inner.prune drops) (next.prune drops)

/-- The content with more put at the end of its first element of this name. -/
def extendFirst : Content → (name : String) → (more : Content) → Content
  | .empty, _, _ => .empty
  | .leaf l next, name, more => .leaf l (next.extendFirst name more)
  | .element tag inner next, name, more =>
    if tag.name = name then .element tag (inner.append more) next
    else if (inner.findFirst? name).isSome then .element tag (inner.extendFirst name more) next
    else .element tag inner (next.extendFirst name more)

/-! ## Tags -/

/-- The tags of all elements in document order, at any depth. -/
def tags : Content → List Tag
  | .empty => []
  | .leaf _ next => next.tags
  | .element tag inner next => tag :: (inner.tags ++ next.tags)

/-- The tags are those of the elements. -/
theorem map_toTag_elements (c : Content) : c.elements.map (·.toTag) = c.tags := by
  induction c with
  | empty => rfl
  | leaf l next ih => rw [elements, tags, ih]
  | element tag inner next ihInner ihNext =>
    rw [elements, tags, List.map_cons, List.map_append, ihInner, ihNext]

/-- What the tags meet, the elements meet. -/
theorem forall_mem_elements {c : Content} {p : Tag → Prop} :
    (∀ e ∈ c.elements, p e.toTag) ↔ ∀ t ∈ c.tags, p t := by
  rw [← map_toTag_elements, List.forall_mem_map]

/-- A search fails if no tag has the name. -/
theorem findFirst?_eq_none_iff {c : Content} {name : String} :
    c.findFirst? name = none ↔ ∀ t ∈ c.tags, t.name ≠ name := by
  induction c with
  | empty => simp [findFirst?, tags]
  | leaf l next ih => rw [findFirst?, ih, tags]
  | element tag inner next ihInner ihNext =>
    rw [findFirst?, tags, List.forall_mem_cons, List.forall_mem_append, ← ihInner, ← ihNext]
    by_cases h : tag.name = name
    · simp [h]
    · simp [h]

/-- A search for all elements of a name selects them among all elements. -/
theorem findAll_eq_filter (name : String) (c : Content) :
    c.findAll name = c.elements.filter (·.name == name) := by
  induction c with
  | empty => rfl
  | leaf l next ih => exact ih
  | element tag inner next ihInner ihNext =>
    rw [findAll, elements, List.filter_cons, List.filter_append, ihInner, ihNext]
    by_cases h : tag.name = name
    · rw [if_pos h, if_pos (beq_iff_eq.2 h)]
    · rw [if_neg h, if_neg (mt beq_iff_eq.1 h)]

/-- Where no tag has the name, a search finds nothing. -/
theorem findAll_eq_nil {c : Content} {name : String} (h : ∀ t ∈ c.tags, t.name ≠ name) :
    c.findAll name = [] := by
  rw [findAll_eq_filter, List.filter_eq_nil_iff]
  rw [← forall_mem_elements (p := fun t => t.name ≠ name)] at h
  exact fun e he => mt beq_iff_eq.1 (h e he)

/-- A search of two contents finds what it finds in each. -/
theorem findAll_append (c d : Content) (name : String) :
    (c.append d).findAll name = c.findAll name ++ d.findAll name := by
  simp only [findAll_eq_filter, elements_append, List.filter_append]

/-! ## Removing the first match -/

/-- Pruning what is not there changes nothing. -/
theorem prune_eq_self {drops : Tag → Bool} {c : Content} (h : ∀ t ∈ c.tags, drops t = false) :
    c.prune drops = c := by
  induction c with
  | empty => rfl
  | leaf l next ih => rw [prune, ih h]
  | element tag inner next ihInner ihNext =>
    rw [tags, List.forall_mem_cons, List.forall_mem_append] at h
    rw [prune, h.1, if_neg Bool.false_ne_true, ihInner h.2.1, ihNext h.2.2]

/-- The content without its first element whose tag meets the condition. -/
def dropFirst (drops : Tag → Bool) : Content → Content
  | .empty => .empty
  | .leaf l next => .leaf l (next.dropFirst drops)
  | .element tag inner next =>
    if drops tag then next
    else if inner.tags.any drops then .element tag (inner.dropFirst drops) next
    else .element tag inner (next.dropFirst drops)

/-- Removing the first match drops it, if there is one. -/
theorem removeFirst?_eq (drops : Tag → Bool) (c : Content) :
    (c.removeFirst? fun e => drops e.toTag).map (·.2)
      = if c.tags.any drops then some (c.dropFirst drops) else none := by
  induction c with
  | empty => rfl
  | leaf l next ih =>
    rw [removeFirst?, Option.map_map, tags, dropFirst]
    have later := congrArg (Option.map (Content.leaf l)) ih
    rw [Option.map_map] at later
    refine later.trans ?_
    split <;> rfl
  | element tag inner next ihInner ihNext =>
    rw [removeFirst?, tags, List.any_cons, List.any_append, dropFirst]
    by_cases htag : drops tag = true
    · simp only [htag, if_true, Bool.true_or, Option.map_some]
    · rw [Bool.not_eq_true] at htag
      simp only [htag, Bool.false_eq_true, if_false, Bool.false_or]
      cases hremove : inner.removeFirst? fun e => drops e.toTag with
      | some pair =>
        rw [hremove, Option.map_some] at ihInner
        split at ihInner
        · rename_i hinner
          obtain ⟨found, rest⟩ := pair
          obtain rfl := Option.some.inj ihInner
          simp only [hinner, Bool.true_or, if_true, Option.map_some]
        · cases ihInner
      | none =>
        rw [hremove, Option.map_none] at ihInner
        split at ihInner
        · cases ihInner
        · rename_i hinner
          rw [Bool.not_eq_true] at hinner
          have later := congrArg (Option.map (Content.element tag inner)) ihNext
          rw [Option.map_map] at later
          simp only [hinner, Bool.false_or, Bool.false_eq_true, if_false, Option.map_map]
          refine later.trans ?_
          split <;> rfl

/-- Dropping what is not there changes nothing. -/
theorem dropFirst_eq_self {drops : Tag → Bool} {c : Content} (h : c.tags.any drops = false) :
    c.dropFirst drops = c := by
  induction c with
  | empty => rfl
  | leaf l next ih => rw [dropFirst, ih h]
  | element tag inner next ihInner ihNext =>
    rw [tags, List.any_cons, List.any_append, Bool.or_eq_false_iff, Bool.or_eq_false_iff] at h
    obtain ⟨htag, hinner, hnext⟩ := h
    rw [dropFirst, htag, hinner, ihNext hnext]
    rfl

/-- What is left without the first match was there before. -/
theorem tags_dropFirst_sublist (drops : Tag → Bool) (c : Content) :
    (c.dropFirst drops).tags.Sublist c.tags := by
  induction c with
  | empty => exact List.Sublist.refl _
  | leaf l next ih => exact ih
  | element tag inner next ihInner ihNext =>
    rw [dropFirst]
    split
    · exact ((List.sublist_append_right _ _).trans (List.sublist_cons_self _ _))
    · split
      · exact (ihInner.append (List.Sublist.refl _)).cons_cons _
      · exact ((List.Sublist.refl _).append ihNext).cons_cons _

/-- How many elements meet the condition, those inside another one that meets it not counted. -/
def countOutermost (drops : Tag → Bool) : Content → Nat
  | .empty => 0
  | .leaf _ next => next.countOutermost drops
  | .element tag inner next =>
    (if drops tag then 1 else inner.countOutermost drops) + next.countOutermost drops

/-- None is counted if no tag meets the condition, and the other way round. -/
theorem countOutermost_eq_zero_iff {drops : Tag → Bool} {c : Content} :
    c.countOutermost drops = 0 ↔ c.tags.any drops = false := by
  induction c with
  | empty => exact ⟨fun _ => rfl, fun _ => rfl⟩
  | leaf l next ih => exact ih
  | element tag inner next ihInner ihNext =>
    rw [countOutermost, tags, List.any_cons, List.any_append, Bool.or_eq_false_iff,
      Bool.or_eq_false_iff, ← ihInner, ← ihNext, Nat.add_eq_zero_iff]
    cases drops tag with
    | true => simp
    | false => simp

/-- No more are counted than there are. -/
theorem countOutermost_le_countP (drops : Tag → Bool) (c : Content) :
    c.countOutermost drops ≤ c.tags.countP drops := by
  induction c with
  | empty => exact Nat.le_refl 0
  | leaf l next ih => exact ih
  | element tag inner next ihInner ihNext =>
    rw [countOutermost, tags, List.countP_cons, List.countP_append]
    split <;> omega

/-- Dropping the first match prunes, if no other match stands outside it. -/
theorem prune_eq_dropFirst {drops : Tag → Bool} {c : Content} (hone : c.countOutermost drops ≤ 1) :
    c.prune drops = c.dropFirst drops := by
  have alone : ∀ {c : Content}, c.countOutermost drops = 0 → c.prune drops = c := by
    intro c hnone
    rw [countOutermost_eq_zero_iff, List.any_eq_false] at hnone
    exact prune_eq_self fun t ht => Bool.eq_false_iff.2 (hnone t ht)
  induction c with
  | empty => rfl
  | leaf l next ih => rw [prune, dropFirst, ih hone]
  | element tag inner next ihInner ihNext =>
    rw [countOutermost] at hone
    rw [prune, dropFirst]
    by_cases htag : drops tag = true
    · -- the match itself: the rest holds no other
      rw [if_pos htag] at hone
      rw [if_pos htag, if_pos htag, alone (by omega)]
    · rw [if_neg htag] at hone
      rw [if_neg htag, if_neg htag]
      by_cases hinner : inner.tags.any drops = true
      · have matched : inner.countOutermost drops ≠ 0 := by
          rw [ne_eq, countOutermost_eq_zero_iff, hinner]
          exact Bool.noConfusion
        rw [if_pos hinner, ihInner (by omega), alone (c := next) (by omega)]
      · have unmatched : inner.countOutermost drops = 0 :=
          countOutermost_eq_zero_iff.2 (Bool.not_eq_true _ ▸ hinner)
        rw [if_neg hinner, alone unmatched, ihNext (by omega)]

/-! ## Filling the first element of a name -/

/-- Induction along the search for the first element of a name: the search meets it, or goes on
inside an element, or goes on behind one. -/
@[elab_as_elim] theorem searchInduction {motive : Content → Prop} (name : String)
    (empty : motive .empty)
    (leaf : ∀ l next, motive next → motive (.leaf l next))
    (met : ∀ tag inner next, tag.name = name → motive (.element tag inner next))
    (inside : ∀ tag inner next, tag.name ≠ name → (inner.findFirst? name).isSome = true →
      motive inner →
      motive (.element tag inner next))
    (behind : ∀ tag inner next, tag.name ≠ name → inner.findFirst? name = none → motive next →
      motive (.element tag inner next))
    (c : Content) : motive c := by
  induction c with
  | empty => exact empty
  | leaf l next ih => exact leaf l next ih
  | element tag inner next ihInner ihNext =>
    by_cases hname : tag.name = name
    · exact met tag inner next hname
    · by_cases hfound : (inner.findFirst? name).isSome = true
      · exact inside tag inner next hname hfound ihInner
      · exact behind tag inner next hname (Option.not_isSome_iff_eq_none.1 hfound) ihNext

variable {name : String} {more : Content} {drops : Tag → Bool}

/-- Adding to the first element of a name is filling it, if there is one. -/
theorem updateFirst?_push (c : Content) :
    c.updateFirst? name (fun e => ((), e.push more))
      = if (c.findFirst? name).isSome then some ((), c.extendFirst name more) else none := by
  induction c with
  | empty => rfl
  | leaf l next ih =>
    rw [updateFirst?, ih, findFirst?, extendFirst]
    split <;> rfl
  | element tag inner next ihInner ihNext =>
    rw [updateFirst?, findFirst?, extendFirst]
    by_cases h : tag.name = name
    · rw [if_pos h, if_pos h, if_pos h]
      rfl
    · rw [if_neg h, if_neg h, if_neg h, ihInner, ihNext, Option.isSome_or]
      cases hinner : (inner.findFirst? name).isSome with
      | true => rfl
      | false => cases hnext : (next.findFirst? name).isSome <;> rfl

/-- The element that was filled is found with what was added. -/
theorem findFirst?_extendFirst (c : Content) :
    (c.extendFirst name more).findFirst? name = (c.findFirst? name).map (·.push more) := by
  induction c using searchInduction name with
  | empty => rfl
  | leaf l next ih => rw [extendFirst, findFirst?, findFirst?, ih]
  | met tag inner next hname => simp [extendFirst, findFirst?, Element.push, hname]
  | inside tag inner next hname hfound ih =>
    obtain ⟨e, hinner⟩ := Option.isSome_iff_exists.1 hfound
    simp [extendFirst, findFirst?, hname, hinner, ih]
  | behind tag inner next hname hnone ih => simp [extendFirst, findFirst?, hname, hnone, ih]

/-- Filling with nothing. -/
theorem extendFirst_empty (c : Content) : c.extendFirst name .empty = c := by
  induction c with
  | empty => rfl
  | leaf l next ih => rw [extendFirst, ih]
  | element tag inner next ihInner ihNext =>
    rw [extendFirst, append_empty, ihInner, ihNext, ite_self, ite_self]

/-- Filling twice fills with both. -/
theorem extendFirst_extendFirst (c : Content) (more' : Content) :
    (c.extendFirst name more).extendFirst name more' = c.extendFirst name (more.append more') := by
  induction c using searchInduction name with
  | empty => rfl
  | leaf l next ih => rw [extendFirst, extendFirst, extendFirst, ih]
  | met tag inner next hname => simp [extendFirst, hname, append_assoc]
  | inside tag inner next hname hfound ih =>
    simp [extendFirst, hname, hfound, findFirst?_extendFirst, ih]
  | behind tag inner next hname hnone ih => simp [extendFirst, hname, hnone, ih]

/-! ## Pruning -/

/-- Pruning twice drops what either condition drops. -/
theorem prune_prune (drops' : Tag → Bool) (c : Content) :
    (c.prune drops).prune drops' = c.prune fun t => drops t || drops' t := by
  induction c with
  | empty => rfl
  | leaf l next ih => rw [prune, prune, prune, ih]
  | element tag inner next ihInner ihNext =>
    rw [prune, prune]
    by_cases h : drops tag = true
    · rw [if_pos h, if_pos (by rw [h, Bool.true_or]), ihNext]
    · rw [if_neg h, prune]
      rw [Bool.not_eq_true] at h
      rw [h, Bool.false_or, ihInner, ihNext]

/-- Pruning parts prunes the whole. -/
theorem prune_append (c d : Content) :
    (c.append d).prune drops = (c.prune drops).append (d.prune drops) := by
  induction c with
  | empty => rfl
  | leaf l next ih => rw [append, prune, prune, append, ih]
  | element tag inner next _ ih =>
    rw [append, prune, prune, ih]
    split <;> rfl

/-- What is left after pruning was there before, and meets the condition no more. -/
theorem tags_prune_sublist (c : Content) :
    (c.prune drops).tags.Sublist (c.tags.filter fun t => !drops t) := by
  induction c with
  | empty => exact List.Sublist.refl _
  | leaf l next ih => exact ih
  | element tag inner next ihInner ihNext =>
    rw [prune, tags, List.filter_cons, List.filter_append]
    by_cases h : drops tag = true
    · rw [if_pos h, h]
      exact ihNext.trans (List.sublist_append_right _ _)
    · rw [if_neg h, tags]
      rw [Bool.not_eq_true] at h
      rw [h]
      exact (ihInner.append ihNext).cons_cons _

/-- The tags of the elements around the first element of this name. -/
def around (name : String) : Content → List Tag
  | .empty => []
  | .leaf _ next => next.around name
  | .element tag inner next =>
    if tag.name = name then []
    else if (inner.findFirst? name).isSome then tag :: inner.around name
    else next.around name

/-- No element around the first element of a name is dropped. -/
def Spares (drops : Tag → Bool) (name : String) (c : Content) : Prop :=
  ∀ t ∈ c.around name, drops t = false

instance (c : Content) : Decidable (c.Spares drops name) :=
  inferInstanceAs (Decidable (∀ t ∈ c.around name, drops t = false))

/-- Inside an element that holds the first element of a name, which is spared itself. -/
theorem Spares.inside {tag : Tag} {inner next : Content}
    (h : (element tag inner next).Spares drops name) (hname : tag.name ≠ name)
    (hfound : (inner.findFirst? name).isSome = true) :
    drops tag = false ∧ inner.Spares drops name := by
  rw [Spares, around, if_neg hname, if_pos hfound, List.forall_mem_cons] at h
  exact h

/-- Behind an element that does not hold the first element of a name. -/
theorem Spares.behind {tag : Tag} {inner next : Content}
    (h : (element tag inner next).Spares drops name) (hname : tag.name ≠ name)
    (hnone : inner.findFirst? name = none) : next.Spares drops name := by
  rw [Spares, around, if_neg hname, hnone] at h
  exact h

/-- Pruning brings no element of a name into being. -/
theorem findFirst?_prune_eq_none {c : Content} (h : c.findFirst? name = none) :
    (c.prune drops).findFirst? name = none := by
  rw [findFirst?_eq_none_iff] at h ⊢
  exact fun t ht => h t (List.mem_of_mem_filter ((tags_prune_sublist c).subset ht))

section Sparing

variable (hdrops : ∀ t, drops t = true → t.name ≠ name)
include hdrops

/-- The first element of a name, if it is spared, is found pruned. -/
theorem findFirst?_prune {c : Content} (h : c.Spares drops name) :
    (c.prune drops).findFirst? name
      = (c.findFirst? name).map fun e => { e with content := e.content.prune drops } := by
  induction c using searchInduction name with
  | empty => rfl
  | leaf l next ih => exact ih h
  | met tag inner next hname =>
    rw [prune, if_neg (fun hdrop => hdrops tag hdrop hname), findFirst?, findFirst?, if_pos hname,
      if_pos hname]
    rfl
  | inside tag inner next hname hfound ih =>
    obtain ⟨keep, spared⟩ := h.inside hname hfound
    obtain ⟨e, hinner⟩ := Option.isSome_iff_exists.1 hfound
    simp [prune, findFirst?, keep, hname, hinner, ih spared]
  | behind tag inner next hname hnone ih =>
    -- whether this element is dropped or not, what is looked for comes after it
    rw [prune, findFirst?, if_neg hname, hnone, Option.none_or, ← ih (h.behind hname hnone)]
    split
    · rfl
    · rw [findFirst?, if_neg hname, findFirst?_prune_eq_none hnone, Option.none_or]

/-- Filling and pruning commute, if the element that is filled is spared. -/
theorem prune_extendFirst {c : Content} (h : c.Spares drops name) :
    (c.extendFirst name more).prune drops = (c.prune drops).extendFirst name
      (more.prune drops) := by
  induction c using searchInduction name with
  | empty => rfl
  | leaf l next ih => rw [extendFirst, prune, prune, extendFirst, ih h]
  | met tag inner next hname =>
    have keep : ¬ drops tag = true := fun hdrop => hdrops tag hdrop hname
    simp [extendFirst, prune, keep, hname, prune_append]
  | inside tag inner next hname hfound ih =>
    obtain ⟨keep, spared⟩ := h.inside hname hfound
    simp [extendFirst, prune, keep, hname, hfound, findFirst?_prune hdrops spared, ih spared]
  | behind tag inner next hname hnone ih =>
    rw [extendFirst, if_neg hname, hnone, Option.isSome_none, if_neg Bool.false_ne_true, prune,
      prune, ih (h.behind hname hnone)]
    split
    · rfl
    · simp [extendFirst, hname, findFirst?_prune_eq_none hnone]

end Sparing

/-! ## Children -/

/-- The children of two contents, one after the other. -/
@[simp] theorem children_append (c d : Content) :
    (c.append d).children = c.children ++ d.children := by
  induction c with
  | empty => rfl
  | leaf l next ih => exact ih
  | element tag inner next _ ih => rw [append, children, children, ih, List.cons_append]

/-- The tags of the children that are left after pruning are those that the condition does not
drop. -/
theorem children_prune (c : Content) :
    (c.prune drops).children.map (·.toTag) = (c.children.map (·.toTag)).filter fun t =>
      !drops t := by
  induction c with
  | empty => rfl
  | leaf l next ih => exact ih
  | element tag inner next _ ih =>
    rw [prune, children, List.map_cons, List.filter_cons]
    by_cases h : drops tag = true
    · rw [if_pos h, ih, h]
      rfl
    · rw [if_neg h, children, List.map_cons, ih]
      rw [Bool.not_eq_true] at h
      rw [h]
      rfl

/-! ## Conditions on a whole tree -/

variable {onLeaf : Leaf → Prop} {onTag : Tag → Prop}

/-- What every part of a content meets, every part that is left after pruning meets. -/
theorem All.prune {c : Content} (h : c.All onLeaf onTag) : (c.prune drops).All onLeaf onTag := by
  induction c with
  | empty => trivial
  | leaf l next ih => exact ⟨h.1, ih h.2⟩
  | element tag inner next ihInner ihNext =>
    rw [Content.prune]
    split
    · exact ihNext h.2.2
    · exact ⟨h.1, ihInner h.2.1, ihNext h.2.2⟩

/-- What every part of a content meets, every part that is left without the first match meets. -/
theorem All.dropFirst {c : Content} (h : c.All onLeaf onTag) :
    (c.dropFirst drops).All onLeaf onTag := by
  induction c with
  | empty => trivial
  | leaf l next ih => exact ⟨h.1, ih h.2⟩
  | element tag inner next ihInner ihNext =>
    rw [Content.dropFirst]
    split
    · exact h.2.2
    · split
      · exact ⟨h.1, ihInner h.2.1, h.2.2⟩
      · exact ⟨h.1, h.2.1, ihNext h.2.2⟩

/-- What every part of two contents meets, every part of the filled content meets. -/
theorem All.extendFirst {c : Content} (h : c.All onLeaf onTag) (hmore : more.All onLeaf onTag) :
    (c.extendFirst name more).All onLeaf onTag := by
  induction c with
  | empty => trivial
  | leaf l next ih => exact ⟨h.1, ih h.2⟩
  | element tag inner next ihInner ihNext =>
    rw [Content.extendFirst]
    split
    · exact ⟨h.1, all_append.2 ⟨h.2.1, hmore⟩, h.2.2⟩
    · split
      · exact ⟨h.1, ihInner h.2.1, h.2.2⟩
      · exact ⟨h.1, h.2.1, ihNext h.2.2⟩

end Content

namespace Element

variable {name : String} {more : Content} {drops : Tag → Bool}

/-! ## The same for elements -/

/-- The element without the elements inside it whose tag meets the condition; it is never dropped
itself. -/
def prune (drops : Tag → Bool) (e : Element) : Element :=
  { e with content := e.content.prune drops }

/-- The element with more put at the end of its first element of this name, which may be itself. -/
def extendFirst (e : Element) (name : String) (more : Content) : Element :=
  if e.name = name then e.push more else { e with content := e.content.extendFirst name more }

/-- The element without the first element inside it whose tag meets the condition; it is never
dropped itself. -/
def dropFirst (drops : Tag → Bool) (e : Element) : Element :=
  { e with content := e.content.dropFirst drops }

/-- Removing the first match drops it, if there is one. -/
theorem removeFirst?_eq (drops : Tag → Bool) (e : Element) :
    (e.removeFirst? fun inside => drops inside.toTag).map (·.2)
      = if e.content.tags.any drops then some (e.dropFirst drops) else none := by
  have inside :=
    congrArg (Option.map fun content => { e with content })
      (Content.removeFirst?_eq drops e.content)
  rw [Option.map_map] at inside
  rw [removeFirst?, Option.map_map]
  refine inside.trans ?_
  split <;> rfl

/-- Adding to the first element of a name is filling it, if there is one. -/
theorem updateFirst?_push (e : Element) :
    e.updateFirst? name (fun e => ((), e.push more))
      = if (e.findFirst? name).isSome then some ((), e.extendFirst name more) else none := by
  rw [updateFirst?, findFirst?, extendFirst]
  by_cases h : e.name = name
  · rw [if_pos h, if_pos h, if_pos h]
    rfl
  · rw [if_neg h, if_neg h, if_neg h, Content.updateFirst?_push]
    split <;> rfl

/-- Filling with nothing. -/
theorem extendFirst_empty (e : Element) : e.extendFirst name .empty = e := by
  rw [extendFirst]
  split
  · rw [push, Content.append_empty]
  · rw [Content.extendFirst_empty]

/-- What every part of an element meets, every part that is left after pruning meets. -/
theorem All.prune {onLeaf : Leaf → Prop} {onTag : Tag → Prop} {e : Element}
    (h : e.All onLeaf onTag) : (e.prune drops).All onLeaf onTag :=
  ⟨h.1, h.2.prune⟩

/-- What every part of an element meets, every part that is left without the first match meets. -/
theorem All.dropFirst {onLeaf : Leaf → Prop} {onTag : Tag → Prop} {e : Element}
    (h : e.All onLeaf onTag) : (e.dropFirst drops).All onLeaf onTag :=
  ⟨h.1, h.2.dropFirst⟩

/-- What every part of an element and of a content meets, every part of the filled element meets. -/
theorem All.extendFirst {onLeaf : Leaf → Prop} {onTag : Tag → Prop} {e : Element}
    (h : e.All onLeaf onTag) (hmore : more.All onLeaf onTag) :
    (e.extendFirst name more).All onLeaf onTag := by
  rw [Element.extendFirst]
  split
  · exact ⟨h.1, Content.all_append.2 ⟨h.2, hmore⟩⟩
  · exact ⟨h.1, h.2.extendFirst hmore⟩

/-- Filling keeps the tag. -/
theorem toTag_extendFirst (e : Element) : (e.extendFirst name more).toTag = e.toTag := by
  rw [extendFirst]
  split <;> rfl

end Element

namespace Content

variable {name : String} {more : Content} {drops : Tag → Bool}

/-! ## An element as a content of its own -/

/-- The element can be read off the content. -/
theorem ofElement_injective : Function.Injective ofElement := by
  intro e e' h
  cases e
  cases e'
  cases h
  rfl

/-- The elements of a content that is one element. -/
@[simp] theorem elements_ofElement (e : Element) : (ofElement e).elements = e.elements := by
  rw [ofElement, elements, elements, List.append_nil]
  rfl

/-- The tags of a content that is one element. -/
@[simp] theorem tags_ofElement (e : Element) : (ofElement e).tags = e.toTag :: e.content.tags := by
  rw [ofElement, tags, tags, List.append_nil]

/-- Searching a content that is one element. -/
@[simp] theorem findFirst?_ofElement (e : Element) :
    (ofElement e).findFirst? name = e.findFirst? name := by
  rw [ofElement, findFirst?, findFirst?, Option.or_none]
  rfl

/-- Searching a content that is one element for all of a name. -/
@[simp] theorem findAll_ofElement (e : Element) : (ofElement e).findAll name = e.findAll name := by
  simp only [ofElement, findAll, List.append_nil]
  rfl

/-- Pruning a content that is one element, which stays. -/
theorem prune_ofElement {e : Element} (h : drops e.toTag = false) :
    (ofElement e).prune drops = ofElement (e.prune drops) := by
  rw [ofElement, prune, h, if_neg Bool.false_ne_true, prune]
  rfl

/-- Filling in a content that is one element. -/
theorem extendFirst_ofElement {e : Element} (h : (e.findFirst? name).isSome = true) :
    (ofElement e).extendFirst name more = ofElement (e.extendFirst name more) := by
  rw [ofElement, extendFirst, extendFirst, Element.extendFirst]
  by_cases hname : e.name = name
  · rw [if_pos hname, if_pos hname]
    rfl
  · rw [Element.findFirst?, if_neg hname] at h
    rw [if_neg hname, if_neg hname, if_pos h]
    rfl

end Content

end PlcWorkbench.Xml
