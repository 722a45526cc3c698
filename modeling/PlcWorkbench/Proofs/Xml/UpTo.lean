import PlcWorkbench.Proofs.Xml.Surgery

/-!
# Up to the end of an element

`upTo` is what is left of a tree if everything is cut off that begins after the first element of a
name has ended. Searching for that element, filling it, and dropping a first match ahead of its end
all take place in this part, so what holds of the part after an edit shows in the part before it.

* `upTo_dropFirst`, `upTo_extendFirst` : the two edits commute with cutting off;
* `around_prune`, `around_extendFirst` : the elements around the first of the name stay the same;
* `countOutermost_prune_le`, `countOutermost_extendFirst_le` : how many outermost matches there are
  afterwards.
-/

namespace PlcWorkbench.Xml

namespace Content

variable {drops drops' : Tag → Bool} {name : String} {more : Content}

/-- The content up to the end of its first element of this name, and all of it if there is none. -/
def upTo (name : String) : Content → Content
  | .empty => .empty
  | .leaf l next => .leaf l (next.upTo name)
  | .element tag inner next =>
    if tag.name = name then .element tag inner .empty
    else if (inner.findFirst? name).isSome then .element tag (inner.upTo name) .empty
    else .element tag inner (next.upTo name)

/-- The first element of the name is found in this part. -/
theorem findFirst?_upTo (c : Content) : (c.upTo name).findFirst? name = c.findFirst? name := by
  induction c using searchInduction name with
  | empty => rfl
  | leaf l next ih => exact ih
  | met tag inner next hname => simp [upTo, findFirst?, hname]
  | inside tag inner next hname hfound ih =>
    obtain ⟨e, hinner⟩ := Option.isSome_iff_exists.1 hfound
    simp [upTo, findFirst?, hname, hinner, ih]
  | behind tag inner next hname hnone ih => simp [upTo, findFirst?, hname, hnone, ih]

/-- The same elements are around it. -/
theorem around_upTo (c : Content) : (c.upTo name).around name = c.around name := by
  induction c using searchInduction name with
  | empty => rfl
  | leaf l next ih => exact ih
  | met tag inner next hname => simp [upTo, around, hname]
  | inside tag inner next hname hfound ih => simp [upTo, around, hname, hfound, findFirst?_upTo, ih]
  | behind tag inner next hname hnone ih => simp [upTo, around, hname, hnone, ih]

/-! ## Filling -/

/-- Cutting off and filling commute. -/
theorem upTo_extendFirst (c : Content) :
    (c.extendFirst name more).upTo name = (c.upTo name).extendFirst name more := by
  induction c using searchInduction name with
  | empty => rfl
  | leaf l next ih => rw [extendFirst, upTo, upTo, extendFirst, ih]
  | met tag inner next hname => simp [extendFirst, upTo, hname]
  | inside tag inner next hname hfound ih =>
    simp [extendFirst, upTo, hname, hfound, findFirst?_extendFirst, findFirst?_upTo, ih]
  | behind tag inner next hname hnone ih => simp [extendFirst, upTo, hname, hnone, ih]

/-- Filling leaves the same elements around. -/
theorem around_extendFirst (c : Content) :
    (c.extendFirst name more).around name = c.around name := by
  induction c using searchInduction name with
  | empty => rfl
  | leaf l next ih => exact ih
  | met tag inner next hname => simp [extendFirst, around, hname]
  | inside tag inner next hname hfound ih =>
    simp [extendFirst, around, hname, hfound, findFirst?_extendFirst, ih]
  | behind tag inner next hname hnone ih => simp [extendFirst, around, hname, hnone, ih]

/-! ## Dropping the first match -/

/-- Dropping the first match brings no element of a name into being. -/
theorem findFirst?_dropFirst_eq_none {c : Content} (h : c.findFirst? name = none) :
    (c.dropFirst drops).findFirst? name = none := by
  induction c with
  | empty => rfl
  | leaf l next ih => exact ih h
  | element tag inner next ihInner ihNext =>
    rw [findFirst?] at h
    split at h
    · cases h
    · rename_i hname
      obtain ⟨hinner, hnext⟩ := Option.or_eq_none_iff.1 h
      rw [dropFirst]
      split
      · exact hnext
      · split
        · rw [findFirst?, if_neg hname, ihInner hinner, hnext]
          rfl
        · rw [findFirst?, if_neg hname, hinner, ihNext hnext]
          rfl

/-- What is kept, with nothing behind it, loses its first match inside. -/
theorem dropFirst_last {tag : Tag} {inner : Content} (keep : drops tag = false) :
    (element tag inner .empty).dropFirst drops = .element tag (inner.dropFirst drops) .empty := by
  rw [dropFirst, keep, if_neg Bool.false_ne_true]
  split
  · rfl
  · rename_i hnone
    rw [dropFirst_eq_self (c := inner) (Bool.not_eq_true _ ▸ hnone)]
    rfl

section Sparing

variable (hdrops : ∀ t, drops t = true → t.name ≠ name)
include hdrops

/-- Dropping the first match leaves the first element of a name in the tree, if it is spared. -/
theorem isSome_findFirst?_dropFirst {c : Content} (h : c.Spares drops name) :
    ((c.dropFirst drops).findFirst? name).isSome = (c.findFirst? name).isSome := by
  induction c using searchInduction name with
  | empty => rfl
  | leaf l next ih => exact ih h
  | met tag inner next hname =>
    rw [dropFirst, if_neg (fun hdrop => hdrops tag hdrop hname)]
    split <;> simp [findFirst?, hname]
  | inside tag inner next hname hfound ih =>
    obtain ⟨keep, spared⟩ := h.inside hname hfound
    rw [dropFirst, keep, if_neg Bool.false_ne_true]
    split
    · simp [findFirst?, hname, ih spared, hfound]
    · simp [findFirst?, hname, hfound]
  | behind tag inner next hname hnone ih =>
    have later := ih (h.behind hname hnone)
    rw [dropFirst]
    split
    · simp [findFirst?, hname, hnone]
    · split
      · simp [findFirst?, hname, hnone, findFirst?_dropFirst_eq_none hnone]
      · simp [findFirst?, hname, hnone, later]

/-- Cutting off and dropping the first match commute, if the first element of the name is spared. -/
theorem upTo_dropFirst {c : Content} (h : c.Spares drops name) :
    (c.dropFirst drops).upTo name = (c.upTo name).dropFirst drops := by
  induction c using searchInduction name with
  | empty => rfl
  | leaf l next ih => rw [dropFirst, upTo, upTo, dropFirst, ih h]
  | met tag inner next hname =>
    have keep : drops tag = false := Bool.eq_false_iff.2 fun hdrop => hdrops tag hdrop hname
    rw [upTo, if_pos hname, dropFirst_last keep, dropFirst, keep, if_neg Bool.false_ne_true]
    split
    · simp [upTo, hname]
    · rename_i hinner
      simp [upTo, hname, dropFirst_eq_self (Bool.not_eq_true _ ▸ hinner)]
  | inside tag inner next hname hfound ih =>
    obtain ⟨keep, spared⟩ := h.inside hname hfound
    rw [dropFirst, keep, if_neg Bool.false_ne_true, upTo, if_neg hname, if_pos hfound,
      dropFirst_last keep, ← ih spared]
    split
    · simp [upTo, hname, isSome_findFirst?_dropFirst hdrops spared, hfound]
    · rename_i hinner
      simp [upTo, hname, hfound, dropFirst_eq_self (Bool.not_eq_true _ ▸ hinner)]
  | behind tag inner next hname hnone ih =>
    have cut : ∀ inner' next', inner'.findFirst? name = none →
        (element tag inner' next').upTo name = .element tag inner' (next'.upTo name) := by
      intro inner' next' hnone'
      simp [upTo, hname, hnone']
    rw [cut inner next hnone, dropFirst, dropFirst]
    split
    · rfl
    · split
      · exact cut _ _ (findFirst?_dropFirst_eq_none hnone)
      · rw [cut inner _ hnone, ih (h.behind hname hnone)]

/-- Pruning leaves the same elements around the first element of a name, if that is spared. -/
theorem around_prune {c : Content} (h : c.Spares drops name) :
    (c.prune drops).around name = c.around name := by
  induction c using searchInduction name with
  | empty => rfl
  | leaf l next ih => exact ih h
  | met tag inner next hname =>
    rw [prune, if_neg (fun hdrop => hdrops tag hdrop hname), around, around, if_pos hname,
      if_pos hname]
  | inside tag inner next hname hfound ih =>
    obtain ⟨keep, spared⟩ := h.inside hname hfound
    simp [prune, around, keep, hname, hfound, findFirst?_prune hdrops spared, ih spared]
  | behind tag inner next hname hnone ih =>
    have later := ih (h.behind hname hnone)
    rw [prune]
    split
    · simp [around, hname, hnone, later]
    · simp [around, hname, hnone, findFirst?_prune_eq_none hnone, later]

end Sparing

/-! ## Outermost matches -/

/-- The outermost matches of two contents. -/
theorem countOutermost_append (c d : Content) :
    (c.append d).countOutermost drops = c.countOutermost drops + d.countOutermost drops := by
  induction c with
  | empty => exact (Nat.zero_add _).symm
  | leaf l next ih => exact ih
  | element tag inner next _ ih => rw [append, countOutermost, countOutermost, ih, Nat.add_assoc]

/-- Pruning by whatever condition leaves no more outermost matches. -/
theorem countOutermost_prune_le (c : Content) :
    (c.prune drops').countOutermost drops ≤ c.countOutermost drops := by
  induction c with
  | empty => exact Nat.le_refl 0
  | leaf l next ih => exact ih
  | element tag inner next ihInner ihNext =>
    rw [prune, countOutermost]
    split
    · exact Nat.le_trans ihNext (Nat.le_add_left _ _)
    · rw [countOutermost]
      split <;> omega

/-- Pruning leaves no match. -/
theorem countOutermost_prune (c : Content) : (c.prune drops).countOutermost drops = 0 := by
  rw [countOutermost_eq_zero_iff, List.any_eq_false]
  intro t ht
  have hkeep := List.of_mem_filter ((tags_prune_sublist c).subset ht)
  rwa [Bool.not_eq_true', ← Bool.not_eq_true] at hkeep

/-- Filling adds no more outermost matches than those of the filling. -/
theorem countOutermost_extendFirst_le (c : Content) :
    (c.extendFirst name more).countOutermost drops
      ≤ c.countOutermost drops + more.countOutermost drops := by
  induction c with
  | empty => exact Nat.zero_le _
  | leaf l next ih => exact ih
  | element tag inner next ihInner ihNext =>
    rw [extendFirst, countOutermost]
    split
    · rw [countOutermost, countOutermost_append]
      split <;> omega
    · split
      · rw [countOutermost]
        split <;> omega
      · rw [countOutermost]
        split <;> omega

end Content

/-! ## The same for elements -/

namespace Element

variable {drops drops' : Tag → Bool} {name : String} {more : Content}

/-- The element up to the end of the first element of this name in it, which may be itself. -/
def upTo (e : Element) (name : String) : Element :=
  if e.name = name then e else { e with content := e.content.upTo name }

/-- No element inside this one that is around the first element of a name is dropped. -/
def Spares (drops : Tag → Bool) (name : String) (e : Element) : Prop :=
  e.name ≠ name → e.content.Spares drops name

instance (e : Element) : Decidable (e.Spares drops name) :=
  inferInstanceAs (Decidable (e.name ≠ name → e.content.Spares drops name))

/-- The first element of the name is found in this part. -/
theorem findFirst?_upTo (e : Element) : (e.upTo name).findFirst? name = e.findFirst? name := by
  rw [upTo]
  split
  · rfl
  · rename_i hname
    rw [findFirst?, findFirst?, if_neg hname, if_neg hname, Content.findFirst?_upTo]

/-- It is spared in this part if it is in the whole. -/
theorem spares_upTo {e : Element} : (e.upTo name).Spares drops name ↔ e.Spares drops name := by
  rw [upTo]
  split
  · rfl
  · rw [Spares, Spares, Content.Spares, Content.around_upTo]
    rfl

/-- The element that was filled is found with what was added. -/
theorem findFirst?_extendFirst (e : Element) :
    (e.extendFirst name more).findFirst? name = (e.findFirst? name).map (·.push more) := by
  rw [extendFirst, findFirst?, findFirst?]
  split
  · rename_i hname
    rw [if_pos (show (e.push more).name = name from hname)]
    rfl
  · exact Content.findFirst?_extendFirst e.content

/-- Cutting off and filling commute. -/
theorem upTo_extendFirst (e : Element) :
    (e.extendFirst name more).upTo name = (e.upTo name).extendFirst name more := by
  rw [upTo, congrArg Tag.name (toTag_extendFirst e), extendFirst, upTo, extendFirst]
  split
  · rfl
  · exact congrArg (Element.mk e.toTag) (Content.upTo_extendFirst e.content)

/-- Filling leaves the same elements around. -/
theorem spares_extendFirst {e : Element} :
    (e.extendFirst name more).Spares drops name ↔ e.Spares drops name := by
  rw [Spares, Spares, congrArg Tag.name (toTag_extendFirst e), extendFirst]
  refine imp_congr_right fun hname => ?_
  rw [if_neg hname, Content.Spares, Content.Spares, Content.around_extendFirst]

/-- Filling adds no more outermost matches than those of the filling. -/
theorem countOutermost_extendFirst_le (e : Element) :
    (e.extendFirst name more).content.countOutermost drops
      ≤ e.content.countOutermost drops + more.countOutermost drops := by
  rw [extendFirst]
  split
  · exact Nat.le_of_eq (Content.countOutermost_append _ _)
  · exact Content.countOutermost_extendFirst_le _

variable (hdrops : ∀ t, drops t = true → t.name ≠ name)
include hdrops

/-- Cutting off and dropping the first match commute, if the first element of the name is spared. -/
theorem upTo_dropFirst {e : Element} (h : e.Spares drops name) :
    (e.dropFirst drops).upTo name = (e.upTo name).dropFirst drops := by
  rw [upTo, upTo]
  by_cases hname : e.name = name
  · rw [if_pos hname, if_pos (show (e.dropFirst drops).name = name from hname)]
  · rw [if_neg hname, if_neg (show ¬ (e.dropFirst drops).name = name from hname)]
    exact congrArg (Element.mk e.toTag) (Content.upTo_dropFirst hdrops (h hname))

/-- The first element of a name, if it is spared, is found pruned. -/
theorem findFirst?_prune {e : Element} (h : e.Spares drops name) :
    (e.prune drops).findFirst? name = (e.findFirst? name).map (·.prune drops) := by
  rw [findFirst?, findFirst?]
  by_cases hname : e.name = name
  · rw [if_pos hname, if_pos (show (e.prune drops).name = name from hname)]
    rfl
  · rw [if_neg hname, if_neg (show ¬ (e.prune drops).name = name from hname)]
    exact Content.findFirst?_prune hdrops (h hname)

/-- Pruning leaves the same elements around the first element of a name, if that is spared. -/
theorem spares_prune {e : Element} (h : e.Spares drops name) :
    (e.prune drops).Spares drops' name ↔ e.Spares drops' name := by
  refine imp_congr_right fun hname => ?_
  rw [Content.Spares, Content.Spares, show (e.prune drops).content = e.content.prune drops from rfl,
    Content.around_prune hdrops (h hname)]

end Element

end PlcWorkbench.Xml
