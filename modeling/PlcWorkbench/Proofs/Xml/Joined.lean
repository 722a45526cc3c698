import PlcWorkbench.Proofs.Xml.JoinText
import PlcWorkbench.Proofs.Xml.Surgery

/-!
# Editing a joined tree

Joining the texts of a tree before an edit makes no difference to the joined tree after it. The
reason is one and the same for all edits that pass over leaves: what they do behind a text they do
behind any text, also behind the one that it was joined with (`joinText_apply_leaf`). Appending,
dropping the first match and filling the first element of a name are such edits.
-/

namespace PlcWorkbench.Xml

namespace Content

variable {drops : Tag → Bool} {name : String} {more : Content}

/-! ## Edits that pass over leaves -/

section Edits

variable (edit : Content → Content) (hedit : ∀ l next, edit (.leaf l next) = .leaf l (edit next))
include hedit

/-- An edit that passes over leaves, done behind a text, and joined. -/
theorem joinText_apply_consText (t : String) (c : Content) :
    (edit (consText t c)).joinText = consText t (edit c).joinText := by
  by_cases h : c.startsWithText
  · obtain ⟨u, next, hc⟩ := exists_of_startsWithText h
    subst hc
    rw [consText, hedit, hedit, joinText, joinText, consText_consText]
  · rw [Bool.not_eq_true] at h
    rw [consText_of_not_text h]
    by_cases ht : t = ""
    · rw [if_pos ht, ht, consText_empty]
    · rw [if_neg ht, hedit, joinText]

/-- If joining before the edit makes no difference to the rest, it makes none to the rest behind a
leaf. -/
theorem joinText_apply_leaf {l : Leaf} {next : Content}
    (ih : (edit next.joinText).joinText = (edit next).joinText) :
    (edit (Content.leaf l next).joinText).joinText = (edit (.leaf l next)).joinText := by
  by_cases hl : l.isText = true
  · obtain ⟨t, rfl⟩ := Leaf.exists_of_isText hl
    rw [joinText, joinText_apply_consText edit hedit, ih, hedit, joinText]
  · rw [Bool.not_eq_true] at hl
    rw [joinText_leaf hl, hedit, hedit, joinText_leaf hl, joinText_leaf hl, ih]

end Edits

/-- Joining twice is joining once. -/
@[simp] theorem joinText_joinText (c : Content) : c.joinText.joinText = c.joinText := by
  induction c with
  | empty => rfl
  | leaf l next ih => exact joinText_apply_leaf id (fun _ _ => rfl) ih
  | element tag inner next ihInner ihNext => rw [joinText, joinText, ihInner, ihNext]

/-- Text holds no tag. -/
theorem tags_consText (t : String) (c : Content) : (consText t c).tags = c.tags := by
  unfold consText
  split
  · rfl
  · split <;> rfl

/-- A joined tree has the tags that it had before. -/
@[simp] theorem tags_joinText (c : Content) : c.joinText.tags = c.tags := by
  induction c with
  | empty => rfl
  | leaf l next ih =>
    by_cases hl : l.isText = true
    · obtain ⟨t, rfl⟩ := Leaf.exists_of_isText hl
      rw [joinText, tags_consText, ih, tags]
    · rw [Bool.not_eq_true] at hl
      rw [joinText_leaf hl, tags, tags, ih]
  | element tag inner next ihInner ihNext => rw [joinText, tags, tags, ihInner, ihNext]

/-- Whether an element of a name is found shows in the tags. -/
theorem isSome_findFirst? (c : Content) :
    (c.findFirst? name).isSome = c.tags.any (·.name == name) := by
  rw [Bool.eq_iff_iff, Option.isSome_iff_ne_none, ne_eq, findFirst?_eq_none_iff, List.any_eq_true]
  push Not
  simp only [beq_iff_eq]

/-! ## Appending, dropping and filling -/

/-- Joining before something is appended. -/
theorem joinText_append (c : Content) :
    (c.joinText.append more).joinText = (c.append more).joinText := by
  induction c with
  | empty => rfl
  | leaf l next ih => exact joinText_apply_leaf (append · more) (fun _ _ => rfl) ih
  | element tag inner next ihInner ihNext =>
    rw [joinText, append, append, joinText, joinText, joinText_joinText, ihNext]

/-- Joining before the first match is dropped. -/
theorem joinText_dropFirst (c : Content) :
    (c.joinText.dropFirst drops).joinText = (c.dropFirst drops).joinText := by
  induction c with
  | empty => rfl
  | leaf l next ih => exact joinText_apply_leaf (dropFirst drops) (fun _ _ => rfl) ih
  | element tag inner next ihInner ihNext =>
    rw [joinText, dropFirst, dropFirst, tags_joinText]
    split
    · exact joinText_joinText next
    · split
      · rw [joinText, joinText, ihInner, joinText_joinText]
      · rw [joinText, joinText, ihNext, joinText_joinText]

/-- Joining before the first element of a name is filled. -/
theorem joinText_extendFirst (c : Content) :
    (c.joinText.extendFirst name more).joinText = (c.extendFirst name more).joinText := by
  induction c with
  | empty => rfl
  | leaf l next ih => exact joinText_apply_leaf (extendFirst · name more) (fun _ _ => rfl) ih
  | element tag inner next ihInner ihNext =>
    rw [joinText, extendFirst, extendFirst, isSome_findFirst?, tags_joinText, ← isSome_findFirst?]
    split
    · rw [joinText, joinText, joinText_append, joinText_joinText]
    · split
      · rw [joinText, joinText, ihInner, joinText_joinText]
      · rw [joinText, joinText, ihNext, joinText_joinText]

end Content

/-! ## Elements that are the same up to joined texts -/

namespace Element

variable {e e' : Element} {drops : Tag → Bool} {name : String} {more : Content}

/-- They have the same tag, and the same content up to joined texts. -/
theorem joinText_eq_iff :
    e.joinText = e'.joinText ↔ e.toTag = e'.toTag ∧ e.content.joinText = e'.content.joinText := by
  constructor
  · intro h
    rw [joinText, joinText, Element.mk.injEq] at h
    exact h
  · rintro ⟨htag, hcontent⟩
    rw [joinText, joinText, hcontent, htag]

/-- They have the same tags inside. -/
theorem tags_congr (h : e.joinText = e'.joinText) : e.content.tags = e'.content.tags := by
  rw [← Content.tags_joinText, (joinText_eq_iff.1 h).2, Content.tags_joinText]

/-- A search succeeds on both or on neither. -/
theorem isSome_findFirst?_congr (h : e.joinText = e'.joinText) :
    (e.findFirst? name).isSome = (e'.findFirst? name).isSome := by
  rw [findFirst?, findFirst?, (joinText_eq_iff.1 h).1]
  split
  · rfl
  · rw [Content.isSome_findFirst?, Content.isSome_findFirst?, tags_congr h]

/-- Dropping the first match keeps them the same. -/
theorem dropFirst_congr (h : e.joinText = e'.joinText) :
    (e.dropFirst drops).joinText = (e'.dropFirst drops).joinText := by
  obtain ⟨htag, hcontent⟩ := joinText_eq_iff.1 h
  refine joinText_eq_iff.2 ⟨htag, ?_⟩
  rw [dropFirst, dropFirst, ← Content.joinText_dropFirst, hcontent, Content.joinText_dropFirst]

/-- Filling the first element of a name keeps them the same. -/
theorem extendFirst_congr (h : e.joinText = e'.joinText) :
    (e.extendFirst name more).joinText = (e'.extendFirst name more).joinText := by
  obtain ⟨htag, hcontent⟩ := joinText_eq_iff.1 h
  refine joinText_eq_iff.2 ⟨by rw [toTag_extendFirst, toTag_extendFirst, htag], ?_⟩
  rw [extendFirst, extendFirst, htag]
  split
  · rw [push, push, ← Content.joinText_append, hcontent, Content.joinText_append]
  · rw [← Content.joinText_extendFirst, hcontent, Content.joinText_extendFirst]

end Element

/-- Joining the texts of a document twice is joining them once. -/
theorem Document.joinText_joinText (d : Document) : d.joinText.joinText = d.joinText := by
  rw [joinText, joinText, Element.joinText, Element.joinText, Content.joinText_joinText]

end PlcWorkbench.Xml
