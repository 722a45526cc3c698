import PlcWorkbench.Proofs.Xml.Removal
import PlcWorkbench.Xml.Row

/-!
# Edits in the listing

The rows of an element stand together in the listing of a tree, as one block. A spot is where a
block stands: the rows before it, its depth, and the rows after it. Removing the first element that
meets a condition and editing the first element of a name both put something else at the spot of one
element, nothing in the one case and the edited element in the other, so `substFirst` stands for
both.

* `rows_injective` : a tree can be read off its listing;
* `Content.exists_spot` : the spot of the first element that meets a condition, before and after a
  substitution;
* `Content.removeFirst?_eq_substFirst`, `Content.updateFirst?_eq_substFirst` : the two edits are
  substitutions;
* `Element.removal_cuts` : a removal cuts one block out of the listing.
-/

namespace PlcWorkbench.Xml

/-! ## Rows -/

/-- The tag that a row shows, if the row is one of an element. -/
def Row.tag? (r : Row) : Option Tag :=
  match r.item with
  | .element tag => some tag
  | .leaf _ => none

/-- The block of an element whose own row stands at `depth`. -/
def Element.rowsAt (e : Element) (depth : Nat) : List Row :=
  ⟨depth, .element e.toTag⟩ :: e.content.rows (depth + 1)

namespace Content

/-- The rows of two contents, one after the other. -/
theorem rows_append (c d : Content) (depth : Nat) :
    (c.append d).rows depth = c.rows depth ++ d.rows depth := by
  induction c with
  | empty => rfl
  | leaf l next ih => rw [append, rows, rows, ih, List.cons_append]
  | element tag inner next _ ih => rw [append, rows, rows, ih, List.cons_append, List.append_assoc]

/-- A content that is one element is listed as its block. -/
theorem rows_ofElement (e : Element) (depth : Nat) : (ofElement e).rows depth = e.rowsAt depth := by
  rw [ofElement, rows, rows, List.append_nil, Element.rowsAt]

/-- The rows show the tags in their order. -/
theorem filterMap_rows (c : Content) (depth : Nat) :
    (c.rows depth).filterMap Row.tag? = c.tags := by
  induction c generalizing depth with
  | empty => rfl
  | leaf l next ih => exact ih depth
  | element tag inner next ihInner ihNext =>
    rw [rows, List.filterMap_cons_some (show Row.tag? _ = some tag from rfl), List.filterMap_append,
      ihInner, ihNext, tags]

/-- No row stands further out than the content. -/
theorem le_depth_of_mem_rows {c : Content} {depth : Nat} {r : Row} (h : r ∈ c.rows depth) :
    depth ≤ r.depth := by
  induction c generalizing depth with
  | empty => cases h
  | leaf l next ih =>
    rcases List.mem_cons.1 h with rfl | hnext
    · exact Nat.le_refl depth
    · exact ih hnext
  | element tag inner next ihInner ihNext =>
    rcases List.mem_cons.1 h with rfl | hbelow
    · exact Nat.le_refl depth
    · rcases List.mem_append.1 hbelow with hinner | hnext
      · have := ihInner hinner
        omega
      · exact ihNext hnext

/-- The first row of a content stands at its depth. -/
theorem takeWhile_rows (c : Content) (depth : Nat) :
    (c.rows depth).takeWhile (depth < ·.depth) = [] := by
  cases c with
  | empty => rfl
  | leaf l next => exact List.takeWhile_cons_of_neg (by simp)
  | element tag inner next => exact List.takeWhile_cons_of_neg (by simp)

/-- Where the content of an element ends shows in the depths. -/
theorem takeWhile_rows_append (inner next : Content) (depth : Nat) :
    (inner.rows (depth + 1) ++ next.rows depth).takeWhile (depth < ·.depth)
      = inner.rows (depth + 1) := by
  have deeper : ∀ r ∈ inner.rows (depth + 1), decide (depth < r.depth) = true := by
    intro r hr
    exact decide_eq_true (le_depth_of_mem_rows hr)
  rw [List.takeWhile_append_of_pos deeper, takeWhile_rows, List.append_nil]

/-- **A content can be read off its rows.** -/
theorem rows_injective {c d : Content} {depth : Nat} (h : c.rows depth = d.rows depth) : c = d := by
  induction c generalizing d depth with
  | empty =>
    cases d with
    | empty => rfl
    | leaf l next => cases h
    | element tag inner next => cases h
  | leaf l next ih =>
    cases d with
    | empty => cases h
    | leaf l' next' =>
      rw [rows, rows] at h
      injection h with hrow hnext
      injection hrow with _ hitem
      injection hitem with hleaf
      rw [hleaf, ih hnext]
    | element tag inner next' => cases h
  | element tag inner next ihInner ihNext =>
    cases d with
    | empty => cases h
    | leaf l next' => cases h
    | element tag' inner' next' =>
      rw [rows, rows] at h
      injection h with hrow hbelow
      injection hrow with _ hitem
      injection hitem with htag
      have hinner : inner.rows (depth + 1) = inner'.rows (depth + 1) := by
        rw [← takeWhile_rows_append inner next, hbelow, takeWhile_rows_append]
      have hnext : next.rows depth = next'.rows depth := by
        rw [hinner] at hbelow
        exact List.append_cancel_left hbelow
      rw [htag, ihInner hinner, ihNext hnext]

end Content

/-- An element is listed as a content of its own. -/
theorem Element.rows_eq (e : Element) : e.rows = (Content.ofElement e).rows 0 := by
  rw [Content.rows_ofElement]
  rfl

/-- **A tree can be read off its listing.** -/
theorem Element.rows_injective {e e' : Element} (h : e.rows = e'.rows) : e = e' := by
  rw [rows_eq, rows_eq] at h
  exact Content.ofElement_injective (Content.rows_injective h)

/-! ## Spots -/

/-- A place in a listing. -/
structure Spot where
  before : List Row
  depth : Nat
  after : List Row

/-- The listing with a content at this place. -/
def Spot.fill (s : Spot) (c : Content) : List Row := s.before ++ (c.rows s.depth ++ s.after)

namespace Content

variable {condition : Element → Bool} {found : Element} {name : String} {c : Content}

/-- The content in which the first element that meets the condition is replaced by what `fill` makes
of it. -/
def substFirst (condition : Element → Bool) (fill : Element → Content) : Content → Content
  | .empty => .empty
  | .leaf l next => .leaf l (next.substFirst condition fill)
  | .element tag inner next =>
    if condition ⟨tag, inner⟩ then (fill ⟨tag, inner⟩).append next
    else if (inner.elements.find? condition).isSome then .element tag
        (inner.substFirst condition fill) next
    else .element tag inner (next.substFirst condition fill)

/-- **The spot of the first match.** The elements listed before it do not meet the condition, and a
substitution changes the listing at this place only. -/
theorem exists_spot (h : c.elements.find? condition = some found) (depth : Nat) :
    ∃ (s : Spot) (earlier later : List Element), c.elements = earlier ++ found :: later
      ∧ (∀ e ∈ earlier, condition e = false) ∧ s.before.filterMap Row.tag? = earlier.map (·.toTag)
      ∧ c.rows depth = s.fill (ofElement found)
      ∧ ∀ fill, (c.substFirst condition fill).rows depth = s.fill (fill found) := by
  induction c generalizing depth with
  | empty => cases h
  | leaf l next ih =>
    obtain ⟨s, earlier, later, hlisted, hearlier, hbefore, hrows, hfill⟩ := ih h depth
    refine ⟨{ s with before := ⟨depth, .leaf l⟩ :: s.before }, earlier, later, hlisted, hearlier,
      hbefore, ?_, ?_⟩
    · rw [rows, hrows]
      rfl
    · intro fill
      rw [substFirst, rows, hfill]
      rfl
  | element tag inner next ihInner ihNext =>
    rw [elements, List.find?_cons] at h
    by_cases here : condition ⟨tag, inner⟩ = true
    · -- the element itself: its block is followed by the rows behind it
      rw [here] at h
      obtain rfl := Option.some.inj h
      refine ⟨⟨[], depth, next.rows depth⟩, [], inner.elements ++ next.elements, rfl,
        List.forall_mem_nil _, rfl, ?_, ?_⟩
      · rw [Spot.fill, rows_ofElement]
        rfl
      · intro fill
        rw [substFirst, if_pos here, rows_append]
        rfl
    · have kept : condition ⟨tag, inner⟩ = false := Bool.eq_false_iff.2 here
      rw [kept, List.find?_append] at h
      cases hinner : inner.elements.find? condition with
      | some first =>
        rw [hinner] at h
        obtain rfl := Option.some.inj h
        obtain ⟨s, earlier, later, hlisted, hearlier, hbefore, hrows, hfill⟩ :=
          ihInner hinner (depth + 1)
        refine ⟨⟨⟨depth, .element tag⟩ :: s.before, s.depth, s.after ++ next.rows depth⟩,
          ⟨tag, inner⟩ :: earlier, later ++ next.elements, ?_,
          List.forall_mem_cons.2 ⟨kept, hearlier⟩, ?_, ?_, ?_⟩
        · rw [elements, hlisted]
          simp only [List.append_assoc, List.cons_append]
        · rw [List.filterMap_cons_some (show Row.tag? _ = some tag from rfl), hbefore]
          rfl
        · rw [rows, hrows]
          simp only [Spot.fill, List.append_assoc, List.cons_append]
        · intro fill
          rw [substFirst, if_neg here, hinner, Option.isSome_some, if_pos rfl, rows, hfill]
          simp only [Spot.fill, List.append_assoc, List.cons_append]
      | none =>
        rw [hinner] at h
        obtain ⟨s, earlier, later, hlisted, hearlier, hbefore, hrows, hfill⟩ := ihNext h depth
        -- everything inside this element is listed before, and does not meet the condition
        have inside : ∀ e ∈ inner.elements, condition e = false := fun e he =>
          Bool.eq_false_iff.2 (List.find?_eq_none.1 hinner e he)
        refine ⟨{ s with before := ⟨depth, .element tag⟩ :: (inner.rows (depth + 1) ++ s.before) },
          ⟨tag, inner⟩ :: (inner.elements ++ earlier), later, ?_,
          List.forall_mem_cons.2 ⟨kept, List.forall_mem_append.2 ⟨inside, hearlier⟩⟩, ?_, ?_, ?_⟩
        · rw [elements, hlisted]
          simp only [List.append_assoc, List.cons_append]
        · rw [List.filterMap_cons_some (show Row.tag? _ = some tag from rfl), List.filterMap_append,
            filterMap_rows, hbefore, List.map_cons, List.map_append, map_toTag_elements]
        · rw [rows, hrows]
          simp only [Spot.fill, List.append_assoc, List.cons_append]
        · intro fill
          rw [substFirst, if_neg here, hinner, Option.isSome_none, if_neg Bool.false_ne_true, rows,
            hfill]
          simp only [Spot.fill, List.append_assoc, List.cons_append]

/-! ## Edits are substitutions -/

/-- Removing the first match puts nothing in its place. -/
theorem removeFirst?_eq_substFirst (condition : Element → Bool) (c : Content) :
    c.removeFirst? condition
      = (c.elements.find? condition).map fun found =>
        (found, c.substFirst condition fun _ => .empty) := by
  induction c with
  | empty => rfl
  | leaf l next ih =>
    rw [removeFirst?, ih, Option.map_map, elements]
    rfl
  | element tag inner next ihInner ihNext =>
    rw [removeFirst?, elements, List.find?_cons, List.find?_append, substFirst, ihInner, ihNext]
    by_cases here : condition ⟨tag, inner⟩ = true
    · simp only [here, if_true, Option.map_some]
      rfl
    · rw [Bool.not_eq_true] at here
      simp only [here, Bool.false_eq_true, if_false]
      cases hinner : inner.elements.find? condition with
      | some first => rfl
      | none =>
        simp only [Option.map_none, Option.none_or, Option.map_map]
        rfl

/-- The first element of a name is the first in the listing that has it. -/
theorem findFirst?_eq_find? (name : String) (c : Content) :
    c.findFirst? name = c.elements.find? (·.name == name) := by
  induction c with
  | empty => rfl
  | leaf l next ih => exact ih
  | element tag inner next ihInner ihNext =>
    rw [findFirst?, elements, List.find?_cons, List.find?_append, ihInner, ihNext]
    by_cases here : tag.name = name
    · rw [if_pos here, show (tag.name == name) = true from beq_iff_eq.2 here]
    · rw [if_neg here, show (tag.name == name) = false from beq_eq_false_iff_ne.2 here]

/-- Editing the first element of a name puts the edited element in its place. -/
theorem updateFirst?_eq_substFirst {α : Type} (name : String) (edit : Element → α × Element)
    (c : Content) :
    c.updateFirst? name edit = (c.findFirst? name).map fun target =>
      ((edit target).1, c.substFirst (·.name == name) fun e => .ofElement (edit e).2) := by
  induction c with
  | empty => rfl
  | leaf l next ih =>
    rw [updateFirst?, ih, Option.map_map, findFirst?]
    rfl
  | element tag inner next ihInner ihNext =>
    rw [updateFirst?, findFirst?, substFirst, ihInner, ihNext, ← findFirst?_eq_find?]
    by_cases here : tag.name = name
    · simp only [here, if_true, BEq.rfl, Option.map_some]
      rfl
    · simp only [here, if_false, beq_iff_eq]
      cases hinner : inner.findFirst? name with
      | some first => rfl
      | none =>
        simp only [Option.map_none, Option.none_or, Option.map_map]
        rfl

/-- The edited element is found, if it has kept its name. -/
theorem findFirst?_substFirst {target : Element} (h : c.findFirst? name = some target)
    (edit : Element → Element) (hname : (edit target).name = name) :
    (c.substFirst (·.name == name) fun e => .ofElement (edit e)).findFirst? name
      = some (edit target) := by
  induction c using searchInduction name with
  | empty => cases h
  | leaf l next ih => exact ih h
  | met tag inner next here =>
    rw [findFirst?, if_pos here] at h
    obtain rfl := Option.some.inj h
    rw [substFirst, if_pos (beq_iff_eq.2 here), ofElement, append, findFirst?, if_pos hname]
  | inside tag inner next here hfound ih =>
    obtain ⟨first, hinner⟩ := Option.isSome_iff_exists.1 hfound
    rw [findFirst?, if_neg here, hinner, Option.some_or] at h
    rw [substFirst, if_neg (mt beq_iff_eq.1 here), ← findFirst?_eq_find?, if_pos hfound, findFirst?,
      if_neg here, ih (hinner.trans h), Option.some_or]
  | behind tag inner next here hnone ih =>
    rw [findFirst?, if_neg here, hnone, Option.none_or] at h
    rw [substFirst, if_neg (mt beq_iff_eq.1 here), ← findFirst?_eq_find?, hnone, Option.isSome_none,
      if_neg Bool.false_ne_true, findFirst?, if_neg here, hnone, Option.none_or, ih h]

/-- What every part of a content meets, every part meets after a substitution by something that
meets it. -/
theorem All.substFirst {onLeaf : Leaf → Prop} {onTag : Tag → Prop} {fill : Element → Content}
    (h : c.All onLeaf onTag)
    (hfill : ∀ found, c.elements.find? condition = some found → (fill found).All onLeaf onTag) :
    (c.substFirst condition fill).All onLeaf onTag := by
  induction c with
  | empty => trivial
  | leaf l next ih => exact ⟨h.1, ih h.2 hfill⟩
  | element tag inner next ihInner ihNext =>
    simp only [elements, List.find?_cons, List.find?_append] at hfill
    rw [Content.substFirst]
    by_cases here : condition ⟨tag, inner⟩ = true
    · rw [if_pos here]
      rw [here] at hfill
      exact all_append.2 ⟨hfill _ rfl, h.2.2⟩
    · rw [if_neg here]
      rw [Bool.eq_false_iff.2 here] at hfill
      cases hinner : inner.elements.find? condition with
      | some first =>
        rw [hinner] at hfill
        exact ⟨h.1, ihInner h.2.1 fun found hfound => hfill found (by rw [← hfound, hinner]; rfl),
          h.2.2⟩
      | none =>
        rw [hinner] at hfill
        exact ⟨h.1, h.2.1, ihNext h.2.2 hfill⟩

/-! ## Elements inside elements -/

/-- The elements inside an element of a content are among those of the content, in the same
order. -/
theorem elements_sublist_of_mem {inside : Element} (h : inside ∈ c.elements) :
    inside.elements.Sublist c.elements := by
  induction c with
  | empty => cases h
  | leaf l next ih => exact ih h
  | element tag inner next ihInner ihNext =>
    rw [elements, List.mem_cons, List.mem_append] at h
    rw [elements]
    obtain rfl | hinner | hnext := h
    · exact (List.sublist_append_left _ _).cons_cons _
    · exact ((ihInner hinner).trans (List.sublist_append_left _ _)).cons _
    · exact ((ihNext hnext).trans (List.sublist_append_right _ _)).cons _

/-- The children are among the elements, in the same order. -/
theorem children_sublist_elements (c : Content) : c.children.Sublist c.elements := by
  induction c with
  | empty => exact List.Sublist.refl _
  | leaf l next ih => exact ih
  | element tag inner next _ ih => exact (ih.trans (List.sublist_append_right _ _)).cons_cons _

end Content

namespace Element

variable {e found : Element} {name : String}

/-- The elements inside an element of a tree are among those of the tree, in the same order. -/
theorem elements_sublist_of_mem {inside : Element} (h : inside ∈ e.elements) :
    inside.elements.Sublist e.elements := by
  rw [← Content.elements_ofElement e] at h ⊢
  exact Content.elements_sublist_of_mem h

/-- No element is inside itself. -/
theorem ne_of_mem_content (h : found ∈ e.content.elements) : found ≠ e := by
  rintro rfl
  have shorter := (Content.elements_sublist_of_mem h).length_le
  rw [elements, List.length_cons] at shorter
  omega

/-! ## Removing -/

/-- What a removal answers, and the tree that it leaves, which is the same if there is nothing to
take out. -/
def removal (e : Element) (condition : Element → Bool) : Option Element × Element :=
  match e.removeFirst? condition with
  | none => (none, e)
  | some (found, rest) => (some found, rest)

/-- Removing the first match inside an element puts nothing in its place. -/
theorem removeFirst?_eq_substFirst (condition : Element → Bool) (e : Element) :
    e.removeFirst? condition = (e.content.elements.find? condition).map fun found =>
      (found, { e with content := e.content.substFirst condition fun _ => .empty }) := by
  rw [removeFirst?, Content.removeFirst?_eq_substFirst, Option.map_map]
  rfl

/-- **A removal cuts exactly one block out of the listing.** If an element inside meets the
condition, the first one in document order is taken out as it is, and what is left is listed as
before, without the rows of that element. Otherwise nothing is taken out. -/
theorem removal_cuts (condition : Element → Bool) (e : Element) :
    ((∀ inside ∈ e.content.elements, condition inside = false) → e.removal condition = (none, e))
      ∧ ((∃ inside ∈ e.content.elements, condition inside = true) →
        ∃ (found rest : Element) (earlier later : List Element) (s : Spot),
          e.removal condition = (some found, rest)
            ∧ e.elements = e :: (earlier ++ found :: later) ∧ found ≠ e
            ∧ condition found = true ∧ (∀ inside ∈ earlier, condition inside = false)
            ∧ s.before.filterMap Row.tag? = (e :: earlier).map (·.toTag)
            ∧ e.rows = s.before ++ (found.rowsAt s.depth ++ s.after)
            ∧ rest.rows = s.before ++ s.after
            ∧ ∀ other : Element, other.rows = s.before ++ s.after → other = rest) := by
  constructor
  · intro hnone
    have missing : e.content.elements.find? condition = none := by
      rw [List.find?_eq_none]
      intro inside hinside
      rw [hnone inside hinside]
      exact Bool.false_ne_true
    rw [removal, removeFirst?_eq_substFirst, missing]
    rfl
  · rintro ⟨inside, hinside, hcondition⟩
    obtain ⟨found, hfound⟩ :=
      Option.isSome_iff_exists.1 (List.find?_isSome.2 ⟨inside, hinside, hcondition⟩)
    obtain ⟨s, earlier, later, hlisted, hearlier, hbefore, hrows, hfill⟩ :=
      Content.exists_spot hfound 1
    have left := hfill fun _ => .empty
    -- the row of the element itself stands in front of the others
    have rest : Element.rows { e with content := e.content.substFirst condition fun _ => .empty }
        = ⟨0, .element e.toTag⟩ :: s.before ++ s.after := by
      rw [rows, left]
      rfl
    refine ⟨found, { e with content := e.content.substFirst condition fun _ => .empty }, earlier,
      later, { s with before := ⟨0, .element e.toTag⟩ :: s.before }, ?_, ?_,
      ne_of_mem_content (List.mem_of_find?_eq_some hfound), List.find?_some hfound, hearlier, ?_,
      ?_, rest, ?_⟩
    · rw [removal, removeFirst?_eq_substFirst, hfound]
      rfl
    · rw [elements, hlisted]
    · rw [List.filterMap_cons_some (show Row.tag? _ = some e.toTag from rfl), hbefore]
      rfl
    · rw [rows, hrows, Spot.fill, Content.rows_ofElement]
      rfl
    · intro other hother
      exact rows_injective (hother.trans rest.symm)

/-- Items in a group, one inside another, and one more behind the group. -/
def nested : Element where
  name := "r"
  content :=
    .leaf (.text "x") <|
    .element ⟨"g", []⟩
      (.leaf (.comment "c") <|
        .element ⟨"i", [("n", "1")]⟩ (.element ⟨"i", [("n", "2")]⟩ .empty .empty) <|
        .leaf (.cdata "y") .empty) <|
    .element ⟨"i", [("n", "3")]⟩ .empty .empty

/-- The item in the group is taken out, with the one inside it. -/
theorem removal_cuts_nested :
    (∃ inside ∈ nested.content.elements, (inside.name == "i") = true)
      ∧ ∃ (found rest : Element) (s : Spot), nested.removal (·.name == "i") = (some found, rest)
        ∧ nested.rows = s.before ++ (found.rowsAt s.depth ++ s.after)
        ∧ rest.rows = s.before ++ s.after := by
  have some_item : ∃ inside ∈ nested.content.elements, (inside.name == "i") = true := by decide
  obtain ⟨found, rest, _, _, s, hremoval, -, -, -, -, -, hrows, hrest, -⟩ :=
    (removal_cuts (·.name == "i") nested).2 some_item
  exact ⟨some_item, found, rest, s, hremoval, hrows, hrest⟩

/-! ## Editing -/

/-- Editing in a content that is one element. -/
theorem updateFirst?_ofElement {α : Type} (name : String) (edit : Element → α × Element)
    (e : Element) : (Content.ofElement e).updateFirst? name edit
      = (e.updateFirst? name edit).map fun (answer, e) => (answer, Content.ofElement e) := by
  rw [Content.ofElement, Content.updateFirst?, updateFirst?]
  by_cases here : e.name = name
  · rw [if_pos here, if_pos here]
    rfl
  · rw [if_neg here, if_neg here]
    cases e.content.updateFirst? name edit <;> rfl

/-- Without an element of the name there is nothing to edit. -/
theorem updateFirst?_eq_none {α : Type} {edit : Element → α × Element}
    (h : e.findFirst? name = none) :
    e.updateFirst? name edit = none := by
  have nothing : (Content.ofElement e).updateFirst? name edit = none := by
    rw [Content.updateFirst?_eq_substFirst, Content.findFirst?_ofElement, h]
    rfl
  rw [updateFirst?_ofElement] at nothing
  exact Option.map_eq_none_iff.1 nothing

/-- **An edit shows at one spot.** If the first element of the name keeps it, the edited element is
found in its place, and all that was listed outside its block is listed as before. -/
theorem exists_updateFirst? {α : Type} {edit : Element → α × Element} {target : Element}
    (h : e.findFirst? name = some target) (hname : (edit target).2.name = name) :
    ∃ (e' : Element) (s : Spot), e.updateFirst? name edit = some ((edit target).1, e')
      ∧ e'.findFirst? name = some (edit target).2
      ∧ (∀ t ∈ s.before.filterMap Row.tag?, t.name ≠ name)
      ∧ e.rows = s.before ++ (target.rowsAt s.depth ++ s.after)
      ∧ e'.rows = s.before ++ ((edit target).2.rowsAt s.depth ++ s.after) := by
  rw [← Content.findFirst?_ofElement] at h
  -- the edit is a substitution in the content that is this element alone
  have update := Content.updateFirst?_eq_substFirst name edit (Content.ofElement e)
  rw [h, updateFirst?_ofElement] at update
  obtain ⟨⟨answer, e'⟩, hupdate, heq⟩ := Option.map_eq_some_iff.1 update
  obtain ⟨rfl, hedited⟩ := Prod.mk.inj heq
  have found := Content.findFirst?_substFirst h (fun x => (edit x).2) hname
  rw [← hedited, Content.findFirst?_ofElement] at found
  rw [Content.findFirst?_eq_find?] at h
  obtain ⟨s, earlier, later, -, hearlier, hbefore, hrows, hfill⟩ := Content.exists_spot h 0
  have filled := hfill fun x => Content.ofElement (edit x).2
  rw [← hedited] at filled
  refine ⟨e', s, hupdate, found, ?_, ?_, ?_⟩
  · rw [hbefore, List.forall_mem_map]
    intro inside hinside
    exact beq_eq_false_iff_ne.1 (hearlier inside hinside)
  · rw [rows_eq, hrows, Spot.fill, Content.rows_ofElement]
  · rw [rows_eq, filled, Spot.fill, Content.rows_ofElement]

variable {onLeaf : Leaf → Prop} {onTag : Tag → Prop}

/-- What every part of an element meets, every part that a removal leaves meets. -/
theorem All.removal (h : e.All onLeaf onTag) (condition : Element → Bool) :
    (e.removal condition).2.All onLeaf onTag := by
  rw [Element.removal, removeFirst?_eq_substFirst]
  cases e.content.elements.find? condition with
  | none => exact h
  | some found => exact ⟨h.1, h.2.substFirst fun _ _ => trivial⟩

/-- What every part of an element and of the edited one inside it meets, every part meets after the
edit. -/
theorem All.updateFirst? {α : Type} {edit : Element → α × Element} {answer : α} {e' : Element}
    (h : e.All onLeaf onTag)
    (hedit : ∀ target, e.findFirst? name = some target → (edit target).2.All onLeaf onTag)
    (hupdate : e.updateFirst? name edit = some (answer, e')) : e'.All onLeaf onTag := by
  have whole : (Content.ofElement e).All onLeaf onTag := ⟨h.1, h.2, trivial⟩
  have update := updateFirst?_ofElement name edit e
  rw [hupdate, Content.updateFirst?_eq_substFirst] at update
  obtain ⟨target, -, heq⟩ := Option.map_eq_some_iff.1 update
  have substituted :
      ((Content.ofElement e).substFirst (·.name == name) fun x => Content.ofElement (edit x).2).All
        onLeaf onTag := by
    refine whole.substFirst fun found hfound => ?_
    rw [← Content.findFirst?_eq_find?, Content.findFirst?_ofElement] at hfound
    exact ⟨(hedit found hfound).1, (hedit found hfound).2, trivial⟩
  rw [(Prod.mk.inj heq).2] at substituted
  exact ⟨substituted.1, substituted.2.1⟩

end Element

/-- An edit of one element. -/
inductive Edit where
  | setAttribute (key value : String)
  | pushChild (child : Element)
  | pushLeaf (leaf : Leaf)
  | removeFirst (condition : Element → Bool)

/-- What an edit answers, and what it makes of an element. Only a removal has something to
answer. -/
def Edit.perform : Edit → Element → Option Element × Element
  | .setAttribute key value, e => (none, e.setAttribute key value)
  | .pushChild child, e => (none, e.pushChild child)
  | .pushLeaf l, e => (none, e.pushLeaf l)
  | .removeFirst condition, e => e.removal condition

/-- An edit keeps the name of the element. -/
theorem Edit.name_perform (edit : Edit) (e : Element) : (edit.perform e).2.name = e.name := by
  cases edit with
  | setAttribute key value => rfl
  | pushChild child => rfl
  | pushLeaf l => rfl
  | removeFirst condition =>
    rw [perform, Element.removal, Element.removeFirst?_eq_substFirst]
    cases e.content.elements.find? condition <;> rfl

namespace Element

/-- The three searches for a name in an element go through it in the same order: what is listed,
what is found first, and what an edit changes. -/
structure SearchesAgree (e : Element) (name : String) : Prop where
  /-- Elements are listed in the order of their rows. -/
  order : e.elements.map (·.toTag) = e.rows.filterMap Row.tag?
  /-- All elements of the name are listed, each once, and no others. -/
  all : e.findAll name = e.elements.filter (·.name == name)
  /-- The first of them is found. -/
  first : e.findFirst? name = (e.findAll name).head?
  /-- Without one there is nothing to edit. -/
  absent : ∀ {α : Type} (edit : Element → α × Element), e.findAll name = [] →
    e.updateFirst? name edit = none
  /-- The first of them is edited, and all rows outside its block stay. -/
  edited : ∀ {α : Type} (edit : Element → α × Element) (target : Element) (others : List Element),
    e.findAll name = target :: others → (edit target).2.name = name →
      ∃ (e' : Element) (s : Spot), e.updateFirst? name edit = some ((edit target).1, e')
        ∧ e'.findFirst? name = some (edit target).2
        ∧ (∀ t ∈ s.before.filterMap Row.tag?, t.name ≠ name)
        ∧ e.rows = s.before ++ (target.rowsAt s.depth ++ s.after)
        ∧ e'.rows = s.before ++ ((edit target).2.rowsAt s.depth ++ s.after)

/-- The element found first is the first that is listed. -/
theorem findFirst?_eq_head? (e : Element) (name : String) :
    e.findFirst? name = (e.findAll name).head? := by
  rw [findAll_eq_filter, List.head?_filter, ← Content.findFirst?_ofElement,
    Content.findFirst?_eq_find?, Content.elements_ofElement]

/-- The searches for a name agree in every element. -/
theorem searchesAgree (e : Element) (name : String) : e.SearchesAgree name where
  order := by
    rw [rows_eq, Content.filterMap_rows, ← Content.map_toTag_elements, Content.elements_ofElement]
  all := findAll_eq_filter name e
  first := findFirst?_eq_head? e name
  absent := by
    intro α edit hnone
    apply updateFirst?_eq_none
    rw [findFirst?_eq_head?, hnone]
    rfl
  edited := by
    intro α edit target others hall hname
    apply exists_updateFirst? _ hname
    rw [findFirst?_eq_head?, hall]
    rfl

end Element

end PlcWorkbench.Xml
