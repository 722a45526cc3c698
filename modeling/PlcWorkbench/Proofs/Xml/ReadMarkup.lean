import PlcWorkbench.Xml.Markup
import PlcWorkbench.Proofs.Xml.JoinText
import PlcWorkbench.Proofs.Xml.ReadTag
import Mathlib.Data.List.Infix

/-!
# Reading written markup back

Each construct that the renderer writes is read as one piece, whatever follows it. Delimiters are
the difficulty: a comment, CDATA section or processing instruction ends at the first place that
looks like its end, and a tag ends at the first closing bracket outside quotes. `breakOn?_append`
settles the former for every end mark whose last character occurs only there, `PassesTag` the
latter, part by part of a tag.
-/

namespace PlcWorkbench.Xml

/-! ## End marks -/

/-- What follows a start at the front of a text. -/
theorem dropStart?_eq_some_iff {start source after : List Char} :
    dropStart? start source = some after ↔ source = start ++ after := by
  induction start generalizing source with
  | nil => rw [dropStart?, Option.some_inj, List.nil_append]
  | cons s start ih =>
    cases source with
    | nil => simp [dropStart?]
    | cons c source =>
      rw [dropStart?, List.cons_append, List.cons_eq_cons]
      by_cases h : s = c
      · rw [if_pos h, ih, eq_comm (a := c)]
        simp [h]
      · rw [if_neg h]
        simp [Ne.symm h]

/-- A text that does not begin with a start has nothing after it. -/
theorem dropStart?_eq_none_iff {start source : List Char} :
    dropStart? start source = none ↔ ¬ start <+: source := by
  rw [Option.eq_none_iff_forall_ne_some]
  constructor
  · rintro h ⟨after, rfl⟩
    exact h after (dropStart?_eq_some_iff.2 rfl)
  · intro h after found
    exact h ⟨after, (dropStart?_eq_some_iff.1 found).symm⟩

/-- A text that begins with the end mark has nothing before it. -/
theorem breakOn?_of_dropStart? {stop source after : List Char}
    (h : dropStart? stop source = some after) :
    breakOn? stop source = some ([], after) := by
  cases source with
  | nil => rw [breakOn?, h, Option.map_some]
  | cons c rest => rw [breakOn?, h]

/-- A character at which no end mark begins comes before the end mark. -/
theorem breakOn?_cons {stop rest : List Char} {c : Char} (h : ¬ stop <+: c :: rest) :
    breakOn? stop (c :: rest) = (breakOn? stop rest).map fun (before, after) =>
      (c :: before, after) := by
  rw [breakOn?, dropStart?_eq_none_iff.2 h]

/-- An end mark whose last character occurs only there does not begin in front of where it was
put. -/
theorem not_prefix_append {start : List Char} {last : Char} (hlast : last ∉ start)
    {content : List Char} (hne : content ≠ []) (h : ¬ start ++ [last] <:+: content)
    (rest : List Char) :
    ¬ start ++ [last] <+: content ++ (start ++ [last] ++ rest) := by
  rintro ⟨after, heq⟩
  obtain ⟨inside, hcontent, -⟩ | ⟨extra, hstop, hrest⟩ := List.append_eq_append_iff.1 heq
  · exact h ⟨[], inside, by rw [List.nil_append, hcontent]⟩
  · -- the mark would begin in the content and end in the mark, so its last character would come
    -- too early
    obtain rfl | ⟨extra, x, rfl⟩ := List.eq_nil_or_concat extra
    · rw [List.append_nil] at hstop
      exact h (hstop ▸ List.infix_rfl)
    · rw [List.concat_eq_append, ← List.append_assoc] at hstop
      obtain ⟨hstart, hx⟩ := List.append_inj' hstop rfl
      have shorter : (extra ++ [x]).length ≤ start.length := by
        have positive := List.length_pos_of_ne_nil hne
        have lengths := congrArg List.length hstart
        simp only [List.length_append, List.length_singleton] at lengths ⊢
        omega
      have early : extra ++ [x] <+: start := by
        refine List.prefix_of_prefix_length_le (?_ : _ <+: start ++ [last] ++ rest) ?_ shorter
        · exact ⟨after, by rw [hrest, List.concat_eq_append]⟩
        · exact ⟨[last] ++ rest, by rw [List.append_assoc]⟩
      obtain rfl := (List.cons.inj hx).1
      exact hlast (early.subset (List.mem_append_right _ List.mem_cons_self))

/-- A content without an end mark is read up to the end mark after it. -/
theorem breakOn?_append (start : List Char) {last : Char} (hlast : last ∉ start)
    {content : List Char} (h : ¬ start ++ [last] <:+: content) (rest : List Char) :
    breakOn? (start ++ [last]) (content ++ (start ++ [last] ++ rest)) = some (content, rest) := by
  induction content with
  | nil => exact breakOn?_of_dropStart? (dropStart?_eq_some_iff.2 rfl)
  | cons c content ih =>
    have here := not_prefix_append hlast (List.cons_ne_nil c content) h rest
    have later : ¬ start ++ [last] <:+: content := fun inside => h (List.infix_cons inside)
    rw [List.cons_append] at here ⊢
    rw [breakOn?_cons here, ih later]
    rfl

/-! ## Tags -/

/-- The end of a tag is not looked for in these characters: it is the end of the tag that the rest
has. -/
def PassesTag (content : List Char) : Prop :=
  ∀ rest, breakTag? none (content ++ rest)
    = (breakTag? none rest).map fun (inside, after) => (content ++ inside, after)

namespace PassesTag

/-- Nothing passes. -/
theorem nil : PassesTag [] := by
  intro rest
  cases h : breakTag? none rest <;> simp [h]

/-- What passes part by part passes as a whole. -/
theorem append {content more : List Char} (h : PassesTag content) (h' : PassesTag more) :
    PassesTag (content ++ more) := by
  intro rest
  rw [List.append_assoc, h, h', Option.map_map]
  simp only [Function.comp_def, List.append_assoc]

/-- A character that is neither a quote nor the closing bracket passes. -/
theorem singleton {c : Char} (h : c ∉ ['\x22', '\x27', '>']) : PassesTag [c] := by
  simp only [List.mem_cons, List.not_mem_nil, or_false, not_or] at h
  intro rest
  rw [List.singleton_append, breakTag?, if_neg (not_or.2 ⟨h.1, h.2.1⟩)]
  · rfl
  · exact h.2.2

/-- Characters that pass one by one pass together. -/
theorem of_forall {content : List Char} (h : ∀ c ∈ content, c ∉ ['\x22', '\x27', '>']) :
    PassesTag content := by
  induction content with
  | nil => exact nil
  | cons c content ih =>
    exact (singleton (h c List.mem_cons_self)).append
      (ih fun d hd => h d (List.mem_cons_of_mem _ hd))

/-- Within quotes the end of a tag is not looked for. -/
theorem breakTag?_quoted {value : List Char} (h : '\x22' ∉ value) (rest : List Char) :
    breakTag? (some '\x22') (value ++ '\x22' :: rest)
      = (breakTag? none rest).map fun (inside, after) => (value ++ '\x22' :: inside, after) := by
  induction value with
  | nil => rw [List.nil_append, breakTag?, if_pos rfl]; rfl
  | cons c value ih =>
    have hc : c ≠ '\x22' := fun same => h (same ▸ List.mem_cons_self)
    have hvalue : '\x22' ∉ value := fun inside => h (List.mem_cons_of_mem _ inside)
    rw [List.cons_append, breakTag?, if_neg hc, ih hvalue, Option.map_map]
    rfl

/-- A quoted value passes. -/
theorem quoted {value : List Char} (h : '\x22' ∉ value) :
    PassesTag ('\x22' :: (value ++ ['\x22'])) := by
  intro rest
  rw [List.cons_append, List.append_assoc, List.singleton_append, breakTag?, if_pos (.inl rfl),
    breakTag?_quoted h, Option.map_map]
  · simp only [Function.comp_def, List.cons_append, List.append_assoc, List.nil_append]
  · decide

/-- A clean key passes. -/
theorem of_isClean {key : String} (h : IsClean key) : PassesTag key.toList := by
  apply of_forall
  intro c hc special
  apply (h.chars c hc).2
  simp only [List.mem_cons, List.not_mem_nil, or_false] at special ⊢
  tauto

/-- A written attribute passes. -/
theorem renderPair {key : String} {value : List Char} (hkey : IsClean key)
    (hvalue : '\x22' ∉ value) :
    PassesTag (' ' :: renderPair key value) := by
  have shape : ' ' :: Xml.renderPair key value
      = [' '] ++ (key.toList ++ (['='] ++ '\x22' :: (value ++ ['\x22']))) := by
    simp only [Xml.renderPair, List.append_assoc, List.cons_append, List.nil_append]
  rw [shape]
  exact (singleton (by decide)).append ((of_isClean hkey).append
    ((singleton (by decide)).append (quoted hvalue)))

/-- Written attributes pass. -/
theorem render_attributes {attributes : Attributes}
    (h : ∀ key ∈ Dictionary.keys attributes, IsClean key) :
    PassesTag attributes.render := by
  induction attributes with
  | nil => exact nil
  | cons pair rest ih =>
    have harmless : '\x22' ∉ escape pair.2.toList :=
      fun inside => (escape_harmless inside).2.2.1 rfl
    exact (renderPair (h pair.1 List.mem_cons_self) harmless).append
      (ih fun key hkey => h key (List.mem_cons_of_mem _ hkey))

/-- What is written in a tag passes. -/
theorem render_tag {tag : Tag} (h : tag.IsClean) : PassesTag tag.render :=
  (of_isClean h.1.isClean).append (render_attributes h.2)

/-- What passes is read up to the closing bracket after it. -/
theorem breakTag?_eq {content : List Char} (h : PassesTag content) (rest : List Char) :
    breakTag? none (content ++ '>' :: rest) = some (content, rest) := by
  rw [h, breakTag?]
  simp only [Option.map_some, List.append_nil]

end PassesTag

/-- What is written in a tag does not end in a slash, so it is not taken for an empty element's. -/
theorem getLast?_render_ne_slash {tag : Tag} (h : tag.IsClean) :
    tag.render.getLast? ≠ some '/' := by
  obtain ⟨name, attributes⟩ := tag
  obtain rfl | ⟨others, pair, rfl⟩ := List.eq_nil_or_concat attributes
  · intro slash
    rw [Tag.render, Attributes.render, List.flatMap_nil, List.append_nil] at slash
    exact (h.1.chars _ (List.mem_of_getLast? slash)).2 (by decide)
  · have shape : Tag.render ⟨name, others.concat pair⟩
        = name.toList ++ Attributes.render others
            ++ ' ' :: (pair.1.toList ++ ['=', '\x22'] ++ escape pair.2.toList)
          ++ ['\x22'] := by
      simp only [Tag.render, Attributes.render, renderPair, List.concat_eq_append,
        List.flatMap_append, List.flatMap_cons, List.flatMap_nil, List.append_nil,
        List.append_assoc, List.cons_append]
    rw [shape, List.getLast?_concat]
    decide

namespace Markup

/-- A construct that begins with a plain name is a tag. -/
theorem readConstruct_of_isPlain {name : String} (h : IsPlain name) {more content after : List Char}
    (found : breakTag? none (name.toList ++ more) = some (content, after)) :
    readConstruct (name.toList ++ more) = .ok (ofTagContent content, after) := by
  obtain ⟨first, others, hname⟩ := h.isClean.exists_cons
  have start := h.start
  have slash := (h.chars first (hname ▸ List.mem_cons_self)).2
  rw [hname, List.head?_cons] at start
  rw [hname, List.cons_append] at found ⊢
  unfold readConstruct
  split
  · rename_i heq
    cases heq
    exact absurd rfl start.1
  · rename_i heq
    cases heq
    exact absurd rfl start.2
  · rename_i heq
    cases heq
    exact absurd (by decide) slash
  · rw [found]

/-- A written start tag is read as one. -/
theorem next?_startTag {tag : Tag} (h : tag.IsClean) (rest : List Char) :
    next? ('<' :: (tag.render ++ '>' :: rest)) = .ok (some (.startTag tag.render, rest)) := by
  have found := (PassesTag.render_tag h).breakTag?_eq rest
  rw [Tag.render, List.append_assoc] at found
  rw [next?, Tag.render, List.append_assoc, readConstruct_of_isPlain h.1 found, ← Tag.render,
    ofTagContent, if_neg (getLast?_render_ne_slash h)]
  rfl

/-- A written tag of an empty element is read as one. -/
theorem next?_emptyTag {tag : Tag} (h : tag.IsClean) (rest : List Char) :
    next? ('<' :: (tag.render ++ ['/', '>'] ++ rest))
      = .ok (some (.emptyTag tag.render, rest)) := by
  have found :=
    ((PassesTag.render_tag h).append (PassesTag.singleton (c := '/') (by decide))).breakTag?_eq rest
  have shape :
      tag.render ++ ['/', '>'] ++ rest = tag.name.toList
        ++ (tag.attributes.render ++ '/' :: '>' :: rest) := by
    simp only [Tag.render, List.append_assoc, List.cons_append, List.nil_append]
  have shape' : tag.render ++ ['/'] ++ '>' :: rest
      = tag.name.toList ++ (tag.attributes.render ++ '/' :: '>' :: rest) := by
    simp only [Tag.render, List.append_assoc, List.cons_append, List.nil_append]
  rw [shape'] at found
  rw [next?, shape, readConstruct_of_isPlain h.1 found, ofTagContent, if_pos List.getLast?_concat,
    List.dropLast_concat]
  rfl

/-- A written end tag is read as one. -/
theorem next?_endTag {name : String} (h : IsPlain name) (rest : List Char) :
    next? (['<', '/'] ++ name.toList ++ '>' :: rest) = .ok (some (.endTag name.toList, rest)) := by
  have found := (PassesTag.of_isClean h.isClean).breakTag?_eq rest
  rw [List.append_assoc, List.cons_append, List.singleton_append, next?, readConstruct, found]
  rfl

/-- Characters without an opening bracket are passed over in the search for one. -/
theorem ne_bracket {characters : List Char} (h : '<' ∉ characters) :
    ∀ c ∈ characters, (c != '<') = true := by
  intro c hc
  rw [bne_iff_ne]
  rintro rfl
  exact h hc

/-- Characters without an opening bracket are one text up to the next bracket. -/
theorem next?_text {characters : List Char} (hne : characters ≠ []) (h : '<' ∉ characters)
    (rest : List Char) :
    next? (characters ++ '<' :: rest) = .ok (some (.text characters, '<' :: rest)) := by
  obtain ⟨c, others, rfl⟩ := List.exists_cons_of_ne_nil hne
  have differs := ne_bracket h
  rw [List.cons_append, next?]
  · rw [← List.cons_append, List.takeWhile_append_of_pos differs,
      List.dropWhile_append_of_pos differs, List.takeWhile_cons_of_neg (by decide),
      List.dropWhile_cons_of_neg (by decide), List.append_nil]
  · exact List.cons_ne_nil _ _
  · rintro rest' heq
    exact h ((List.cons.inj heq).1 ▸ List.mem_cons_self)

end Markup

/-! ## Leaves -/

/-- A leaf that can be written: no end mark inside a construct, and no processing instruction that
reads as a declaration. -/
def Leaf.IsWritable : Leaf → Prop
  | .text _ => True
  | .cdata c => ¬ [']', ']', '>'] <:+: c.toList
  | .comment c => ¬ ['-', '-', '>'] <:+: c.toList
  | .instruction c => ¬ ['?', '>'] <:+: c.toList ∧ c.toList.head? ≠ some '>' ∧ c ≠ "xml"
      ∧ ∀ space ∈ [' ', '\t', '\n', '\r'], ¬ ['x', 'm', 'l', space] <+: c.toList

instance : DecidablePred Leaf.IsWritable
  | .text _ => inferInstanceAs (Decidable True)
  | .cdata c => inferInstanceAs (Decidable (¬ [']', ']', '>'] <:+: c.toList))
  | .comment c => inferInstanceAs (Decidable (¬ ['-', '-', '>'] <:+: c.toList))
  | .instruction c =>
    have : Decidable (∀ space ∈ [' ', '\t', '\n', '\r'], ¬ ['x', 'm', 'l', space] <+: c.toList) :=
      List.decidableBAll _ _
    inferInstanceAs (Decidable (¬ ['?', '>'] <:+: c.toList ∧ c.toList.head? ≠ some '>' ∧ c ≠ "xml"
      ∧ ∀ space ∈ [' ', '\t', '\n', '\r'], ¬ ['x', 'm', 'l', space] <+: c.toList))

/-- The piece of text that a leaf is written as. -/
def Leaf.markup : Leaf → Markup
  | .text c => .text (escape c.toList)
  | .cdata c => .cdata c.toList
  | .comment c => .comment c.toList
  | .instruction c => .instruction c.toList

/-- Any other processing instruction than `xml`, alone or before white space, is no declaration. -/
theorem isDeclaration_eq_false {c : String} (hne : c ≠ "xml")
    (h : ∀ space ∈ [' ', '\t', '\n', '\r'], ¬ ['x', 'm', 'l', space] <+: c.toList) :
    Markup.isDeclaration c.toList = false := by
  unfold Markup.isDeclaration
  split
  · rename_i found
    rw [dropStart?_eq_some_iff, List.append_nil] at found
    exact absurd (String.toList_injective (found.trans (by decide))) hne
  · rename_i space rest found
    rw [dropStart?_eq_some_iff] at found
    by_contra notFalse
    rw [Bool.not_eq_false, isSpace] at notFalse
    refine h space ?_ ⟨rest, found.symm⟩
    simpa [or_assoc] using notFalse
  · rfl

namespace Markup

/-- A construct is read from between its delimiters, if the last character of the end mark is not in
the rest of the mark and the mark is not in the content. -/
theorem readDelimited_append (start front : List Char) {last : Char} (hlast : last ∉ front)
    (piece : List Char → Markup) (unclosed : Error) {content : List Char}
    (h : ¬ front ++ [last] <:+: content) (rest : List Char) :
    readDelimited start (front ++ [last]) piece unclosed
      (start ++ (content ++ (front ++ [last] ++ rest)))
      = .ok (piece content, rest) :=
  readDelimited_eq_ok_iff.2
    ⟨_, content, dropStart?_eq_some_iff.2 rfl, breakOn?_append front hlast h rest, rfl⟩

/-- A written processing instruction is read as one. -/
theorem readInstruction_append {content : List Char} (hstart : content.head? ≠ some '>')
    (h : ¬ ['?', '>'] <:+: content) (rest : List Char) :
    readInstruction (content ++ (['?', '>'] ++ rest))
      = .ok (ofInstructionContent content, rest) := by
  unfold readInstruction
  split
  · rename_i heq
    cases content with
    | nil => cases heq
    | cons c content =>
      cases heq
      exact absurd rfl hstart
  · exact readDelimited_append [] ['?'] (by decide) _ _ h rest

/-- A written leaf other than text is read as one. -/
theorem next?_leaf {l : Leaf} (h : l.IsWritable) (hl : l.isText = false) (rest : List Char) :
    next? (l.render ++ rest) = .ok (some (l.markup, rest)) := by
  cases l with
  | text c => cases hl
  | cdata c =>
    have opening : "<![CDATA[".toList = '<' :: '!' :: ['[', 'C', 'D', 'A', 'T', 'A', '['] := by
      decide
    have closing : "]]>".toList = [']', ']', '>'] := by decide
    show next? ("<![CDATA[".toList ++ c.toList ++ "]]>".toList ++ rest) = _
    rw [opening, closing, List.append_assoc, List.append_assoc]
    show (readCData (['[', 'C', 'D', 'A', 'T', 'A', '[']
      ++ (c.toList ++ ([']', ']', '>'] ++ rest)))).map some = _
    rw [readCData]
    exact congrArg (Except.map some) (readDelimited_append _ [']', ']'] (by decide) _ _ h rest)
  | comment c =>
    have opening : "<!--".toList = '<' :: '!' :: ['-', '-'] := by decide
    have closing : "-->".toList = ['-', '-', '>'] := by decide
    show next? ("<!--".toList ++ c.toList ++ "-->".toList ++ rest) = _
    rw [opening, closing, List.append_assoc, List.append_assoc]
    show (readComment (['-', '-'] ++ (c.toList ++ (['-', '-', '>'] ++ rest)))).map some = _
    rw [readComment]
    exact congrArg (Except.map some) (readDelimited_append _ ['-', '-'] (by decide) _ _ h rest)
  | instruction c =>
    have opening : "<?".toList = ['<', '?'] := by decide
    have closing : "?>".toList = ['?', '>'] := by decide
    show next? ("<?".toList ++ c.toList ++ "?>".toList ++ rest) = _
    rw [opening, closing, List.append_assoc, List.append_assoc]
    show (readInstruction (c.toList ++ (['?', '>'] ++ rest))).map some = _
    rw [readInstruction_append h.2.1 h.1, ofInstructionContent,
      isDeclaration_eq_false h.2.2.1 h.2.2.2]
    rfl

end Markup

/-! ## Declarations -/

/-- A mark that lies across a character that it does not hold lies on one side of it. -/
theorem infix_of_infix_append_cons {mark before after : List Char} {c : Char} (hc : c ∉ mark)
    (h : mark <:+: before ++ c :: after) : mark <:+: before ∨ mark <:+: after := by
  obtain ⟨s, t, heq⟩ := h
  obtain ⟨inside, hbefore, -⟩ | ⟨extra, hmark, hafter⟩ := List.append_eq_append_iff.1 heq
  · exact .inl ⟨s, inside, hbefore.symm⟩
  · cases extra with
    | nil =>
      rw [List.append_nil] at hmark
      exact .inl ⟨s, [], by rw [List.append_nil, hmark]⟩
    | cons d extra =>
      obtain ⟨rfl, rfl⟩ := List.cons.inj hafter
      obtain ⟨inside, -, hmark⟩ | ⟨skipped, -, hover⟩ := List.append_eq_append_iff.1 hmark
      · exact absurd (hmark ▸ List.mem_append_right _ List.mem_cons_self) hc
      · cases skipped with
        | nil =>
          rw [List.nil_append] at hover
          exact absurd (hover ▸ List.mem_cons_self) hc
        | cons e skipped =>
          obtain ⟨-, rfl⟩ := List.cons.inj hover
          exact .inr ⟨skipped, t, rfl⟩

/-- Written pairs hold no end mark of a declaration if no value does. -/
theorem not_infix_renderPairs {pairs : List (String × String)}
    (hkeys : ∀ pair ∈ pairs, IsClean pair.1)
    (hvalues : ∀ pair ∈ pairs, ¬ ['?', '>'] <:+: pair.2.toList) :
    ∀ front, ¬ ['?', '>'] <:+: front → ¬ ['?', '>'] <:+: front ++ renderPairs pairs := by
  induction pairs with
  | nil =>
    intro front hfront
    rwa [renderPairs, List.flatMap_nil, List.append_nil]
  | cons pair rest ih =>
    intro front hfront mark
    have shape : renderPairs (pair :: rest)
        = ' ' :: (pair.1.toList ++ '=' :: ([] ++ '\x22'
            :: (pair.2.toList ++ '\x22' :: ([] ++ renderPairs rest)))) := by
      simp only [renderPairs, renderPair, List.flatMap_cons, List.append_assoc, List.cons_append,
        List.nil_append]
    have key : ¬ ['?', '>'] <:+: pair.1.toList := by
      intro inside
      exact ((hkeys pair List.mem_cons_self).chars '>' (inside.subset (by decide))).2 (by decide)
    have tail := ih (fun p hp => hkeys p (List.mem_cons_of_mem _ hp))
      (fun p hp => hvalues p (List.mem_cons_of_mem _ hp)) [] (by decide)
    rw [shape] at mark
    obtain h | h := infix_of_infix_append_cons (by decide) mark
    · exact hfront h
    obtain h | h := infix_of_infix_append_cons (by decide) h
    · exact key h
    obtain h | h := infix_of_infix_append_cons (by decide) h
    · exact absurd h (by decide)
    obtain h | h := infix_of_infix_append_cons (by decide) h
    · exact hvalues pair List.mem_cons_self h
    · exact tail h

/-- A written declaration is read as one, if no value holds its end mark. -/
theorem Markup.next?_declaration {d : Declaration}
    (h : ∀ pair ∈ d.pairs, ¬ ['?', '>'] <:+: pair.2.toList)
    (rest : List Char) :
    Markup.next? (d.render ++ rest) = .ok (some (.declaration d.content, rest)) := by
  have closed : ¬ ['?', '>'] <:+: d.content :=
    not_infix_renderPairs d.isClean_of_mem_pairs h declarationName (by decide)
  have start : d.content.head? ≠ some '>' := by
    show some 'x' ≠ some '>'
    decide
  have declares : Markup.isDeclaration d.content = true := rfl
  rw [d.render_eq, List.append_assoc, List.append_assoc]
  show (readInstruction (d.content ++ (['?', '>'] ++ rest))).map some = _
  rw [Markup.readInstruction_append start closed, Markup.ofInstructionContent, declares]
  rfl

end PlcWorkbench.Xml
