import PlcWorkbench.Xml.Render
import PlcWorkbench.Xml.Attribute
import Mathlib.Data.List.Basic

/-!
# Reading tags and declarations back

What `Tag.render` and `Declaration.render` put between the brackets, `Tag.read` and
`Declaration.read` take in again. Escaping makes attribute values harmless, so values are arbitrary;
names and keys are written as they are and have to be plain. `RawAttribute.next?_pair` reads one
written attribute whatever follows it, and both readers are iterations of it.
-/

namespace PlcWorkbench.Xml

/-! ## Escaping -/

/-- One written character is read as itself, whatever follows. -/
theorem unescapeFrom_escapeChar (total : Nat) (c : Char) (rest : List Char) :
    unescapeFrom total none (escapeChar c ++ rest)
      = (unescapeFrom total none rest).map (c :: ·) := by
  unfold escapeChar
  split
  · rfl
  · rfl
  · rfl
  · rfl
  · rfl
  · rename_i h _ _
    rw [List.singleton_append, unescapeFrom]
    exact h

/-- What escaping writes, unescaping reads. -/
theorem unescape_escape (characters : List Char) :
    unescape (escape characters) = .ok characters := by
  have general : ∀ total, unescapeFrom total none (escape characters) = .ok characters := by
    intro total
    induction characters with
    | nil => rfl
    | cons c rest ih =>
      rw [escape, List.flatMap_cons, unescapeFrom_escapeChar, ← escape, ih]
      rfl
  exact general _

/-- Characters are escaped one by one. -/
theorem escape_append (characters more : List Char) :
    escape (characters ++ more) = escape characters ++ escape more :=
  List.flatMap_append

/-- No character is written with an angle bracket or a quote in it. -/
theorem escapeChar_harmless (d : Char) :
    ∀ c ∈ escapeChar d, c ≠ '<' ∧ c ≠ '>' ∧ c ≠ '\x22' ∧ c ≠ '\x27' := by
  unfold escapeChar
  split
  · simp
  · simp
  · simp
  · simp
  · simp
  · rename_i lt gt amp apos quot
    intro c hc
    obtain rfl := List.mem_singleton.1 hc
    exact ⟨lt, gt, quot, apos⟩

/-- Escaped characters hold neither angle brackets nor quotes. -/
theorem escape_harmless {characters : List Char} {c : Char} (h : c ∈ escape characters) :
    c ≠ '<' ∧ c ≠ '>' ∧ c ≠ '\x22' ∧ c ≠ '\x27' := by
  obtain ⟨d, -, hd⟩ := List.mem_flatMap.1 h
  exact escapeChar_harmless d c hd

/-- Only nothing is written as nothing. -/
theorem escape_ne_nil {characters : List Char} (h : characters ≠ []) : escape characters ≠ [] := by
  intro nothing
  have back := unescape_escape characters
  rw [nothing] at back
  exact h (Except.ok.inj back).symm

/-! ## Names -/

/-- A name that a tag can be written with: not empty, without white space, quotes, angle brackets,
slashes and equals signs, and not starting like another construct. -/
structure IsPlain (name : String) : Prop where
  ne_nil : name.toList ≠ []
  chars : ∀ c ∈ name.toList, isSpace c = false ∧ c ∉ ['\x22', '\x27', '<', '>', '/', '=']
  start : name.toList.head? ≠ some '!' ∧ name.toList.head? ≠ some '?'

instance (name : String) : Decidable (IsPlain name) :=
  have :
      Decidable (∀ c ∈ name.toList, isSpace c = false ∧ c ∉ ['\x22', '\x27', '<', '>', '/', '=']) :=
    List.decidableBAll _ _
  decidable_of_iff
    (name.toList ≠ [] ∧ (∀ c ∈ name.toList, isSpace c = false
        ∧ c ∉ ['\x22', '\x27', '<', '>', '/', '='])
      ∧ name.toList.head? ≠ some '!' ∧ name.toList.head? ≠ some '?')
    ⟨fun ⟨h, h', h''⟩ => ⟨h, h', h''⟩, fun ⟨h, h', h''⟩ => ⟨h, h', h''⟩⟩

/-- A key that an attribute can be written with: not empty, without white space, quotes, angle
brackets, slashes and equals signs. Unlike a name it may start as another construct does, since no
bracket stands before it. -/
structure IsClean (key : String) : Prop where
  ne_nil : key.toList ≠ []
  chars : ∀ c ∈ key.toList, isSpace c = false ∧ c ∉ ['\x22', '\x27', '<', '>', '/', '=']

instance (key : String) : Decidable (IsClean key) :=
  have :
      Decidable (∀ c ∈ key.toList, isSpace c = false ∧ c ∉ ['\x22', '\x27', '<', '>', '/', '=']) :=
    List.decidableBAll _ _
  decidable_of_iff
    (key.toList ≠ [] ∧ ∀ c ∈ key.toList, isSpace c = false
        ∧ c ∉ ['\x22', '\x27', '<', '>', '/', '='])
    ⟨fun ⟨h, h'⟩ => ⟨h, h'⟩, fun ⟨h, h'⟩ => ⟨h, h'⟩⟩

/-- A plain name would do as a key. -/
theorem IsPlain.isClean {name : String} (h : IsPlain name) : IsClean name := ⟨h.ne_nil, h.chars⟩

/-- A clean key taken apart at its first character. -/
theorem IsClean.exists_cons {key : String} (h : IsClean key) :
    ∃ first rest, key.toList = first :: rest :=
  List.exists_cons_of_ne_nil h.ne_nil

/-- A tag whose name and keys are all plain. -/
def Tag.IsPlain (tag : Tag) : Prop :=
  Xml.IsPlain tag.name ∧ ∀ key ∈ Dictionary.keys tag.attributes, Xml.IsPlain key

/-- A tag that can be written: plain, no key twice. -/
def Tag.IsWritable (tag : Tag) : Prop :=
  tag.IsPlain ∧ (Dictionary.keys tag.attributes).Nodup

/-- A tag whose name is plain and whose keys are clean. -/
def Tag.IsClean (tag : Tag) : Prop :=
  Xml.IsPlain tag.name ∧ ∀ key ∈ Dictionary.keys tag.attributes, Xml.IsClean key

/-- A tag that is read back from what is written for it: clean, no key twice. -/
def Tag.IsLegible (tag : Tag) : Prop :=
  tag.IsClean ∧ (Dictionary.keys tag.attributes).Nodup

instance : DecidablePred Tag.IsPlain := fun tag =>
  inferInstanceAs (Decidable (Xml.IsPlain tag.name ∧ ∀ key ∈ Dictionary.keys tag.attributes,
    Xml.IsPlain key))

instance : DecidablePred Tag.IsWritable := fun tag =>
  inferInstanceAs (Decidable (tag.IsPlain ∧ (Dictionary.keys tag.attributes).Nodup))

instance : DecidablePred Tag.IsClean := fun tag =>
  inferInstanceAs (Decidable (Xml.IsPlain tag.name ∧ ∀ key ∈ Dictionary.keys tag.attributes,
    Xml.IsClean key))

instance : DecidablePred Tag.IsLegible := fun tag =>
  inferInstanceAs (Decidable (tag.IsClean ∧ (Dictionary.keys tag.attributes).Nodup))

/-- A plain tag is clean. -/
theorem Tag.IsPlain.isClean {tag : Tag} (h : tag.IsPlain) : tag.IsClean :=
  ⟨h.1, fun key hkey => (h.2 key hkey).isClean⟩

/-- A tag that can be written is read back. -/
theorem Tag.IsWritable.isLegible {tag : Tag} (h : tag.IsWritable) : tag.IsLegible :=
  ⟨h.1.isClean, h.2⟩

/-! ## Attributes -/

/-- A quoted value is read up to its closing quote. -/
theorem RawAttribute.value?_quoted (total : Nat) {value : List Char} (h : '\x22' ∉ value)
    (rest : List Char) :
    RawAttribute.value? total ('\x22' :: (value ++ '\x22' :: rest)) = .ok (value, rest) := by
  have differs : ∀ c ∈ value, (c != '\x22') = true := by
    intro c hc
    rw [bne_iff_ne]
    rintro rfl
    exact h hc
  have found : (value ++ '\x22' :: rest).dropWhile (· != '\x22') = '\x22' :: rest := by
    rw [List.dropWhile_append_of_pos differs]
    rfl
  have taken : (value ++ '\x22' :: rest).takeWhile (· != '\x22') = value := by
    rw [List.takeWhile_append_of_pos differs]
    exact List.append_nil value
  unfold RawAttribute.value?
  rw [List.dropWhile_cons_of_neg (by decide)]
  simp only [true_or, if_true, found, taken]

/-- A written attribute is read as its key and value, and reading stops right after it. -/
theorem RawAttribute.next?_pair (total : Nat) (known : List (String × Nat)) {key : String}
    {value : List Char} (hkey : IsClean key) (hvalue : '\x22' ∉ value)
    (hknown : known.lookup key = none) (rest : List Char) :
    RawAttribute.next? total known (' ' :: (renderPair key value ++ rest))
      = .ok (some (⟨key, total - utf8Length (renderPair key value ++ rest), value⟩, rest)) := by
  obtain ⟨first, others, hchars⟩ := hkey.exists_cons
  have clean := hkey.chars
  rw [hchars] at clean
  have hfirst : ¬ isSpace first = true := by
    rw [(clean first List.mem_cons_self).1]
    exact Bool.false_ne_true
  have hothers : ∀ c ∈ others, isKeyChar c = true := by
    intro c hc
    obtain ⟨space, special⟩ := clean c (List.mem_cons_of_mem _ hc)
    have equals : c ≠ '=' := by
      rintro rfl
      exact special (by decide)
    simp only [isKeyChar, space, bne_iff_ne.2 equals, Bool.not_false, Bool.and_self]
  have hname : String.ofList (first :: others) = key := by rw [← hchars, String.ofList_toList]
  have shape : renderPair key value ++ rest
      = first :: (others ++ '=' :: '\x22' :: (value ++ '\x22' :: rest)) := by
    simp only [renderPair, hchars, List.append_assoc, List.cons_append, List.nil_append]
  rw [shape]
  unfold RawAttribute.next?
  rw [List.dropWhile_cons_of_pos (by decide), List.dropWhile_cons_of_neg hfirst]
  simp only [List.takeWhile_append_of_pos hothers, List.dropWhile_append_of_pos hothers]
  rw [List.takeWhile_cons_of_neg (by decide), List.dropWhile_cons_of_neg (by decide),
    List.dropWhile_cons_of_neg (by decide), List.append_nil, hname]
  simp only [if_true, hknown, RawAttribute.value?_quoted total hvalue]

/-- An attribute that is found is put in front of those that are read after it. -/
theorem readAttributes_of_next? {total : Nat} {known : List (String × Nat)}
    {source after value : List Char} {a : RawAttribute}
    (hnext : RawAttribute.next? total known source = .ok (some (a, after)))
    (hvalue : unescape a.value = .ok value) :
    readAttributes total known source
      = (readAttributes total ((a.key, a.position) :: known) after).map
          ((a.key, String.ofList value) :: ·) := by
  rw [readAttributes]
  split
  · rename_i _ h
    cases hnext.symm.trans h
  · rename_i h
    cases hnext.symm.trans h
  · rename_i _ _ h
    cases hnext.symm.trans h
    rw [hvalue]

/-- Nothing is read off nothing. -/
theorem readAttributes_nil (total : Nat) (known : List (String × Nat)) :
    readAttributes total known [] = .ok [] := by
  rw [readAttributes]
  rfl

/-- A key is not found if it is not among the known ones. -/
theorem lookup_eq_none_iff {known : List (String × Nat)} {key : String} :
    known.lookup key = none ↔ key ∉ known.map (·.1) := by
  rw [List.lookup_eq_none_iff, List.mem_map]
  constructor
  · rintro h ⟨pair, hpair, rfl⟩
    exact bne_iff_ne.1 (h pair hpair) rfl
  · intro h pair hpair
    rw [bne_iff_ne]
    rintro rfl
    exact h ⟨pair, hpair, rfl⟩

/-- Written attributes are read as they are, as long as no key stands twice. -/
theorem readAttributes_render (total : Nat) (attributes : Attributes) :
    ∀ known : List (String × Nat), (∀ key ∈ Dictionary.keys attributes, IsClean key) →
      (known.map (·.1) ++ Dictionary.keys attributes).Nodup →
      readAttributes total known attributes.render = .ok attributes := by
  induction attributes with
  | nil =>
    intro known _ _
    exact readAttributes_nil total known
  | cons pair rest ih =>
    intro known hclean hnodup
    obtain ⟨key, value⟩ := pair
    have fresh : known.lookup key = none := by
      apply lookup_eq_none_iff.2
      intro seen
      exact (List.nodup_append.1 hnodup).2.2 key seen key List.mem_cons_self rfl
    have harmless : '\x22' ∉ escape value.toList := fun h => (escape_harmless h).2.2.1 rfl
    have first := RawAttribute.next?_pair total _ (hclean key List.mem_cons_self) harmless fresh
      (Attributes.render rest)
    rw [show Attributes.render ((key, value) :: rest)
        = ' ' :: (renderPair key (escape value.toList) ++ Attributes.render rest) from rfl,
      readAttributes_of_next? first (unescape_escape _), ih]
    · rw [String.ofList_toList]
      rfl
    · intro k hk
      exact hclean k (List.mem_cons_of_mem _ hk)
    · -- the key just read joins the known ones
      rw [List.map_cons, List.cons_append]
      exact List.perm_middle.nodup_iff.1 hnodup

/-! ## Tags -/

/-- Where attributes are written, the name of the tag has ended. -/
theorem Attributes.render_eq_nil_or_space (attributes : Attributes) :
    attributes.render = [] ∨ ∃ rest, attributes.render = ' ' :: rest := by
  cases attributes with
  | nil => exact .inl rfl
  | cons pair rest => exact .inr ⟨_, rfl⟩

/-- A plain name holds no white space. -/
theorem IsPlain.not_space {name : String} (h : IsPlain name) :
    ∀ c ∈ name.toList, (!isSpace c) = true := by
  intro c hc
  rw [(h.chars c hc).1, Bool.not_false]

/-- The name of a written tag. -/
theorem tagName_render {tag : Tag} (h : Xml.IsPlain tag.name) :
    tagName tag.render = tag.name.toList := by
  rw [tagName, Tag.render, List.takeWhile_append_of_pos h.not_space]
  obtain empty | ⟨rest, more⟩ := tag.attributes.render_eq_nil_or_space
  · rw [empty, List.takeWhile_nil, List.append_nil]
  · rw [more, List.takeWhile_cons_of_neg (by decide), List.append_nil]

/-- A written tag is read as it is. -/
theorem Tag.read_render {tag : Tag} (h : tag.IsLegible) : Tag.read tag.render = .ok tag := by
  have attributes : tag.render.dropWhile (!isSpace ·) = Attributes.render tag.attributes := by
    rw [Tag.render, List.dropWhile_append_of_pos h.1.1.not_space]
    obtain empty | ⟨rest, more⟩ := tag.attributes.render_eq_nil_or_space
    · rw [empty, List.dropWhile_nil]
    · rw [more, List.dropWhile_cons_of_neg (by decide)]
  rw [Tag.read, attributes, tagName_render h.1.1, String.ofList_toList,
    readAttributes_render _ _ [] h.1.2 h.2]
  rfl

/-! ## Declarations -/

/-- The parts of a declaration under their keys, in the order in which they are written. -/
def Declaration.pairs (d : Declaration) : List (String × String) :=
  ("version", d.version) :: ((d.encoding.map (("encoding", ·))).toList
    ++ (d.standalone.map (("standalone", ·))).toList)

/-- Keys with their values as they are, each after a space. -/
def renderPairs (pairs : List (String × String)) : List Char :=
  pairs.flatMap fun (key, value) => ' ' :: renderPair key value.toList

/-- What a declaration has between its brackets. -/
def Declaration.content (d : Declaration) : List Char := declarationName ++ renderPairs d.pairs

/-- A declaration is written around its content. -/
theorem Declaration.render_eq (d : Declaration) :
    d.render = ['<', '?'] ++ d.content ++ ['?', '>'] := by
  have opening : "<?xml ".toList = ['<', '?', 'x', 'm', 'l', ' '] := by decide
  have closing : "?>".toList = ['?', '>'] := by decide
  obtain ⟨version, encoding, standalone⟩ := d
  unfold Declaration.render Declaration.content Declaration.pairs renderPairs declarationName
  rw [opening, closing]
  cases encoding <;> cases standalone <;>
    simp only [List.flatMap_cons, List.flatMap_nil, List.append_assoc, List.cons_append,
      List.nil_append, List.append_nil, Option.map_none, Option.map_some, Option.toList_none,
      Option.toList_some]

/-- The value of a key among written pairs is the first one under it. -/
theorem findRaw?_renderPairs (total : Nat) (key : String) (pairs : List (String × String))
    (hkeys : ∀ pair ∈ pairs, IsClean pair.1) (hvalues : ∀ pair ∈ pairs, '\x22' ∉ pair.2.toList) :
    findRaw? total key (renderPairs pairs) = .ok (pairs.lookup key) := by
  induction pairs with
  | nil =>
    rw [findRaw?]
    rfl
  | cons pair rest ih =>
    obtain ⟨k, v⟩ := pair
    have first := RawAttribute.next?_pair total [] (hkeys (k, v) List.mem_cons_self)
      (hvalues (k, v) List.mem_cons_self) rfl (renderPairs rest)
    rw [show renderPairs ((k, v) :: rest) = ' ' :: (renderPair k v.toList ++ renderPairs rest)
        from rfl,
      findRaw?]
    split
    · rename_i _ h
      cases first.symm.trans h
    · rename_i h
      cases first.symm.trans h
    · rename_i _ _ h
      cases first.symm.trans h
      rw [List.lookup_cons]
      by_cases hk : k = key
      · subst hk
        simp only [if_true, beq_self_eq_true, String.ofList_toList]
      · have hk' : (key == k) = false := beq_eq_false_iff_ne.2 (Ne.symm hk)
        simp only [if_neg hk, hk']
        exact ih (fun p hp => hkeys p (List.mem_cons_of_mem _ hp))
          (fun p hp => hvalues p (List.mem_cons_of_mem _ hp))

/-- The keys of a declaration are clean. -/
theorem Declaration.isClean_of_mem_pairs (d : Declaration) : ∀ pair ∈ d.pairs, IsClean pair.1 := by
  intro pair h
  simp only [Declaration.pairs, List.mem_cons, List.mem_append, Option.mem_toList,
    Option.map_eq_some_iff] at h
  obtain rfl | ⟨_, _, rfl⟩ | ⟨_, _, rfl⟩ := h
  · exact (by decide : IsClean "version")
  · exact (by decide : IsClean "encoding")
  · exact (by decide : IsClean "standalone")

/-- The encoding stands under its key, if there is one. -/
theorem Declaration.lookup_encoding (d : Declaration) : d.pairs.lookup "encoding" = d.encoding := by
  obtain ⟨version, encoding, standalone⟩ := d
  cases encoding <;> cases standalone <;> rfl

/-- The standalone flag stands under its key, if there is one. -/
theorem Declaration.lookup_standalone (d : Declaration) :
    d.pairs.lookup "standalone" = d.standalone := by
  obtain ⟨version, encoding, standalone⟩ := d
  cases encoding <;> cases standalone <;> rfl

/-- A written declaration is read as it is, if no value holds a quote. -/
theorem Declaration.read_content {d : Declaration} (h : ∀ pair ∈ d.pairs, '\x22' ∉ pair.2.toList) :
    Declaration.read d.content = .ok d := by
  have source : d.content.drop declarationName.length = renderPairs d.pairs := List.drop_left
  have keys := d.isClean_of_mem_pairs
  have first := RawAttribute.next?_pair (utf8Length d.content) []
    (keys ("version", d.version) List.mem_cons_self) (h ("version", d.version) List.mem_cons_self)
      rfl
    (renderPairs d.pairs.tail)
  have encoding := findRaw?_renderPairs (utf8Length d.content) "encoding" d.pairs keys h
  have standalone := findRaw?_renderPairs (utf8Length d.content) "standalone" d.pairs keys h
  rw [Declaration.read]
  simp only [source, encoding, standalone]
  rw [show renderPairs d.pairs
      = ' ' :: (renderPair "version" d.version.toList ++ renderPairs d.pairs.tail) from rfl, first,
    d.lookup_encoding, d.lookup_standalone]
  simp only [if_true, String.ofList_toList]

end PlcWorkbench.Xml
