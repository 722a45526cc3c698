import PlcWorkbench.Dictionary

/-!
# Looking up what was put

Two ways of putting a value under a key: in front of a list without the other entries of that key,
and in place of the value that a dictionary has. Either way the value is found under its key, and
under other keys what was there before. In a dictionary the keys stay distinct, in the order in
which they were first set.
-/

namespace PlcWorkbench

section Lookup

variable {κ α : Type} [BEq κ] [LawfulBEq κ]

/-- An entry of another key is passed over. -/
theorem lookup_cons_of_ne {key key' : κ} (h : key' ≠ key) (value : α) (entries : List (κ × α)) :
    ((key, value) :: entries).lookup key' = entries.lookup key' := by
  rw [List.lookup_cons, beq_eq_false_iff_ne.2 h]

/-- A value in front of the entries without those of its key. -/
theorem lookup_cons_filter [DecidableEq κ] (key key' : κ) (value : α) (entries : List (κ × α)) :
    ((key, value) :: entries.filter (·.1 != key)).lookup key'
      = if key' = key then some value else entries.lookup key' := by
  by_cases heq : key' = key
  · rw [if_pos heq, heq, List.lookup_cons_self]
  · rw [if_neg heq, lookup_cons_of_ne heq]
    induction entries with
    | nil => rfl
    | cons entry rest ih =>
      obtain ⟨here, other⟩ := entry
      by_cases hhere : here = key
      · rw [List.filter_cons_of_neg (by simp [hhere]), ih, lookup_cons_of_ne (hhere ▸ heq)]
      · rw [List.filter_cons_of_pos (by simpa using hhere), List.lookup_cons, List.lookup_cons, ih]

end Lookup

/-- A value that was set in a dictionary. -/
theorem Dictionary.get?_set {α : Type} (d : Dictionary α) (key key' : String) (value : α) :
    Dictionary.get? (Dictionary.set d key value) key'
      = if key' = key then some value else Dictionary.get? d key' := by
  induction d with
  | nil =>
    rw [set, get?]
    by_cases heq : key' = key
    · rw [if_pos heq, heq, List.lookup_cons_self]
    · rw [if_neg heq, lookup_cons_of_ne heq]
      rfl
  | cons entry rest ih =>
    obtain ⟨k, v⟩ := entry
    rw [set, get?]
    by_cases hk : k = key
    · rw [if_pos hk, get?, hk]
      by_cases heq : key' = key
      · rw [if_pos heq, heq, List.lookup_cons_self]
      · rw [if_neg heq, lookup_cons_of_ne heq, lookup_cons_of_ne heq]
    · rw [if_neg hk, get?]
      by_cases heq : key' = k
      · rw [heq, if_neg hk, List.lookup_cons_self, List.lookup_cons_self]
      · rw [lookup_cons_of_ne heq, lookup_cons_of_ne heq]
        exact ih

/-! ## Keys -/

namespace Dictionary

variable {α : Type}

/-- The key of the first entry comes first. -/
theorem keys_cons (key : String) (value : α) (rest : Dictionary α) :
    keys ((key, value) :: rest) = key :: keys rest :=
  rfl

/-- A key that is set for the first time comes last. -/
theorem keys_set (d : Dictionary α) (key : String) (value : α) :
    keys (set d key value) = if key ∈ keys d then keys d else keys d ++ [key] := by
  induction d with
  | nil => rfl
  | cons entry rest ih =>
    obtain ⟨k, v⟩ := entry
    rw [set, keys_cons]
    by_cases hk : k = key
    · subst hk
      rw [if_pos rfl, if_pos List.mem_cons_self, keys_cons]
    · rw [if_neg hk, keys_cons, ih]
      by_cases hmem : key ∈ keys rest
      · rw [if_pos hmem, if_pos (List.mem_cons_of_mem k hmem)]
      · have fresh : key ∉ k :: keys rest := by
          rw [List.mem_cons, not_or]
          exact ⟨fun heq => hk heq.symm, hmem⟩
        rw [if_neg hmem, if_neg fresh, List.cons_append]

/-- Setting keeps the keys distinct. -/
theorem nodup_keys_set {d : Dictionary α} (h : (keys d).Nodup) (key : String) (value : α) :
    (keys (set d key value)).Nodup := by
  rw [keys_set]
  split
  · exact h
  · rename_i fresh
    rw [List.nodup_append]
    refine ⟨h, List.nodup_cons.2 ⟨List.not_mem_nil, List.nodup_nil⟩, ?_⟩
    intro k hk key' hkey' heq
    rw [List.mem_singleton] at hkey'
    exact fresh (hkey' ▸ heq ▸ hk)

/-- The dictionary in which the entries are put one after another. -/
def setAll (d : Dictionary α) (entries : List (String × α)) : Dictionary α :=
  entries.foldl (fun d entry => set d entry.1 entry.2) d

/-- Of several values put under a key the last one is found. -/
theorem get?_setAll (d : Dictionary α) (entries : List (String × α)) (key : String) :
    get? (setAll d entries) key = (entries.reverse.lookup key).or (get? d key) := by
  induction entries generalizing d with
  | nil => rfl
  | cons entry rest ih =>
    obtain ⟨k, v⟩ := entry
    have first : get? (setAll d ((k, v) :: rest)) key = get? (setAll (set d k v) rest) key := rfl
    rw [first, ih, get?_set, List.reverse_cons, List.lookup_append, Option.or_assoc]
    by_cases heq : key = k
    · rw [if_pos heq, heq, List.lookup_cons_self]
      rfl
    · rw [if_neg heq, lookup_cons_of_ne heq]
      rfl

/-- The keys that were not there come last, in the order in which they are first set. -/
theorem keys_setAll (d : Dictionary α) (entries : List (String × α)) :
    keys (setAll d entries) = keys d ++ ((entries.map (·.1)).filter (· ∉ keys d)).eraseDups := by
  induction entries generalizing d with
  | nil => exact (List.append_nil _).symm
  | cons entry rest ih =>
    obtain ⟨k, v⟩ := entry
    have first : keys (setAll d ((k, v) :: rest)) = keys (setAll (set d k v) rest) := rfl
    rw [first, ih, keys_set, List.map_cons]
    by_cases hk : k ∈ keys d
    · rw [if_pos hk, List.filter_cons_of_neg (by simpa using hk)]
    · -- the key joins those that are there, and is not counted again
      have others : (rest.map (·.1)).filter (· ∉ keys d ++ [k])
          = ((rest.map (·.1)).filter (· ∉ keys d)).filter (fun key => !key == k) := by
        rw [List.filter_filter]
        apply List.filter_congr
        intro key _
        by_cases heq : key = k
        · simp [heq]
        · simp [heq]
      rw [if_neg hk, List.filter_cons_of_pos (by simpa using hk), List.eraseDups_cons, others,
        List.append_assoc, List.singleton_append]

end Dictionary

end PlcWorkbench
