/-!
# Dictionaries

A dictionary is a list of keys and values that remembers the order in which its keys were first set.
`get?` finds the first value under a key; `set` puts a value in place if the key is there and at
the end otherwise, so that distinct keys stay distinct.
-/

namespace PlcWorkbench

/-- Keys with their values, in the order in which the keys were first set. -/
abbrev Dictionary (α : Type) := List (String × α)

namespace Dictionary

/-- The value under `key`. -/
def get? {α : Type} (d : Dictionary α) (key : String) : Option α :=
  d.lookup key

/-- Put `value` under `key`: in place if the key is there, at the end otherwise. -/
def set {α : Type} : Dictionary α → String → α → Dictionary α
  | [], key, value => [(key, value)]
  | (k, v) :: rest, key, value =>
    if k = key then (k, value) :: rest else (k, v) :: set rest key value

/-- The keys in order. -/
def keys {α : Type} (d : Dictionary α) : List String :=
  d.map (·.1)

end Dictionary

end PlcWorkbench
