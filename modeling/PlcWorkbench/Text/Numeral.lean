/-!
# Numerals of bounded value

Reading a numeral in a radix up to sixteen into a 32-bit word. Digits are taken from the left; a
character that is no digit is reported before the overflow that the same position would cause.
-/

namespace PlcWorkbench.Text.Numeral

/-- Why a text is not a numeral of a 32-bit word. -/
inductive Fault where
  | empty
  | invalidDigit
  | tooLarge
deriving DecidableEq, Repr

/-- The number of values of a 32-bit word. -/
def wordLimit : Nat := 4294967296

/-- The value of a digit: `0` to `9`, then letters of either case from ten on. -/
def digitValue? (radix : Nat) (c : Char) : Option Nat :=
  let value :=
    if '0' ≤ c ∧ c ≤ '9' then c.toNat - '0'.toNat
    else if 'a' ≤ c ∧ c ≤ 'z' then c.toNat - 'a'.toNat + 10
    else if 'A' ≤ c ∧ c ≤ 'Z' then c.toNat - 'A'.toNat + 10
    else radix
  if value < radix then some value else none

/-- Continue a numeral whose digits so far have the given value. -/
def extend (radix : Nat) : Nat → List Char → Except Fault Nat
  | value, [] => .ok value
  | value, c :: rest =>
    match digitValue? radix c with
    | none => .error .invalidDigit
    | some digit =>
      if value * radix + digit < wordLimit then extend radix (value * radix + digit) rest
      else .error .tooLarge

/-- Read a non-empty run of digits. -/
def read (radix : Nat) : List Char → Except Fault Nat
  | [] => .error .empty
  | digits => extend radix 0 digits

/-- Read a decimal numeral with an optional plus sign. -/
def readSigned : List Char → Except Fault Nat
  | ['+'] => .error .invalidDigit
  | '+' :: digits => read 10 digits
  | digits => read 10 digits

end PlcWorkbench.Text.Numeral
