/-!
# Blank characters and trimming

The characters of the Unicode property `White_Space`, and trimming them off both ends of a text.
-/

namespace PlcWorkbench.Text

/-- Whether a character is white space in Unicode. -/
def isBlank (c : Char) : Bool :=
  let code := c.toNat
  (0x9 ≤ code && code ≤ 0xD) || code == 0x20 || code == 0x85 || code == 0xA0 || code == 0x1680
    || (0x2000 ≤ code && code ≤ 0x200A) || code == 0x2028 || code == 0x2029 || code == 0x202F
    || code == 0x205F || code == 0x3000

/-- The characters without those at the end that meet the condition. -/
def dropEndWhile (p : Char → Bool) (characters : List Char) : List Char :=
  (characters.reverse.dropWhile p).reverse

/-- The text without blank characters at either end. -/
def trim (text : String) : String :=
  String.ofList (dropEndWhile isBlank (text.toList.dropWhile isBlank))

end PlcWorkbench.Text
