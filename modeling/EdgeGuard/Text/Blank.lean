/-!
# `EdgeGuard.Text.Blank`: blank characters, and texts without them at the ends

Blank are the characters with the Unicode property `White_Space`. Two further sets are
used by single formats: JSON has four blanks, and tags are compared in lower-case ASCII.
-/

set_option autoImplicit false

namespace EdgeGuard.Text

/-- The Unicode property `White_Space`. -/
def isBlank (c : Char) : Bool :=
  (0x09 ≤ c.toNat && c.toNat ≤ 0x0d) || c.toNat == 0x20 || c.toNat == 0x85
    || c.toNat == 0xa0 || c.toNat == 0x1680 || (0x2000 ≤ c.toNat && c.toNat ≤ 0x200a)
    || c.toNat == 0x2028 || c.toNat == 0x2029 || c.toNat == 0x202f || c.toNat == 0x205f
    || c.toNat == 0x3000

/-- The characters without those at both ends that are blank. -/
def trimChars (cs : List Char) : List Char :=
  ((cs.dropWhile isBlank).reverse.dropWhile isBlank).reverse

/-- The text without the blank characters at both ends. -/
def trim (text : String) : String := String.ofList (trimChars text.toList)

/-- The text with the letters `A` to `Z` in lower case. -/
def lowerAscii (text : String) : String := String.ofList (text.toList.map Char.toLower)

end EdgeGuard.Text
