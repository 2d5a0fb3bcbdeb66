/-!
# Blank characters

The characters that separate tokens are those with the Unicode property White_Space:
twenty-five code points in ten ranges, the same in every Unicode version since 6.3. They are
kept as closed ranges, ascending and apart, and looked up by code point.
-/

namespace Oreo.Text

/-- The code points with the property White_Space, as closed ranges. -/
def blankRanges : List (Nat × Nat) :=
  [(0x09, 0x0D), (0x20, 0x20), (0x85, 0x85), (0xA0, 0xA0), (0x1680, 0x1680), (0x2000, 0x200A),
   (0x2028, 0x2029), (0x202F, 0x202F), (0x205F, 0x205F), (0x3000, 0x3000)]

/-- Whether a character has the property White_Space. -/
def isBlank (character : Char) : Bool :=
  blankRanges.any fun range => range.1 ≤ character.toNat && character.toNat ≤ range.2

/-- The text without the blank characters at its end. -/
def trimEnd (text : String) : String :=
  String.ofList (text.toList.reverse.dropWhile isBlank).reverse

end Oreo.Text
