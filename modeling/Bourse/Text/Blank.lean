/-!
# Blank characters

The characters with the Unicode `White_Space` property: the ASCII controls from tab to
carriage return, space, next line, no-break space, ogham space mark, the spaces from en quad
to hair space, the line and paragraph separators, the narrow no-break space, the medium
mathematical space and the ideographic space. The information separators U+001C to U+001F
are not among them.

`trimBlanks` removes them from both ends of a string.
-/

namespace Bourse

/-- Whether a character has the Unicode `White_Space` property. -/
def isBlank (c : Char) : Bool :=
  let n := c.toNat
  (9 ≤ n && n ≤ 13) || n == 32 || n == 0x85 || n == 0xA0 || n == 0x1680 ||
    (0x2000 ≤ n && n ≤ 0x200A) || n == 0x2028 || n == 0x2029 || n == 0x202F ||
    n == 0x205F || n == 0x3000

/-- A string without blank characters at either end. -/
def trimBlanks (s : String) : String :=
  String.ofList ((s.toList.dropWhile isBlank).reverse.dropWhile isBlank).reverse

end Bourse
