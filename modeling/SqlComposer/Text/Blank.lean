import SqlComposer.Text.Basic

/-!
# Blank characters

The blank characters are those with the Unicode property `White_Space`: the
ASCII controls from tab to carriage return, the space, U+0085, and the spaces
and line separators of the other blocks.  The information separators U+001C to
U+001F, the Mongolian vowel separator, the zero-width space and the byte order
mark are not blank.  Trimming, words and blank operands all use this one class.
-/

namespace SqlComposer

set_option autoImplicit false

namespace Text

/-- Whether a character has the Unicode property `White_Space`. -/
def isBlank (character : Char) : Bool :=
  let code := character.toNat
  (0x09 ≤ code && code ≤ 0x0D) || code == 0x20 || code == 0x85 || code == 0xA0 ||
  code == 0x1680 || (0x2000 ≤ code && code ≤ 0x200A) || code == 0x2028 || code == 0x2029 ||
  code == 0x202F || code == 0x205F || code == 0x3000

/-- The text without the blank characters at both ends. -/
def trimmed (text : Text) : Text :=
  stripWhere isBlank text

/-- The maximal runs of characters that are not blank, in order. -/
def words (text : Text) : List Text :=
  (text.splitOnP isBlank).filter (!·.isEmpty)

end Text

end SqlComposer
