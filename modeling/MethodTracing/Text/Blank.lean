/-!
# Blank characters

The white space that surrounds names, option values and numerals, and its removal from both ends
of a text.  The class is the Unicode property `White_Space`; zero-width characters are not in it.
-/

namespace MethodTracing
namespace Text

/-- The Unicode property `White_Space`. -/
def isBlank (char : Char) : Bool :=
  let code := char.toNat
  (0x9 ≤ code && code ≤ 0xD) || code == 0x20 || code == 0x85 || code == 0xA0 || code == 0x1680 ||
    (0x2000 ≤ code && code ≤ 0x200A) || code == 0x2028 || code == 0x2029 || code == 0x202F ||
    code == 0x205F || code == 0x3000

/-- The characters left when blanks are removed from both ends. -/
def trimChars (chars : List Char) : List Char :=
  ((chars.dropWhile isBlank).reverse.dropWhile isBlank).reverse

/-- The text left when blanks are removed from both ends. -/
def trim (text : String) : String :=
  String.ofList (trimChars text.toList)

end Text
end MethodTracing
