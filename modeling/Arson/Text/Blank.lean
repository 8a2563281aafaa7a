import Arson.Text.CharClass
/-! # Blank characters and trimming

The blanks are the characters with the Unicode property White_Space. Trimming removes blanks from
both ends of a text.
-/
namespace Arson.Text

/-- The characters with the Unicode property White_Space. -/
def blanks : CharClass where
  ranges :=
    #[
      (0x9, 0xD), (0x20, 0x20), (0x85, 0x85), (0xA0, 0xA0), (0x1680, 0x1680), (0x2000, 0x200A),
      (0x2028, 0x2029), (0x202F, 0x202F), (0x205F, 0x205F), (0x3000, 0x3000)
    ]

def isBlank (c : Char) : Bool := blanks.contains c

/-- The text without the blanks at its start and at its end. -/
def trim (s : String) : String :=
  String.ofList ((s.toList.dropWhile isBlank).reverse.dropWhile isBlank).reverse

end Arson.Text
