/-! Texts are lists of characters. A set of characters is listed by the spans of its code points.
The separators 001C to 001F and the next-line control count as blank, a zero-width space does not. -/
namespace SourceSweep

abbrev Text := List Char

namespace Text

abbrev Span := Nat × Nat

def inSpans (spans : List Span) (point : Nat) : Bool :=
  spans.any fun span => span.1 ≤ point && point ≤ span.2

def blankSpans : List Span := [
  (0x9, 0xd), (0x1c, 0x20), (0x85, 0x85), (0xa0, 0xa0), (0x1680, 0x1680), (0x2000, 0x200a),
  (0x2028, 0x2029), (0x202f, 0x202f), (0x205f, 0x205f), (0x3000, 0x3000)
]

def isBlank (c : Char) : Bool := inSpans blankSpans c.toNat

def skipBlanks (text : Text) : Text := text.dropWhile isBlank

def allBlank (text : Text) : Bool := text.all isBlank

def trimEnd (text : Text) : Text := (text.reverse.dropWhile isBlank).reverse

/-! Decimal digits of any script; each script has its ten in a row, the zero first. -/

def zeroPoints : List Nat := [
  0x30, 0x660, 0x6f0, 0x7c0, 0x966, 0x9e6, 0xa66, 0xae6, 0xb66, 0xbe6, 0xc66, 0xce6, 0xd66,
  0xde6, 0xe50, 0xed0, 0xf20, 0x1040, 0x1090, 0x17e0, 0x1810, 0x1946, 0x19d0, 0x1a80, 0x1a90,
  0x1b50, 0x1bb0, 0x1c40, 0x1c50, 0xa620, 0xa8d0, 0xa900, 0xa9d0, 0xa9f0, 0xaa50, 0xabf0, 0xff10,
  0x104a0, 0x10d30, 0x11066, 0x110f0, 0x11136, 0x111d0, 0x112f0, 0x11450, 0x114d0, 0x11650,
  0x116c0, 0x11730, 0x118e0, 0x11950, 0x11c50, 0x11d50, 0x11da0, 0x16a60, 0x16ac0, 0x16b50,
  0x1d7ce, 0x1d7d8, 0x1d7e2, 0x1d7ec, 0x1d7f6, 0x1e140, 0x1e2f0, 0x1e950, 0x1fbf0
]

def isDecimalDigit (c : Char) : Bool :=
  zeroPoints.any fun first => first ≤ c.toNat && c.toNat ≤ first + 9

def ofNat (n : Nat) : Text := Nat.toDigits 10 n

def ofInt (n : Int) : Text := if n < 0 then '-' :: ofNat n.natAbs else ofNat n.natAbs

end Text

end SourceSweep
