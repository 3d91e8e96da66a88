/-
Code points and the surrogates that write them in pairs.

A code point above the first 65536 is written in sixteen-bit units as a pair of surrogates, a high
one and a low one.  Surrogates alone are no characters.

Main definitions:

* `CodePoint.char?` — the character of a code point;
* `CodePoint.ofPair` — the code point of a surrogate pair.
-/

set_option autoImplicit false

namespace ExportSurface.CodePoint

/-- The character of a code point; surrogates are no characters. -/
def char? (n : Nat) : Option Char :=
  if n.isValidChar then some (Char.ofNat n) else none

def isHighSurrogate (n : Nat) : Bool := 0xD800 ≤ n && n < 0xDC00

def isLowSurrogate (n : Nat) : Bool := 0xDC00 ≤ n && n < 0xE000

/-- The code point of a surrogate pair. -/
def ofPair (high low : Nat) : Nat := 0x10000 + (high - 0xD800) * 0x400 + (low - 0xDC00)

end ExportSurface.CodePoint
