/-
Styles of text in a terminal.

A style is a row of codes that are switched on before a text and off after it; a plain style has
none and changes nothing.

Main definitions:

* `Style.apply` — a text in a style;
* `Theme.colored`, `Theme.plain` — the styles of the program, with and without colours.
-/

set_option autoImplicit false

namespace ExportSurface

/-- A style: the codes to switch on. -/
structure Style where
  codes : List Nat := []
  deriving DecidableEq

namespace Style

/-- The character that starts a terminal sequence. -/
def escape : String := "\x1b["

/-- A text in a style. -/
def apply (s : Style) (text : String) : String :=
  if s.codes.isEmpty then text
  else escape ++ ";".intercalate (s.codes.map toString) ++ "m" ++ text ++ escape ++ "0m"

/-- The code of bold text. -/
def bold : Nat := 1

/-- The code of faint text. -/
def faint : Nat := 2

end Style

/-- The styles of the parts of an output. -/
structure Theme where
  header : Style := {}
  success : Style := {}
  error : Style := {}
  warn : Style := {}
  dim : Style := {}
  muted : Style := {}

namespace Theme

def colored : Theme where
  header := ⟨[36, Style.bold]⟩
  success := ⟨[32, Style.bold]⟩
  error := ⟨[31, Style.bold]⟩
  warn := ⟨[33, Style.bold]⟩
  dim := ⟨[37, Style.faint]⟩
  muted := ⟨[90]⟩

def plain : Theme := {}

end Theme

end ExportSurface
