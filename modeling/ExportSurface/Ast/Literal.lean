/-
Literals of a module's source, and the property names they stand for.

`obj[lit]` reads the property whose name is the text of the literal.  The falsy scalars — the empty
string, zero, `false` and `null` — never name a property, and neither does a literal that is kept
as raw source text.
-/

import ExportSurface.Number.Shortest

set_option autoImplicit false

namespace ExportSurface

/-- The value of a literal. -/
inductive Literal where
  | string (text : String)
  | number (value : Binary64)
  | boolean (value : Bool)
  | null
  /-- A regular expression, a template or a big integer, kept as its source text. -/
  | raw (source : String)
  deriving DecidableEq

namespace Literal

/-- The property name that a literal stands for in `obj[lit]`. -/
def key? : Literal → Option String
  | .string text => if text.isEmpty then none else some text
  | .number value => value.keyText?
  | .boolean value => if value then some "true" else none
  | .null => none
  | .raw _ => none

end Literal

end ExportSurface
