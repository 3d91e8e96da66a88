/-
Why a construct was skipped while a module was bound.

Binding never fails as a whole: what cannot be resolved is skipped and reported, with the syntax
node it concerns.
-/

import ExportSurface.Ast.Node

set_option autoImplicit false

namespace ExportSurface

/-- The reason for which a construct was skipped. -/
inductive Diagnostic where
  /-- A read of `obj.prop` in which `obj` or `prop` is unknown. -/
  | missingProperty (node : NodeId) (property : String)
  /-- A binding of a name whose value did not resolve. -/
  | unresolvedValue (node : NodeId) (name : String)
  /-- An assignment whose target could not be located. -/
  | unresolvedTarget (node : NodeId) (target : String)
  /-- An expression outside the supported grammar. -/
  | unsupported (node : NodeId) (kind : String)
  /-- An expression nested deeper than the resolver follows. -/
  | nestingLimit (node : NodeId)
  deriving DecidableEq

namespace Diagnostic

/-- The syntax node that a diagnostic concerns. -/
def node : Diagnostic → NodeId
  | .missingProperty node _ => node
  | .unresolvedValue node _ => node
  | .unresolvedTarget node _ => node
  | .unsupported node _ => node
  | .nestingLimit node => node

/-- The wording of a diagnostic. -/
def message : Diagnostic → String
  | .missingProperty _ property => "missing property `" ++ property ++ "`"
  | .unresolvedValue _ name => "no value symbol for `" ++ name ++ "`"
  | .unresolvedTarget _ target => "assignment target `" ++ target ++ "` not found"
  | .unsupported _ kind => "unsupported node `" ++ kind ++ "`"
  | .nestingLimit _ => "expression nested deeper than " ++ toString maxNesting ++ " levels"

end Diagnostic

end ExportSurface
