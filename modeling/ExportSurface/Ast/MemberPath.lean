/-
The source path of a member chain.

`module.exports['run']` is written `module.exports[run]`: an identifier followed by the segments
of its member accesses.  A chain that starts at anything but an identifier, or that has a plain
segment without a name, has no path.

Main definitions:

* `Ast.memberPath?` — the path of a node.
-/

import ExportSurface.Ast.Node

set_option autoImplicit false

namespace ExportSurface.Ast

/-- The segment that one member access adds to a path. -/
def pathSegment? (ast : Ast) (property : NodeId) (computed : Bool) : Option String :=
  if computed then some ("[" ++ (ast.staticKey? property).getD "?" ++ "]")
  else (ast.identifierName? property).map ("." ++ ·)

/-- The path of the node, followed by the given text, through at most `fuel` member accesses. -/
def pathThrough? (ast : Ast) : Nat → NodeId → List String → Option String
  | 0, _, _ => none
  | fuel + 1, id, segments =>
      match ast.node id with
      | .identifier name => some (String.join (name :: segments))
      | .member base property computed =>
          match ast.pathSegment? property computed with
          | some segment => ast.pathThrough? fuel base (segment :: segments)
          | none => none
      | _ => none

/-- The path of an identifier or a member chain, such as `module.exports.run`.  A chain that ends at
an identifier has no more links than there are nodes. -/
def memberPath? (ast : Ast) (id : NodeId) : Option String :=
  ast.pathThrough? (ast.size + 1) id []

end ExportSurface.Ast
