/-
Printing a built path gives the path back.

`AstBuilder.path` cuts a text at its dots and builds the member chain of the pieces from the left;
`Ast.memberPath?` walks such a chain from its last access inwards.  In between, other nodes are
pushed and the tree is closed.  Nothing that a builder does touches the nodes it has, so the chain
can be read off the closed tree from the start: the proofs fix a tree that keeps the nodes of the
builder, and follow the building of the chain inside that tree.

Main definitions:

* `AstBuilder.Extends`, `AstBuilder.PartOf` — a later builder, or a tree, that keeps the nodes of a
  builder in their places;
* `AstBuilder.Operation` — the things that a builder can be asked to do before its tree is closed;
* `Ast.PlainChain` — the member chain of some names.

Main results:

* `AstBuilder.Operation.runAll_extends` — **every sequence of operations keeps the nodes**;
* `Ast.PlainChain.memberPath?_eq` — the path of a chain is its names with dots between them;
* `AstBuilder.path_plainChain` — a path is built as the chain of its pieces;
* `AstBuilder.path_printed` — **printing a built path gives the path back**, whatever is pushed
  after it.
-/

import ExportSurface.Ast.Builder
import ExportSurface.Proofs.MemberChains

set_option autoImplicit false

namespace ExportSurface

namespace AstBuilder

/-! ### Builders that keep their nodes -/

/-- The second builder is the first one at a later time: its nodes are still there, in their places,
and new ones come after them. -/
def Extends (b b' : AstBuilder) : Prop := b.nodes.toList <+: b'.nodes.toList

namespace Extends

theorem refl (b : AstBuilder) : b.Extends b := List.prefix_refl _

theorem trans {b b' b'' : AstBuilder} (h : b.Extends b') (h' : b'.Extends b'') : b.Extends b'' :=
  List.IsPrefix.trans h h'

theorem pushSpanned (b : AstBuilder) (node : Node) (span : Span) :
    b.Extends (b.pushSpanned node span).2 := by
  rw [Extends, AstBuilder.pushSpanned, Array.toList_push]
  exact List.prefix_append _ _

theorem push (b : AstBuilder) (node : Node) : b.Extends (b.push node).2 := pushSpanned b node _

theorem push_push (b : AstBuilder) (part node : Node) :
    b.Extends ((b.push part).2.push node).2 :=
  (push b part).trans (push _ node)

/-- A step for each item keeps the nodes if one step does. -/
theorem pushEach {α β : Type} {step : AstBuilder → α → β × AstBuilder}
    (hstep : ∀ (b : AstBuilder) a, b.Extends (step b a).2) (b : AstBuilder) (items : List α) :
    b.Extends (AstBuilder.pushEach step b items).2 := by
  induction items generalizing b with
  | nil => exact .refl b
  | cons a rest ih => exact (hstep b a).trans (ih _)

theorem optionalIdentifier (b : AstBuilder) (name : Option String) :
    b.Extends (b.optionalIdentifier name).2 := by
  cases name with
  | none => exact .refl b
  | some name => exact .push b _

end Extends

/-! ### Paths as repeated accesses -/

/-- Add one plain access after the other, from the left. -/
def accesses (chain : NodeId × AstBuilder) (names : List String) : NodeId × AstBuilder :=
  names.foldl (fun (base, b) name => b.member base name) chain

theorem Extends.accesses (chain : NodeId × AstBuilder) (names : List String) :
    chain.2.Extends (accesses chain names).2 := by
  induction names generalizing chain with
  | nil => exact .refl _
  | cons name names ih => exact (Extends.push_push _ _ _).trans (ih _)

/-- The pieces of a text are those between its dots. -/
theorem segments_eq_splitOn (text : List Char) :
    (segments text).1 :: (segments text).2 = text.splitOn '.' := by
  induction text with
  | nil => rfl
  | cons c rest ih =>
      rw [List.splitOn_cons_eq_if_modifyHead, ← ih, segments]
      by_cases hdot : c = '.' <;> simp [hdot]

theorem path_eq {dotted : String} {first : List Char} {others : List (List Char)}
    (h : dotted.toList.splitOn '.' = first :: others) (b : AstBuilder) :
    b.path dotted =
      accesses (b.identifier (String.ofList first)) (others.map String.ofList) := by
  rw [← segments_eq_splitOn] at h
  obtain ⟨rfl, rfl⟩ := List.cons.inj h
  rw [accesses, List.foldl_map]
  rfl

theorem Extends.path (b : AstBuilder) (dotted : String) : b.Extends (b.path dotted).2 := by
  rw [path_eq (segments_eq_splitOn dotted.toList).symm]
  exact (Extends.push b _).trans (Extends.accesses _ _)

/-! ### Operations -/

/-- What a builder can be asked to do before its tree is closed. -/
inductive Operation where
  | atLine (line : Nat)
  | pushSpanned (node : Node) (span : Span)
  | push (node : Node)
  | identifier (name : String)
  | string (text : String)
  | number (value : Binary64)
  | member (base : NodeId) (name : String)
  | computedMember (base key : NodeId)
  | path (dotted : String)
  | assign (target value : NodeId)
  | functionExpression
  | arrowFunction
  | property (key : String) (value : NodeId)
  | object (properties : List Entry)
  | classBody (names : List String)
  | expressionStatement (expression : NodeId)
  | assignStatement (target value : NodeId)
  | functionDeclaration (name : Option String)
  | classDeclaration (name : Option String) (body : NodeId)
  | variableDeclaration (kind : DeclarationKind) (name : String) (init : Option NodeId)
  | exportDefault (declaration : NodeId)
  | exportNamed (declaration : Option NodeId) (names : List String)
  | other (kind : String)

namespace Operation

def run (b : AstBuilder) : Operation → AstBuilder
  | .atLine line => b.atLine line
  | .pushSpanned node span => (b.pushSpanned node span).2
  | .push node => (b.push node).2
  | .identifier name => (b.identifier name).2
  | .string text => (b.string text).2
  | .number value => (b.number value).2
  | .member base name => (b.member base name).2
  | .computedMember base key => (b.computedMember base key).2
  | .path dotted => (b.path dotted).2
  | .assign target value => (b.assign target value).2
  | .functionExpression => b.functionExpression.2
  | .arrowFunction => b.arrowFunction.2
  | .property key value => (b.property key value).2
  | .object properties => (b.object properties).2
  | .classBody names => (b.classBody names).2
  | .expressionStatement expression => (b.expressionStatement expression).2
  | .assignStatement target value => (b.assignStatement target value).2
  | .functionDeclaration name => (b.functionDeclaration name).2
  | .classDeclaration name body => (b.classDeclaration name body).2
  | .variableDeclaration kind name init => (b.variableDeclaration kind name init).2
  | .exportDefault declaration => (b.exportDefault declaration).2
  | .exportNamed declaration names => (b.exportNamed declaration names).2
  | .other kind => (b.other kind).2

/-- One operation after the other. -/
def runAll (operations : List Operation) (b : AstBuilder) : AstBuilder :=
  operations.foldl run b

/-- **One operation keeps the nodes**: it pushes the parts it makes, and then its own node. -/
theorem run_extends (b : AstBuilder) (op : Operation) : b.Extends (op.run b) := by
  cases op with
  | atLine line => exact .refl b
  | pushSpanned node span => exact .pushSpanned b node span
  | push | identifier | string | number | computedMember | assign | functionExpression
  | arrowFunction | property | object | expressionStatement | exportDefault | other =>
      exact .push b _
  | member | assignStatement | variableDeclaration => exact .push_push b _ _
  | path dotted => exact .path b dotted
  | classBody names =>
      refine (Extends.pushEach (fun b name => ?_) b names).trans (.push _ _)
      exact .push_push b _ _
  | functionDeclaration name => exact (Extends.optionalIdentifier b name).trans (.push _ _)
  | classDeclaration name body => exact (Extends.optionalIdentifier b name).trans (.push _ _)
  | exportNamed declaration names =>
      refine (Extends.pushEach (fun b name => ?_) b names).trans (.push _ _)
      exact .push_push b _ _

/-- **Every sequence of operations keeps the nodes.** -/
theorem runAll_extends (operations : List Operation) (b : AstBuilder) :
    b.Extends (runAll operations b) := by
  induction operations generalizing b with
  | nil => exact .refl b
  | cons op rest ih => exact (run_extends b op).trans (ih _)

end Operation

end AstBuilder

/-! ### Member chains and their paths -/

namespace Ast

/-- The node is the member chain of the names, the first one innermost.  Every access stands after
its object. -/
inductive PlainChain (ast : Ast) : NodeId → List String → Prop where
  | identifier {id : NodeId} {name : String} : ast.node id = .identifier name →
      PlainChain ast id [name]
  | member {id base property : NodeId} {names : List String} {name : String} :
      ast.node id = .member base property false → ast.node property = .identifier name →
      base < id → PlainChain ast base names → PlainChain ast id (names ++ [name])

namespace PlainChain

variable {ast : Ast} {id : NodeId} {names : List String}

theorem ne_nil (h : ast.PlainChain id names) : names ≠ [] := by
  cases h with
  | identifier _ => exact List.cons_ne_nil _ _
  | member _ _ _ _ => exact List.append_ne_nil_of_right_ne_nil _ (List.cons_ne_nil _ _)

/-- As a path, the chain spells its names with dots between them. -/
theorem hasPath (h : ast.PlainChain id names) : ast.HasPath id (".".intercalate names) := by
  induction h with
  | identifier hnode => exact ⟨[], _, .identifier hnode, by simp⟩
  | @member id base property names name hnode hname _ hbase ih =>
      obtain ⟨links, segments, hchain, hpath⟩ := ih
      have hsegment : ast.pathSegment? property false = some ("." ++ name) := by
        simp [pathSegment?, identifierName?, hname]
      refine ⟨base :: links, _, .access hnode hsegment hchain, ?_⟩
      rw [String.intercalate_append_of_ne_nil hbase.ne_nil (List.cons_ne_nil _ _),
        String.join_append, hpath]
      simp [String.append_assoc]

/-- **The path of a chain is its names with dots between them.** -/
theorem memberPath?_eq (h : ast.PlainChain id names) :
    ast.memberPath? id = some (".".intercalate names) :=
  memberPath?_eq_some_iff.2 h.hasPath

end PlainChain

end Ast

namespace AstBuilder

/-! ### The chain that a path builds -/

/-- The tree keeps the nodes of the builder, in their places. -/
def PartOf (b : AstBuilder) (ast : Ast) : Prop := b.nodes.toList <+: ast.nodes.toList

section chain

variable {b b' : AstBuilder} {ast : Ast}

theorem partOf_program (b : AstBuilder) (body : List NodeId) : b.PartOf (b.program body) :=
  Extends.push b (.program body)

theorem Extends.partOf (h : b.Extends b') (hpart : b'.PartOf ast) : b.PartOf ast :=
  List.IsPrefix.trans h hpart

/-- The node pushed last is found where it was pushed. -/
theorem PartOf.node_push {node : Node} (h : (b.push node).2.PartOf ast) :
    ast.node b.nodes.size = node := by
  obtain ⟨rest, hrest⟩ := h
  have hpushed : ast.nodes[b.nodes.size]? = some ⟨node, ⟨b.line, b.line⟩⟩ := by
    rw [← Array.getElem?_toList, ← hrest]
    simp [push, pushSpanned]
  rw [Ast.node, hpushed]

/-- A plain access continues a chain by its name. -/
theorem member_plainChain {base : NodeId} {names : List String} {name : String}
    (hpart : (b.member base name).2.PartOf ast) (hbase : base < b.nodes.size)
    (hchain : ast.PlainChain base names) :
    ast.PlainChain (b.member base name).1 (names ++ [name]) := by
  have hname : ast.node b.nodes.size = .identifier name :=
    ((Extends.push _ _).partOf hpart).node_push
  have hsize : (b.identifier name).2.nodes.size = b.nodes.size + 1 := Array.size_push _
  have hlt : base < (b.identifier name).2.nodes.size := hsize ▸ Nat.lt_succ_of_lt hbase
  exact .member hpart.node_push hname hlt hchain

theorem member_lt_size (b : AstBuilder) (base : NodeId) (name : String) :
    (b.member base name).1 < (b.member base name).2.nodes.size := by
  simp [member, push, pushSpanned]

/-- Accesses one after the other continue a chain by their names.  The tree keeps the nodes of the
last builder, and with them those of every builder on the way. -/
theorem accesses_plainChain (more : List String) {chain : NodeId × AstBuilder}
    {names : List String} (hpart : (accesses chain more).2.PartOf ast)
    (hlt : chain.1 < chain.2.nodes.size) (hchain : ast.PlainChain chain.1 names) :
    ast.PlainChain (accesses chain more).1 (names ++ more) := by
  induction more generalizing chain names with
  | nil =>
      rw [List.append_nil]
      exact hchain
  | cons name more ih =>
      have hnext : ast.PlainChain (chain.2.member chain.1 name).1 (names ++ [name]) :=
        member_plainChain ((Extends.accesses _ more).partOf hpart) hlt hchain
      have hmore := ih hpart (member_lt_size _ _ _) hnext
      rw [List.append_assoc] at hmore
      exact hmore

/-- **A path is built as the chain of its pieces.** -/
theorem path_plainChain {dotted : String} (hpart : (b.path dotted).2.PartOf ast) :
    ast.PlainChain (b.path dotted).1 ((dotted.toList.splitOn '.').map String.ofList) := by
  obtain ⟨first, others, hsplit⟩ :=
    List.exists_cons_of_ne_nil (List.splitOn_ne_nil '.' dotted.toList)
  rw [path_eq hsplit] at hpart ⊢
  rw [hsplit, List.map_cons]
  have hfirst : ast.node b.nodes.size = .identifier (String.ofList first) :=
    ((Extends.accesses _ _).partOf hpart).node_push
  have hlt : b.nodes.size < (b.identifier (String.ofList first)).2.nodes.size := by
    simp [identifier, push, pushSpanned]
  exact accesses_plainChain _ hpart hlt (.identifier hfirst)

end chain

/-- The pieces of a text with dots between them are the text. -/
theorem intercalate_pieces (dotted : String) :
    ".".intercalate ((dotted.toList.splitOn '.').map String.ofList) = dotted := by
  have hpieces : String.toList ∘ String.ofList = id := funext fun _ => String.toList_ofList
  apply String.toList_inj.1
  rw [String.toList_intercalate, List.map_map, hpieces, List.map_id]
  exact List.intercalate_splitOn '.'

/-- **Printing a built path gives the path back.**  From whatever builder a path is built, whatever
is done with the builder after that, and with whatever statements the tree is closed: the node that
was answered is the member chain of the pieces of the path, empty ones included, and its path in the
closed tree is the text it was built from. -/
theorem path_printed (b : AstBuilder) (dotted : String) (later : List Operation)
    (body : List NodeId) :
    ((Operation.runAll later (b.path dotted).2).program body).PlainChain (b.path dotted).1
        ((dotted.toList.splitOn '.').map String.ofList) ∧
      ((Operation.runAll later (b.path dotted).2).program body).memberPath? (b.path dotted).1 =
        some dotted := by
  have hchain := path_plainChain
    ((Operation.runAll_extends later (b.path dotted).2).partOf (partOf_program _ body))
  refine ⟨hchain, ?_⟩
  rw [hchain.memberPath?_eq, intercalate_pieces]

end AstBuilder

end ExportSurface
