/-
Chained assignments, and the depth to which they are followed.

In `a = b = c = () => {}` every assignment is the value of the one before.  Each link takes one
level of the resolver, and a name is stored only when the links after it are done.  So a chain that
fits is stored as a whole, and of a chain that does not fit nothing is stored: the resolver stops at
the first link that is too deep, before the function is made, and all links before it give up.

Main definitions:

* `Ast.Chain` — a chain of assignments to names that ends in a value;
* `Bindings.setGlobals` — one symbol under several names of the global scope;
* `Bindings.reportUnresolved` — what the links of a chain report that is not followed to its end.

Main results:

* `Resolver.resolve_chain` — **a chain that fits is stored as a whole**;
* `Resolver.resolve_chain_cut` — **a longer chain only leaves diagnostics**;
* `Resolver.chain_all_or_nothing` — both, for a statement.
-/

import ExportSurface.Proofs.ExportFlags

set_option autoImplicit false

namespace ExportSurface

open SymbolGraph (root)

/-! ### Chains -/

/-- An assignment to a name in a chain: the target and its name. -/
structure Link where
  target : NodeId
  name : String
  deriving DecidableEq

/-- A node is a chain of assignments to the given names, the first one outermost, and ends in the
given value. -/
inductive Ast.Chain (ast : Ast) (value : NodeId) : List Link → NodeId → Prop where
  | value : Chain ast value [] value
  | assign {link : Link} {links : List Link} {node rest : NodeId} :
      ast.node node = .assignment link.target rest →
      ast.node link.target = .identifier link.name → Chain ast value links rest →
      Chain ast value (link :: links) node

/-! ### Stores and reports -/

namespace Bindings

variable {b : Bindings} {links : List Link}

/-- Store a symbol under each name of a chain, the innermost first. -/
def setGlobals (links : List Link) (s : SymbolId) (b : Bindings) : Bindings :=
  links.foldr (fun link b => b.setProp root link.name s) b

/-- Report for each link of a chain, the innermost first, that it has no value. -/
def reportUnresolved (links : List Link) (b : Bindings) : Bindings :=
  links.foldr (fun link b => b.report (.unresolvedValue link.target link.name)) b

@[simp] theorem size_setGlobals (s : SymbolId) :
    (setGlobals links s b).graph.size = b.graph.size := by
  induction links with
  | nil => rfl
  | cons link links ih => exact (SymbolGraph.size_setProp ..).trans ih

@[simp] theorem face_setGlobals (s id : SymbolId) :
    ((setGlobals links s b).graph.get id).face = (b.graph.get id).face := by
  induction links with
  | nil => rfl
  | cons link links ih => exact (SymbolGraph.face_setProp ..).trans ih

@[simp] theorem diagnostics_setGlobals (s : SymbolId) :
    (setGlobals links s b).diagnostics = b.diagnostics := by
  induction links with
  | nil => rfl
  | cons link links ih => exact ih

theorem prop?_setGlobals (hroot : root < b.graph.size) (s id : SymbolId) (key : String) :
    (setGlobals links s b).graph.prop? id key =
      if id = root ∧ ∃ link ∈ links, link.name = key then some s else b.graph.prop? id key := by
  induction links with
  | nil => simp [setGlobals]
  | cons link links ih =>
      have hlt : root < (setGlobals links s b).graph.size := by
        rw [size_setGlobals]
        exact hroot
      have hstep : (setGlobals (link :: links) s b).graph =
          (setGlobals links s b).graph.setProp root link.name s := rfl
      rw [hstep, SymbolGraph.prop?_setProp, ih]
      simp only [List.exists_mem_cons_iff, hlt, and_true]
      by_cases hid : id = root
      · by_cases hname : link.name = key
        · simp [hid, hname]
        · simp [hid, hname, Ne.symm hname]
      · simp [hid]

@[simp] theorem graph_reportUnresolved : (reportUnresolved links b).graph = b.graph := by
  induction links with
  | nil => rfl
  | cons link links ih => exact ih

theorem diagnostics_reportUnresolved :
    (reportUnresolved links b).diagnostics =
      b.diagnostics ++ links.reverse.map fun link =>
        Diagnostic.unresolvedValue link.target link.name := by
  induction links with
  | nil => simp [reportUnresolved]
  | cons link links ih =>
      have hstep : (reportUnresolved (link :: links) b).diagnostics =
          (reportUnresolved links b).diagnostics.push
            (.unresolvedValue link.target link.name) := rfl
      rw [hstep, ih]
      apply Array.ext'
      simp

end Bindings

namespace Resolver

variable {r : Resolver} {value : NodeId} {b : Bindings}

/-! ### The function at the end -/

@[simp] theorem size_functionSymbol (n : NodeId) (b : Bindings) :
    (functionSymbol n b).2.graph.size = b.graph.size + 2 := by
  simp [functionSymbol]

theorem get_functionSymbol_old (n : NodeId) {id : SymbolId} (hid : id < b.graph.size) :
    (functionSymbol n b).2.graph.get id = b.graph.get id := by
  have hne : id ≠ b.graph.size := Nat.ne_of_lt hid
  have hne' : id ≠ b.graph.size + 1 := Nat.ne_of_lt (Nat.lt_succ_of_lt hid)
  simp [functionSymbol, SymbolGraph.get_setProp, SymbolGraph.get_alloc, Bindings.alloc, hne, hne']

theorem face_functionSymbol_new (n : NodeId) (b : Bindings) :
    ((functionSymbol n b).2.graph.get b.graph.size).face = .object (some n) := by
  rw [functionSymbol]
  dsimp only
  rw [Bindings.setProp_graph, SymbolGraph.face_setProp, Bindings.alloc_graph,
    SymbolGraph.get_alloc, if_neg, Bindings.alloc_graph, SymbolGraph.get_alloc]
  · simp only [if_pos]
    rfl
  · simp

theorem resolve_functionValue (hvalue : (r.ast.node value).isFunctionValue = true) (levels : Nat)
    (scope : Option SymbolId) (options : ResolveOptions) (b : Bindings) :
    r.resolve (levels + 1) value scope options b =
      (some (functionSymbol value b).1, (functionSymbol value b).2) := by
  rw [resolve, resolveNode]
  cases hnode : r.ast.node value with
  | functionExpression id => rfl
  | arrowFunction => rfl
  | _ => simp [hnode, Node.isFunctionValue] at hvalue

/-! ### One link -/

section link

variable {link : Link} {node rest : NodeId} {scope : Option SymbolId}
  (hnode : r.ast.node node = .assignment link.target rest)
  (htarget : r.ast.node link.target = .identifier link.name) (hscope : scope.getD root = root)
include hnode htarget hscope

/-- A link takes one level and stores what the rest of the chain denotes. -/
theorem resolve_link (levels : Nat) (options : ResolveOptions) (b : Bindings) :
    r.resolve (levels + 1) node scope options b =
      bindName (r.resolve levels) link.target link.name (some rest) root b := by
  rw [resolve, resolveNode, hnode]
  dsimp only
  rw [bindWith, htarget]
  dsimp only
  rw [hscope]

end link

/-! ### Whole chains -/

/-- **A chain that fits is stored as a whole.**  The function at its end is made first, and then
every name gets it, from the inside out. -/
theorem resolve_chain (hvalue : (r.ast.node value).isFunctionValue = true) {links : List Link}
    {node : NodeId} (hchain : r.ast.Chain value links node) {levels : Nat}
    (hlevels : links.length < levels) (scope : Option SymbolId) (hscope : scope.getD root = root)
    (options : ResolveOptions) (b : Bindings) :
    r.resolve levels node scope options b =
      (some b.graph.size, (functionSymbol value b).2.setGlobals links b.graph.size) := by
  induction hchain generalizing levels scope options with
  | value =>
      obtain ⟨levels, rfl⟩ := Nat.exists_eq_succ_of_ne_zero (Nat.ne_zero_of_lt hlevels)
      exact resolve_functionValue hvalue levels scope options b
  | @assign link links node rest hnode htarget _ ih =>
      obtain ⟨levels, rfl⟩ := Nat.exists_eq_succ_of_ne_zero (Nat.ne_zero_of_lt hlevels)
      rw [resolve_link hnode htarget hscope, bindName,
        ih (Nat.lt_of_succ_lt_succ hlevels) (some root) rfl {}]
      rfl

/-- **A longer chain only leaves diagnostics**: the first link that is too deep, and then, from the
inside out, every link before it. -/
theorem resolve_chain_cut {links : List Link} {node : NodeId}
    (hchain : r.ast.Chain value links node) {levels : Nat} (hlevels : levels ≤ links.length)
    (scope : Option SymbolId) (hscope : scope.getD root = root) (options : ResolveOptions)
    (b : Bindings) :
    ∃ deep, r.ast.Chain value (links.drop levels) deep ∧
      r.resolve levels node scope options b =
        (none, (b.report (.nestingLimit deep)).reportUnresolved (links.take levels)) := by
  induction levels generalizing links node scope options with
  | zero => exact ⟨node, hchain, rfl⟩
  | succ levels ih =>
      cases hchain with
      | value => exact absurd hlevels (Nat.not_succ_le_zero levels)
      | @assign link links _ rest hnode htarget hrest =>
          obtain ⟨deep, hdeep, hout⟩ := ih hrest (Nat.le_of_succ_le_succ hlevels) (some root) rfl {}
          refine ⟨deep, hdeep, ?_⟩
          rw [resolve_link hnode htarget hscope, bindName, hout]
          rfl

/-! ### Statements -/

section statement

variable {statement expression target rest : NodeId}
  (hstatement : r.ast.node statement = .expressionStatement expression)
  (hexpression : r.ast.node expression = .assignment target rest)
include hstatement hexpression

/-- The declaration pass does not look into assignments. -/
theorem declare_assignment (b : Bindings) : r.declare statement b = b := by
  rw [declare, declareThrough, hstatement]
  dsimp only
  cases statement with
  | zero => rfl
  | succ n => rw [declareThrough, hexpression]

/-- The assignment pass binds an assignment at the global scope. -/
theorem assign_assignment (hfirst : r.ast.ChildrenFirst) (b : Bindings) :
    r.assign statement b = (r.bind maxNesting target (some rest) none b).2 := by
  have hlt : statement < r.ast.size := Ast.lt_size_of_node_ne (by simp [hstatement])
  rw [assign_expression hfirst hlt hstatement, assign, assignThrough, hexpression]

end statement

/-- **A chained assignment is all or nothing.**  A statement `x₁ = … = xₙ = value` whose value is a
function, bound at the global scope, stores one new symbol for the function under all the names and
changes nothing else, if the chain has at most `maxNesting` names.  A longer chain leaves the graph
as it is, and the resolver reports that it stopped. -/
theorem chain_all_or_nothing (r : Resolver) (hfirst : r.ast.ChildrenFirst)
    {statement expression target rest value : NodeId} {links : List Link}
    (hstatement : r.ast.node statement = .expressionStatement expression)
    (hexpression : r.ast.node expression = .assignment target rest)
    (hchain : r.ast.Chain value links expression)
    (hvalue : (r.ast.node value).isFunctionValue = true) (b : Bindings)
    (hroot : root < b.graph.size) :
    ∃ answer c, r.bind maxNesting target (some rest) none b = (answer, c) ∧
      r.assign statement (r.declare statement b) = c ∧
      (links.length ≤ maxNesting →
        answer = some b.graph.size ∧ c.graph.size = b.graph.size + 2 ∧
        (c.graph.get b.graph.size).wraps value = true ∧
        (∀ link ∈ links, c.graph.prop? root link.name = some b.graph.size) ∧
        (∀ id < b.graph.size, (c.graph.get id).face = (b.graph.get id).face ∧
          ∀ key, ¬ (id = root ∧ ∃ link ∈ links, link.name = key) →
            c.graph.prop? id key = b.graph.prop? id key) ∧
        c.diagnostics = b.diagnostics) ∧
      (maxNesting < links.length →
        answer = none ∧ c.graph = b.graph ∧
        ∃ deep, r.ast.Chain value (links.drop (maxNesting + 1)) deep ∧
          c.diagnostics = b.diagnostics.push (.nestingLimit deep) ++
            (links.take (maxNesting + 1)).reverse.map fun link =>
              Diagnostic.unresolvedValue link.target link.name) := by
  -- Binding is resolving the assignment with one more level.
  have hbind : r.bind maxNesting target (some rest) none b =
      r.resolve (maxNesting + 1) expression none {} b := by
    rw [resolve, resolveNode, hexpression, bind]
  have hassign : r.assign statement (r.declare statement b) =
      (r.resolve (maxNesting + 1) expression none {} b).2 := by
    rw [declare_assignment hstatement hexpression,
      assign_assignment hstatement hexpression hfirst, hbind]
  rw [hbind, hassign]
  rcases Nat.lt_or_ge maxNesting links.length with hlong | hfits
  · obtain ⟨deep, hdeep, hout⟩ := resolve_chain_cut hchain (Nat.succ_le_of_lt hlong) none rfl {} b
    refine ⟨_, _, hout, congrArg Prod.snd hout, fun hle => absurd hle (Nat.not_le.2 hlong), ?_⟩
    exact fun _ => ⟨rfl, Bindings.graph_reportUnresolved, deep, hdeep,
      Bindings.diagnostics_reportUnresolved⟩
  · have hout := resolve_chain hvalue hchain (Nat.lt_succ_of_le hfits) none rfl {} b
    refine ⟨_, _, hout, congrArg Prod.snd hout, ?_, fun hlt => absurd hlt (Nat.not_lt.2 hfits)⟩
    have hroot' : root < (functionSymbol value b).2.graph.size := by
      rw [size_functionSymbol]
      exact Nat.lt_of_lt_of_le hroot (Nat.le_add_right ..)
    have hnew : (((functionSymbol value b).2.setGlobals links b.graph.size).graph.get
        b.graph.size).face = .object (some value) := by
      rw [Bindings.face_setGlobals, face_functionSymbol_new]
    refine fun _ => ⟨rfl, by simp, ?_, ?_, ?_, Bindings.diagnostics_setGlobals ..⟩
    · have hwraps := congrArg (Symbol.wraps · value) hnew
      exact hwraps.trans (by simp [Symbol.wraps, Symbol.object])
    · intro link hlink
      rw [Bindings.prop?_setGlobals hroot', if_pos ⟨rfl, link, hlink, rfl⟩]
    · intro id hid
      refine ⟨by rw [Bindings.face_setGlobals, get_functionSymbol_old value hid], ?_⟩
      intro key hkey
      rw [Bindings.prop?_setGlobals hroot', if_neg hkey, SymbolGraph.prop?, SymbolGraph.prop?,
        get_functionSymbol_old value hid]

end Resolver

/-! ### A chain of any length -/

/-- The nodes of `x₁ = … = xₙ = () => {}`, the chain last. -/
def chainNodes : List String → List Node
  | [] => [.arrowFunction]
  | x :: names =>
      chainNodes names ++ [.identifier x, .assignment (2 * names.length + 1) (2 * names.length)]

/-- The links of that chain. -/
def chainLinks : List String → List Link
  | [] => []
  | x :: names => ⟨2 * names.length + 1, x⟩ :: chainLinks names

/-- The nodes of the statement `x₁ = … = xₙ = () => {};` and of a program that consists of it. -/
def chainProgram (names : List String) : List Node :=
  chainNodes names ++ [.expressionStatement (2 * names.length), .program [2 * names.length + 1]]

/-- The tree of the given nodes, the program last. -/
def Ast.ofNodes (nodes : List Node) : Ast where
  nodes := (nodes.map fun n => ⟨n, ⟨0, 0⟩⟩).toArray
  program := nodes.length - 1

/-- The tree of that program. -/
def chained (names : List String) : Ast := .ofNodes (chainProgram names)

@[simp] theorem length_chainNodes (names : List String) :
    (chainNodes names).length = 2 * names.length + 1 := by
  induction names with
  | nil => rfl
  | cons x names ih => simp [chainNodes, ih]; omega

@[simp] theorem length_chainLinks (names : List String) :
    (chainLinks names).length = names.length := by
  induction names with
  | nil => rfl
  | cons x names ih => simp [chainLinks, ih]

theorem node_ofNodes {nodes : List Node} {i : Nat} {n : Node} (hi : nodes[i]? = some n) :
    (Ast.ofNodes nodes).node i = n := by
  rw [Ast.node, Ast.ofNodes]
  simp only [List.getElem?_toArray, List.getElem?_map, hi, Option.map_some]

@[simp] theorem size_ofNodes (nodes : List Node) : (Ast.ofNodes nodes).size = nodes.length := by
  simp [Ast.ofNodes, Ast.size]

/-- One more node, that refers to earlier ones. -/
theorem Ast.ChildrenFirst.concat {nodes : List Node} {n : Node}
    (h : (Ast.ofNodes nodes).ChildrenFirst) (hn : ∀ r ∈ n.references, r < nodes.length) :
    (Ast.ofNodes (nodes ++ [n])).ChildrenFirst := by
  intro id hid r hr
  rw [size_ofNodes, List.length_append] at hid
  rcases Nat.lt_succ_iff_lt_or_eq.1 hid with hlt | rfl
  · have hold := List.getElem?_eq_getElem hlt
    rw [node_ofNodes ((List.getElem?_append_left hlt).trans hold)] at hr
    refine h id ((size_ofNodes nodes).symm ▸ hlt) r ?_
    rwa [node_ofNodes hold]
  · rw [node_ofNodes List.getElem?_concat_length] at hr
    exact hn r hr

theorem childrenFirst_chainNodes (names : List String) :
    (Ast.ofNodes (chainNodes names)).ChildrenFirst := by
  induction names with
  | nil =>
      intro id hid r hr
      obtain rfl := Nat.lt_one_iff.1 (hid : id < 1)
      exact absurd hr List.not_mem_nil
  | cons x names ih =>
      rw [chainNodes, List.append_cons]
      refine (ih.concat (n := .identifier x) (by simp [Node.references])).concat ?_
      intro r hr
      rw [List.length_append, length_chainNodes]
      rcases List.mem_pair.1 hr with rfl | rfl
      · exact Nat.lt_succ_self _
      · exact Nat.lt_succ_of_lt (Nat.lt_succ_self _)

theorem childrenFirst_chained (names : List String) : (chained names).ChildrenFirst := by
  rw [chained, chainProgram, List.append_cons]
  exact ((childrenFirst_chainNodes names).concat (by simp [Node.references])).concat
    (by simp [Node.references])

theorem statement_chained (names : List String) :
    (chained names).node (2 * names.length + 1) = .expressionStatement (2 * names.length) := by
  refine node_ofNodes ?_
  rw [chainProgram, List.getElem?_append_right (by simp), length_chainNodes, Nat.sub_self]
  rfl

/-- Whatever comes after them, the nodes of the chain form the chain. -/
theorem chain_chainLinks {ast : Ast} (names : List String)
    (hast : ∀ i n, (chainNodes names)[i]? = some n → ast.node i = n) :
    ast.Chain 0 (chainLinks names) (2 * names.length) := by
  induction names with
  | nil => exact .value
  | cons x names ih =>
      refine .assign (hast _ _ ?_) (hast _ _ ?_) (ih fun i n hi => hast i n ?_)
      · have hle : (chainNodes names).length ≤ 2 * (names.length + 1) := by
          rw [length_chainNodes]
          omega
        have hlast : 2 * (names.length + 1) - (2 * names.length + 1) = 1 := by omega
        rw [chainNodes, List.length_cons, List.getElem?_append_right hle, length_chainNodes, hlast]
        rfl
      · rw [chainNodes, List.getElem?_append_right (by simp)]
        simp
      · rw [chainNodes, List.getElem?_append_left (List.getElem?_eq_some_iff.1 hi).1, hi]

theorem chain_chained (names : List String) :
    (chained names).Chain 0 (chainLinks names) (2 * names.length) := by
  refine chain_chainLinks names fun i n hi => node_ofNodes ?_
  rw [chainProgram, List.getElem?_append_left (List.getElem?_eq_some_iff.1 hi).1, hi]

theorem value_chained (names : List String) : (chained names).node 0 = .arrowFunction := by
  have hhead : (chainNodes names)[0]? = some .arrowFunction := by
    induction names with
    | nil => rfl
    | cons x names ih => rw [chainNodes, List.getElem?_append_left (by simp), ih]
  refine node_ofNodes ?_
  rw [chainProgram, List.getElem?_append_left (by simp), hhead]

/-- What both passes over that statement make of an empty global scope. -/
def bindChained (names : List String) : Bindings :=
  let r : Resolver := { ast := chained names }
  r.assign (2 * names.length + 1) (r.declare (2 * names.length + 1) { graph := .empty })

/-- Of 256 links all are stored, of 257 none. -/
theorem chained_at_limit :
    (bindChained (.replicate 256 "x")).graph.prop? root "x" = some 1 ∧
      ((bindChained (.replicate 256 "x")).graph.get 1).wraps 0 = true ∧
      (bindChained (.replicate 257 "x")).graph = .empty ∧
      .nestingLimit 0 ∈ (bindChained (.replicate 257 "x")).diagnostics := by
  have hbound (n : Nat) : (n < 256 →
      (bindChained (.replicate (n + 1) "x")).graph.prop? root "x" = some 1 ∧
        ((bindChained (.replicate (n + 1) "x")).graph.get 1).wraps 0 = true) ∧ (n = 256 →
      (bindChained (.replicate (n + 1) "x")).graph = .empty ∧
        .nestingLimit 0 ∈ (bindChained (.replicate (n + 1) "x")).diagnostics) := by
    have hlength : (chainLinks (.replicate (n + 1) "x")).length = n + 1 := by simp
    have hvalue : ((chained (.replicate (n + 1) "x")).node 0).isFunctionValue = true := by
      rw [value_chained]
      rfl
    have hchain := chain_chained (.replicate (n + 1) "x")
    obtain ⟨_, _, hnode⟩ : ∃ target rest, (chained (.replicate (n + 1) "x")).node
        (2 * (List.replicate (n + 1) "x").length) = .assignment target rest := by
      cases hchain with
      | assign hnode _ _ => exact ⟨_, _, hnode⟩
    obtain ⟨_, _, -, hc, hfits, hcut⟩ := Resolver.chain_all_or_nothing
      { ast := chained (.replicate (n + 1) "x") } (childrenFirst_chained _) (statement_chained _)
      hnode hchain hvalue { graph := .empty } (by decide)
    rw [hlength, maxNesting] at hfits hcut
    have hc' : bindChained (.replicate (n + 1) "x") = _ := hc
    rw [hc']
    refine ⟨fun hn => ?_, fun hn => ?_⟩
    · obtain ⟨-, -, hwraps, hstored, -, -⟩ := hfits hn
      exact ⟨hstored ⟨_, "x"⟩ (List.mem_cons_self ..), hwraps⟩
    · obtain ⟨-, hgraph, deep, hdeep, hreports⟩ := hcut (by omega)
      rw [List.drop_eq_nil_of_le (by omega)] at hdeep
      cases hdeep
      exact ⟨hgraph, by simp [hreports]⟩
  obtain ⟨hstored, hwraps⟩ := (hbound 255).1 (by decide)
  obtain ⟨hgraph, hreport⟩ := (hbound 256).2 rfl
  exact ⟨hstored, hwraps, hgraph, hreport⟩

end ExportSurface
