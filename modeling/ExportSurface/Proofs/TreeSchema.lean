/-
Which decoded trees are accepted.

A tree is lowered or refused as a whole.  What decides is a schema: the type of a node says which
fields it must have, which of them hold nodes, and which may be missing; at the nesting limit only
the type is asked for.  The schema is written down here without reference to lowering, as a table of
types (`Parts`) and a recursion over levels (`WellShaped`), and lowering is shown to succeed on
exactly the programs that conform to it.

The proof goes along the functions that lowering is composed of.  Whether one of them succeeds does
not depend on the nodes built so far (`Decides`), so the conditions of its steps can be put side by
side.

Main definitions:

* `Estree.Child`, `Estree.OptionalChild`, `Estree.Items` — what can be asked of a field;
* `Estree.Parts` — what is asked of a node of a given type;
* `Estree.WellShaped` — a node that conforms at a level.

Main results:

* `Estree.lowerWith_decides` — lowering one node succeeds if its parts are there and can be lowered;
* `Estree.lower_succeeds_iff` — **exactly the programs that conform to the schema are lowered**.
-/

import ExportSurface.Proofs.LoweringSteps

set_option autoImplicit false

namespace ExportSurface.Estree

/-! ### The schema -/

/-- The text of a field. -/
def text? (v : Json) (part : String) : Option String := (v.field? part).bind Json.string?

/-- The field is there and not null, and it holds a node. -/
def Child (P : Json → Prop) (v : Json) (part : String) : Prop :=
  ∃ c, v.field? part = some c ∧ c ≠ .null ∧ P c

/-- The field is missing or null, or it holds a node. -/
def OptionalChild (P : Json → Prop) (v : Json) (part : String) : Prop :=
  ∀ c, v.field? part = some c → c = .null ∨ P c

/-- The field holds a list of such things. -/
def Items (P : Json → Prop) (v : Json) (part : String) : Prop :=
  ∃ items, (v.field? part).bind Json.array? = some items ∧ ∀ x ∈ items, P x

/-- An entry of a class body or of an object literal.  Only those of the given type need a key and
a value. -/
def Member (P : Json → Prop) (kind : String) (v : Json) : Prop :=
  ∃ found, text? v "type" = some found ∧ (found = kind → Child P v "key" ∧ Child P v "value")

/-- What is asked of a node of the given type, if its child nodes have to satisfy `P`. -/
def Parts (P : Json → Prop) (v : Json) : String → Prop
  | "ExpressionStatement" => Child P v "expression"
  | "VariableDeclaration" =>
      (∃ word, text? v "kind" = some word ∧ word ∈ ["var", "let", "const"]) ∧
        Items (fun d => Child P d "id" ∧ OptionalChild P d "init") v "declarations"
  | "AssignmentExpression" =>
      (∃ operator, text? v "operator" = some operator ∧ operator ≠ "=") ∨
        (Child P v "left" ∧ Child P v "right")
  | "Identifier" => ∃ name, text? v "name" = some name
  | "MemberExpression" => Child P v "object" ∧ Child P v "property"
  | "FunctionDeclaration" => OptionalChild P v "id"
  | "FunctionExpression" => OptionalChild P v "id"
  | "ClassDeclaration" => OptionalChild P v "id" ∧ Child P v "body"
  | "ClassExpression" => OptionalChild P v "id" ∧ Child P v "body"
  | "ClassBody" => Items (Member P "MethodDefinition") v "body"
  | "ObjectExpression" => Items (Member P "Property") v "properties"
  | "ExportDefaultDeclaration" => Child P v "declaration"
  | "ExportNamedDeclaration" =>
      OptionalChild P v "declaration" ∧
        ((∃ source, v.field? "source" = some source ∧ source ≠ .null) ∨ Items P v "specifiers")
  | "ExportSpecifier" => Child P v "local"
  | "ParenthesizedExpression" => Child P v "expression"
  | _ => True

/-- A node that conforms to the schema, `d` levels below the statements of a program.  From the
nesting limit on, any node with a type does. -/
def WellShaped (d : Nat) (v : Json) : Prop :=
  ∃ kind, text? v "type" = some kind ∧ ∀ _ : d < maxNesting, Parts (WellShaped (d + 1)) v kind
termination_by maxNesting - d

/-- Only objects have fields. -/
theorem exists_fields_of_text? {v : Json} {part s : String} (h : text? v part = some s) :
    ∃ fields, v = .object fields := by
  cases v with
  | object fields => exact ⟨fields, rfl⟩
  | _ => cases h

/-! ### Success -/

/-- A computation ends without a refusal. -/
def Succeeds {α : Type} (x : Except Malformed α) : Prop := ∃ a, x = .ok a

section success

variable {α β : Type}

theorem succeeds_pure (a : α) : Succeeds (pure a) := ⟨a, rfl⟩

theorem not_succeeds_error (e : Malformed) : ¬ Succeeds (.error e : Except Malformed α) := nofun

theorem succeeds_bind_iff {x : Except Malformed α} {f : α → Except Malformed β} :
    Succeeds (x >>= f) ↔ ∃ a, x = .ok a ∧ Succeeds (f a) := by
  constructor
  · rintro ⟨y, h⟩
    obtain ⟨a, ha, hy⟩ := bind_eq_ok.1 h
    exact ⟨a, ha, y, hy⟩
  · rintro ⟨a, ha, y, hy⟩
    exact ⟨y, bind_eq_ok.2 ⟨a, ha, hy⟩⟩

/-- Two steps, the second of which does not depend on what the first one answers. -/
theorem succeeds_seq {x : Except Malformed (α × AstBuilder)}
    {f : α × AstBuilder → Except Malformed β} {P Q : Prop} (hx : Succeeds x ↔ P)
    (hf : ∀ a b, Succeeds (f (a, b)) ↔ Q) : Succeeds (x >>= f) ↔ P ∧ Q := by
  rw [succeeds_bind_iff, ← hx]
  constructor
  · rintro ⟨⟨a, b⟩, ha, h⟩
    exact ⟨⟨(a, b), ha⟩, (hf a b).1 h⟩
  · rintro ⟨⟨⟨a, b⟩, ha⟩, hq⟩
    exact ⟨(a, b), ha, (hf a b).2 hq⟩

/-- A step after which nothing can fail. -/
theorem succeeds_last {x : Except Malformed (α × AstBuilder)}
    {f : α × AstBuilder → Except Malformed β} {P : Prop} (hx : Succeeds x ↔ P)
    (hf : ∀ a b, Succeeds (f (a, b))) : Succeeds (x >>= f) ↔ P := by
  rw [succeeds_seq hx fun a b => iff_true_intro (hf a b), and_true]

/-- The first item of a list, and then the rest. -/
theorem succeeds_cons {x : Except Malformed (α × AstBuilder)}
    {rest : AstBuilder → Except Malformed (List α × AstBuilder)} {P Q : Prop}
    (hx : Succeeds x ↔ P) (hrest : ∀ b, Succeeds (rest b) ↔ Q) :
    Succeeds (do
      let (a, b) ← x
      let (as, b) ← rest b
      return (a :: as, b)) ↔ P ∧ Q :=
  succeeds_seq hx fun _ b => succeeds_last (hrest b) fun _ _ => succeeds_pure _

/-- A case in which nothing can fail, and another one. -/
theorem succeeds_branch {c : Bool} {a : α} {x : Except Malformed α} {P Q : Prop}
    (hc : c = true ↔ P) (hx : Succeeds x ↔ Q) :
    Succeeds (if c = true then pure a else x) ↔ P ∨ Q := by
  rw [← hc, ← hx]
  cases c with
  | true => exact iff_of_true (succeeds_pure a) (.inl rfl)
  | false => simp

theorem kindOf_eq_ok_iff {v : Json} {kind : String} :
    kindOf v = .ok kind ↔ text? v "type" = some kind := by
  rw [kindOf, text?]
  cases (v.field? "type").bind Json.string? <;> simp

theorem stringPart_eq_ok_iff {v : Json} {part s : String} :
    stringPart v part = .ok s ↔ text? v part = some s := by
  rw [stringPart, text?]
  cases (v.field? part).bind Json.string? <;> simp

theorem arrayPart_eq_ok_iff {v : Json} {part : String} {items : List Json} :
    arrayPart v part = .ok items ↔ (v.field? part).bind Json.array? = some items := by
  rw [arrayPart]
  cases (v.field? part).bind Json.array? <;> simp

theorem isCompound_iff {v : Json} :
    isCompound v = true ↔ ∃ operator, text? v "operator" = some operator ∧ operator ≠ "=" := by
  rw [isCompound, text?, Option.any_eq_true]
  simp

theorem exists_ofKeyword?_iff {word : String} :
    (∃ kind, DeclarationKind.ofKeyword? word = some kind) ↔ word ∈ ["var", "let", "const"] := by
  rw [DeclarationKind.ofKeyword?]
  repeat' split
  all_goals simp_all

end success

/-! ### The parts of a node -/

/-- A step succeeds on exactly the values that satisfy a condition, whatever was built before. -/
def Decides {α : Type} (step : Json → AstBuilder → Except Malformed (α × AstBuilder))
    (P : Json → Prop) : Prop :=
  ∀ v b, Succeeds (step v b) ↔ P v

section parts

variable {recur : Lower} {P : Json → Prop} (hrec : Decides recur P)
include hrec

omit hrec in
theorem present?_eq_some_iff {v c : Json} {part : String} :
    v.present? part = some c ↔ v.field? part = some c ∧ c ≠ .null := by
  rw [Json.present?, Option.filter_eq_some_iff]
  refine and_congr_right fun _ => ?_
  cases c <;> simp [Json.isNull]

theorem required_succeeds (v : Json) (part : String) (b : AstBuilder) :
    Succeeds (required recur v part b) ↔ Child P v part := by
  have hchild : Child P v part ↔ ∃ c, v.present? part = some c ∧ P c := by
    simp only [Child, present?_eq_some_iff, and_assoc]
  rw [required, hchild]
  cases v.present? part with
  | none => simpa using not_succeeds_error _
  | some c => simpa using hrec c b

theorem optional_succeeds (v : Json) (part : String) (b : AstBuilder) :
    Succeeds (optional recur v part b) ↔ OptionalChild P v part := by
  have hchild : OptionalChild P v part ↔ ∀ c, v.present? part = some c → P c := by
    simp only [OptionalChild, present?_eq_some_iff, and_imp, ne_eq,
      Classical.or_iff_not_imp_left]
  rw [optional, hchild]
  cases v.present? part with
  | none => exact iff_of_true (succeeds_pure _) (by simp)
  | some c =>
      simp only [Option.some.injEq, forall_eq']
      exact succeeds_last (hrec c b) fun _ _ => succeeds_pure _

theorem declarator_decides :
    Decides (declarator recur) fun d => Child P d "id" ∧ OptionalChild P d "init" :=
  fun d b => succeeds_seq (required_succeeds hrec d "id" b) fun _ b =>
    succeeds_last (optional_succeeds hrec d "init" b) fun _ _ => succeeds_pure _

theorem entry_decides : Decides (entry recur) fun e => Child P e "key" ∧ Child P e "value" :=
  fun e b => succeeds_seq (required_succeeds hrec e "key" b) fun _ b =>
    succeeds_last (required_succeeds hrec e "value" b) fun _ _ => succeeds_pure _

theorem entries_succeeds (kind : String) (items : List Json) (b : AstBuilder) :
    Succeeds (entries recur kind items b) ↔ ∀ x ∈ items, Member P kind x := by
  induction items generalizing b with
  | nil => exact iff_of_true (succeeds_pure _) nofun
  | cons v rest ih =>
      rw [entries, succeeds_bind_iff, List.forall_mem_cons, Member, ← exists_and_right]
      refine exists_congr fun found => ?_
      rw [kindOf_eq_ok_iff, and_assoc]
      refine and_congr_right fun _ => ?_
      split
      · next heq => rw [succeeds_cons (entry_decides hrec v b) ih, forall_prop_of_true heq]
      · next hne => rw [ih b, forall_prop_of_false hne, true_and]

end parts

theorem each_succeeds {α : Type} {step : Json → AstBuilder → Except Malformed (α × AstBuilder)}
    {P : Json → Prop} (hstep : Decides step P) (items : List Json) (b : AstBuilder) :
    Succeeds (each step items b) ↔ ∀ x ∈ items, P x := by
  induction items generalizing b with
  | nil => exact iff_of_true (succeeds_pure _) nofun
  | cons v rest ih =>
      rw [each, List.forall_mem_cons]
      exact succeeds_cons (hstep v b) ih

/-- A step over the items of a field, after which nothing can fail. -/
theorem succeeds_items {α β : Type} {v : Json} {part : String}
    {run : List Json → Except Malformed (α × AstBuilder)}
    {f : α × AstBuilder → Except Malformed β} {Q : Json → Prop}
    (hrun : ∀ items, Succeeds (run items) ↔ ∀ x ∈ items, Q x)
    (hf : ∀ a b, Succeeds (f (a, b))) :
    Succeeds (arrayPart v part >>= fun items => run items >>= f) ↔ Items Q v part := by
  rw [succeeds_bind_iff, Items]
  simp only [arrayPart_eq_ok_iff]
  exact exists_congr fun items => and_congr_right fun _ => succeeds_last (hrun items) hf

/-! ### Nodes -/

theorem lowerWith_decides {recur : Lower} {P : Json → Prop} (hrec : Decides recur P) :
    Decides (lowerWith recur) fun v => ∃ kind, text? v "type" = some kind ∧ Parts P v kind := by
  intro v b
  rw [lowerWith, succeeds_bind_iff]
  refine exists_congr fun kind => ?_
  rw [kindOf_eq_ok_iff]
  refine and_congr_right fun _ => ?_
  split
  · -- an expression statement
    exact succeeds_last (required_succeeds hrec v _ b) fun _ _ => succeeds_pure _
  · -- variables
    rw [succeeds_bind_iff]
    refine (exists_congr fun word => ?_).trans exists_and_right
    rw [stringPart_eq_ok_iff, and_assoc, ← exists_ofKeyword?_iff]
    refine and_congr_right fun _ => ?_
    cases DeclarationKind.ofKeyword? word with
    | none => exact iff_of_false (not_succeeds_error _) (by simp)
    | some kind =>
        rw [and_iff_right ⟨kind, rfl⟩]
        exact succeeds_items (each_succeeds (declarator_decides hrec) · b)
          fun _ _ => succeeds_pure _
  · -- an assignment
    exact succeeds_branch isCompound_iff (succeeds_seq (required_succeeds hrec v _ b) fun _ b =>
      succeeds_last (required_succeeds hrec v _ b) fun _ _ => succeeds_pure _)
  · -- a name
    rw [succeeds_bind_iff]
    simp only [stringPart_eq_ok_iff]
    exact exists_congr fun name => and_iff_left (succeeds_pure _)
  · -- a member access
    exact succeeds_seq (required_succeeds hrec v _ b) fun _ b =>
      succeeds_last (required_succeeds hrec v _ b) fun _ _ => succeeds_pure _
  · -- a declared function
    exact succeeds_last (optional_succeeds hrec v _ b) fun _ _ => succeeds_pure _
  · -- a function expression
    exact succeeds_last (optional_succeeds hrec v _ b) fun _ _ => succeeds_pure _
  · -- an arrow function
    exact iff_of_true (succeeds_pure _) trivial
  · -- a declared class
    exact succeeds_seq (optional_succeeds hrec v _ b) fun _ b =>
      succeeds_last (required_succeeds hrec v _ b) fun _ _ => succeeds_pure _
  · -- a class expression
    exact succeeds_seq (optional_succeeds hrec v _ b) fun _ b =>
      succeeds_last (required_succeeds hrec v _ b) fun _ _ => succeeds_pure _
  · -- a class body
    exact succeeds_items (entries_succeeds hrec _ · b) fun _ _ => succeeds_pure _
  · -- an object literal
    exact succeeds_items (entries_succeeds hrec _ · b) fun _ _ => succeeds_pure _
  · -- a literal
    exact iff_of_true (succeeds_pure _) trivial
  · -- a default export
    exact succeeds_last (required_succeeds hrec v _ b) fun _ _ => succeeds_pure _
  · -- an export of a declaration and of names
    refine succeeds_seq (optional_succeeds hrec v _ b) fun _ b => ?_
    have hsource : (v.present? "source").isSome = true ↔
        ∃ source, v.field? "source" = some source ∧ source ≠ .null := by
      simp only [Option.isSome_iff_exists, present?_eq_some_iff]
    exact succeeds_branch hsource
      (succeeds_items (each_succeeds hrec · b) fun _ _ => succeeds_pure _)
  · -- an exported name
    exact succeeds_last (required_succeeds hrec v _ b) fun _ _ => succeeds_pure _
  · -- parentheses
    exact required_succeeds hrec v _ b
  · -- any other type
    refine iff_of_true (succeeds_pure _) ?_
    unfold Parts
    split <;> trivial

/-- With `levels` levels to go, lowering asks for what the schema asks for so far below the
statements. -/
theorem lowerNode_decides (levels d : Nat) (h : levels + d = maxNesting) :
    Decides (lowerNode levels) (WellShaped d) := by
  induction levels generalizing d with
  | zero =>
      intro v b
      rw [lowerNode, succeeds_bind_iff, WellShaped]
      refine exists_congr fun kind => ?_
      rw [kindOf_eq_ok_iff]
      exact and_congr_right fun _ => iff_of_true (succeeds_pure _) fun hd => by omega
  | succ levels ih =>
      intro v b
      have hd : d < maxNesting := by omega
      rw [lowerNode, lowerWith_decides (ih (d + 1) (by omega)) v b, WellShaped]
      exact exists_congr fun kind => and_congr_right fun _ => (imp_iff_right hd).symm

theorem body_succeeds (v : Json) :
    Succeeds (do
      let (body, b) ← each (lowerNode maxNesting) (← arrayPart v "body") {}
      return (b.atLine (lineOf v "start")).program body) ↔ Items (WellShaped 0) v "body" :=
  succeeds_items (each_succeeds (lowerNode_decides maxNesting 0 rfl) · {}) fun _ _ =>
    succeeds_pure _

theorem lower_decides (v : Json) :
    Succeeds (lower v) ↔ text? v "type" = some "Program" ∧ Items (WellShaped 0) v "body" := by
  rw [lower, lowerProgram, lowerProgramWith, succeeds_bind_iff]
  constructor
  · rintro ⟨kind, hkind, h⟩
    split at h
    · exact ⟨kindOf_eq_ok_iff.1 hkind, (body_succeeds v).1 h⟩
    · exact absurd h (not_succeeds_error _)
  · rintro ⟨htype, hitems⟩
    exact ⟨"Program", kindOf_eq_ok_iff.2 htype, (body_succeeds v).2 hitems⟩

/-- **Exactly the programs that conform to the schema are lowered**: objects of the type `Program`
with a list `body` of nodes that are well shaped. -/
theorem lower_succeeds_iff (v : Json) :
    (∃ ast, lower v = .ok ast) ↔
      (∃ fields, v = .object fields) ∧ text? v "type" = some "Program" ∧
        Items (WellShaped 0) v "body" := by
  refine (lower_decides v).trans ⟨?_, And.right⟩
  rintro ⟨htype, hbody⟩
  exact ⟨exists_fields_of_text? htype, htype, hbody⟩

end ExportSurface.Estree
