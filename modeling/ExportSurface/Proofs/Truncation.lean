/-
What lowering sees of a deep tree.

Lowering follows nodes for `maxNesting` levels and turns what stands below them into unsupported
nodes.  Two things are shown about this cut.  It is opaque: of a node at the limit only the type and
the lines count, so two trees that differ below the limit only are lowered alike, to the same arena
or to the same refusal.  And it is at the limit: a tree that does not get there is lowered as if
there were no cut.

Both are facts about two runs of the same recursion, on two trees or with two ways to go on below a
node, and both come from one lemma about a single level (`lowerWith_agree`).  It asks for two nodes
that are the same around their child nodes.  Where a node has its child nodes is said once, as a
table of types (`slotsOf`); everything else about levels is read off this table.

Main definitions:

* `Estree.Slot`, `Estree.slotsOf` — where the child nodes of a node stand;
* `Estree.AtLevel` — the nodes of a program, with the number of nodes around them;
* `Estree.SameNode`, `Estree.SameAbove` — two nodes that are the same around their child nodes, and
  around all nodes so many levels below;
* `Estree.lowerFully` — lowering without a limit.

Main results:

* `Estree.lowerWith_agree` — **one level**: nodes that are the same around their child nodes are
  lowered alike, if the child nodes are;
* `Estree.lowerFully_eq` — lowering without a limit is the same recursion;
* `Estree.lower_cuts_at_limit` — **the cut is exact**.
-/

import ExportSurface.Proofs.NestingGuards
import Mathlib.Data.List.Forall2

set_option autoImplicit false

namespace ExportSurface.Estree

/-! ### Child nodes -/

/-- Where child nodes of a node stand. -/
inductive Slot where
  /-- In a field. -/
  | field (part : String)
  /-- In a list. -/
  | list (part : String)
  /-- In the given fields of the records of a list.  If a type is given, the records of any other
  type hold no nodes. -/
  | records (part : String) (kind : Option String) (fields : List String)

def Slot.part : Slot → String
  | .field part => part
  | .list part => part
  | .records part _ _ => part

/-- The slots of a node of the given type. -/
def slotsOf (v : Json) : String → List Slot
  | "ExpressionStatement" => [.field "expression"]
  | "VariableDeclaration" => [.records "declarations" none ["id", "init"]]
  | "AssignmentExpression" => if isCompound v then [] else [.field "left", .field "right"]
  | "MemberExpression" => [.field "object", .field "property"]
  | "FunctionDeclaration" => [.field "id"]
  | "FunctionExpression" => [.field "id"]
  | "ClassDeclaration" => [.field "id", .field "body"]
  | "ClassExpression" => [.field "id", .field "body"]
  | "ClassBody" => [.records "body" (some "MethodDefinition") ["key", "value"]]
  | "ObjectExpression" => [.records "properties" (some "Property") ["key", "value"]]
  | "ExportDefaultDeclaration" => [.field "declaration"]
  | "ExportNamedDeclaration" =>
      .field "declaration" :: if (v.present? "source").isSome then [] else [.list "specifiers"]
  | "ExportSpecifier" => [.field "local"]
  | "ParenthesizedExpression" => [.field "expression"]
  | _ => []

def slots (v : Json) : List Slot := (text? v "type").elim [] (slotsOf v)

/-- The items of a list in a field. -/
def items? (v : Json) (part : String) : Option (List Json) := (v.field? part).bind Json.array?

/-- The fields of a record that hold nodes. -/
def nodeFields (kind : Option String) (fields : List String) (record : Json) : List String :=
  if kind.all fun k => text? record "type" = some k then fields else []

/-- The nodes in a slot. -/
def Slot.nodes (v : Json) : Slot → List Json
  | .field part => (v.present? part).toList
  | .list part => (items? v part).getD []
  | .records part kind fields =>
      ((items? v part).getD []).flatMap fun record =>
        (nodeFields kind fields record).filterMap record.present?

/-- The nodes that are lowered when a node is. -/
def childNodes (v : Json) : List Json := (slots v).flatMap (Slot.nodes v)

/-- A node of a program, and the number of nodes around it.  Statements are at level 0; the records
that hold the parts of variables and of entries are not nodes. -/
inductive AtLevel (program : Json) : Nat → Json → Prop where
  | statement {v : Json} : v ∈ (items? program "body").getD [] → AtLevel program 0 v
  | child {level : Nat} {v c : Json} :
      AtLevel program level v → c ∈ childNodes v → AtLevel program (level + 1) c

/-! ### Nodes that are the same around their child nodes -/

/-- All fields but the given ones are the same. -/
def SameBut (parts : List String) (v w : Json) : Prop :=
  ∀ part ∉ parts, v.field? part = w.field? part

section same

variable (R : Json → Json → Prop)

/-- All fields but the given ones are the same, and these hold corresponding nodes. -/
structure SameAround (parts : List String) (v w : Json) : Prop where
  fields : SameBut parts v w
  nodes : ∀ part ∈ parts, Option.Rel R (v.present? part) (w.present? part)

/-- Two records that are the same around the nodes they hold. -/
def SameRecord (kind : Option String) (fields : List String) (x y : Json) : Prop :=
  SameAround R (nodeFields kind fields x) x y

/-- The same slot of two nodes holds corresponding nodes. -/
def Slot.Agrees (v w : Json) : Slot → Prop
  | .field part => Option.Rel R (v.present? part) (w.present? part)
  | .list part => Option.Rel (List.Forall₂ R) (items? v part) (items? w part)
  | .records part kind fields =>
      Option.Rel (List.Forall₂ (SameRecord R kind fields)) (items? v part) (items? w part)

/-- Two nodes that are the same around their child nodes, which correspond by `R`. -/
structure SameNode (v w : Json) : Prop where
  fields : SameBut ((slots v).map Slot.part) v w
  slots : ∀ s ∈ slots v, s.Agrees R v w

end same

/-- Two nodes that are the same, except that nodes `levels` levels below them need only have the
same type and cover the same lines. -/
def SameAbove : Nat → Json → Json → Prop
  | 0, v, w => kindOf v = kindOf w ∧ lineOf v "start" = lineOf w "start" ∧
      lineOf v "end" = lineOf w "end"
  | levels + 1, v, w => SameNode (SameAbove levels) v w

section refl

variable {R : Json → Json → Prop} {v : Json}

theorem optionRel_refl {α : Type} {S : α → α → Prop} {x : Option α} (h : ∀ a ∈ x, S a a) :
    Option.Rel S x x := by
  cases x with
  | none => exact .none
  | some a => exact .some (h a rfl)

theorem SameRecord.refl {kind : Option String} {fields : List String} {x : Json}
    (h : ∀ c ∈ (nodeFields kind fields x).filterMap x.present?, R c c) :
    SameRecord R kind fields x x := by
  refine ⟨fun _ _ => rfl, fun part hpart => optionRel_refl ?_⟩
  intro c hc
  exact h c (List.mem_filterMap.2 ⟨part, hpart, hc⟩)

theorem Slot.Agrees.refl {s : Slot} (h : ∀ c ∈ s.nodes v, R c c) : s.Agrees R v v := by
  cases s with
  | field part => exact optionRel_refl fun c hc => h c (Option.mem_toList.2 hc)
  | list part =>
      refine optionRel_refl fun items hitems => List.forall₂_same.2 fun c hc => h c ?_
      rw [Slot.nodes, Option.mem_def.1 hitems]
      exact hc
  | records part kind fields =>
      refine optionRel_refl fun items hitems => List.forall₂_same.2 fun x hx => .refl ?_
      intro c hc
      refine h c ?_
      rw [Slot.nodes, Option.mem_def.1 hitems]
      exact List.mem_flatMap.2 ⟨x, hx, hc⟩

/-- A node corresponds to itself if its child nodes do. -/
theorem SameNode.refl (h : ∀ c ∈ childNodes v, R c c) : SameNode R v v where
  fields := fun _ _ => rfl
  slots := fun s hs => .refl fun c hc => h c (List.mem_flatMap.2 ⟨s, hs, hc⟩)

theorem SameAbove.refl (levels : Nat) (v : Json) : SameAbove levels v v := by
  induction levels generalizing v with
  | zero => exact ⟨rfl, rfl, rfl⟩
  | succ levels ih => exact SameNode.refl fun c _ => ih c

end refl

/-! ### Fields around child nodes -/

namespace SameBut

variable {parts : List String} {v w : Json} {part : String}

theorem text?_eq (h : SameBut parts v w) (hpart : part ∉ parts) : text? v part = text? w part := by
  rw [text?, text?, h part hpart]

theorem present?_eq (h : SameBut parts v w) (hpart : part ∉ parts) :
    v.present? part = w.present? part := by
  rw [Json.present?, Json.present?, h part hpart]

theorem flag_eq (h : SameBut parts v w) (hpart : part ∉ parts) : flag v part = flag w part := by
  rw [flag, flag, h part hpart]

theorem missing_eq (h : SameBut parts v w) (htype : "type" ∉ parts) (part : String) :
    missing v part = missing w part := by
  rw [missing, missing, h "type" htype]

theorem kindOf_eq (h : SameBut parts v w) (htype : "type" ∉ parts) : kindOf v = kindOf w := by
  rw [kindOf, kindOf, h "type" htype]

theorem lineOf_eq (h : SameBut parts v w) (hloc : "loc" ∉ parts) (edge : String) :
    lineOf v edge = lineOf w edge := by
  rw [lineOf, lineOf, Json.path?, Json.path?, h "loc" hloc]

theorem spanOf_eq (h : SameBut parts v w) (hloc : "loc" ∉ parts) : spanOf v = spanOf w := by
  rw [spanOf, spanOf, h.lineOf_eq hloc, h.lineOf_eq hloc]

theorem stringPart_eq (h : SameBut parts v w) (htype : "type" ∉ parts) (hpart : part ∉ parts) :
    stringPart v part = stringPart w part := by
  rw [stringPart, stringPart, h part hpart, h.missing_eq htype]

theorem isCompound_eq (h : SameBut parts v w) (hpart : "operator" ∉ parts) :
    isCompound v = isCompound w := by
  rw [isCompound, isCompound, h "operator" hpart]

theorem literalOf_eq (h : SameBut [] v w) : literalOf v = literalOf w := by
  have hfield : ∀ part, v.field? part = w.field? part := fun part => h part List.not_mem_nil
  rw [literalOf, literalOf, hfield, hfield, hfield, hfield]

end SameBut

/-! ### One level -/

section level

variable {R : Json → Json → Prop} {recur recur' : Lower} (hrec : ∀ c d, R c d → recur c = recur' d)
  {v w : Json}

include hrec in
theorem required_agree {part : String} (hmissing : missing v part = missing w part)
    (h : Option.Rel R (v.present? part) (w.present? part)) :
    required recur v part = required recur' w part := by
  funext b
  rw [required, required, hmissing]
  generalize v.present? part = c, w.present? part = d at h
  cases h with
  | none => rfl
  | some hcd => exact congrFun (hrec _ _ hcd) b

include hrec in
theorem optional_agree {part : String} (h : Option.Rel R (v.present? part) (w.present? part)) :
    optional recur v part = optional recur' w part := by
  funext b
  rw [optional, optional]
  generalize v.present? part = c, w.present? part = d at h
  cases h with
  | none => rfl
  | some hcd =>
      dsimp only
      rw [hrec _ _ hcd]

theorem each_agree {α : Type} {step step' : Json → AstBuilder → Except Malformed (α × AstBuilder)}
    {S : Json → Json → Prop} (hstep : ∀ x y, S x y → step x = step' y) {xs ys : List Json}
    (h : List.Forall₂ S xs ys) : each step xs = each step' ys := by
  induction h with
  | nil => rfl
  | cons hxy _ ih =>
      funext b
      rw [each, each, hstep _ _ hxy, ih]

include hrec in
theorem declarator_agree (h : SameAround R ["id", "init"] v w) :
    declarator recur v = declarator recur' w := by
  funext b
  rw [declarator, declarator,
    required_agree hrec (h.fields.missing_eq (by decide) "id") (h.nodes "id" (by decide)),
    optional_agree hrec (h.nodes "init" (by decide))]

include hrec in
theorem entry_agree (h : SameAround R ["key", "value"] v w) : entry recur v = entry recur' w := by
  have hmissing := h.fields.missing_eq (by decide)
  funext b
  rw [entry, entry, h.fields.flag_eq (by decide),
    required_agree hrec (hmissing "key") (h.nodes "key" (by decide)),
    required_agree hrec (hmissing "value") (h.nodes "value" (by decide))]

include hrec in
theorem entries_agree {kind : String} {xs ys : List Json}
    (h : List.Forall₂ (SameRecord R (some kind) ["key", "value"]) xs ys) :
    entries recur kind xs = entries recur' kind ys := by
  induction h with
  | nil => rfl
  | @cons x y _ _ hxy _ ih =>
      funext b
      rw [entries, entries, ih]
      by_cases hkind : text? x "type" = some kind
      · have hsame : SameAround R ["key", "value"] x y := by
          rwa [SameRecord, nodeFields, if_pos (by simpa using hkind)] at hxy
        rw [hsame.fields.kindOf_eq (by decide), entry_agree hrec hsame]
      · -- A record of another type is passed over on both sides.
        have hsame : SameAround R [] x y := by
          rwa [SameRecord, nodeFields, if_neg (by simpa using hkind)] at hxy
        rw [hsame.fields.kindOf_eq (by decide)]
        cases hfound : kindOf y with
        | error e => rfl
        | ok found =>
            have hne : found ≠ kind := by
              rintro rfl
              exact hkind ((hsame.fields.text?_eq (by decide)).trans (kindOf_eq_ok_iff.1 hfound))
            exact (if_neg hne).trans (if_neg hne).symm

/-- A list in a field, which is there on both sides or on neither. -/
theorem arrayPart_agree {α : Type} {part : String} {S : Json → Json → Prop}
    {run run' : List Json → Except Malformed α} (hmissing : missing v part = missing w part)
    (hrun : ∀ xs ys, List.Forall₂ S xs ys → run xs = run' ys)
    (h : Option.Rel (List.Forall₂ S) (items? v part) (items? w part)) :
    arrayPart v part >>= run = arrayPart w part >>= run' := by
  rw [items?, items?] at h
  rw [arrayPart, arrayPart, hmissing]
  generalize (v.field? part).bind Json.array? = c, (w.field? part).bind Json.array? = d at h
  cases h with
  | none => rfl
  | some hcd => exact hrun _ _ hcd

/-- The type and the lines of a node are not among its child nodes. -/
theorem not_mem_slots {part : String} (hpart : part = "type" ∨ part = "loc") :
    part ∉ (slots v).map Slot.part := by
  rw [slots]
  cases text? v "type" with
  | none => exact List.not_mem_nil
  | some kind =>
      rw [Option.elim_some]
      unfold slotsOf
      rcases hpart with rfl | rfl
      all_goals
        repeat' split
        all_goals simp [Slot.part]

/-- Two computations that begin alike are alike if they go on alike from every answer. -/
theorem bind_congr_ok {ε α β : Type} {x : Except ε α} {f g : α → Except ε β}
    (h : ∀ a, x = .ok a → f a = g a) : x >>= f = x >>= g := by
  cases x with
  | error e => rfl
  | ok a => exact h a rfl

include hrec in
/-- **One level of two runs.**  Nodes that are the same around their child nodes are lowered alike,
from every state, if corresponding child nodes are. -/
theorem lowerWith_agree (h : SameNode R v w) : lowerWith recur v = lowerWith recur' w := by
  have htype : "type" ∉ (slots v).map Slot.part := not_mem_slots (.inl rfl)
  have hmissing := h.fields.missing_eq htype
  funext b
  rw [lowerWith, lowerWith, h.fields.kindOf_eq htype, h.fields.spanOf_eq (not_mem_slots (.inr rfl))]
  refine bind_congr_ok fun kind hkind => ?_
  have hslots : slots v = slotsOf v kind := by
    rw [slots, kindOf_eq_ok_iff.1 ((h.fields.kindOf_eq htype).trans hkind)]
    rfl
  obtain ⟨hfields, hnodes⟩ := h
  -- The type is known from here on, and with it the slots: each case reads its row of the table.
  rw [hslots] at hfields hnodes htype
  have hrequired : ∀ part, Slot.field part ∈ slotsOf v kind →
      required recur v part = required recur' w part :=
    fun part hpart => required_agree hrec (hmissing part) (hnodes _ hpart)
  have hoptional : ∀ part, Slot.field part ∈ slotsOf v kind →
      optional recur v part = optional recur' w part :=
    fun part hpart => optional_agree hrec (hnodes _ hpart)
  split
  · -- an expression statement
    rw [hrequired "expression" (by simp [slotsOf])]
  · -- variables
    rw [hfields.stringPart_eq htype (by simp [slotsOf, Slot.part])]
    refine bind_congr fun word => ?_
    cases DeclarationKind.ofKeyword? word with
    | none => rfl
    | some kind =>
        have hstep : ∀ x y, SameRecord R none ["id", "init"] x y →
            declarator recur x = declarator recur' y := fun _ _ => declarator_agree hrec
        refine arrayPart_agree (hmissing _) ?_
          (hnodes (.records "declarations" none ["id", "init"]) (by simp [slotsOf]))
        intro xs ys hxy
        rw [each_agree hstep hxy]
  · -- an assignment
    have hcompound : isCompound v = isCompound w := by
      refine hfields.isCompound_eq ?_
      rw [slotsOf]
      split <;> simp [Slot.part]
    rw [hcompound]
    cases hw : isCompound w with
    | true => rfl
    | false =>
        rw [hrequired "left" (by simp [slotsOf, hcompound, hw]),
          hrequired "right" (by simp [slotsOf, hcompound, hw])]
  · -- a name
    rw [hfields.stringPart_eq htype (by simp [slotsOf])]
  · -- a member access
    rw [hrequired "object" (by simp [slotsOf]), hrequired "property" (by simp [slotsOf]),
      hfields.flag_eq (by simp [slotsOf, Slot.part])]
  · -- a declared function
    rw [hoptional "id" (by simp [slotsOf])]
  · -- a function expression
    rw [hoptional "id" (by simp [slotsOf])]
  · -- an arrow function
    rfl
  · -- a declared class
    rw [hoptional "id" (by simp [slotsOf]), hrequired "body" (by simp [slotsOf])]
  · -- a class expression
    rw [hoptional "id" (by simp [slotsOf]), hrequired "body" (by simp [slotsOf])]
  · -- a class body
    refine arrayPart_agree (hmissing _) ?_
      (hnodes (.records "body" (some "MethodDefinition") ["key", "value"]) (by simp [slotsOf]))
    intro xs ys hxy
    rw [entries_agree hrec hxy]
  · -- an object literal
    refine arrayPart_agree (hmissing _) ?_
      (hnodes (.records "properties" (some "Property") ["key", "value"]) (by simp [slotsOf]))
    intro xs ys hxy
    rw [entries_agree hrec hxy]
  · -- a literal
    rw [SameBut.literalOf_eq hfields]
  · -- a default export
    rw [hrequired "declaration" (by simp [slotsOf])]
  · -- an export of a declaration and of names
    have hsource : v.present? "source" = w.present? "source" := by
      refine hfields.present?_eq ?_
      rw [slotsOf]
      split <;> simp [Slot.part]
    rw [hoptional "declaration" (by simp [slotsOf]), hsource]
    refine bind_congr fun found => ?_
    obtain ⟨declaration, b⟩ := found
    dsimp only
    cases hw : (w.present? "source").isSome with
    | true => rfl
    | false =>
        have hlist := hnodes (.list "specifiers") (by simp [slotsOf, hsource, hw])
        refine arrayPart_agree (hmissing _) ?_ hlist
        intro xs ys hxy
        rw [each_agree hrec hxy]
  · -- an exported name
    rw [hrequired "local" (by simp [slotsOf])]
  · -- parentheses
    rw [hrequired "expression" (by simp [slotsOf])]
  · -- any other type
    rfl

end level

/-! ### The cut is opaque -/

/-- Nodes that are the same above the levels they are lowered to are lowered alike. -/
theorem lowerNode_agree (levels : Nat) (v w : Json) (h : SameAbove levels v w) :
    lowerNode levels v = lowerNode levels w := by
  induction levels generalizing v w with
  | zero =>
      obtain ⟨hkind, hstart, hend⟩ := h
      have hspan : spanOf v = spanOf w := by rw [spanOf, spanOf, hstart, hend]
      funext b
      simp only [lowerNode, hkind, hspan]
  | succ levels ih => exact lowerWith_agree ih h

/-- What a node becomes that is cut off. -/
theorem lowerNode_zero (u : Json) (b : AstBuilder) :
    lowerNode 0 u b = match text? u "type" with
      | some kind => .ok (b.nodes.size, { b with nodes := b.nodes.push ⟨.other kind, spanOf u⟩ })
      | none => .error .untyped := by
  simp only [lowerNode, kindOf, text?]
  cases (u.field? "type").bind Json.string? with
  | none => rfl
  | some kind => rfl

/-! ### Lowering without a limit -/

theorem sizeOf_lt_of_lastField? {fields : List (String × Json)} {part : String} {c : Json}
    (h : Json.lastField? part fields = some c) : sizeOf c < sizeOf fields := by
  induction fields with
  | nil => cases h
  | cons field rest ih =>
      obtain ⟨key, x⟩ := field
      rw [Json.lastField?, Option.or_eq_some_iff] at h
      rcases h with h | ⟨-, h⟩
      · have hlt := ih h
        simp only [List.cons.sizeOf_spec]
        omega
      · obtain ⟨-, ⟨⟩⟩ := Option.ite_none_right_eq_some.1 h
        simp only [List.cons.sizeOf_spec, Prod.mk.sizeOf_spec]
        omega

theorem sizeOf_lt_of_field? {v c : Json} {part : String} (h : v.field? part = some c) :
    sizeOf c < sizeOf v := by
  cases v with
  | object fields =>
      have hlt := sizeOf_lt_of_lastField? h
      simp only [Json.object.sizeOf_spec]
      omega
  | _ => cases h

theorem sizeOf_lt_of_present? {v c : Json} {part : String} (h : v.present? part = some c) :
    sizeOf c < sizeOf v :=
  sizeOf_lt_of_field? (Option.filter_eq_some_iff.1 h).1

theorem sizeOf_lt_of_mem_items {v c : Json} {part : String} (h : c ∈ (items? v part).getD []) :
    sizeOf c < sizeOf v := by
  rw [items?] at h
  cases hfield : v.field? part with
  | none => simp [hfield] at h
  | some found =>
      have hlt := sizeOf_lt_of_field? hfield
      rw [hfield] at h
      cases found with
      | array items =>
          have hmem : sizeOf c < sizeOf items := List.sizeOf_lt_of_mem h
          simp only [Json.array.sizeOf_spec] at hlt
          omega
      | _ => exact absurd h List.not_mem_nil

/-- A child node is smaller than its node. -/
theorem sizeOf_lt_of_mem_childNodes {v c : Json} (h : c ∈ childNodes v) : sizeOf c < sizeOf v := by
  obtain ⟨s, -, h⟩ := List.mem_flatMap.1 h
  cases s with
  | field part => exact sizeOf_lt_of_present? (Option.mem_toList.1 h)
  | list part => exact sizeOf_lt_of_mem_items h
  | records part kind fields =>
      obtain ⟨record, hrecord, h⟩ := List.mem_flatMap.1 h
      obtain ⟨field, -, hc⟩ := List.mem_filterMap.1 h
      exact Nat.lt_trans (sizeOf_lt_of_present? hc) (sizeOf_lt_of_mem_items hrecord)

/-- Lower a node, followed as far down as it goes.  Only child nodes are lowered in turn, and these
are smaller. -/
noncomputable def lowerFully (v : Json) (b : AstBuilder) : Except Malformed (NodeId × AstBuilder) :=
  lowerWith (fun c b => if _ : sizeOf c < sizeOf v then lowerFully c b else .error .untyped) v b
termination_by sizeOf v

/-- **Lowering without a limit** is the recursion of one level, with nothing to stop it. -/
theorem lowerFully_eq (v : Json) : lowerFully v = lowerWith lowerFully v := by
  funext b
  rw [lowerFully]
  -- Only child nodes are lowered in turn, so the test of the size never fails.
  have hrec : ∀ c d, c = d ∧ sizeOf c < sizeOf v →
      (fun b => if _ : sizeOf c < sizeOf v then lowerFully c b else .error .untyped) =
        lowerFully d := by
    rintro c d ⟨rfl, hlt⟩
    funext b
    exact dif_pos hlt
  have hnode : SameNode (fun c d => c = d ∧ sizeOf c < sizeOf v) v v :=
    .refl fun c hc => ⟨rfl, sizeOf_lt_of_mem_childNodes hc⟩
  exact congrFun (lowerWith_agree hrec hnode) b

/-- A node is lowered as if there were no limit if the levels reach past all nodes below it. -/
theorem lowerNode_eq_lowerFully {program : Json} {levels level : Nat} {v : Json}
    (hv : AtLevel program level v)
    (hlevels : ∀ d u, AtLevel program d u → d < level + levels) :
    lowerNode levels v = lowerFully v := by
  induction levels generalizing level v with
  | zero =>
      -- The cut is never reached: the node itself would be at the level that no node is at.
      exact absurd (hlevels level v hv) (Nat.lt_irrefl level)
  | succ levels ih =>
      have hbelow : ∀ d u, AtLevel program d u → d < (level + 1) + levels := by
        intro d u hu
        have hd := hlevels d u hu
        omega
      have hrec : ∀ c d, c = d ∧ AtLevel program (level + 1) c →
          lowerNode levels c = lowerFully d := by
        rintro c d ⟨rfl, hc⟩
        exact ih hc hbelow
      have hnode : SameNode (fun c d => c = d ∧ AtLevel program (level + 1) c) v v :=
        .refl fun c hc => ⟨rfl, .child hv hc⟩
      rw [lowerFully_eq]
      exact lowerWith_agree hrec hnode

/-! ### Programs -/

/-- Two programs that are the same around their statements, which correspond by `R`. -/
structure SameProgram (R : Json → Json → Prop) (v w : Json) : Prop where
  fields : SameBut ["body"] v w
  body : Option.Rel (List.Forall₂ R) (items? v "body") (items? w "body")

theorem SameProgram.refl {R : Json → Json → Prop} {v : Json}
    (h : ∀ c ∈ (items? v "body").getD [], R c c) : SameProgram R v v where
  fields := fun _ _ => rfl
  body := by
    refine optionRel_refl fun items hitems => List.forall₂_same.2 fun c hc => h c ?_
    rw [Option.mem_def.1 hitems]
    exact hc

theorem lowerProgramWith_agree {R : Json → Json → Prop} {recur recur' : Lower}
    (hrec : ∀ c d, R c d → recur c = recur' d) {v w : Json} (h : SameProgram R v w) :
    lowerProgramWith recur v = lowerProgramWith recur' w := by
  have hmissing := h.fields.missing_eq (by decide) "body"
  rw [lowerProgramWith, lowerProgramWith, h.fields.kindOf_eq (by decide),
    h.fields.lineOf_eq (by decide)]
  refine bind_congr fun kind => ?_
  split
  · refine arrayPart_agree hmissing ?_ h.body
    intro xs ys hxy
    rw [each_agree hrec hxy]
  · rfl

/-- **The cut is exact.**  Programs that are the same above the limit, where corresponding nodes at
the limit have the same type and cover the same lines, are lowered alike: to the same arena or to
the same refusal.  And a program without nodes at the limit is lowered as it is without a limit,
which follows every node.  A node that is reached with no levels left becomes a single unsupported
node of its own type, and all that lowering asks of it is that it has one. -/
theorem lower_cuts_at_limit :
    (∀ v w, SameProgram (SameAbove maxNesting) v w → lower v = lower w) ∧
      (∀ v, (∀ level u, AtLevel v level u → level < maxNesting) →
        lower v = lowerProgramWith lowerFully v) ∧
      (∀ v, lowerFully v = lowerWith lowerFully v) ∧
      ∀ u b, lowerNode 0 u b = match text? u "type" with
        | some kind =>
            .ok (b.nodes.size, { b with nodes := b.nodes.push ⟨.other kind, spanOf u⟩ })
        | none => .error .untyped := by
  refine ⟨?_, ?_, lowerFully_eq, lowerNode_zero⟩
  · intro v w h
    exact lowerProgramWith_agree (lowerNode_agree maxNesting) h
  · intro v hlevels
    have hrec : ∀ c d, c = d ∧ AtLevel v 0 c → lowerNode maxNesting c = lowerFully d := by
      rintro c d ⟨rfl, hc⟩
      refine lowerNode_eq_lowerFully hc ?_
      rwa [Nat.zero_add]
    have hprogram : SameProgram (fun c d => c = d ∧ AtLevel v 0 c) v v :=
      .refl fun c hc => ⟨rfl, .statement hc⟩
    exact lowerProgramWith_agree hrec hprogram

/-! ### Chains of accesses -/

theorem lastField?_eq_none {fields : List (String × Json)} {part : String}
    (h : part ∉ fields.map Prod.fst) : Json.lastField? part fields = none := by
  induction fields with
  | nil => rfl
  | cons field rest ih =>
      rw [List.map_cons, List.mem_cons, not_or] at h
      rw [Json.lastField?, ih h.2, if_neg (Ne.symm h.1)]
      rfl

theorem sameBut_typed {kind : String} {parts : List String} {fields fields' : List (String × Json)}
    (h : fields.map Prod.fst = parts) (h' : fields'.map Prod.fst = parts) :
    SameBut parts (typed kind fields) (typed kind fields') := by
  intro part hpart
  have hnone : Json.lastField? part fields = none := lastField?_eq_none (h ▸ hpart)
  have hnone' : Json.lastField? part fields' = none := lastField?_eq_none (h' ▸ hpart)
  rw [typed, typed, Json.field?, Json.field?, Json.lastField?, Json.lastField?, hnone, hnone']

theorem present?_accesses (n : Nat) :
    (Analysis.accesses (n + 1)).present? "object" = some (Analysis.accesses n) := by
  cases n <;> rfl

/-- Two chains are the same above the level that the shorter one reaches. -/
theorem accesses_sameAbove {levels m n : Nat} (hm : levels < m) (hn : levels < n) :
    SameAbove levels (Analysis.accesses m) (Analysis.accesses n) := by
  induction levels generalizing m n with
  | zero =>
      obtain ⟨m, rfl⟩ := Nat.exists_eq_add_one.2 hm
      obtain ⟨n, rfl⟩ := Nat.exists_eq_add_one.2 hn
      exact ⟨rfl, rfl, rfl⟩
  | succ levels ih =>
      obtain ⟨m, rfl⟩ := Nat.exists_eq_add_one.2 (Nat.zero_lt_of_lt hm)
      obtain ⟨n, rfl⟩ := Nat.exists_eq_add_one.2 (Nat.zero_lt_of_lt hn)
      refine ⟨sameBut_typed rfl rfl, ?_⟩
      intro s hs
      rcases List.mem_pair.1 hs with rfl | rfl
      · rw [Slot.Agrees, present?_accesses, present?_accesses]
        exact .some (ih (Nat.lt_of_succ_lt_succ hm) (Nat.lt_of_succ_lt_succ hn))
      · exact .some (SameAbove.refl levels (named "p"))

/-- The tree of the assignment in `x = f.p.p` …. -/
def assignment (n : Nat) : Json :=
  typed "AssignmentExpression" [("left", named "x"), ("right", Analysis.accesses n)]

theorem present?_assignment (n : Nat) :
    (assignment n).present? "right" = some (Analysis.accesses n) := by
  cases n <;> rfl

theorem assignsAccesses_sameProgram {m n levels : Nat} (hm : levels < m) (hn : levels < n) :
    SameProgram (SameAbove (levels + 2)) (Analysis.assignsAccesses m)
      (Analysis.assignsAccesses n) := by
  refine ⟨sameBut_typed rfl rfl, .some (.cons ⟨sameBut_typed rfl rfl, ?_⟩ .nil)⟩
  intro s hs
  obtain rfl := List.mem_singleton.1 hs
  refine .some (a := assignment m) (b := assignment n) ⟨sameBut_typed rfl rfl, ?_⟩
  intro s hs
  rcases List.mem_pair.1 hs with rfl | rfl
  · exact .some (SameAbove.refl levels (named "x"))
  · rw [Slot.Agrees, present?_assignment, present?_assignment]
    exact .some (accesses_sameAbove hm hn)

theorem childNodes_accesses (n : Nat) :
    childNodes (Analysis.accesses (n + 1)) = [Analysis.accesses n, named "p"] := by
  cases n <;> rfl

theorem childNodes_assignment (n : Nat) :
    childNodes (assignment n) = [named "x", Analysis.accesses n] := by
  cases n <;> rfl

/-- The nodes of `x = f.p.p` …, by their level: the statement, the assignment, the chain and what
is left of it, and the names. -/
theorem AtLevel.of_assignsAccesses {n level : Nat} {u : Json}
    (h : AtLevel (Analysis.assignsAccesses n) level u) :
    (level = 0 ∧ childNodes u = [assignment n]) ∨ (level = 1 ∧ u = assignment n) ∨
      (∃ k, level + k = n + 2 ∧ u = Analysis.accesses k) ∨ level ≤ n + 2 ∧ childNodes u = [] := by
  induction h with
  | statement hv =>
      obtain rfl := List.mem_singleton.1 hv
      exact .inl ⟨rfl, rfl⟩
  | @child level v c _ hc ih =>
      rcases ih with ⟨rfl, hnodes⟩ | ⟨rfl, rfl⟩ | ⟨k, hk, rfl⟩ | ⟨-, hnodes⟩
      · rw [hnodes] at hc
        exact .inr (.inl ⟨rfl, List.mem_singleton.1 hc⟩)
      · rw [childNodes_assignment] at hc
        rcases List.mem_pair.1 hc with rfl | rfl
        · exact .inr (.inr (.inr ⟨by omega, rfl⟩))
        · exact .inr (.inr (.inl ⟨n, by omega, rfl⟩))
      · cases k with
        | zero => cases hc
        | succ k =>
            rw [childNodes_accesses] at hc
            rcases List.mem_pair.1 hc with rfl | rfl
            · exact .inr (.inr (.inl ⟨k, by omega, rfl⟩))
            · exact .inr (.inr (.inr ⟨by omega, rfl⟩))
      · rw [hnodes] at hc
        cases hc

theorem AtLevel.le_of_assignsAccesses {n level : Nat} {u : Json}
    (h : AtLevel (Analysis.assignsAccesses n) level u) : level ≤ n + 2 := by
  rcases h.of_assignsAccesses with ⟨rfl, -⟩ | ⟨rfl, -⟩ | ⟨k, hk, -⟩ | ⟨hle, -⟩ <;> omega

/-- In `x = f.p.p` … the chain stands two levels down.  With 255 accesses or more its node at the
limit is an access in any case, and how many follow is not seen; with 253 the last name stands just
above the limit. -/
theorem lower_cuts_accesses :
    SameProgram (SameAbove maxNesting) (Analysis.assignsAccesses 255)
        (Analysis.assignsAccesses 300) ∧
      lower (Analysis.assignsAccesses 255) = lower (Analysis.assignsAccesses 300) ∧
      (∀ level u, AtLevel (Analysis.assignsAccesses 253) level u → level < maxNesting) ∧
      lower (Analysis.assignsAccesses 253) =
        lowerProgramWith lowerFully (Analysis.assignsAccesses 253) := by
  have hsame : SameProgram (SameAbove maxNesting) (Analysis.assignsAccesses 255)
      (Analysis.assignsAccesses 300) := assignsAccesses_sameProgram (by decide) (by decide)
  have hlevels : ∀ level u, AtLevel (Analysis.assignsAccesses 253) level u → level < maxNesting :=
    fun _ _ h => Nat.lt_succ_of_le h.le_of_assignsAccesses
  exact ⟨hsame, lower_cuts_at_limit.1 _ _ hsame, hlevels, lower_cuts_at_limit.2.1 _ hlevels⟩

end ExportSurface.Estree
