/-
What lowering a node of a decoded tree comes down to.

The types of nodes differ in the parts they ask for, but every successful lowering has the same
course: some nodes are lowered one after the other, and then either one node is pushed that refers
to exactly these, in order, or there was only one of them and it stands for the whole.  The second
happens for parentheses only.

Main definitions:

* `Estree.Lowers` — some nodes are lowered one after the other.

Main results:

* `Estree.lowerWith_cases` — **the course of a successful lowering**, whatever the type of the node.
-/

import ExportSurface.Estree.Lowering

set_option autoImplicit false

namespace ExportSurface.Estree

/-- A sequence of two computations succeeds if both do. -/
theorem bind_eq_ok {ε α β : Type} {x : Except ε α} {f : α → Except ε β} {y : β} :
    x >>= f = .ok y ↔ ∃ a, x = .ok a ∧ f a = .ok y := by
  cases x with
  | error e => exact ⟨nofun, by rintro ⟨a, ⟨⟩, -⟩⟩
  | ok a => exact ⟨fun h => ⟨a, rfl, h⟩, by rintro ⟨_, ⟨rfl⟩, h⟩; exact h⟩

/-- Some nodes are lowered one after the other, to the given positions. -/
inductive Lowers (recur : Lower) : AstBuilder → List NodeId → AstBuilder → Prop where
  | nil {b : AstBuilder} : Lowers recur b [] b
  | cons {v : Json} {b b₁ b' : AstBuilder} {id : NodeId} {ids : List NodeId} :
      recur v b = .ok (id, b₁) → Lowers recur b₁ ids b' → Lowers recur b (id :: ids) b'

variable {recur : Lower} {v : Json} {b b₁ b' : AstBuilder}

namespace Lowers

theorem append {ids ids' : List NodeId} (h : Lowers recur b ids b₁)
    (h' : Lowers recur b₁ ids' b') : Lowers recur b (ids ++ ids') b' := by
  induction h with
  | nil => exact h'
  | cons hv _ ih => exact .cons hv (ih h')

theorem of_required {part : String} {id : NodeId} (h : required recur v part b = .ok (id, b')) :
    Lowers recur b [id] b' := by
  rw [required] at h
  split at h
  · exact .cons h .nil
  · cases h

theorem of_optional {part : String} {id : Option NodeId}
    (h : optional recur v part b = .ok (id, b')) : Lowers recur b id.toList b' := by
  rw [optional] at h
  split at h
  · obtain ⟨⟨id, b₁⟩, hchild, h⟩ := bind_eq_ok.1 h
    cases h
    exact .cons hchild .nil
  · cases h
    exact .nil

/-- A list of parts, each of which takes some nodes. -/
theorem of_each {α : Type} {step : Json → AstBuilder → Except Malformed (α × AstBuilder)}
    {parts : α → List NodeId}
    (hstep : ∀ v b x b', step v b = .ok (x, b') → Lowers recur b (parts x) b')
    {items : List Json} {xs : List α} (h : each step items b = .ok (xs, b')) :
    Lowers recur b (xs.flatMap parts) b' := by
  induction items generalizing b xs with
  | nil =>
      cases h
      exact .nil
  | cons v rest ih =>
      rw [each] at h
      obtain ⟨⟨x, b₁⟩, hx, h⟩ := bind_eq_ok.1 h
      obtain ⟨⟨xs, b₂⟩, hxs, h⟩ := bind_eq_ok.1 h
      cases h
      exact (hstep v b x b₁ hx).append (ih hxs)

theorem of_nodes {items : List Json} {ids : List NodeId} (h : each recur items b = .ok (ids, b')) :
    Lowers recur b ids b' := by
  have hall : Lowers recur b (ids.flatMap fun id => [id]) b' :=
    of_each (fun _ _ _ _ hv => .cons hv .nil) h
  rwa [List.flatMap_singleton'] at hall

theorem of_declarator {d : Declarator} (h : declarator recur v b = .ok (d, b')) :
    Lowers recur b (d.target :: d.init.toList) b' := by
  obtain ⟨⟨target, b₁⟩, htarget, h⟩ := bind_eq_ok.1 h
  obtain ⟨⟨init, b₂⟩, hinit, h⟩ := bind_eq_ok.1 h
  cases h
  exact (of_required htarget).append (of_optional hinit)

theorem of_entry {e : Entry} (h : entry recur v b = .ok (e, b')) :
    Lowers recur b [e.key, e.value] b' := by
  obtain ⟨⟨key, b₁⟩, hkey, h⟩ := bind_eq_ok.1 h
  obtain ⟨⟨value, b₂⟩, hvalue, h⟩ := bind_eq_ok.1 h
  cases h
  exact (of_required hkey).append (of_required hvalue)

theorem of_entries {kind : String} {items : List Json} {xs : List Entry}
    (h : entries recur kind items b = .ok (xs, b')) :
    Lowers recur b (xs.flatMap fun e => [e.key, e.value]) b' := by
  induction items generalizing b xs with
  | nil =>
      cases h
      exact .nil
  | cons v rest ih =>
      rw [entries] at h
      obtain ⟨found, -, h⟩ := bind_eq_ok.1 h
      split at h
      · obtain ⟨⟨x, b₁⟩, hx, h⟩ := bind_eq_ok.1 h
        obtain ⟨⟨xs, b₂⟩, hxs, h⟩ := bind_eq_ok.1 h
        cases h
        exact (of_entry hx).append (ih hxs)
      · exact ih h

end Lowers

/-- The end of a lowering: a node is pushed that refers to the given nodes, or there was only one
node, and it stands for the whole. -/
def Closes (ids : List NodeId) (b : AstBuilder) (id : NodeId) (b' : AstBuilder) : Prop :=
  (∃ node span, node.references = ids ∧ b.pushSpanned node span = (id, b')) ∨ (ids = [id] ∧ b = b')

theorem closes_of_push {node : Node} {span : Span} {id : NodeId}
    (h : (pure (b.pushSpanned node span) : Except Malformed _) = .ok (id, b')) :
    Closes node.references b id b' :=
  .inl ⟨node, span, rfl, Except.ok.inj h⟩

/-- **The course of a successful lowering.** -/
theorem lowerWith_cases {id : NodeId} (h : lowerWith recur v b = .ok (id, b')) :
    ∃ ids b₁, Lowers recur b ids b₁ ∧ Closes ids b₁ id b' := by
  rw [lowerWith] at h
  obtain ⟨kind, -, h⟩ := bind_eq_ok.1 h
  split at h
  · -- an expression statement
    obtain ⟨⟨expression, b₁⟩, hexpression, h⟩ := bind_eq_ok.1 h
    exact ⟨_, b₁, .of_required hexpression, closes_of_push h⟩
  · -- variables
    obtain ⟨word, -, h⟩ := bind_eq_ok.1 h
    split at h
    · cases h
    · obtain ⟨items, -, h⟩ := bind_eq_ok.1 h
      obtain ⟨⟨declarators, b₁⟩, hdeclarators, h⟩ := bind_eq_ok.1 h
      exact ⟨_, b₁, .of_each (fun _ _ _ _ => .of_declarator) hdeclarators, closes_of_push h⟩
  · -- an assignment
    split at h
    · exact ⟨_, b, .nil, closes_of_push h⟩
    · obtain ⟨⟨target, b₁⟩, htarget, h⟩ := bind_eq_ok.1 h
      obtain ⟨⟨value, b₂⟩, hvalue, h⟩ := bind_eq_ok.1 h
      exact ⟨_, b₂, (Lowers.of_required htarget).append (.of_required hvalue), closes_of_push h⟩
  · -- a name
    obtain ⟨name, -, h⟩ := bind_eq_ok.1 h
    exact ⟨_, b, .nil, closes_of_push h⟩
  · -- a member access
    obtain ⟨⟨base, b₁⟩, hbase, h⟩ := bind_eq_ok.1 h
    obtain ⟨⟨property, b₂⟩, hproperty, h⟩ := bind_eq_ok.1 h
    exact ⟨_, b₂, (Lowers.of_required hbase).append (.of_required hproperty), closes_of_push h⟩
  · -- a declared function
    obtain ⟨⟨name, b₁⟩, hname, h⟩ := bind_eq_ok.1 h
    exact ⟨_, b₁, .of_optional hname, closes_of_push h⟩
  · -- a function expression
    obtain ⟨⟨name, b₁⟩, hname, h⟩ := bind_eq_ok.1 h
    exact ⟨_, b₁, .of_optional hname, closes_of_push h⟩
  · -- an arrow function
    exact ⟨_, b, .nil, closes_of_push h⟩
  · -- a declared class
    obtain ⟨⟨name, b₁⟩, hname, h⟩ := bind_eq_ok.1 h
    obtain ⟨⟨body, b₂⟩, hbody, h⟩ := bind_eq_ok.1 h
    exact ⟨_, b₂, (Lowers.of_optional hname).append (.of_required hbody), closes_of_push h⟩
  · -- a class expression
    obtain ⟨⟨name, b₁⟩, hname, h⟩ := bind_eq_ok.1 h
    obtain ⟨⟨body, b₂⟩, hbody, h⟩ := bind_eq_ok.1 h
    exact ⟨_, b₂, (Lowers.of_optional hname).append (.of_required hbody), closes_of_push h⟩
  · -- a class body
    obtain ⟨items, -, h⟩ := bind_eq_ok.1 h
    obtain ⟨⟨methods, b₁⟩, hmethods, h⟩ := bind_eq_ok.1 h
    exact ⟨_, b₁, .of_entries hmethods, closes_of_push h⟩
  · -- an object literal
    obtain ⟨items, -, h⟩ := bind_eq_ok.1 h
    obtain ⟨⟨properties, b₁⟩, hproperties, h⟩ := bind_eq_ok.1 h
    exact ⟨_, b₁, .of_entries hproperties, closes_of_push h⟩
  · -- a literal
    exact ⟨_, b, .nil, closes_of_push h⟩
  · -- a default export
    obtain ⟨⟨declaration, b₁⟩, hdeclaration, h⟩ := bind_eq_ok.1 h
    exact ⟨_, b₁, .of_required hdeclaration, closes_of_push h⟩
  · -- an export of a declaration and of names
    obtain ⟨⟨declaration, b₁⟩, hdeclaration, h⟩ := bind_eq_ok.1 h
    dsimp only at h
    split at h
    · have hclose := closes_of_push h
      exact ⟨_, b₁, .of_optional hdeclaration, by simpa [Node.references] using hclose⟩
    · obtain ⟨items, -, h⟩ := bind_eq_ok.1 h
      obtain ⟨⟨specifiers, b₂⟩, hspecifiers, h⟩ := bind_eq_ok.1 h
      exact ⟨_, b₂, (Lowers.of_optional hdeclaration).append (.of_nodes hspecifiers),
        closes_of_push h⟩
  · -- an exported name
    obtain ⟨⟨source, b₁⟩, hsource, h⟩ := bind_eq_ok.1 h
    exact ⟨_, b₁, .of_required hsource, closes_of_push h⟩
  · -- parentheses
    exact ⟨_, b', .of_required h, .inr ⟨rfl, rfl⟩⟩
  · -- any other type
    exact ⟨_, b, .nil, closes_of_push h⟩

end ExportSurface.Estree
