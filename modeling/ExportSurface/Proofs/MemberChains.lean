/-
Chains of member accesses and their paths.

`Ast.memberPath?` follows a chain from its last access inwards, and is given enough fuel for as many
links as there are nodes.  Nothing is assumed here about the order of the nodes: an access may stand
before its object.  A chain that ends at an identifier does not come back to a node, since it would
then go round for ever, so it has no more links than there are nodes, and the fuel is always enough.

Main definitions:

* `Ast.MemberChain` — the links of a chain, with the texts that they contribute to its path;
* `Ast.HasPath` — a node is a chain with the given path.

Main results:

* `Ast.MemberChain.nodup` — **no node occurs twice in a chain**;
* `Ast.memberPath?_eq_some_iff` — **the path of a node is that of its chain**, and a node that is no
  chain has none.
-/

import ExportSurface.Ast.MemberPath
import Mathlib.Data.List.Perm.Subperm
import Mathlib.Data.List.Range

set_option autoImplicit false

namespace ExportSurface.Ast

/-- The links of a chain of member accesses, from the last access inwards to an identifier, and the
texts that they contribute, from the identifier on. -/
inductive MemberChain (ast : Ast) : List NodeId → List String → Prop where
  | identifier {id : NodeId} {name : String} : ast.node id = .identifier name →
      MemberChain ast [id] [name]
  | access {id base property : NodeId} {computed : Bool} {segment : String}
      {links : List NodeId} {segments : List String} :
      ast.node id = .member base property computed →
      ast.pathSegment? property computed = some segment → MemberChain ast (base :: links) segments →
      MemberChain ast (id :: base :: links) (segments ++ [segment])

/-- The node is a chain with the given path. -/
def HasPath (ast : Ast) (id : NodeId) (path : String) : Prop :=
  ∃ links segments, ast.MemberChain (id :: links) segments ∧ String.join segments = path

namespace MemberChain

variable {ast : Ast} {id : NodeId} {links : List NodeId} {segments : List String}

/-- A node is the start of one chain only. -/
theorem eq (h : ast.MemberChain (id :: links) segments) {links' : List NodeId}
    {segments' : List String} (h' : ast.MemberChain (id :: links') segments') :
    links = links' := by
  induction links generalizing id segments links' segments' with
  | nil =>
      cases h with
      | identifier hnode =>
          cases h' with
          | identifier _ => rfl
          | access hnode' _ _ => rw [hnode] at hnode'; contradiction
  | cons base links ih =>
      cases h with
      | access hnode _ hbase =>
          cases h' with
          | identifier hnode' => rw [hnode] at hnode'; contradiction
          | access hnode' _ hbase' =>
              obtain ⟨rfl, -, -⟩ := Node.member.inj (hnode.symm.trans hnode')
              rw [ih hbase hbase']

/-- Every link is the start of a chain of its own, which is no longer. -/
theorem of_mem (h : ast.MemberChain links segments) (hid : id ∈ links) :
    ∃ rest texts, ast.MemberChain (id :: rest) texts ∧ rest.length < links.length := by
  induction h with
  | identifier hnode =>
      rw [List.mem_singleton.1 hid]
      exact ⟨[], _, .identifier hnode, Nat.one_pos⟩
  | access hnode hsegment hbase ih =>
      rcases List.mem_cons.1 hid with rfl | hid
      · exact ⟨_, _, .access hnode hsegment hbase, Nat.lt_succ_self _⟩
      · obtain ⟨rest, texts, hchain, hlt⟩ := ih hid
        exact ⟨rest, texts, hchain, Nat.lt_succ_of_lt hlt⟩

/-- **No node occurs twice in a chain.**  From its second occurrence on, the chain would have to be
as long as from the first. -/
theorem nodup (h : ast.MemberChain links segments) : links.Nodup := by
  induction h with
  | identifier _ => exact List.nodup_cons.2 ⟨List.not_mem_nil, List.nodup_nil⟩
  | @access id base _ _ _ links _ hnode hsegment hbase ih =>
      refine List.nodup_cons.2 ⟨?_, ih⟩
      intro hid
      obtain ⟨rest, texts, hchain, hlt⟩ := hbase.of_mem hid
      rw [hchain.eq (.access hnode hsegment hbase)] at hlt
      exact absurd hlt (Nat.lt_irrefl _)

theorem lt_size (h : ast.MemberChain links segments) (hid : id ∈ links) : id < ast.size := by
  obtain ⟨rest, texts, hchain, -⟩ := h.of_mem hid
  refine Nat.not_le.1 fun hle => ?_
  have hnode : ast.node id = .other "" := by
    rw [node, Array.getElem?_eq_none hle]
  cases hchain with
  | identifier h => rw [hnode] at h; contradiction
  | access h _ _ => rw [hnode] at h; contradiction

theorem length_le_size (h : ast.MemberChain links segments) : links.length ≤ ast.size := by
  have hsub : links ⊆ List.range ast.size := fun _ hid => List.mem_range.2 (h.lt_size hid)
  have hle := (List.subperm_of_subset h.nodup hsub).length_le
  rwa [List.length_range] at hle

/-- With fuel for all its links, a chain is followed to its end. -/
theorem pathThrough?_eq (h : ast.MemberChain (id :: links) segments) {fuel : Nat}
    (hfuel : links.length < fuel) (texts : List String) :
    ast.pathThrough? fuel id texts = some (String.join (segments ++ texts)) := by
  induction links generalizing id segments fuel texts with
  | nil =>
      obtain ⟨fuel, rfl⟩ := Nat.exists_eq_add_one_of_ne_zero (Nat.ne_zero_of_lt hfuel)
      cases h with
      | identifier hnode => rw [pathThrough?, hnode, List.singleton_append]
  | cons base links ih =>
      obtain ⟨fuel, rfl⟩ := Nat.exists_eq_add_one_of_ne_zero (Nat.ne_zero_of_lt hfuel)
      cases h with
      | access hnode hsegment hbase =>
          rw [pathThrough?, hnode]
          dsimp only
          rw [hsegment]
          dsimp only
          rw [ih hbase (Nat.lt_of_succ_lt_succ hfuel), List.append_assoc, List.singleton_append]

end MemberChain

variable {ast : Ast} {id : NodeId} {path : String}

/-- Whatever the fuel, a path that is found is that of a chain. -/
theorem exists_chain_of_pathThrough? {fuel : Nat} {texts : List String}
    (h : ast.pathThrough? fuel id texts = some path) :
    ∃ links segments, ast.MemberChain (id :: links) segments ∧
      String.join (segments ++ texts) = path := by
  induction fuel generalizing id texts with
  | zero => cases h
  | succ fuel ih =>
      rw [pathThrough?] at h
      cases hnode : ast.node id with
      | identifier name =>
          rw [hnode] at h
          exact ⟨[], [name], .identifier hnode, Option.some.inj h⟩
      | member base property computed =>
          rw [hnode] at h
          dsimp only at h
          cases hsegment : ast.pathSegment? property computed with
          | none => simp [hsegment] at h
          | some segment =>
              rw [hsegment] at h
              obtain ⟨links, segments, hchain, hpath⟩ := ih h
              refine ⟨base :: links, _, .access hnode hsegment hchain, ?_⟩
              rw [List.append_assoc, List.singleton_append, hpath]
      | _ => simp [hnode] at h

/-- **The path of a node is that of its chain.** -/
theorem memberPath?_eq_some_iff : ast.memberPath? id = some path ↔ ast.HasPath id path := by
  constructor
  · intro h
    obtain ⟨links, segments, hchain, hpath⟩ := exists_chain_of_pathThrough? h
    rw [List.append_nil] at hpath
    exact ⟨links, segments, hchain, hpath⟩
  · rintro ⟨links, segments, hchain, rfl⟩
    have hfuel : links.length < ast.size + 1 :=
      Nat.lt_succ_of_lt (Nat.lt_of_succ_le hchain.length_le_size)
    rw [memberPath?, hchain.pathThrough?_eq hfuel, List.append_nil]

/-! ### Trees that agree -/

section congr

variable {ast ast' : Ast} {S : NodeId → Prop}

theorem pathSegment?_congr {property : NodeId} (h : ast'.node property = ast.node property)
    (computed : Bool) :
    ast'.pathSegment? property computed = ast.pathSegment? property computed := by
  rw [pathSegment?, pathSegment?, staticKey?, staticKey?, identifierName?, identifierName?, h]

/-- Where another tree has the same nodes, it has the same chains. -/
theorem HasPath.congr (hclosed : ∀ id, S id → ∀ p ∈ (ast.node id).references, S p)
    (hnode : ∀ id, S id → ast'.node id = ast.node id) {id : NodeId} {path : String} (hid : S id)
    (h : ast.HasPath id path) : ast'.HasPath id path := by
  obtain ⟨links, segments, hchain, hpath⟩ := h
  refine ⟨links, segments, ?_, hpath⟩
  clear hpath
  induction links generalizing id segments with
  | nil =>
      cases hchain with
      | identifier h => exact .identifier ((hnode id hid).trans h)
  | cons base links ih =>
      cases hchain with
      | @access _ _ property computed segment _ _ h hsegment hbase =>
          have hparts := hclosed id hid
          rw [h] at hparts
          refine .access ((hnode id hid).trans h) ?_
            (ih (hparts base (by simp [Node.references])) _ hbase)
          rw [pathSegment?_congr (hnode property (hparts property (by simp [Node.references])))]
          exact hsegment

/-- Where two trees have the same nodes, the nodes have the same paths. -/
theorem memberPath?_congr (hclosed : ∀ id, S id → ∀ p ∈ (ast.node id).references, S p)
    (hnode : ∀ id, S id → ast'.node id = ast.node id) {id : NodeId} (hid : S id) :
    ast'.memberPath? id = ast.memberPath? id := by
  have hclosed' : ∀ id, S id → ∀ p ∈ (ast'.node id).references, S p := by
    intro id hid
    rw [hnode id hid]
    exact hclosed id hid
  apply Option.ext
  intro path
  rw [memberPath?_eq_some_iff, memberPath?_eq_some_iff]
  exact ⟨.congr hclosed' (fun id hid => (hnode id hid).symm) hid, .congr hclosed hnode hid⟩

end congr

end ExportSurface.Ast
