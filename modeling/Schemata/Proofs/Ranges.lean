import Mathlib.Data.List.Basic
import Schemata.Proofs.Tree

/-!
# Ranges of nodes that were never moved

As long as no node is moved, the nodes of a draft have the ranges that the layout of its
declarations gives them (`Draft.Unmoved`), one after the other in the order of the places. So of two
nodes the one that starts first is the one with the smaller place
(`Draft.Unmoved.start_lt_start_iff`).
-/

namespace Schemata

open Outline

namespace Seed

theorem advance_append (cursor : Nat) (seeds more : List Seed) :
    advance cursor (seeds ++ more) = advance (advance cursor seeds) more := by
  induction seeds generalizing cursor with
  | nil => rfl
  | cons seed seeds ih => exact ih _

/-- Seeds that follow others are placed where these have left the cursor. -/
theorem place_append (cursor : Nat) (seeds more : List Seed) :
    place cursor (seeds ++ more) = place cursor seeds ++ place (advance cursor seeds) more := by
  induction seeds generalizing cursor with
  | nil => rfl
  | cons seed seeds ih => exact congrArg (seed.toNode cursor :: ·) (ih _)

/-- Nothing is placed before the cursor. -/
theorem le_start_of_mem_place {cursor : Nat} {seeds : List Seed} {node : Node}
    (h : node ∈ place cursor seeds) : cursor ≤ node.range.start := by
  induction seeds generalizing cursor with
  | nil => cases h
  | cons seed seeds ih =>
    rcases List.mem_cons.1 h with rfl | h
    · exact Nat.le_refl cursor
    · exact (Nat.le_add_right cursor _).trans ((Nat.le_succ _).trans (ih h))

/-- Each seed is placed after the one before it, since no extent is empty. -/
theorem pairwise_start_place (cursor : Nat) (seeds : List Seed) :
    (place cursor seeds).Pairwise fun a b ↦ a.range.start < b.range.start := by
  induction seeds generalizing cursor with
  | nil => exact .nil
  | cons seed seeds ih =>
    refine .cons (fun node hnode ↦ ?_) (ih _)
    -- the cursor moves on past the end of a node, which is not before its start
    have hle : cursor + seed.content.extent + 1 ≤ node.range.start := le_start_of_mem_place hnode
    show cursor < node.range.start
    omega

end Seed

/-- Where the cursor stands after the root. -/
def Document.bodyStart (d : Document) : Nat := (Content.root d.name).extent + 1

/-- Whether the nodes of a draft stand where the layout of some declarations puts them. -/
structure Draft.Unmoved (draft : Draft) (xs : List Declaration) : Prop where
  rootRange : draft.document.rootRange = ⟨0, (Content.root draft.document.name).extent⟩
  body : draft.document.body =
    Seed.place draft.document.bodyStart (seedsOf 0 1 (xs.map Declaration.outline))
  cursor : draft.cursor =
    Seed.advance draft.document.bodyStart (seedsOf 0 1 (xs.map Declaration.outline))

namespace Draft.Unmoved

variable {draft : Draft} {xs : List Declaration}

theorem size_eq (h : draft.Unmoved xs) :
    draft.document.size = 1 + sizes (xs.map Declaration.outline) := by
  rw [Document.size, h.body, Seed.length_place, length_seedsOf, Nat.add_comm]

/-- An accepted declaration is put after all others. -/
theorem append (h : draft.Unmoved xs) (x : Declaration) : (draft.append x).Unmoved (xs ++ [x]) := by
  have hseeds : seedsOf 0 1 ((xs ++ [x]).map Declaration.outline) =
      seedsOf 0 1 (xs.map Declaration.outline) ++ x.outline.seeds 0 draft.document.size := by
    rw [List.map_append, seedsOf_append, ← h.size_eq]
    simp [seedsOf]
  have hname : (draft.append x).document.name = draft.document.name := by cases x <;> rfl
  have hstart : (draft.append x).document.bodyStart = draft.document.bodyStart := by
    rw [Document.bodyStart, hname, Document.bodyStart]
  refine ⟨?_, ?_, ?_⟩
  · rw [hname, ← h.rootRange]
    cases x <;> rfl
  · rw [hstart, hseeds, Seed.place_append, ← h.body, ← h.cursor]
    cases x <;> rfl
  · rw [hstart, hseeds, Seed.advance_append, ← h.cursor]
    rfl

section Drafting

variable [Text.IdentifierClasses]

/-- Declaring, with success or without, moves no node. -/
theorem declare (h : draft.Unmoved xs) (x : Declaration) :
    (draft.declare x).1.Unmoved
      (xs ++ ((Edit.declare x).accepted? (draft.declare x).2).toList) := by
  cases hx : x.firstViolation? with
  | some error => simpa [Draft.declare_of_violation hx, Edit.accepted?] using h
  | none =>
    rw [Draft.declare_of_no_violation hx]
    exact h.append x

/-- Any number of declarations moves no node. -/
theorem steps (h : draft.Unmoved xs) {edits : List Edit}
    (hedits : ∀ n range, Edit.setRange n range ∉ edits) :
    (draft.steps edits).1.Unmoved (xs ++ Edit.accepted edits (draft.steps edits).2) := by
  induction edits generalizing draft xs with
  | nil => simpa [Draft.steps, Edit.accepted] using h
  | cons e edits ih =>
    cases e with
    | setRange n range => exact absurd List.mem_cons_self (hedits n range)
    | declare x =>
      have hrest := ih (h.declare x) fun n range hmem ↦
        hedits n range (List.mem_cons_of_mem _ hmem)
      rwa [List.append_assoc, ← Edit.accepted_cons] at hrest

/-- A draft whose edits move no node is one in which no node has been moved. -/
theorem drafting (file : FileId) (name : String) {edits : List Edit}
    (hedits : ∀ n range, Edit.setRange n range ∉ edits) :
    (Draft.drafting file name edits).1.Unmoved
      (Edit.accepted edits (Draft.drafting file name edits).2) := by
  have hblank : (Draft.mk (.blank file name) ((Content.root name).extent + 1)).Unmoved [] :=
    ⟨rfl, rfl, rfl⟩
  exact hblank.steps hedits

end Drafting

/-- The root starts before all else, and what was added later starts later. -/
theorem pairwise_start (h : draft.Unmoved xs) :
    (draft.document.root :: draft.document.body).Pairwise fun a b ↦
      a.range.start < b.range.start := by
  rw [h.body]
  refine .cons (fun node hnode ↦ ?_) (Seed.pairwise_start_place _ _)
  have hle : draft.document.bodyStart ≤ node.range.start := Seed.le_start_of_mem_place hnode
  show draft.document.rootRange.start < node.range.start
  rw [h.rootRange]
  exact (Nat.succ_pos _).trans_le hle

theorem start_lt_start (h : draft.Unmoved xs) {m n : Nat} {a b : Node} (hmn : m < n)
    (ha : draft.document.node? m = some a) (hb : draft.document.node? n = some b) :
    a.range.start < b.range.start := by
  have hget (k : Nat) :
      draft.document.node? k = (draft.document.root :: draft.document.body)[k]? := by
    cases k <;> rfl
  rw [hget, List.getElem?_eq_some_iff] at ha hb
  obtain ⟨hm, rfl⟩ := ha
  obtain ⟨hn, rfl⟩ := hb
  exact List.pairwise_iff_getElem.1 h.pairwise_start m n hm hn hmn

/-- Nodes start in the order of their places. -/
theorem start_lt_start_iff (h : draft.Unmoved xs) {m n : Nat} {a b : Node}
    (ha : draft.document.node? m = some a) (hb : draft.document.node? n = some b) :
    a.range.start < b.range.start ↔ m < n := by
  refine ⟨fun hlt ↦ ?_, fun hmn ↦ h.start_lt_start hmn ha hb⟩
  by_contra hle
  rcases Nat.lt_or_eq_of_le (Nat.le_of_not_lt hle) with hnm | rfl
  · exact Nat.lt_asymm hlt (h.start_lt_start hnm hb ha)
  · rw [ha, Option.some.injEq] at hb
    rw [hb] at hlt
    exact Nat.lt_irrefl _ hlt

end Draft.Unmoved

end Schemata
