import Schemata.Proofs.Tree

/-!
# Drafted documents are well shaped

However a document is drafted, by declarations that are accepted or refused and by moving nodes in
between, what comes out is one tree (`Document.ofEdits?_wellShaped`). Every place but that of the
root has a parent before it, every list of children agrees with the parents and holds nodes of the
right kinds, and a reference stands where its node stands.

The walks through a document are defined with a bound on their length. `Visits` and `Climbs` are the
same walks without a bound, as what a traversal with a stack and a climb to the root list when they
come to an end. In a tree they come to an end, and the bounded walks list the same
(`Document.Tree.visits_preorder`, `Document.Tree.climbs_ancestors`).
-/

namespace Schemata

/-! ### References stand where their nodes stand -/

/-- Whether the reference that a node holds, if it holds one, has the range of the node. -/
def Node.InPlace (node : Node) : Prop :=
  ∀ site r, node.content.reference? = some (site, r) → r.range = node.range

theorem Node.inPlace_relocated (range : Range) (node : Node) : (node.relocated range).InPlace := by
  intro site r hr
  rw [Node.relocated, Content.relocated, Content.reference?_map] at hr
  obtain ⟨⟨site', r'⟩, -, heq⟩ := Option.map_eq_some_iff.1 hr
  rw [← (Prod.mk.inj heq).2]
  rfl

theorem Seed.inPlace_toNode (seed : Seed) (cursor : Nat) : (seed.toNode cursor).InPlace := by
  intro site r hr
  rw [Seed.toNode, Content.located, Content.reference?_map] at hr
  obtain ⟨⟨site', text⟩, -, heq⟩ := Option.map_eq_some_iff.1 hr
  rw [← (Prod.mk.inj heq).2]
  rfl

/-- What is placed is in place. -/
theorem Seed.inPlace_of_mem_place {cursor : Nat} {seeds : List Seed} {node : Node}
    (h : node ∈ Seed.place cursor seeds) : node.InPlace := by
  induction seeds generalizing cursor with
  | nil => cases h
  | cons seed seeds ih =>
    rcases List.mem_cons.1 h with rfl | h
    · exact seed.inPlace_toNode cursor
    · exact ih h

namespace Document

section Classes

variable {classes : Text.IdentifierClasses}

/-- To move a node moves its reference along. -/
theorem inPlace_body_setRange {d : Document} (h : ∀ node ∈ d.body, node.InPlace) (n : LocalId)
    (range : Range) : ∀ node ∈ (d.setRange n range).body, node.InPlace := by
  cases n with
  | zero => exact h
  | succ n =>
    intro node hnode
    obtain ⟨i, hi⟩ := List.mem_iff_getElem?.1 hnode
    rw [Document.setRange, List.getElem?_modify] at hi
    obtain ⟨old, hold, rfl⟩ := Option.map_eq_some_iff.1 hi
    by_cases hn : n = i
    · rw [if_pos hn]
      exact old.inPlace_relocated range
    · rw [if_neg hn]
      exact h old (List.mem_of_getElem? hold)

theorem inPlace_body_step {draft : Draft} (h : ∀ node ∈ draft.document.body, node.InPlace)
    (e : Edit) : ∀ node ∈ (draft.step e).1.document.body, node.InPlace := by
  cases e with
  | setRange n range => exact inPlace_body_setRange h n range
  | declare x =>
    rw [Draft.step]
    cases hx : x.firstViolation? with
    | some error =>
      rw [Draft.declare_of_violation hx]
      exact h
    | none =>
      rw [Draft.declare_of_no_violation hx]
      intro node hnode
      have hbody : (draft.append x).document.body = draft.document.body ++
          Seed.place draft.cursor (x.outline.seeds 0 draft.document.size) := by
        cases x <;> rfl
      rw [hbody] at hnode
      rcases List.mem_append.1 hnode with hnode | hnode
      · exact h node hnode
      · exact Seed.inPlace_of_mem_place hnode

/-- No edit puts a reference out of place. -/
theorem inPlace_body_steps {draft : Draft} (h : ∀ node ∈ draft.document.body, node.InPlace)
    (edits : List Edit) : ∀ node ∈ (draft.steps edits).1.document.body, node.InPlace := by
  induction edits generalizing draft with
  | nil => exact h
  | cons e edits ih => exact ih (inPlace_body_step h e)

/-- In a drafted document every reference has the range of its node. -/
theorem inPlace_of_node?_drafting {file : FileId} {name : String} {edits : List Edit} {n : LocalId}
    {node : Node} (h : (drafting file name edits).node? n = some node) : node.InPlace := by
  cases n with
  | zero =>
    -- the root holds no reference
    obtain rfl := Option.some.inj h
    intro site r hr
    cases hr
  | succ n =>
    have hblank : ∀ node ∈ (blank file name).body, node.InPlace :=
      fun _ h ↦ absurd h List.not_mem_nil
    exact inPlace_body_steps hblank edits node (List.mem_of_getElem? h)

/-! ### Walks without a bound -/

/-- What a traversal lists from a stack of places: the place on top, and then what it lists after
that place is replaced by its children. It comes to an end when the stack is empty. -/
inductive Visits (d : Document) : List LocalId → List LocalId → Prop
  | done : d.Visits [] []
  | visit {n : LocalId} {stack order : List LocalId} (h : d.Visits (d.children n ++ stack) order) :
    d.Visits (n :: stack) (n :: order)

/-- What a climb from a place lists: the parent, and then what the climb from there lists. It comes
to an end at a place without a parent. -/
inductive Climbs (d : Document) : LocalId → List LocalId → Prop
  | top {n : LocalId} (h : d.parent? n = none) : d.Climbs n []
  | up {n p : LocalId} {above : List LocalId} (h : d.parent? n = some p) (hp : d.Climbs p above) :
    d.Climbs n (p :: above)

namespace Visits

variable {d : Document} {stack order : List LocalId}

/-- Nothing on the stack is left out, and it is listed in its order. -/
theorem stack_sublist (h : d.Visits stack order) : stack.Sublist order := by
  induction h with
  | done => exact List.Sublist.refl []
  | visit h ih => exact ((List.sublist_append_right _ _).trans ih).cons_cons _

/-- Places on top of the stack are dealt with one after the other. -/
theorem flatMap {f : LocalId → List LocalId} {cs : List LocalId}
    (hcs : ∀ c ∈ cs, ∀ stack order, d.Visits stack order → d.Visits (c :: stack) (f c ++ order))
    (h : d.Visits stack order) : d.Visits (cs ++ stack) (cs.flatMap f ++ order) := by
  induction cs with
  | nil => exact h
  | cons c cs ih =>
    rw [List.flatMap_cons, List.append_assoc]
    exact hcs c List.mem_cons_self _ _ (ih fun c' hc' ↦ hcs c' (List.mem_cons_of_mem c hc'))

/-- A place that is listed comes before its children, and these come in their order. -/
theorem cons_children_sublist (h : d.Visits stack order) {p : LocalId} (hp : p ∈ order) :
    (p :: d.children p).Sublist order := by
  induction h with
  | done => cases hp
  | visit h ih =>
    rcases List.mem_cons.1 hp with rfl | hp
    · -- the children go onto the stack when their parent is listed
      exact ((List.sublist_append_left _ _).trans h.stack_sublist).cons_cons p
    · exact (ih hp).cons _

/-- A node is visited before its children. -/
theorem sublist_order (h : d.Visits stack order) {p c : LocalId} (hp : p ∈ order)
    (hc : c ∈ d.children p) : [p, c].Sublist order :=
  ((List.singleton_sublist.2 hc).cons_cons p).trans (h.cons_children_sublist hp)

end Visits

namespace Tree

variable {d : Document}

/-- Children stand after their parent, and within the document. -/
theorem lt_and_lt_size_of_mem_children (h : d.Tree) {n c : Nat} (hc : c ∈ d.children n) :
    n < c ∧ c < d.size := by
  have hparent : d.parent? c = some n := h.mem_children_iff.1 hc
  obtain ⟨node, hnode, -⟩ := Option.bind_eq_some_iff.1 hparent
  exact ⟨h.parent_lt hparent, Lays.lt_size_of_node? hnode⟩

/-- A traversal lists what is below the place on top and then goes on with the rest. The children of
a place stand behind it, so that fewer steps are enough for them. -/
theorem visits_subtreeWithin (h : d.Tree) {depth n : Nat} (hn : n < d.size)
    (hdepth : d.size ≤ n + depth) {stack order : List LocalId} (horder : d.Visits stack order) :
    d.Visits (n :: stack) (d.subtreeWithin depth n ++ order) := by
  induction depth generalizing n stack order with
  | zero => omega
  | succ depth ih =>
    refine .visit (Visits.flatMap (fun c hc stack order horder ↦ ?_) horder)
    obtain ⟨hlt, hsize⟩ := h.lt_and_lt_size_of_mem_children hc
    exact ih hsize (by omega) horder

/-- The traversal from the root ends, and lists the nodes in the order of the tree. -/
theorem visits_preorder (h : d.Tree) : d.Visits [0] d.preorder := by
  have hpos : 0 < d.size := by simp [size]
  have hvisits : d.Visits [0] (d.subtreeWithin d.size 0 ++ []) :=
    h.visits_subtreeWithin hpos (by omega) .done
  rwa [List.append_nil] at hvisits

/-- The climb from a place ends, and lists the nodes above it. -/
theorem climbs_ancestors (h : d.Tree) (n : LocalId) : d.Climbs n (d.ancestors n) := by
  induction n using Nat.strong_induction_on with
  | _ n ih =>
    cases hp : d.parent? n with
    | none =>
      have hnil : d.ancestors n = [] := by
        cases n with
        | zero => rfl
        | succ n => rw [ancestors, ancestorsWithin, hp]
      rw [hnil]
      exact .top hp
    | some p =>
      rw [h.ancestors_eq_cons hp]
      exact .up hp (ih p (h.parent_lt hp))

/-- Only the root has no parent. -/
theorem parent?_eq_none_iff (h : d.Tree) {n : LocalId} (hn : n < d.size) :
    d.parent? n = none ↔ n = 0 := by
  constructor
  · intro hnone
    by_contra hne
    obtain ⟨p, hp⟩ := h.exists_parent (Nat.pos_of_ne_zero hne) hn
    rw [hnone] at hp
    cases hp
  · rintro rfl
    rfl

/-- A node is listed once by its parent, and by no other node. -/
theorem count_children (h : d.Tree) (p c : LocalId) :
    (d.children p).count c = if d.parent? c = some p then 1 else 0 := by
  rw [(h.children_nodup p).count]
  simp only [h.mem_children_iff]

end Tree

/-- A climb that starts at a node of a tree ends at the root. -/
theorem Climbs.getLast?_eq {d : Document} (h : d.Tree) {n : LocalId} {above : List LocalId}
    (hclimbs : d.Climbs n above) (hn : n < d.size) : (n :: above).getLast? = some 0 := by
  induction hclimbs with
  | top hnone => rw [(h.parent?_eq_none_iff hn).1 hnone, List.getLast?_singleton]
  | up hp _ ih =>
    rw [List.getLast?_cons_cons]
    exact ih ((h.parent_lt hp).trans hn)

/-! ### The shape of a document -/

/-- A document is well shaped if its places form one tree below the root, with children of the right
kinds, and its walks come to an end. -/
structure WellShaped (d : Document) : Prop where
  /-- Place zero is the root. -/
  root : d.content? 0 = some (.root d.name)
  /-- No other node is without a parent. -/
  parent?_eq_none_iff : ∀ n < d.size, d.parent? n = none ↔ n = 0
  /-- A parent has a smaller place. -/
  parent_lt : ∀ n p, d.parent? n = some p → p < n
  /-- A node is once among the children of its parent, and not among those of any other. -/
  count_children : ∀ p c, (d.children p).count c = if d.parent? c = some p then 1 else 0
  /-- The children of a node are nodes, of the kinds that the kind of the node asks for. -/
  admits : ∀ n k, d.kind? n = some k →
    ∃ ks, (d.children n).map d.kind? = ks.map some ∧ k.Admits ks
  /-- The imports are import clauses. -/
  kind_imports : ∀ c ∈ d.imports, d.kind? c = some .importClause
  /-- The classifiers are entities, enumerations and instances. -/
  kind_classifiers : ∀ c ∈ d.classifiers, ∃ k, d.kind? c = some k ∧ k.isClassifier = true
  /-- The root is nowhere a child. -/
  zero_notMem_children : ∀ p, 0 ∉ d.children p
  /-- A reference has the range of its node. -/
  inPlace : ∀ n node, d.node? n = some node → node.InPlace
  /-- The traversal from the root ends with the order of the tree. -/
  visits : d.Visits [0] d.preorder
  /-- It lists every node once. -/
  preorder_perm : d.preorder.Perm (List.range d.size)
  /-- It lists parents before their children. -/
  parent_sublist : ∀ n p, d.parent? n = some p → [p, n].Sublist d.preorder
  /-- A climb ends. -/
  climbs : ∀ n, d.Climbs n (d.ancestors n)
  /-- It ends at the root. -/
  getLast?_ancestors : ∀ n < d.size, (n :: d.ancestors n).getLast? = some 0

theorem wellShaped_drafting (file : FileId) {name : String} (edits : List Edit)
    (h : Text.isQualifiedName name = true) : (drafting file name edits).WellShaped := by
  have hdrafted := drafted_drafting file edits h
  have htree : (drafting file name edits).Tree := hdrafted.tree
  have hperm := hdrafted.preorder_perm
  refine
    { root := rfl
      parent?_eq_none_iff := fun n hn ↦ htree.parent?_eq_none_iff hn
      parent_lt := fun n p hp ↦ htree.parent_lt hp
      count_children := htree.count_children
      admits := fun n k hk ↦ htree.admits hk
      kind_imports := htree.kind_imports
      kind_classifiers := htree.kind_classifiers
      zero_notMem_children := fun p h0 ↦
        Nat.not_lt_zero p (htree.lt_and_lt_size_of_mem_children h0).1
      inPlace := fun n node ↦ inPlace_of_node?_drafting
      visits := htree.visits_preorder
      preorder_perm := hperm
      parent_sublist := fun n p hp ↦ ?_
      climbs := htree.climbs_ancestors
      getLast?_ancestors := fun n hn ↦ (htree.climbs_ancestors n).getLast?_eq htree hn }
  have hmem : n ∈ (drafting file name edits).children p := htree.mem_children_iff.2 hp
  obtain ⟨hlt, hsize⟩ := htree.lt_and_lt_size_of_mem_children hmem
  have hlisted := hperm.mem_iff.2 (List.mem_range.2 (hlt.trans hsize))
  exact htree.visits_preorder.sublist_order hlisted hmem

/-- **Drafting makes one tree.** From any qualified name, and whatever is declared, refused and
moved to other ranges in whatever order, drafting comes to a document that is well shaped. -/
theorem ofEdits?_wellShaped (file : FileId) {name : String} (edits : List Edit)
    (h : Text.isQualifiedName name = true) :
    ∃ d outcomes, ofEdits? file name edits = .ok (d, outcomes) ∧ d.file = file ∧ d.name = name ∧
      d.WellShaped :=
  ⟨_, _, ofEdits?_eq_ok file edits h, file_drafting file name edits, name_drafting file name edits,
    wellShaped_drafting file edits h⟩

end Classes

/-- An enumeration, a refused entity, a moved literal, a move of no node, an import, and an entity
with an array as the default of its member. -/
def tangledEdits : List Edit :=
  [.declare (.enumeration ⟨"Color", ["Red"]⟩), .declare (.entity ⟨"", none, []⟩),
    .setRange 2 ⟨40, 43⟩, .setRange 99 ⟨0, 1⟩, .declare (.imports ⟨"o", [⟨"A", some "B"⟩]⟩),
    .declare (.entity ⟨"E", some "e", [⟨"x", .attribute, .enumeration "Color", ⟨none, none, true⟩,
      false, false, some (.array [.scalar (.literal "Red"), .scalar (.boolean true)])⟩]⟩)]

theorem ofEdits?_wellShaped_ofTangledEdits :
    Text.isQualifiedName "m" = true ∧
    ∃ d, ofEdits? ⟨0⟩ "m" tangledEdits =
        .ok (d, [.declared 1, .refused (.invalidIdentifier ""), .ranged, .ranged, .declared 3,
          .declared 5]) ∧
      d.WellShaped := by
  have hname : Text.isQualifiedName "m" = true := by decide
  obtain ⟨d, outcomes, hd, -, -, hshaped⟩ := ofEdits?_wellShaped ⟨0⟩ tangledEdits hname
  have houtcomes : outcomes = [.declared 1, .refused (.invalidIdentifier ""), .ranged, .ranged,
      .declared 3, .declared 5] := by
    rw [(eq_drafting_of_ofEdits? hd).2]
    decide
  exact ⟨hname, d, houtcomes ▸ hd, hshaped⟩

end Document

end Schemata
