import Mathlib.Algebra.BigOperators.Group.Finset.Basic
import Schemata.Proofs.Acceptance
import Schemata.Proofs.Refusals

/-!
# How nodes are spaced

Every node that is added starts one byte after the end of the one before it, so it starts at the sum
of what the nodes before it take (`Document.offset`). That is an invariant of drafting
(`Draft.Spaced`), which each node that is added keeps with the cursor, however it is nested. Moving
a node breaks it for this node alone: what a node takes does not depend on its range, and the cursor
stays where it is. A declaration that is refused leaves neither a node nor a gap, since it leaves
the cursor with the nodes.
-/

namespace Schemata

/-- Whether no byte is in both of two ranges. -/
def Range.Disjoint (r s : Range) : Prop :=
  ∀ i, ¬((r.start ≤ i ∧ i < r.stop) ∧ s.start ≤ i ∧ i < s.stop)

/-! ### What nodes take -/

/-- The length of the text of a node, at least one byte. -/
def Node.extent (node : Node) : Nat := (node.content.map (·.text)).extent

theorem Node.extent_relocated (range : Range) (node : Node) :
    (node.relocated range).extent = node.extent := by
  rw [extent, relocated, Content.relocated, Content.map_map]
  rfl

theorem Node.extent_eq_of_seed? {node : Node} {seed : Seed} (h : node.seed? = some seed) :
    node.extent = seed.content.extent := by
  obtain ⟨parent, -, rfl⟩ := Option.map_eq_some_iff.1 h
  rfl

namespace Document

/-- The extent of the node at a place. -/
def extent (d : Document) (n : LocalId) : Nat := ((d.node? n).map Node.extent).getD 0

/-- Where a node starts if it was not moved: after all nodes before it, with one byte after each. -/
def offset (d : Document) (n : LocalId) : Nat := ∑ m ∈ Finset.range n, (d.extent m + 1)

variable {d d' : Document} {n : LocalId} {node : Node}

theorem extent_eq (h : d.node? n = some node) : d.extent n = node.extent := by
  rw [extent, h]
  rfl

theorem offset_succ (d : Document) (n : Nat) :
    d.offset (n + 1) = d.offset n + (d.extent n + 1) :=
  Finset.sum_range_succ _ _

/-- A node leaves off before all nodes after it start. -/
theorem offset_add_extent_lt (d : Document) {m n : Nat} (h : m < n) :
    d.offset m + d.extent m < d.offset n := by
  induction n, h using Nat.le_induction with
  | base =>
    rw [offset_succ]
    omega
  | succ n _ ih =>
    rw [offset_succ]
    omega

theorem offset_congr (h : ∀ m < n, d.extent m = d'.extent m) : d.offset n = d'.offset n :=
  Finset.sum_congr rfl fun m hm ↦ by rw [h m (Finset.mem_range.1 hm)]

/-- A node that is moved takes what it took. -/
theorem extent_setRange (d : Document) (n : LocalId) (range : Range) (m : LocalId) :
    (d.setRange n range).extent m = d.extent m := by
  cases n with
  | zero => cases m <;> rfl
  | succ n =>
    cases m with
    | zero => rfl
    | succ m =>
      rw [extent, extent, node?_succ, node?_succ, setRange, List.getElem?_modify]
      cases d.body[m]? with
      | none => rfl
      | some node => by_cases h : n = m <;> simp [h, Node.extent_relocated]

theorem size_setRange (d : Document) (n : LocalId) (range : Range) :
    (d.setRange n range).size = d.size := by
  cases n with
  | zero => rfl
  | succ n => exact congrArg (· + 1) (List.length_modify _ _ _)

/-- Nothing is moved where there is no node. -/
theorem setRange_of_size_le (h : d.size ≤ n) (range : Range) : d.setRange n range = d := by
  cases n with
  | zero => exact absurd h (Nat.not_succ_le_zero _)
  | succ n =>
    have hbody : d.body.modify n (Node.relocated range) = d.body :=
      List.modify_eq_self (Nat.le_of_succ_le_succ h)
    rw [setRange, hbody]

theorem map_range_setRange_of_ne (d : Document) {n m : LocalId} (range : Range) (h : m ≠ n) :
    ((d.setRange n range).node? m).map (·.range) = (d.node? m).map (·.range) := by
  cases n with
  | zero =>
    cases m with
    | zero => exact absurd rfl h
    | succ m => rfl
  | succ n =>
    cases m with
    | zero => rfl
    | succ m =>
      have hne : n ≠ m := fun heq ↦ h (congrArg Nat.succ heq.symm)
      rw [node?_succ, node?_succ, setRange, List.getElem?_modify]
      simp [hne]

end Document

/-! ### Drafts with one more node -/

namespace Draft

variable {draft : Draft} {moved : List LocalId}

theorem node?_extend_of_lt (draft : Draft) (seeds : List Seed) {n : Nat}
    (h : n < draft.document.size) :
    (draft.extend seeds).document.node? n = draft.document.node? n := by
  cases n with
  | zero => rfl
  | succ n => exact List.getElem?_append_left (Nat.lt_of_succ_lt_succ h)

theorem node?_extend_size (draft : Draft) (seed : Seed) :
    (draft.extend [seed]).document.node? draft.document.size = some (seed.toNode draft.cursor) :=
  List.getElem?_concat_length

theorem append_eq_extend (draft : Draft) (x : Declaration) :
    draft.append x =
      { draft with document := draft.document.enlist x draft.document.size }.extend
        (x.outline.seeds 0 draft.document.size) :=
  rfl

/-- Whether the nodes of a draft, save for some that were moved, start where the nodes before them
leave off, and the cursor stands where the next node starts. -/
structure Spaced (draft : Draft) (moved : List LocalId) : Prop where
  cursor : draft.cursor = draft.document.offset draft.document.size
  range : ∀ {n : Nat} {node : Node}, draft.document.node? n = some node → n ∉ moved →
    node.range = ⟨draft.document.offset n, draft.document.offset n + node.extent⟩

namespace Spaced

/-- A node that is added is put at the cursor, which moves on to one byte after its end. -/
theorem add (h : draft.Spaced moved) (seed : Seed) : (draft.extend [seed]).Spaced moved := by
  have hsize : (draft.extend [seed]).document.size = draft.document.size + 1 :=
    draft.size_extend [seed]
  have hnew := draft.node?_extend_size seed
  have hextent : (seed.toNode draft.cursor).extent = seed.content.extent :=
    Node.extent_eq_of_seed? (seed.seed?_toNode draft.cursor)
  -- the nodes that were there take what they took
  have hoffset {n : Nat} (hn : n ≤ draft.document.size) :
      (draft.extend [seed]).document.offset n = draft.document.offset n := by
    refine Document.offset_congr fun m hm ↦ ?_
    rw [Document.extent, draft.node?_extend_of_lt [seed] (hm.trans_le hn), ← Document.extent]
  refine ⟨?_, fun {n node} hnode hn ↦ ?_⟩
  · rw [hsize, Document.offset_succ, hoffset le_rfl, Document.extent_eq hnew, hextent, ← h.cursor]
    rfl
  · have hlt : n < draft.document.size + 1 := hsize ▸ Document.Lays.lt_size_of_node? hnode
    rw [hoffset (Nat.le_of_lt_succ hlt)]
    rcases Nat.lt_succ_iff_lt_or_eq.1 hlt with hold | rfl
    · rw [draft.node?_extend_of_lt [seed] hold] at hnode
      exact h.range hnode hn
    · rw [hnew, Option.some.injEq] at hnode
      rw [← hnode, hextent, ← h.cursor]
      rfl

/-- Any number of nodes are added one after the other. -/
theorem extend (h : draft.Spaced moved) (seeds : List Seed) :
    (draft.extend seeds).Spaced moved := by
  induction seeds generalizing draft with
  | nil => rwa [draft.extend_nil]
  | cons seed seeds ih =>
    rw [← List.singleton_append, draft.extend_append]
    exact ih (h.add seed)

/-- The lists of the root take no room. -/
theorem enlist (h : draft.Spaced moved) (x : Declaration) (n : LocalId) :
    Spaced { draft with document := draft.document.enlist x n } moved := by
  have hextent (m : Nat) : (draft.document.enlist x n).extent m = draft.document.extent m := by
    cases x <;> cases m <;> rfl
  have hoffset (m : Nat) : (draft.document.enlist x n).offset m = draft.document.offset m :=
    Document.offset_congr fun k _ ↦ hextent k
  refine ⟨?_, fun {m node} hnode hm ↦ ?_⟩
  · rw [hoffset]
    cases x <;> exact h.cursor
  · rw [hoffset]
    cases m with
    | zero =>
      have hroot := h.range rfl hm
      obtain rfl : _ = node := Option.some.inj hnode
      cases x <;> exact hroot
    | succ m =>
      have hbody : draft.document.node? (m + 1) = some node := by
        rw [← hnode]
        cases x <;> rfl
      exact h.range hbody hm

theorem append (h : draft.Spaced moved) (x : Declaration) : (draft.append x).Spaced moved := by
  rw [append_eq_extend]
  exact (h.enlist x _).extend _

/-- A declaration that is refused leaves no gap. -/
theorem declare [Text.IdentifierClasses] (h : draft.Spaced moved) (x : Declaration) :
    (draft.declare x).1.Spaced moved := by
  cases hx : x.firstViolation? with
  | some e => rwa [declare_of_violation hx]
  | none =>
    rw [declare_of_no_violation hx]
    exact h.append x

/-- A node that is moved leaves all others where they are, and those to come where they would be. -/
theorem setRange (h : draft.Spaced moved) (n : LocalId) (range : Range) :
    (draft.setRange n range).Spaced (n :: moved) := by
  have hoffset (m : Nat) : (draft.setRange n range).document.offset m = draft.document.offset m :=
    Document.offset_congr fun k _ ↦ draft.document.extent_setRange n range k
  refine ⟨?_, fun {m node} hnode hm ↦ ?_⟩
  · rw [hoffset]
    exact h.cursor.trans (congrArg _ (draft.document.size_setRange n range).symm)
  · have hne : m ≠ n := List.ne_of_not_mem_cons hm
    have hrange := draft.document.map_range_setRange_of_ne range hne
    have hextent := draft.document.extent_setRange n range m
    have hmoved : (draft.document.setRange n range).node? m = some node := hnode
    -- the node that was at the place has the same range and the same extent
    rw [hmoved, eq_comm, Option.map_some, Option.map_eq_some_iff] at hrange
    obtain ⟨node', hnode', heq⟩ := hrange
    rw [Document.extent_eq hmoved, Document.extent_eq hnode'] at hextent
    rw [hoffset, ← heq, h.range hnode' (List.not_mem_of_not_mem_cons hm), hextent]

end Spaced

end Draft

/-! ### Runs -/

section Runs

variable {classes : Text.IdentifierClasses}

/-- The place of the node that a step moves in a document of some size. Where there is no node, none
is moved. -/
def Edit.movedIn (size : Nat) : Edit → List LocalId
  | .declare _ => []
  | .setRange n _ => if n < size then [n] else []

namespace Draft

variable {draft : Draft} {moved : List LocalId}

/-- The places of the nodes that some steps move, those that are moved last first. -/
def movedBy [Text.IdentifierClasses] (draft : Draft) : List Edit → List LocalId
  | [] => []
  | e :: edits => (draft.step e).1.movedBy edits ++ e.movedIn draft.document.size

theorem movedBy_eq_nil [Text.IdentifierClasses] (draft : Draft) {edits : List Edit}
    (h : ∀ n range, Edit.setRange n range ∉ edits) : draft.movedBy edits = [] := by
  induction edits generalizing draft with
  | nil => rfl
  | cons e edits ih =>
    have hrest := ih (draft.step e).1 fun n range hmem ↦ h n range (List.mem_cons_of_mem _ hmem)
    cases e with
    | declare x => rw [movedBy, hrest]; rfl
    | setRange n range => exact absurd List.mem_cons_self (h n range)

/-- Takes some steps, each declaration node by node. -/
def attempts [Text.IdentifierClasses] (draft : Draft) : List Edit → Draft × List Outcome
  | [] => (draft, [])
  | .declare x :: edits =>
    let (draft, outcome) := draft.attempt x
    let (draft, outcomes) := draft.attempts edits
    (draft, outcome :: outcomes)
  | .setRange n range :: edits =>
    let (draft, outcomes) := (draft.setRange n range).attempts edits
    (draft, .ranged :: outcomes)

theorem attempts_eq_steps [Text.IdentifierClasses] (draft : Draft) (edits : List Edit) :
    draft.attempts edits = draft.steps edits := by
  induction edits generalizing draft with
  | nil => rfl
  | cons e edits ih =>
    rw [steps_cons]
    cases e with
    | declare x =>
      rw [attempts, attempt_eq_declare]
      show (((draft.declare x).1.attempts edits).1, _ :: ((draft.declare x).1.attempts edits).2) = _
      rw [ih]
      rfl
    | setRange n range =>
      rw [attempts, ih]
      rfl

namespace Spaced

theorem step (h : draft.Spaced moved) (e : Edit) :
    (draft.step e).1.Spaced (e.movedIn draft.document.size ++ moved) := by
  cases e with
  | declare x => exact h.declare x
  | setRange n range =>
    rw [Edit.movedIn, Draft.step]
    split
    · exact h.setRange n range
    · next hsize =>
      have hsame := Document.setRange_of_size_le (Nat.le_of_not_lt hsize) range
      rwa [Draft.setRange, hsame]

theorem steps [Text.IdentifierClasses] (h : draft.Spaced moved) (edits : List Edit) :
    (draft.steps edits).1.Spaced (draft.movedBy edits ++ moved) := by
  induction edits generalizing draft moved with
  | nil => exact h
  | cons e edits ih =>
    rw [steps_cons, movedBy, List.append_assoc]
    exact ih (h.step e)

/-- A blank document has its root at the start. -/
theorem blank (file : FileId) (name : String) :
    (Draft.mk (.blank file name) ((Content.root name).extent + 1)).Spaced [] := by
  have hroot : (Document.blank file name).extent 0 = (Content.root name).extent := rfl
  refine ⟨?_, fun {n node} hnode _ ↦ ?_⟩
  · show _ = (Document.blank file name).offset (0 + 1)
    rw [Document.offset_succ, hroot, Document.offset, Finset.range_zero, Finset.sum_empty,
      Nat.zero_add]
  · cases n with
    | zero =>
      obtain rfl : _ = node := Option.some.inj hnode
      show Range.mk 0 _ = Range.mk (Document.offset _ 0) _
      rw [Document.offset, Finset.range_zero, Finset.sum_empty, Nat.zero_add]
      rfl
    | succ n => cases hnode

/-- Of two nodes that were not moved the one at the smaller place leaves off first. -/
theorem stop_lt_start (h : draft.Spaced moved) {m n : Nat} {a b : Node}
    (ha : draft.document.node? m = some a) (hb : draft.document.node? n = some b) (hm : m ∉ moved)
    (hn : n ∉ moved) (hlt : m < n) : a.range.stop < b.range.start := by
  rw [h.range ha hm, h.range hb hn, ← Document.extent_eq ha]
  exact draft.document.offset_add_extent_lt hlt

/-- And if the places follow each other, there is one byte between them. -/
theorem start_eq (h : draft.Spaced moved) {m : Nat} {a b : Node}
    (ha : draft.document.node? m = some a) (hb : draft.document.node? (m + 1) = some b)
    (hm : m ∉ moved) (hn : m + 1 ∉ moved) : b.range.start = a.range.stop + 1 := by
  rw [h.range ha hm, h.range hb hn, ← Document.extent_eq ha]
  exact draft.document.offset_succ m

theorem disjoint (h : draft.Spaced moved) {m n : Nat} {a b : Node}
    (ha : draft.document.node? m = some a) (hb : draft.document.node? n = some b) (hm : m ∉ moved)
    (hn : n ∉ moved) (hne : m ≠ n) : a.range.Disjoint b.range := by
  rintro i ⟨⟨hastart, hastop⟩, hbstart, hbstop⟩
  rcases Nat.lt_or_gt_of_ne hne with hlt | hlt
  · have hbefore := h.stop_lt_start ha hb hm hn hlt
    omega
  · have hbefore := h.stop_lt_start hb ha hn hm hlt
    omega

end Spaced

end Draft

/-! ### With moves and without -/

namespace Document

/-- Documents that are laid out from the same declarations have nodes of the same extents. -/
theorem Lays.extent_eq {d d' : Document} {xs : List Declaration} (h : d.Lays xs) (h' : d'.Lays xs)
    (hname : d.name = d'.name) (n : LocalId) : d.extent n = d'.extent n := by
  cases n with
  | zero =>
    show (Content.root d.name).extent = (Content.root d'.name).extent
    rw [hname]
  | succ n =>
    rw [extent, extent, node?_succ, node?_succ]
    obtain ⟨hnode, hseed⟩ | ⟨node, seed, hnode, hseed, heq⟩ := h.getElem?_body n <;>
      obtain ⟨hnode', hseed'⟩ | ⟨node', seed', hnode', hseed', heq'⟩ := h'.getElem?_body n
    · rw [hnode, hnode']
    · rw [hseed] at hseed'; cases hseed'
    · rw [hseed] at hseed'; cases hseed'
    · rw [hseed, Option.some.injEq] at hseed'
      rw [hnode, hnode', Option.map_some, Option.map_some, Node.extent_eq_of_seed? heq,
        Node.extent_eq_of_seed? heq', hseed']

end Document

namespace Draft

/-- Moves make no difference to the nodes that are not moved. -/
theorem Spaced.map_range_eq {draft plain : Draft} {moved : List LocalId} {n : LocalId}
    (h : draft.Spaced moved) (hplain : plain.Spaced [])
    (hsize : plain.document.size = draft.document.size)
    (hextent : ∀ n, plain.document.extent n = draft.document.extent n) (hn : n ∉ moved) :
    (draft.document.node? n).map (·.range) = (plain.document.node? n).map (·.range) := by
  by_cases hlt : n < draft.document.size
  · obtain ⟨a, ha⟩ := Option.isSome_iff_exists.1 ((Document.isSome_node?_iff _ n).2 hlt)
    obtain ⟨b, hb⟩ := Option.isSome_iff_exists.1 ((Document.isSome_node?_iff _ n).2 (hsize ▸ hlt))
    have heq : b.extent = a.extent := by
      rw [← Document.extent_eq ha, ← Document.extent_eq hb, hextent]
    rw [ha, hb, Option.map_some, Option.map_some, h.range ha hn, hplain.range hb List.not_mem_nil,
      heq, Document.offset_congr fun m _ ↦ hextent m]
  · have hnone {d : Document} (hd : d.size = draft.document.size) : d.node? n = none := by
      rwa [← Option.not_isSome_iff_eq_none, Document.isSome_node?_iff, hd]
    rw [hnone rfl, hnone hsize]

theorem eq_of_start? {file : FileId} {name : String} {start : Draft}
    (h : start? file name = .ok start) :
    start = ⟨.blank file name, (Content.root name).extent + 1⟩ := by
  rw [start?] at h
  split at h
  · exact (Except.ok.inj h).symm
  · cases h

/-- **Nodes are spaced by what they take.** However declarations that are accepted, declarations
that are refused when some of their nodes are there, and moves follow each other, a node that was
not moved starts at the sum of the extents of the nodes before it, with one byte for each, and is as
long as its own extent. So such nodes are apart and in the order of their places, with one byte
between neighbours, and their ranges are those that they have when no node is moved. The cursor
stands where the next node is to start. -/
theorem ranges_spaced {file : FileId} {name : String} {start draft : Draft} {edits : List Edit}
    {outcomes : List Outcome} (hstart : start? file name = .ok start)
    (hsteps : start.steps edits = (draft, outcomes)) :
    start.attempts edits = (draft, outcomes) ∧
      draft.cursor = draft.document.offset draft.document.size ∧
      (∀ (n : Nat) (node : Node), draft.document.node? n = some node → n ∉ start.movedBy edits →
        node.range = ⟨draft.document.offset n, draft.document.offset n + node.extent⟩) ∧
      (∀ (m n : Nat) (a b : Node), draft.document.node? m = some a →
        draft.document.node? n = some b → m ∉ start.movedBy edits → n ∉ start.movedBy edits →
          (m ≠ n → a.range.Disjoint b.range) ∧ (m < n → a.range.stop < b.range.start) ∧
          (n = m + 1 → b.range.start = a.range.stop + 1)) ∧
      ((∀ n range, Edit.setRange n range ∉ edits) → start.movedBy edits = []) ∧
      ∃ plain outcomes', start.steps ((Edit.declarations edits).map .declare) = (plain, outcomes') ∧
        plain.document.size = draft.document.size ∧
        ∀ n ∉ start.movedBy edits,
          (draft.document.node? n).map (·.range) = (plain.document.node? n).map (·.range) := by
  obtain rfl := eq_of_start? hstart
  obtain rfl : draft = (drafting file name edits).1 := by rw [drafting, hsteps]
  have hspaced (es : List Edit) := (Spaced.blank file name).steps es
  have hrun := hspaced edits
  rw [List.append_nil] at hrun
  refine ⟨(attempts_eq_steps _ edits).trans hsteps, hrun.cursor, fun n node ↦ hrun.range,
    fun m n a b ha hb hm hn ↦ ⟨hrun.disjoint ha hb hm hn, hrun.stop_lt_start ha hb hm hn, ?_⟩,
    movedBy_eq_nil _, _, _, rfl, ?_⟩
  · rintro rfl
    exact hrun.start_eq ha hb hm hn
  · -- both documents are laid out from the declarations with which nothing is wrong
    have hlays := Document.lays_drafting_declarations file name edits
    have hplain := Document.lays_drafting_declarations file name
      ((Edit.declarations edits).map .declare)
    rw [Edit.declarations_map_declare] at hplain
    have hname := (Document.name_drafting file name ((Edit.declarations edits).map .declare)).trans
      (Document.name_drafting file name edits).symm
    have hunmoved := hspaced ((Edit.declarations edits).map .declare)
    rw [movedBy_eq_nil _ (by simp)] at hunmoved
    have hsize := hplain.size_eq.trans hlays.size_eq.symm
    exact ⟨hsize, fun n hn ↦ hrun.map_range_eq hunmoved hsize (hplain.extent_eq hlays hname) hn⟩

end Draft

end Runs

namespace Draft

/-- A move to which no node answers yet, an entity that is refused when its first node is there, and
an enumeration that is moved before another entity is declared. -/
def partlyMoved : List Edit :=
  [.setRange 3 ⟨90, 95⟩,
    .declare (.entity ⟨"Wheel", none, [⟨"bad name", .attribute, .integer, ⟨none, none, false⟩,
      false, false, none⟩]⟩),
    .declare (.enumeration ⟨"Color", ["Red"]⟩), .setRange 1 ⟨50, 60⟩,
    .declare (.entity ⟨"E", none, []⟩)]

/-- Only the enumeration is moved, and what comes after it stands where it would stand. -/
theorem ranges_spaced_ofPartlyMoved :
    ∃ start draft outcomes, start? ⟨0⟩ "m" = .ok start ∧
      start.steps partlyMoved = (draft, outcomes) ∧ start.attempts partlyMoved = (draft, outcomes) ∧
      start.movedBy partlyMoved = [1] ∧ draft.cursor = 14 ∧
      ∃ literal entity, draft.document.node? 2 = some literal ∧ literal.range = ⟨8, 11⟩ ∧
        draft.document.node? 3 = some entity ∧ entity.range = ⟨12, 13⟩ ∧
        literal.range.Disjoint entity.range := by
  have hstart : start? ⟨0⟩ "m" = .ok ⟨.blank ⟨0⟩ "m", (Content.root "m").extent + 1⟩ :=
    if_pos (by decide)
  have hmoved : movedBy ⟨.blank ⟨0⟩ "m", (Content.root "m").extent + 1⟩ partlyMoved = [1] := by
    decide +kernel
  have hcursor : (drafting ⟨0⟩ "m" partlyMoved).1.cursor = 14 := by decide +kernel
  have hoffsets : (drafting ⟨0⟩ "m" partlyMoved).1.document.offset 2 = 8 ∧
      (drafting ⟨0⟩ "m" partlyMoved).1.document.offset 3 = 12 := by decide +kernel
  have hextents : (drafting ⟨0⟩ "m" partlyMoved).1.document.extent 2 = 3 ∧
      (drafting ⟨0⟩ "m" partlyMoved).1.document.extent 3 = 1 := by decide +kernel
  obtain ⟨literal, hliteral⟩ : ∃ node, (drafting ⟨0⟩ "m" partlyMoved).1.document.node? 2 =
      some node := Option.isSome_iff_exists.1 (by decide +kernel)
  obtain ⟨entity, hentity⟩ : ∃ node, (drafting ⟨0⟩ "m" partlyMoved).1.document.node? 3 =
      some node := Option.isSome_iff_exists.1 (by decide +kernel)
  have hsteps : steps ⟨.blank ⟨0⟩ "m", (Content.root "m").extent + 1⟩ partlyMoved =
      ((drafting ⟨0⟩ "m" partlyMoved).1, (drafting ⟨0⟩ "m" partlyMoved).2) := Prod.mk.eta.symm
  obtain ⟨hattempts, -, hranges, hapart, -, -⟩ := ranges_spaced hstart hsteps
  rw [hmoved] at hranges hapart
  have hdisjoint := (hapart 2 3 literal entity hliteral hentity (by decide) (by decide)).1
  refine ⟨_, _, _, hstart, hsteps, hattempts, hmoved, hcursor, literal, entity, hliteral, ?_,
    hentity, ?_, hdisjoint (by decide)⟩
  · rw [hranges 2 literal hliteral (by decide), ← Document.extent_eq hliteral, hoffsets.1,
      hextents.1]
  · rw [hranges 3 entity hentity (by decide), ← Document.extent_eq hentity, hoffsets.2, hextents.2]

end Draft

end Schemata
