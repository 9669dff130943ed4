import Mathlib.Data.List.Perm.Basic
import Schemata.Proofs.Layout

/-!
# The tree of a drafted document

A document that comes from drafting is a tree (`Document.Tree`): every node but the root has a
parent, which stands at a smaller place and has the node once among its children, and every node has
children of the kinds that its content asks for. From this the walks through the tree are what they
should be. The order of the tree lists every node once (`Document.Tree.preorder_perm`), and a value
belongs to the member or the assignment above it, past at most one array
(`Document.Tree.exists_owner`).

The laws are read off the declarations: `Document.Lays` says that a document is laid out from some,
and is kept by every step of drafting.
-/

namespace Schemata

variable {classes : Text.IdentifierClasses}

open Outline

/-! ### Nodes without their ranges -/

/-- What a node is apart from its range. The root, which has no parent, is not a seed. -/
def Node.seed? (node : Node) : Option Seed :=
  node.parent.map fun parent ↦ ⟨node.content.map (·.text), parent, node.children⟩

/-- To move a node changes nothing that its seed tells. -/
@[simp]
theorem Node.seed?_relocated (range : Range) (node : Node) :
    (node.relocated range).seed? = node.seed? := by
  simp only [Node.seed?, Node.relocated, Content.relocated, Content.map_map]
  rfl

theorem Seed.seed?_toNode (seed : Seed) (cursor : Nat) :
    (seed.toNode cursor).seed? = some seed := by
  have hcontent : (seed.content.located ⟨cursor, cursor + seed.content.extent⟩).map (·.text) =
      seed.content := by
    rw [Content.located, Content.map_map]
    exact Content.map_id _
  simp only [Node.seed?, Seed.toNode, Option.map_some, hcontent]

/-- Seeds are told again from the nodes that they were placed as. -/
theorem Seed.map_seed?_place (cursor : Nat) (seeds : List Seed) :
    (Seed.place cursor seeds).map Node.seed? = seeds.map some := by
  induction seeds generalizing cursor with
  | nil => rfl
  | cons seed seeds ih => rw [Seed.place, List.map_cons, Seed.seed?_toNode, ih, List.map_cons]

/-! ### The declarations behind a document -/

namespace Declaration

def isImport : Declaration → Bool
  | .imports _ => true
  | _ => false

/-- Declarations, each with the place at which its tree begins. -/
def laid (n : LocalId) (xs : List Declaration) : List (Declaration × LocalId) :=
  xs.zip (places n (xs.map outline))

/-- The places of the declarations that satisfy a condition. -/
def placesOf (p : Declaration → Bool) (n : LocalId) (xs : List Declaration) : List LocalId :=
  ((laid n xs).filter fun e ↦ p e.1).map (·.2)

/-- A further declaration comes after all places of the earlier ones. -/
theorem placesOf_append_singleton (p : Declaration → Bool) (n : LocalId) (xs : List Declaration)
    (x : Declaration) :
    placesOf p n (xs ++ [x]) =
      placesOf p n xs ++ if p x then [n + sizes (xs.map outline)] else [] := by
  have hlaid : laid n (xs ++ [x]) = laid n xs ++ [(x, n + sizes (xs.map outline))] := by
    rw [laid, List.map_append, places_append, List.zip_append (by simp)]
    rfl
  rw [placesOf, hlaid, List.filter_append, List.map_append, ← placesOf]
  cases hp : p x <;> simp [hp]

/-- The places of the declarations that satisfy a condition and of those that do not are the places
of all. -/
theorem placesOf_append_perm (p : Declaration → Bool) (n : LocalId) (xs : List Declaration) :
    (placesOf p n xs ++ placesOf (fun x ↦ !p x) n xs).Perm (places n (xs.map outline)) := by
  have hsnd : (laid n xs).map (·.2) = places n (xs.map outline) :=
    List.map_snd_zip (by simp)
  rw [placesOf, placesOf, ← List.map_append, ← hsnd]
  exact (List.filter_append_perm (fun e : Declaration × LocalId ↦ p e.1) (laid n xs)).map _

theorem exists_of_mem_placesOf {p : Declaration → Bool} {n c : LocalId} {xs : List Declaration}
    (h : c ∈ placesOf p n xs) :
    ∃ x ∈ xs, p x = true ∧ (x.outline, c) ∈ (xs.map outline).zip (places n (xs.map outline)) := by
  obtain ⟨⟨x, c'⟩, hx, rfl⟩ := List.mem_map.1 h
  obtain ⟨hx, hp⟩ := List.mem_filter.1 hx
  refine ⟨x, (List.of_mem_zip hx).1, hp, ?_⟩
  rw [List.zip_map_left]
  exact List.mem_map.2 ⟨(x, c'), hx, rfl⟩

end Declaration

/-- The declaration of a step, if what the step came to is that it was accepted. -/
def Edit.accepted? : Edit → Outcome → Option Declaration
  | .declare x, .declared _ => some x
  | _, _ => none

/-- The declarations among some steps that were accepted, in order. -/
def Edit.accepted (edits : List Edit) (outcomes : List Outcome) : List Declaration :=
  (edits.zip outcomes).filterMap fun e ↦ e.1.accepted? e.2

theorem Edit.accepted_cons (e : Edit) (edits : List Edit) (outcome : Outcome)
    (outcomes : List Outcome) :
    accepted (e :: edits) (outcome :: outcomes) =
      (e.accepted? outcome).toList ++ accepted edits outcomes := by
  rw [accepted, List.zip_cons_cons, List.filterMap_cons]
  cases e.accepted? outcome <;> rfl

open Declaration

/-- Whether a document is laid out from some accepted declarations: apart from ranges its nodes are
the seeds of their trees, and its lists hold the places at which they begin. -/
structure Document.Lays [Text.IdentifierClasses] (d : Document) (xs : List Declaration) : Prop where
  accepted : ∀ x ∈ xs, x.violations = []
  body : d.body.map Node.seed? = (seedsOf 0 1 (xs.map outline)).map some
  imports : d.imports = placesOf isImport 1 xs
  classifiers : d.classifiers = placesOf (fun x ↦ !x.isImport) 1 xs

namespace Document.Lays

variable {d : Document} {xs : List Declaration}

/-- As many nodes are in the body as the declarations have. -/
theorem length_body (h : d.Lays xs) : d.body.length = sizes (xs.map outline) := by
  have hlength := congrArg List.length h.body
  rwa [List.length_map, List.length_map, length_seedsOf] at hlength

theorem size_eq (h : d.Lays xs) : d.size = 1 + sizes (xs.map outline) := by
  rw [Document.size, h.length_body, Nat.add_comm]

theorem blank (file : FileId) (name : String) : (Document.blank file name).Lays [] :=
  ⟨fun _ h ↦ absurd h List.not_mem_nil, rfl, rfl, rfl⟩

/-- Moving a node to a range keeps what the document is laid out from. -/
theorem setRange (h : d.Lays xs) (n : LocalId) (range : Range) : (d.setRange n range).Lays xs := by
  cases n with
  | zero => exact ⟨h.accepted, h.body, h.imports, h.classifiers⟩
  | succ n =>
    refine ⟨h.accepted, ?_, h.imports, h.classifiers⟩
    rw [← h.body]
    -- a seed does not show where its node is, so a moved node has the seed that it had
    refine List.ext_getElem? fun i ↦ ?_
    simp only [Document.setRange, List.getElem?_map, List.getElem?_modify]
    cases d.body[i]? with
    | none => rfl
    | some node => by_cases hi : n = i <;> simp [hi]

/-- An accepted declaration is laid out after all others. -/
theorem append {draft : Draft} {x : Declaration} (h : draft.document.Lays xs)
    (hx : x.violations = []) : (draft.append x).document.Lays (xs ++ [x]) := by
  have hsize : draft.document.size = 1 + sizes (xs.map outline) := h.size_eq
  have hbody : (draft.append x).document.body =
      draft.document.body ++ Seed.place draft.cursor (x.outline.seeds 0 draft.document.size) := by
    cases x <;> rfl
  refine ⟨?_, ?_, ?_, ?_⟩
  · intro y hy
    rcases List.mem_append.1 hy with hy | hy
    · exact h.accepted y hy
    · rw [List.mem_singleton.1 hy]
      exact hx
  · -- the new tree begins where the others end, which is at the size of the document
    rw [hbody, List.map_append, h.body, Seed.map_seed?_place, List.map_append, seedsOf_append,
      List.map_append, hsize]
    simp [seedsOf]
  · rw [placesOf_append_singleton, ← h.imports, ← hsize]
    cases x <;> simp [Draft.append, Document.enlist, isImport]
  · rw [placesOf_append_singleton, ← h.classifiers, ← hsize]
    cases x <;> simp [Draft.append, Document.enlist, isImport]

/-- A step of drafting lays out the declaration that it accepts, if it accepts one. -/
theorem step {draft : Draft} (h : draft.document.Lays xs) (e : Edit) :
    (draft.step e).1.document.Lays (xs ++ (e.accepted? (draft.step e).2).toList) := by
  cases e with
  | setRange n range => simpa [Draft.step, Draft.setRange, Edit.accepted?] using h.setRange n range
  | declare x =>
    rw [Draft.step]
    cases hx : x.firstViolation? with
    | some error => simpa [Draft.declare_of_violation hx, Edit.accepted?] using h
    | none =>
      rw [Draft.declare_of_no_violation hx]
      exact h.append (firstViolation?_eq_none_iff.1 hx)

/-- Any number of steps lays out what they accept, in order. -/
theorem steps {draft : Draft} (h : draft.document.Lays xs) (es : List Edit) :
    (draft.steps es).1.document.Lays (xs ++ Edit.accepted es (draft.steps es).2) := by
  induction es generalizing draft xs with
  | nil => simpa [Draft.steps, Edit.accepted] using h
  | cons e es ih =>
    have hrest := ih (h.step e)
    rwa [List.append_assoc, ← Edit.accepted_cons] at hrest

end Document.Lays

section Drafting

variable [Text.IdentifierClasses]

/-- Whether a document comes from drafting. -/
def Document.Drafted (d : Document) : Prop :=
  ∃ file name edits outcomes, Document.ofEdits? file name edits = .ok (d, outcomes)

/-- The draft that some steps make of a blank document. -/
def Draft.drafting (file : FileId) (name : String) (edits : List Edit) : Draft × List Outcome :=
  (Draft.mk (.blank file name) ((Content.root name).extent + 1)).steps edits

/-- The document of a name that some steps draft. -/
def Document.drafting (file : FileId) (name : String) (edits : List Edit) : Document :=
  (Draft.drafting file name edits).1.document

/-- Steps keep the file and the name of a document. -/
theorem Draft.file_and_name_steps (draft : Draft) (edits : List Edit) :
    (draft.steps edits).1.document.file = draft.document.file ∧
      (draft.steps edits).1.document.name = draft.document.name := by
  induction edits generalizing draft with
  | nil => exact ⟨rfl, rfl⟩
  | cons e edits ih =>
    have hstep : (draft.step e).1.document.file = draft.document.file ∧
        (draft.step e).1.document.name = draft.document.name := by
      cases e with
      | setRange n range => cases n <;> exact ⟨rfl, rfl⟩
      | declare x =>
        rw [Draft.step, Draft.declare]
        split
        · exact ⟨rfl, rfl⟩
        · cases x <;> exact ⟨rfl, rfl⟩
    obtain ⟨hfile, hname⟩ := ih (draft.step e).1
    exact ⟨hfile.trans hstep.1, hname.trans hstep.2⟩

theorem Document.file_drafting (file : FileId) (name : String) (edits : List Edit) :
    (Document.drafting file name edits).file = file :=
  (Draft.file_and_name_steps _ edits).1

theorem Document.name_drafting (file : FileId) (name : String) (edits : List Edit) :
    (Document.drafting file name edits).name = name :=
  (Draft.file_and_name_steps _ edits).2

/-- A qualified name is all that drafting needs. -/
theorem Document.ofEdits?_eq_ok (file : FileId) {name : String} (edits : List Edit)
    (h : Text.isQualifiedName name = true) :
    Document.ofEdits? file name edits =
      .ok (Document.drafting file name edits, (Draft.drafting file name edits).2) := by
  rw [Document.ofEdits?, Draft.start?, if_pos h]
  rfl

theorem Document.eq_drafting_of_ofEdits? {file : FileId} {name : String} {edits : List Edit}
    {d : Document} {outcomes : List Outcome}
    (h : Document.ofEdits? file name edits = .ok (d, outcomes)) :
    d = Document.drafting file name edits ∧ outcomes = (Draft.drafting file name edits).2 := by
  by_cases hname : Text.isQualifiedName name = true
  · rw [Document.ofEdits?_eq_ok file edits hname] at h
    have hpair := Except.ok.inj h
    exact ⟨(congrArg Prod.fst hpair).symm, (congrArg Prod.snd hpair).symm⟩
  · rw [Document.ofEdits?, Draft.start?, if_neg hname] at h
    cases h

/-- What is drafted under a name that a document can have is a drafted document. -/
theorem Document.drafted_drafting (file : FileId) {name : String} (edits : List Edit)
    (h : Text.isQualifiedName name = true) : (Document.drafting file name edits).Drafted :=
  ⟨file, name, edits, _, Document.ofEdits?_eq_ok file edits h⟩

/-- A document is laid out from the declarations that its draft accepted. -/
theorem Document.lays_drafting (file : FileId) (name : String) (edits : List Edit) :
    (Document.drafting file name edits).Lays
      (Edit.accepted edits (Draft.drafting file name edits).2) := by
  have hblank : (Draft.mk (.blank file name) ((Content.root name).extent + 1)).document.Lays [] :=
    Lays.blank file name
  exact hblank.steps edits

/-- A drafted document is laid out from some declarations. -/
theorem Document.Drafted.exists_lays {d : Document} (h : d.Drafted) : ∃ xs, d.Lays xs := by
  obtain ⟨file, name, edits, outcomes, h⟩ := h
  rw [(Document.eq_drafting_of_ofEdits? h).1]
  exact ⟨_, Document.lays_drafting file name edits⟩

/-- The name of a drafted document is a qualified name. -/
theorem Document.Drafted.isQualifiedName {d : Document} (h : d.Drafted) :
    Text.isQualifiedName d.name = true := by
  obtain ⟨file, name, edits, outcomes, hedits⟩ := h
  by_cases hname : Text.isQualifiedName name = true
  · rw [(Document.eq_drafting_of_ofEdits? hedits).1, Document.name_drafting]
    exact hname
  · rw [Document.ofEdits?, Draft.start?, if_neg hname] at hedits
    cases hedits

end Drafting

/-! ### Trees in a document -/

namespace Document

variable (d : Document)

/-- The node at a place apart from its range. -/
def seed? (n : LocalId) : Option Seed := (d.node? n).bind Node.seed?

/-- The kind of the node at a place. -/
def kind? (n : LocalId) : Option Kind := (d.content? n).map Content.kind

mutual

/-- Whether a tree stands at a place, below a parent. -/
def Holds (parent n : LocalId) : Outline → Prop
  | .node content children =>
    d.seed? n = some ⟨content, parent, places (n + 1) children⟩ ∧ HoldsAll n (n + 1) children

/-- Whether some trees stand one after the other from a place, below a parent. -/
def HoldsAll (parent n : LocalId) : List Outline → Prop
  | [] => True
  | t :: ts => Holds parent n t ∧ HoldsAll parent (n + t.size) ts

end

/-- Whether a tree in which every node has the children it should have stands at a place, as a child
of a parent. -/
def Placed (parent n : LocalId) : Prop :=
  n ∈ d.children parent ∧ ∃ t : Outline, d.Holds parent n t ∧ t.Fits

variable {d} {parent n : Nat}

mutual

/-- A tree is held wherever the seeds in a row are those of the tree. -/
theorem holds_of_seeds {parent n : Nat} : (t : Outline) →
    (∀ i < t.size, d.seed? (n + i) = (t.seeds parent n)[i]?) → d.Holds parent n t
  | .node content children, h => by
    refine ⟨h 0 (size_pos _), holdsAll_of_seeds children fun i hi ↦ ?_⟩
    -- the seeds of the children follow that of the root
    have hseed := h (i + 1) (by rw [Outline.size]; omega)
    rwa [Nat.add_comm i 1, ← Nat.add_assoc, Nat.add_comm 1 i, seeds,
      List.getElem?_cons_succ] at hseed

theorem holdsAll_of_seeds {parent n : Nat} : (ts : List Outline) →
    (∀ i < sizes ts, d.seed? (n + i) = (seedsOf parent n ts)[i]?) → d.HoldsAll parent n ts
  | [], _ => trivial
  | t :: ts, h => by
    rw [sizes] at h
    refine ⟨holds_of_seeds t fun i hi ↦ ?_, holdsAll_of_seeds ts fun i hi ↦ ?_⟩
    · rw [h i (by omega), seedsOf, List.getElem?_append_left (by rwa [length_seeds])]
    · have hseed := h (t.size + i) (by omega)
      rw [seedsOf, List.getElem?_append_right (by rw [length_seeds]; omega), length_seeds,
        Nat.add_sub_cancel_left] at hseed
      rw [Nat.add_assoc, hseed]

end

/-- Each of some trees stands at the place at which it begins. -/
theorem HoldsAll.holds {ts : List Outline} (h : d.HoldsAll parent n ts) {t : Outline} {c : LocalId}
    (hc : (t, c) ∈ ts.zip (places n ts)) : d.Holds parent c t := by
  induction ts generalizing n with
  | nil => cases hc
  | cons u us ih =>
    rcases List.mem_cons.1 hc with heq | hc
    · rw [Prod.mk.injEq] at heq
      rw [heq.1, heq.2]
      exact h.1
    · exact ih h.2 hc

/-- What is held is a node with the content, the parent and the children that the tree says. -/
theorem Holds.node? {content : Content String} {children : List Outline}
    (h : d.Holds parent n (.node content children)) :
    ∃ node, d.node? n = some node ∧ node.content.map (·.text) = content ∧
      node.parent = some parent ∧ node.children = places (n + 1) children := by
  obtain ⟨node, hnode, hseed⟩ := Option.bind_eq_some_iff.1 h.1
  obtain ⟨parent', hparent, hseed⟩ := Option.map_eq_some_iff.1 hseed
  rw [Seed.mk.injEq] at hseed
  obtain ⟨hcontent, rfl, hchildren⟩ := hseed
  exact ⟨node, hnode, hcontent, hparent, hchildren⟩

theorem Holds.children_eq {content : Content String} {children : List Outline}
    (h : d.Holds parent n (.node content children)) : d.children n = places (n + 1) children := by
  obtain ⟨node, hnode, -, -, hchildren⟩ := h.node?
  rw [Document.children, hnode, Option.map_some, Option.getD_some, hchildren]

theorem Holds.kind?_eq {t : Outline} (h : d.Holds parent n t) :
    d.kind? n = some t.content.kind := by
  obtain ⟨content, children⟩ := t
  obtain ⟨node, hnode, rfl, -, -⟩ := h.node?
  simp [kind?, content?, hnode, Outline.content]

theorem Holds.parent?_eq {t : Outline} (h : d.Holds parent n t) : d.parent? n = some parent := by
  obtain ⟨content, children⟩ := t
  obtain ⟨node, hnode, -, hparent, -⟩ := h.node?
  simp [parent?, hnode, hparent]

theorem HoldsAll.map_kind? {ts : List Outline} (h : d.HoldsAll parent n ts) :
    (places n ts).map d.kind? = (ts.map fun t ↦ t.content.kind).map some := by
  induction ts generalizing n with
  | nil => rfl
  | cons t ts ih => rw [places, List.map_cons, h.1.kind?_eq, ih h.2, List.map_cons, List.map_cons]

mutual

/-- Every place inside a tree, save that of its root, is placed below another place of the tree. -/
theorem Holds.exists_placed {parent n m : Nat} : (t : Outline) → d.Holds parent n t → t.Fits →
    n < m → m < n + t.size → ∃ q, n ≤ q ∧ q < m ∧ d.Placed q m
  | .node content children, h, hfits, hnm, hm => by
    rw [Outline.size] at hm
    rcases HoldsAll.exists_placed children h.2 hfits.2 (Nat.succ_le_of_lt hnm) (by omega) with
      ⟨hmem, ht⟩ | ⟨q, hnq, hqm, hq⟩
    · refine ⟨n, Nat.le_refl n, hnm, ?_, ht⟩
      rw [h.children_eq]
      exact hmem
    · exact ⟨q, by omega, hqm, hq⟩

/-- Every place inside some trees is the root of one, or placed below another of their places. -/
theorem HoldsAll.exists_placed {parent n m : Nat} : (ts : List Outline) →
    d.HoldsAll parent n ts → AllFit ts → n ≤ m → m < n + sizes ts →
    (m ∈ places n ts ∧ ∃ t : Outline, d.Holds parent m t ∧ t.Fits) ∨
      ∃ q, n ≤ q ∧ q < m ∧ d.Placed q m
  | [], _, _, hnm, hm => by
    rw [sizes] at hm
    omega
  | t :: ts, h, hfits, hnm, hm => by
    rw [sizes] at hm
    -- the place is the first root, or inside the first tree, or beyond it
    by_cases hroot : m = n
    · subst hroot
      exact .inl ⟨List.mem_cons_self, t, h.1, hfits.1⟩
    by_cases hinside : m < n + t.size
    · exact .inr (Holds.exists_placed t h.1 hfits.1 (by omega) hinside)
    · have hend : m < n + t.size + sizes ts := by omega
      rcases HoldsAll.exists_placed ts h.2 hfits.2 (by omega) hend with
        ⟨hmem, ht⟩ | ⟨q, hnq, hqm, hq⟩
      · exact .inl ⟨List.mem_cons_of_mem n hmem, ht⟩
      · exact .inr ⟨q, by omega, hqm, hq⟩

end

mutual

/-- The order of a tree is the order of its places. -/
theorem Holds.subtreeWithin_eq {parent n depth : Nat} : (t : Outline) →
    d.Holds parent n t → t.size ≤ depth → d.subtreeWithin depth n = List.range' n t.size
  | .node content children, h, hdepth => by
    rw [Outline.size] at hdepth ⊢
    obtain ⟨depth, rfl⟩ : ∃ k, depth = k + 1 := ⟨depth - 1, by omega⟩
    rw [subtreeWithin, h.children_eq,
      HoldsAll.flatMap_subtreeWithin children h.2 (by omega), List.range'_succ]

/-- Trees in a row are walked through place by place. -/
theorem HoldsAll.flatMap_subtreeWithin {parent n depth : Nat} : (ts : List Outline) →
    d.HoldsAll parent n ts → sizes ts ≤ depth →
    (places n ts).flatMap (d.subtreeWithin depth) = List.range' n (sizes ts)
  | [], _, _ => rfl
  | t :: ts, h, hdepth => by
    rw [sizes] at hdepth ⊢
    rw [places, List.flatMap_cons, Holds.subtreeWithin_eq t h.1 (by omega),
      HoldsAll.flatMap_subtreeWithin ts h.2 (by omega), List.range'_append_1]

end

/-! ### The laws of the tree -/

/-- The laws of the tree of a document. -/
structure Tree (d : Document) : Prop where
  parent_lt : ∀ {n p : Nat}, d.parent? n = some p → p < n
  exists_parent : ∀ {n : Nat}, 0 < n → n < d.size → ∃ p, d.parent? n = some p
  mem_children_iff : ∀ {p c : Nat}, c ∈ d.children p ↔ d.parent? c = some p
  children_nodup : ∀ p : Nat, (d.children p).Nodup
  admits : ∀ {n : Nat} {k : Kind}, d.kind? n = some k →
    ∃ ks : List Kind, (d.children n).map d.kind? = ks.map some ∧ k.Admits ks
  kind_imports : ∀ c ∈ d.imports, d.kind? c = some .importClause
  kind_classifiers : ∀ c ∈ d.classifiers, ∃ k, d.kind? c = some k ∧ k.isClassifier = true

namespace Lays

variable {xs : List Declaration}

/-- The nodes after the root are the seeds, one by one. -/
theorem getElem?_body (h : d.Lays xs) (i : Nat) :
    d.body[i]? = none ∧ (seedsOf 0 1 (xs.map outline))[i]? = none ∨
      ∃ node seed, d.body[i]? = some node ∧ (seedsOf 0 1 (xs.map outline))[i]? = some seed ∧
        node.seed? = some seed := by
  have hi : (d.body.map Node.seed?)[i]? = ((seedsOf 0 1 (xs.map outline)).map some)[i]? := by
    rw [h.body]
  rw [List.getElem?_map, List.getElem?_map] at hi
  cases hnode : d.body[i]? with
  | none =>
    rw [hnode, Option.map_none, eq_comm, Option.map_eq_none_iff] at hi
    exact .inl ⟨rfl, hi⟩
  | some node =>
    rw [hnode, Option.map_some, eq_comm, Option.map_eq_some_iff] at hi
    obtain ⟨seed, hseed, hi⟩ := hi
    exact .inr ⟨node, seed, rfl, hseed, hi.symm⟩

/-- Apart from its range, the node at a place is the seed of that number. The root is not stored, so
every other place is shifted by one. -/
theorem seed?_succ (h : d.Lays xs) (i : Nat) :
    d.seed? (i + 1) = (seedsOf 0 1 (xs.map outline))[i]? := by
  rw [seed?, node?_succ]
  obtain ⟨hnode, hseed⟩ | ⟨node, seed, hnode, hseed, hi⟩ := h.getElem?_body i
  · rw [hnode, hseed]
    rfl
  · rw [hnode, hseed, ← hi]
    rfl

/-- The trees of the declarations stand in a row, from the first place on. -/
theorem holdsAll (h : d.Lays xs) : d.HoldsAll 0 1 (xs.map outline) :=
  holdsAll_of_seeds _ fun i _ ↦ by rw [Nat.add_comm, h.seed?_succ]

theorem imports_append_classifiers_perm (h : d.Lays xs) :
    (d.imports ++ d.classifiers).Perm (places 1 (xs.map outline)) := by
  rw [h.imports, h.classifiers]
  exact placesOf_append_perm isImport 1 xs

theorem allFit (h : d.Lays xs) : AllFit (xs.map outline) := by
  refine allFit_iff.2 fun t ht ↦ ?_
  obtain ⟨x, hx, rfl⟩ := List.mem_map.1 ht
  exact Declaration.outline_fits (h.accepted x hx)

/-- The declarations that satisfy a condition stand below the root. -/
theorem exists_holds_of_mem_placesOf (h : d.Lays xs) {p : Declaration → Bool} {c : LocalId}
    (hc : c ∈ placesOf p 1 xs) : ∃ x, p x = true ∧ d.Holds 0 c (outline x) := by
  obtain ⟨x, -, hp, hzip⟩ := exists_of_mem_placesOf hc
  exact ⟨x, hp, h.holdsAll.holds hzip⟩

/-- Every place but that of the root is placed below another. -/
theorem exists_placed (h : d.Lays xs) {n : Nat} (hn : 0 < n) (hsize : n < d.size) :
    ∃ q < n, d.Placed q n := by
  rw [h.size_eq] at hsize
  rcases HoldsAll.exists_placed _ h.holdsAll h.allFit hn hsize with ⟨hmem, ht⟩ | ⟨q, -, hqn, hq⟩
  · -- the root of a tree is a child of the root, whichever list holds it
    refine ⟨0, hn, ?_, ht⟩
    exact h.imports_append_classifiers_perm.mem_iff.2 hmem
  · exact ⟨q, hqn, hq⟩

theorem exists_mem_zip {n c : LocalId} {ts : List Outline} (h : c ∈ places n ts) :
    ∃ t, (t, c) ∈ ts.zip (places n ts) := by
  have hsnd : (ts.zip (places n ts)).map Prod.snd = places n ts := List.map_snd_zip (by simp)
  rw [← hsnd] at h
  obtain ⟨⟨t, c'⟩, ht, rfl⟩ := List.mem_map.1 h
  exact ⟨t, ht⟩

theorem lt_size_of_node? {n : Nat} {node : Node} (h : d.node? n = some node) : n < d.size :=
  (isSome_node?_iff d n).1 (by rw [h]; rfl)

/-- Below a place that is not the root stand the trees of a node. -/
theorem exists_holds_node (h : d.Lays xs) {n : Nat} (hn : 0 < n) (hsize : n < d.size) :
    ∃ q content ts, d.Holds q n (.node content ts) ∧ (Outline.node content ts).Fits ∧
      d.children n = places (n + 1) ts := by
  obtain ⟨q, -, -, t, ht, hfits⟩ := h.exists_placed hn hsize
  obtain ⟨content, ts⟩ := t
  exact ⟨q, content, ts, ht, hfits, ht.children_eq⟩

/-- A child has the node that lists it as its parent. -/
theorem parent?_of_mem_children (h : d.Lays xs) {p c : Nat} (hc : c ∈ d.children p) :
    d.parent? c = some p := by
  rcases Nat.eq_zero_or_pos p with rfl | hp
  · have hplaces := h.imports_append_classifiers_perm.mem_iff.1 hc
    obtain ⟨t, ht⟩ := exists_mem_zip hplaces
    exact (h.holdsAll.holds ht).parent?_eq
  · cases hnode : d.node? p with
    | none =>
      rw [Document.children, hnode] at hc
      cases hc
    | some node =>
      obtain ⟨q, content, ts, ht, -, hchildren⟩ := h.exists_holds_node hp (lt_size_of_node? hnode)
      rw [hchildren] at hc
      obtain ⟨t, hzip⟩ := exists_mem_zip hc
      exact (ht.2.holds hzip).parent?_eq

/-- The parent of a node stands before it and has it among its children. -/
theorem lt_and_mem_children_of_parent? (h : d.Lays xs) {n p : Nat} (hn : d.parent? n = some p) :
    p < n ∧ n ∈ d.children p := by
  obtain ⟨node, hnode, hparent⟩ := Option.bind_eq_some_iff.1 hn
  have hpos : 0 < n := by
    rcases Nat.eq_zero_or_pos n with rfl | hpos
    · rw [node?_zero, Option.some.injEq] at hnode
      rw [← hnode] at hparent
      cases hparent
    · exact hpos
  -- the node is placed below some node, which can only be its parent
  obtain ⟨q, hq, hmem, -⟩ := h.exists_placed hpos (lt_size_of_node? hnode)
  have hpq : d.parent? n = some q := h.parent?_of_mem_children hmem
  obtain rfl : p = q := Option.some.inj (hn.symm.trans hpq)
  exact ⟨hq, hmem⟩

theorem kind?_of_mem_imports (h : d.Lays xs) {c : LocalId} (hc : c ∈ d.imports) :
    d.kind? c = some .importClause := by
  rw [h.imports] at hc
  obtain ⟨x, hx, hholds⟩ := h.exists_holds_of_mem_placesOf hc
  rw [hholds.kind?_eq]
  cases x <;> first | rfl | cases hx

theorem kind?_of_mem_classifiers (h : d.Lays xs) {c : LocalId} (hc : c ∈ d.classifiers) :
    ∃ k, d.kind? c = some k ∧ k.isClassifier = true := by
  rw [h.classifiers] at hc
  obtain ⟨x, hx, hholds⟩ := h.exists_holds_of_mem_placesOf hc
  refine ⟨_, hholds.kind?_eq, ?_⟩
  cases x <;> first | rfl | cases hx

theorem children_nodup (h : d.Lays xs) (p : Nat) : (d.children p).Nodup := by
  rcases Nat.eq_zero_or_pos p with rfl | hp
  · exact h.imports_append_classifiers_perm.nodup_iff.2 (places_nodup 1 _)
  · cases hnode : d.node? p with
    | none =>
      rw [Document.children, hnode]
      exact List.nodup_nil
    | some node =>
      obtain ⟨-, -, ts, -, -, hchildren⟩ := h.exists_holds_node hp (lt_size_of_node? hnode)
      rw [hchildren]
      exact places_nodup (p + 1) ts

theorem exists_map_eq_map_some {α β : Type} {f : α → Option β} {p : β → Prop} {l : List α}
    (h : ∀ a ∈ l, ∃ b, f a = some b ∧ p b) :
    ∃ bs : List β, l.map f = bs.map some ∧ ∀ b ∈ bs, p b := by
  induction l with
  | nil => exact ⟨[], rfl, by simp⟩
  | cons a l ih =>
    obtain ⟨b, hb, hp⟩ := h a List.mem_cons_self
    obtain ⟨bs, hbs, hps⟩ := ih fun a ha ↦ h a (List.mem_cons_of_mem _ ha)
    exact ⟨b :: bs, by rw [List.map_cons, hb, hbs, List.map_cons], by simpa using ⟨hp, hps⟩⟩

/-- Each node has children of the kinds that its own kind admits. -/
theorem admits (h : d.Lays xs) {n : Nat} {k : Kind} (hk : d.kind? n = some k) :
    ∃ ks : List Kind, (d.children n).map d.kind? = ks.map some ∧ k.Admits ks := by
  rcases Nat.eq_zero_or_pos n with rfl | hn
  · obtain rfl : Kind.root = k := Option.some.inj hk
    have hchild : ∀ c ∈ d.children 0, ∃ k, d.kind? c = some k ∧
        (k = .importClause ∨ k.isClassifier = true) := by
      intro c hc
      rcases List.mem_append.1 hc with hc | hc
      · exact ⟨_, h.kind?_of_mem_imports hc, .inl rfl⟩
      · obtain ⟨k, hk, hclassifier⟩ := h.kind?_of_mem_classifiers hc
        exact ⟨k, hk, .inr hclassifier⟩
    exact exists_map_eq_map_some hchild
  · obtain ⟨content, hcontent, rfl⟩ := Option.map_eq_some_iff.1 hk
    obtain ⟨node, hnode, -⟩ := Option.map_eq_some_iff.1 hcontent
    obtain ⟨q, content', ts, ht, hfits, hchildren⟩ :=
      h.exists_holds_node hn (lt_size_of_node? hnode)
    have hkind : content.kind = content'.kind := Option.some.inj (hk.symm.trans ht.kind?_eq)
    refine ⟨_, ?_, hkind ▸ hfits.1⟩
    rw [hchildren]
    exact ht.2.map_kind?

/-- A document that is laid out from declarations is a tree. -/
theorem tree (h : d.Lays xs) : d.Tree where
  parent_lt hn := (h.lt_and_mem_children_of_parent? hn).1
  exists_parent hn hsize := by
    obtain ⟨q, -, hmem, -⟩ := h.exists_placed hn hsize
    exact ⟨q, h.parent?_of_mem_children hmem⟩
  mem_children_iff :=
    ⟨h.parent?_of_mem_children, fun hc ↦ (h.lt_and_mem_children_of_parent? hc).2⟩
  children_nodup := h.children_nodup
  admits := h.admits
  kind_imports _ := h.kind?_of_mem_imports
  kind_classifiers _ := h.kind?_of_mem_classifiers

/-- The order of the tree lists every node once. -/
theorem preorder_perm (h : d.Lays xs) : d.preorder.Perm (List.range d.size) := by
  have hdepth : sizes (xs.map outline) ≤ d.size - 1 := by rw [h.size_eq]; omega
  -- the trees stand in the order of their places, save that the imports come first
  have hchildren : (d.children 0).flatMap (d.subtreeWithin (d.size - 1)) |>.Perm
      (List.range' 1 (sizes (xs.map outline))) := by
    rw [← HoldsAll.flatMap_subtreeWithin _ h.holdsAll hdepth]
    exact h.imports_append_classifiers_perm.flatMap_right _
  have hsize : d.size = d.size - 1 + 1 := by rw [h.size_eq]; omega
  rw [preorder, hsize, subtreeWithin, List.range_eq_range', List.range'_succ]
  rw [h.size_eq] at hchildren ⊢
  simpa using hchildren.cons 0

end Lays

theorem Drafted.tree (h : d.Drafted) : d.Tree := by
  obtain ⟨xs, hxs⟩ := h.exists_lays
  exact hxs.tree

theorem Drafted.preorder_perm (h : d.Drafted) : d.preorder.Perm (List.range d.size) := by
  obtain ⟨xs, hxs⟩ := h.exists_lays
  exact hxs.preorder_perm

/-! ### The owners of values -/

theorem kind?_eq_some_iff {n : LocalId} {k : Kind} :
    d.kind? n = some k ↔ ∃ content, d.content? n = some content ∧ content.kind = k :=
  Option.map_eq_some_iff

/-- Whether values belong to a node: to a member as its default, or to an assignment. -/
def ownsValues (d : Document) (n : LocalId) : Bool :=
  match d.content? n with
  | some (.member _) | some (.assignment _) => true
  | _ => false

/-- Values belong to members and to assignments. -/
theorem ownsValues_of_kind? {n : LocalId} {k : Kind} (h : d.kind? n = some k) :
    d.ownsValues n = true ↔ k = .member ∨ k = .assignment := by
  obtain ⟨content, hcontent, rfl⟩ := kind?_eq_some_iff.1 h
  rw [ownsValues, hcontent]
  cases content <;> simp [Content.kind]

namespace Tree

/-- Steps beyond the place of a node lead no further up. -/
theorem ancestorsWithin_eq (h : d.Tree) {steps steps' n : Nat} (hn : n ≤ steps) (hn' : n ≤ steps') :
    d.ancestorsWithin steps n = d.ancestorsWithin steps' n := by
  induction steps generalizing steps' n with
  | zero =>
    obtain rfl : n = 0 := by omega
    cases steps' <;> rfl
  | succ steps ih =>
    cases hp : d.parent? n with
    | none => cases steps' <;> simp [ancestorsWithin, hp]
    | some p =>
      have hlt := h.parent_lt hp
      -- the parent stands before the node, so one step less is enough for it
      obtain ⟨steps', rfl⟩ : ∃ k, steps' = k + 1 := ⟨steps' - 1, by omega⟩
      simp only [ancestorsWithin, hp]
      have htail : d.ancestorsWithin steps p = d.ancestorsWithin steps' p :=
        ih (by omega) (by omega)
      rw [htail]

theorem ancestors_eq_cons (h : d.Tree) {n p : Nat} (hp : d.parent? n = some p) :
    d.ancestors n = p :: d.ancestors p := by
  have hlt := h.parent_lt hp
  obtain ⟨k, rfl⟩ : ∃ k, n = k + 1 := ⟨n - 1, by omega⟩
  rw [ancestors, ancestorsWithin, hp]
  exact congrArg (p :: ·) (h.ancestorsWithin_eq (by omega) (Nat.le_refl p))

/-- The parent of a node is of a kind that can have it as a child. -/
theorem exists_kind_of_parent? (h : d.Tree) {n p : Nat} {k : Kind} (hp : d.parent? n = some p)
    (hk : d.kind? n = some k) : ∃ kp ∈ k.parents, d.kind? p = some kp := by
  have hmem : n ∈ d.children p := h.mem_children_iff.2 hp
  cases hnode : d.node? p with
  | none =>
    rw [children, hnode] at hmem
    cases hmem
  | some node =>
    have hkp : d.kind? p = some node.content.kind :=
      kind?_eq_some_iff.2 ⟨_, by rw [content?, hnode]; rfl, rfl⟩
    obtain ⟨ks, hks, hadmits⟩ := h.admits hkp
    have hk' : some k ∈ ks.map some := by
      rw [← hks, ← hk]
      exact List.mem_map_of_mem hmem
    exact ⟨_, hadmits.mem_parents (by simpa using hk'), hkp⟩

/-- A child of a member or of an assignment belongs to it. -/
theorem find?_ancestors_of_owner (h : d.Tree) {n p : Nat} (hp : d.parent? n = some p)
    (ho : d.ownsValues p = true) : (d.ancestors n).find? d.ownsValues = some p := by
  rw [h.ancestors_eq_cons hp, List.find?_cons, ho]

/-- A child of any other node belongs to what its parent belongs to. -/
theorem find?_ancestors_of_not_owner (h : d.Tree) {n p : Nat} (hp : d.parent? n = some p)
    (ho : d.ownsValues p = false) :
    (d.ancestors n).find? d.ownsValues = (d.ancestors p).find? d.ownsValues := by
  rw [h.ancestors_eq_cons hp, List.find?_cons, ho]

theorem exists_parent_of_kind? (h : d.Tree) {n : Nat} {k : Kind} (hk : d.kind? n = some k)
    (hroot : k ≠ .root) : ∃ p, d.parent? n = some p := by
  obtain ⟨content, hcontent, rfl⟩ := kind?_eq_some_iff.1 hk
  obtain ⟨node, hnode, rfl⟩ := Option.map_eq_some_iff.1 hcontent
  refine h.exists_parent (Nat.pos_of_ne_zero ?_) (Lays.lt_size_of_node? hnode)
  rintro rfl
  rw [node?_zero, Option.some.injEq] at hnode
  subst hnode
  exact hroot rfl

/-- A value belongs to a member or to an assignment: its parent, or if its parent is an array the
parent of that. -/
theorem exists_owner (h : d.Tree) {n : Nat} {k : Kind} (hk : d.kind? n = some k)
    (hvalue : k.isValue = true) :
    ∃ o, (d.ancestors n).find? d.ownsValues = some o ∧ d.ownsValues o = true := by
  -- an array is no element of an array, so that two steps up are enough
  have hup {m : Nat} {k' : Kind} (hk' : d.kind? m = some k') (hvalue' : k'.isValue = true) :
      ∃ p kp, d.parent? m = some p ∧ d.kind? p = some kp ∧
        (kp = .member ∨ kp = .assignment ∨ (kp = .array ∧ k' = .value)) := by
    obtain ⟨p, hp⟩ := h.exists_parent_of_kind? hk' (by rintro rfl; cases hvalue')
    obtain ⟨kp, hmem, hkp⟩ := h.exists_kind_of_parent? hp hk'
    refine ⟨p, kp, hp, hkp, ?_⟩
    cases k' <;> first | exact absurd hvalue' (by decide) | simpa [Kind.parents] using hmem
  obtain ⟨p, kp, hp, hkp, rfl | rfl | ⟨rfl, -⟩⟩ := hup hk hvalue
  · have ho := (ownsValues_of_kind? hkp).2 (.inl rfl)
    exact ⟨p, h.find?_ancestors_of_owner hp ho, ho⟩
  · have ho := (ownsValues_of_kind? hkp).2 (.inr rfl)
    exact ⟨p, h.find?_ancestors_of_owner hp ho, ho⟩
  · have ho : d.ownsValues p = false := by
      rw [← Bool.not_eq_true, ownsValues_of_kind? hkp]
      simp
    rw [h.find?_ancestors_of_not_owner hp ho]
    obtain ⟨q, kq, hq, hkq, rfl | rfl | ⟨-, hne⟩⟩ := hup hkp rfl
    · have ho' := (ownsValues_of_kind? hkq).2 (.inl rfl)
      exact ⟨q, h.find?_ancestors_of_owner hq ho', ho'⟩
    · have ho' := (ownsValues_of_kind? hkq).2 (.inr rfl)
      exact ⟨q, h.find?_ancestors_of_owner hq ho', ho'⟩
    · cases hne

end Tree

end Document

end Schemata
