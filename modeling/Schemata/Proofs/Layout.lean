import Mathlib.Data.List.Range
import Schemata.Document.Draft

/-!
# What a draft lays out

Apart from ranges, the nodes of a drafted document are the seeds of the trees of its declarations,
one tree after the other (`Document.Lays`), however often nodes were moved to other ranges. All that
is known of the shape of a document follows from this: `Document.Holds` says that a tree stands at a
place, and `Outline.Fits` that its nodes have the children that their contents ask for.

Only the kind of a content matters for that, not what it says. So the laws of shape are stated for
kinds, which are the same before and after a reference has a range.
-/

namespace Schemata

variable {classes : Text.IdentifierClasses}

/-! ### Kinds of content -/

/-- A kind of node. -/
inductive Kind where
  | root
  | importClause
  | importItem
  | entity
  | enumeration
  | literal
  | member
  | type
  | instantiation
  | assignment
  | value
  | array
  deriving DecidableEq, Repr

namespace Kind

def isClassifier : Kind → Bool
  | entity | enumeration | instantiation => true
  | _ => false

def isValue : Kind → Bool
  | value | array => true
  | _ => false

/-- Whether nodes of these kinds, in this order, can be the children of a node. -/
def Admits : Kind → List Kind → Prop
  | root, ks => ∀ k ∈ ks, k = importClause ∨ k.isClassifier = true
  | importClause, ks => ∀ k ∈ ks, k = importItem
  | entity, ks => ∀ k ∈ ks, k = member
  | enumeration, ks => ∀ k ∈ ks, k = literal
  | instantiation, ks => ∀ k ∈ ks, k = assignment
  | member, ks => ks = [type] ∨ ∃ k, k.isValue = true ∧ ks = [type, k]
  | assignment, ks => ∃ k, k.isValue = true ∧ ks = [k]
  | array, ks => ∀ k ∈ ks, k = value
  | importItem, ks | literal, ks | type, ks | value, ks => ks = []

/-- The kinds of the nodes that can have a node of a kind as a child. -/
def parents : Kind → List Kind
  | root => []
  | importClause | entity | enumeration | instantiation => [root]
  | importItem => [importClause]
  | member => [entity]
  | literal => [enumeration]
  | type => [member]
  | assignment => [instantiation]
  | value => [member, assignment, array]
  | array => [member, assignment]

/-- A child that a node may have names the kind of the node among its parents. -/
theorem Admits.mem_parents {kind k : Kind} {ks : List Kind} (h : kind.Admits ks) (hk : k ∈ ks) :
    kind ∈ k.parents := by
  cases kind with
  | root =>
    rcases h k hk with rfl | hclassifier
    · exact List.mem_singleton.2 rfl
    · cases k <;> first | exact List.mem_singleton.2 rfl | cases hclassifier
  | importClause | entity | enumeration | instantiation =>
    rw [h k hk]
    exact List.mem_singleton.2 rfl
  | array =>
    rw [h k hk]
    simp [parents]
  | member =>
    rcases h with rfl | ⟨k', hvalue, rfl⟩
    · rw [List.mem_singleton.1 hk]
      exact List.mem_singleton.2 rfl
    · rcases List.mem_cons.1 hk with rfl | hk
      · exact List.mem_singleton.2 rfl
      · rw [List.mem_singleton.1 hk]
        cases k' <;> first | exact absurd hvalue (by decide) | simp [parents]
  | assignment =>
    obtain ⟨k', hvalue, rfl⟩ := h
    rw [List.mem_singleton.1 hk]
    cases k' <;> first | exact absurd hvalue (by decide) | simp [parents]
  | importItem | literal | type | value =>
    rw [show ks = [] from h] at hk
    cases hk

end Kind

namespace Content

variable {ρ σ τ : Type}

/-- The kind of a node with some content. -/
def kind : Content ρ → Kind
  | .root _ => .root
  | .importClause _ => .importClause
  | .importItem .. => .importItem
  | .entity .. => .entity
  | .enumeration _ => .enumeration
  | .literal _ => .literal
  | .member _ => .member
  | .type _ => .type
  | .instantiation .. => .instantiation
  | .assignment _ => .assignment
  | .value _ => .value
  | .array => .array

@[simp]
theorem kind_map (f : ρ → σ) (c : Content ρ) : (c.map f).kind = c.kind := by
  cases c <;> rfl

/-- To put references through two functions is to put them through both at once. -/
theorem map_map (f : ρ → σ) (g : σ → τ) (c : Content ρ) : (c.map f).map g = c.map (g ∘ f) := by
  cases c with
  | type t => cases t <;> rfl
  | value v => cases v <;> rfl
  | _ => rfl

theorem map_id (c : Content ρ) : c.map id = c := by
  cases c with
  | type t => cases t <;> rfl
  | value v => cases v <;> rfl
  | _ => rfl

end Content

/-! ### Trees of declarations -/

namespace Outline

/-- The content at the root of a tree. -/
def content : Outline → Content String
  | .node content _ => content

theorem size_pos (t : Outline) : 0 < t.size := by
  cases t
  simp [size]

theorem size_le_sizes_of_mem {t : Outline} {ts : List Outline} (h : t ∈ ts) :
    t.size ≤ sizes ts := by
  induction ts with
  | nil => cases h
  | cons u us ih =>
    rw [sizes]
    rcases List.mem_cons.1 h with rfl | h
    · exact Nat.le_add_right _ _
    · exact (ih h).trans (Nat.le_add_left _ _)

/-- More trees in a row take the places after the first ones. -/
theorem places_append (n : LocalId) (ts us : List Outline) :
    places n (ts ++ us) = places n ts ++ places (n + sizes ts) us := by
  induction ts generalizing n with
  | nil => rfl
  | cons t ts ih =>
    rw [List.cons_append, places, places, ih, sizes, Nat.add_assoc]
    rfl

theorem seedsOf_append (parent n : LocalId) (ts us : List Outline) :
    seedsOf parent n (ts ++ us) = seedsOf parent n ts ++ seedsOf parent (n + sizes ts) us := by
  induction ts generalizing n with
  | nil => rfl
  | cons t ts ih =>
    rw [List.cons_append, seedsOf, seedsOf, ih, sizes, List.append_assoc, Nat.add_assoc]

mutual

/-- A tree is lowered to as many nodes as it has. -/
theorem length_seeds (parent n : LocalId) :
    (t : Outline) → (t.seeds parent n).length = t.size
  | .node content children => by
    rw [seeds, List.length_cons, length_seedsOf n (n + 1) children, size]

theorem length_seedsOf (parent n : LocalId) :
    (ts : List Outline) → (seedsOf parent n ts).length = sizes ts
  | [] => rfl
  | t :: ts => by
    rw [seedsOf, List.length_append, length_seeds parent n t,
      length_seedsOf parent (n + t.size) ts, sizes]

end

/-- The roots of trees that are numbered from a place stand between it and the end of the last. -/
theorem mem_places {n c : Nat} {ts : List Outline} (h : c ∈ places n ts) :
    n ≤ c ∧ c < n + sizes ts := by
  induction ts generalizing n with
  | nil => cases h
  | cons t ts ih =>
    have hpos : 0 < t.size := t.size_pos
    rw [sizes]
    rcases List.mem_cons.1 h with rfl | h
    · omega
    · have hrest : n + t.size ≤ c ∧ c < n + t.size + sizes ts := ih h
      omega

theorem places_nodup (n : Nat) (ts : List Outline) : (places n ts).Nodup := by
  induction ts generalizing n with
  | nil => exact List.nodup_nil
  | cons t ts ih =>
    refine List.nodup_cons.2 ⟨fun h ↦ ?_, ih (n + t.size)⟩
    -- a tree has at least its root, so the roots after it stand behind it
    have hpos : 0 < t.size := t.size_pos
    have hle : n + t.size ≤ n := (mem_places h).1
    omega

/-- There is one place for each tree. -/
@[simp]
theorem length_places (n : LocalId) (ts : List Outline) : (places n ts).length = ts.length := by
  induction ts generalizing n with
  | nil => rfl
  | cons t ts ih => rw [places, List.length_cons, ih, List.length_cons]

mutual

/-- Whether every node of a tree has the children that its content asks for. -/
def Fits : Outline → Prop
  | .node content children =>
    content.kind.Admits (children.map fun t ↦ t.content.kind) ∧ AllFit children

/-- Whether every node of some trees has the children that its content asks for. -/
def AllFit : List Outline → Prop
  | [] => True
  | t :: ts => t.Fits ∧ AllFit ts

end

theorem allFit_iff {ts : List Outline} : AllFit ts ↔ ∀ t ∈ ts, t.Fits := by
  induction ts with
  | nil => simp [AllFit]
  | cons t ts ih => simp [AllFit, ih]

end Outline

open Outline

/-- A tree of one node fits if such a node needs no children. -/
theorem fits_leaf {content : Content String} (h : content.kind.Admits []) :
    (Outline.leaf content).Fits :=
  ⟨h, trivial⟩

theorem Value.outlines_eq_map (vs : List Value) : Value.outlines vs = vs.map Value.outline := by
  induction vs with
  | nil => rfl
  | cons v vs ih => rw [Value.outlines, ih, List.map_cons]

theorem Value.isValue_outline (v : Value) : v.outline.content.kind.isValue = true := by
  cases v <;> rfl

/-- An element that is an array would be a violation, so every element is a scalar. -/
theorem Value.exists_scalar_of_mem_array {owner : String} {elements : List Value}
    (h : (Value.array elements).violations owner = []) {x : Value} (hx : x ∈ elements) :
    ∃ s, x = .scalar s := by
  have hnil := List.flatMap_eq_nil_iff.1 h x hx
  cases x with
  | scalar s => exact ⟨s, rfl⟩
  | array _ => cases hnil

/-- An accepted value makes a tree in which no array is an element. -/
theorem Value.outline_fits {owner : String} {v : Value} (h : v.violations owner = []) :
    v.outline.Fits := by
  cases v with
  | scalar s => exact fits_leaf rfl
  | array elements =>
    refine ⟨fun k hk ↦ ?_, allFit_iff.2 fun t ht ↦ ?_⟩
    · rw [Value.outlines_eq_map, List.map_map, List.mem_map] at hk
      obtain ⟨x, hx, rfl⟩ := hk
      obtain ⟨s, rfl⟩ := Value.exists_scalar_of_mem_array h hx
      rfl
    · rw [Value.outlines_eq_map, List.mem_map] at ht
      obtain ⟨x, hx, rfl⟩ := ht
      obtain ⟨s, rfl⟩ := Value.exists_scalar_of_mem_array h hx
      exact fits_leaf rfl

/-- A member has its type, and at most one value after it. -/
theorem MemberSpec.outline_fits {m : MemberSpec} (h : m.violations = []) : m.outline.Fits := by
  have hdefault : m.default.toList.flatMap (Value.violations m.name) = [] :=
    (List.append_eq_nil_iff.1 h).2
  rw [MemberSpec.outline]
  cases hd : m.default with
  | none => exact ⟨.inl rfl, fits_leaf rfl, trivial⟩
  | some v =>
    rw [hd] at hdefault
    have hv : v.violations m.name = [] := by simpa using hdefault
    exact ⟨.inr ⟨_, v.isValue_outline, rfl⟩, fits_leaf rfl, Value.outline_fits hv, trivial⟩

/-- An assignment has its value and nothing else. -/
theorem AssignmentSpec.outline_fits {a : AssignmentSpec} (h : a.violations = []) :
    a.outline.Fits := by
  have hv : a.value.violations a.member = [] := (List.append_eq_nil_iff.1 h).2
  exact ⟨⟨_, a.value.isValue_outline, rfl⟩, Value.outline_fits hv, trivial⟩

/-- A node fits whose children are the trees of some specs, all of one kind. -/
theorem fits_node_map {α : Type} {content : Content String} {kind : Kind} {xs : List α}
    {f : α → Outline} (hadmits : ∀ ks, (∀ k ∈ ks, k = kind) → content.kind.Admits ks)
    (hkind : ∀ x, (f x).content.kind = kind) (hfits : ∀ x ∈ xs, (f x).Fits) :
    (Outline.node content (xs.map f)).Fits := by
  refine ⟨hadmits _ fun k hk ↦ ?_, allFit_iff.2 fun t ht ↦ ?_⟩
  · rw [List.map_map, List.mem_map] at hk
    obtain ⟨x, -, rfl⟩ := hk
    exact hkind x
  · obtain ⟨x, hx, rfl⟩ := List.mem_map.1 ht
    exact hfits x hx

/-- An accepted declaration makes a tree in which every node has the children it should have. -/
theorem Declaration.outline_fits {x : Declaration} (h : x.violations = []) : x.outline.Fits := by
  cases x with
  | imports s => exact fits_node_map (fun _ h ↦ h) (fun _ ↦ rfl) fun _ _ ↦ fits_leaf rfl
  | enumeration s => exact fits_node_map (fun _ h ↦ h) (fun _ ↦ rfl) fun _ _ ↦ fits_leaf rfl
  | entity s =>
    have hmembers := List.flatMap_eq_nil_iff.1 (List.append_eq_nil_iff.1 h).2
    exact fits_node_map (fun _ h ↦ h) (fun _ ↦ rfl) fun m hm ↦
      MemberSpec.outline_fits (hmembers m hm)
  | instantiation s =>
    have hassignments := List.flatMap_eq_nil_iff.1 (List.append_eq_nil_iff.1 h).2
    exact fits_node_map (fun _ h ↦ h) (fun _ ↦ rfl) fun a ha ↦
      AssignmentSpec.outline_fits (hassignments a ha)

end Schemata
