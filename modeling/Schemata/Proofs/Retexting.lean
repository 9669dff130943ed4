import Schemata.Document.Reading
import Schemata.Proofs.Acceptance
import Schemata.Proofs.Erasure

/-!
# Writing another text at one reference

`Document.Retexts` says that a document is another one with a text of its own at one reference: all
nodes keep their places, and only ranges may differ besides. For every document that comes from
drafting, every place and every text that is not blank there is one that is drafted as well
(`Document.Drafted.exists_retexts`).

To have it, the text is written into the tree of a declaration (`Outline.retext`), at a place that
is counted in the order of the tree. That the tree is again one of an accepted declaration is shown
form by form.
-/

namespace Schemata

variable {classes : Text.IdentifierClasses}

open Outline

/-- Whether a document is another one, ranges apart, with a text in place of that of the reference
at some place. -/
structure Document.Retexts (d d' : Document) (i : LocalId) (text : String) : Prop where
  file_eq : d'.file = d.file
  name_eq : d'.name = d.name
  imports_eq : d'.imports = d.imports
  classifiers_eq : d'.classifiers = d.classifiers
  size_eq : d'.size = d.size
  parent?_eq : ∀ j, d'.parent? j = d.parent? j
  children_eq : ∀ j, d'.children j = d.children j
  bareContent?_self : d'.bareContent? i = (d.bareContent? i).map (Content.map fun _ ↦ text)
  bareContent?_of_ne : ∀ j ≠ i, d'.bareContent? j = d.bareContent? j

namespace Document.Retexts

variable {d d' : Document} {i : LocalId} {text : String} (h : d.Retexts d' i text)
include h

/-- Contents are the same once every reference is. -/
theorem map_content?_eq (r : Reference) (j : LocalId) :
    (d'.content? j).map (Content.map fun _ ↦ r) = (d.content? j).map (Content.map fun _ ↦ r) := by
  have hbare (d : Document) : (d.content? j).map (Content.map fun _ ↦ r) =
      (d.bareContent? j).map (Content.map fun _ ↦ r) := by
    rw [bareContent?, Option.map_map]
    exact congrArg (Option.map · (d.content? j)) (funext fun content ↦
      (content.map_map Reference.text fun _ ↦ r).symm)
  rw [hbare, hbare]
  by_cases hj : j = i
  · rw [hj, h.bareContent?_self, Option.map_map]
    exact congrArg (Option.map · (d.bareContent? i)) (funext fun content ↦ content.map_map _ _)
  · rw [h.bareContent?_of_ne j hj]

/-- The documents are the same once ranges and texts are taken away. -/
theorem stripped_eq (r : Reference) : (d'.stripped fun _ ↦ r) = d.stripped fun _ ↦ r := by
  have hbody : d'.body.map (Node.stripped fun _ ↦ r) = d.body.map (Node.stripped fun _ ↦ r) := by
    refine List.ext_getElem? fun j ↦ ?_
    have hcontent := h.map_content?_eq r (j + 1)
    have hparent := h.parent?_eq (j + 1)
    have hchildren := h.children_eq (j + 1)
    simp only [content?, parent?, children, node?_succ] at hcontent hparent hchildren
    rw [List.getElem?_map, List.getElem?_map]
    cases hnode : d.body[j]? with
    | none =>
      have hsize := h.size_eq
      rw [Document.size, Document.size, Nat.add_right_cancel_iff] at hsize
      rw [List.getElem?_eq_none_iff] at hnode
      rw [List.getElem?_eq_none (hsize ▸ hnode)]
    | some node =>
      rw [hnode] at hcontent hparent hchildren
      cases hnode' : d'.body[j]? with
      | none =>
        rw [hnode'] at hcontent
        cases hcontent
      | some node' =>
        rw [hnode'] at hcontent hparent hchildren
        obtain ⟨content, parent, children, range⟩ := node
        obtain ⟨content', parent', children', range'⟩ := node'
        simp only [Option.map_some, Option.some.injEq, Option.getD_some, Option.bind_some]
          at hcontent hparent hchildren
        simp only [Option.map_some, Node.stripped, hcontent, hparent, hchildren]
  rw [Document.stripped, Document.stripped, hbody, h.file_eq, h.name_eq, h.imports_eq,
    h.classifiers_eq]

end Document.Retexts

/-! ### Writing into trees -/

/-- A seed with a text in place of that of its reference. -/
def Seed.retext (text : String) (seed : Seed) : Seed :=
  { seed with content := seed.content.map fun _ ↦ text }

namespace Outline

mutual

/-- A tree with a text in place of that of one reference, which is counted in the order of the
tree. -/
def retext (text : String) : (i : Nat) → Outline → Outline
  | 0, .node content children => .node (content.map fun _ ↦ text) children
  | i + 1, .node content children => .node content (retextAmong text i children)

/-- Some trees with a text in place of that of one reference. -/
def retextAmong (text : String) : (i : Nat) → List Outline → List Outline
  | _, [] => []
  | i, t :: ts =>
    if i < t.size then t.retext text i :: ts else t :: retextAmong text (i - t.size) ts

end

variable (text : String)

mutual

/-- A tree keeps its size whatever text it gets. -/
theorem size_retext : (i : Nat) → (t : Outline) → (t.retext text i).size = t.size
  | 0, .node content children => by rw [retext, size, size]
  | i + 1, .node content children => by rw [retext, size, size, sizes_retextAmong i children]

theorem sizes_retextAmong : (i : Nat) → (ts : List Outline) →
    sizes (retextAmong text i ts) = sizes ts
  | _, [] => by rw [retextAmong]
  | i, t :: ts => by
    rw [retextAmong]
    split
    · rw [sizes, sizes, size_retext i t]
    · rw [sizes, sizes, sizes_retextAmong (i - t.size) ts]

end

/-- So every tree of a row keeps its place. -/
theorem places_retextAmong (i n : Nat) (ts : List Outline) :
    places n (retextAmong text i ts) = places n ts := by
  induction ts generalizing i n with
  | nil => rw [retextAmong]
  | cons t ts ih =>
    rw [retextAmong]
    split
    · rw [places, places, size_retext]
    · rw [places, places, ih]

theorem kind_retext (i : Nat) (t : Outline) : (t.retext text i).content.kind = t.content.kind := by
  obtain ⟨content, children⟩ := t
  cases i with
  | zero => rw [retext]; exact Content.kind_map _ content
  | succ i => rw [retext]; rfl

theorem map_kind_retextAmong (i : Nat) (ts : List Outline) :
    (retextAmong text i ts).map (·.content.kind) = ts.map (·.content.kind) := by
  induction ts generalizing i with
  | nil => rw [retextAmong]
  | cons t ts ih =>
    rw [retextAmong]
    split
    · rw [List.map_cons, kind_retext, List.map_cons]
    · rw [List.map_cons, ih, List.map_cons]

theorem modify_append {α : Type} (f : α → α) (i : Nat) (xs ys : List α) :
    (xs ++ ys).modify i f =
      if i < xs.length then xs.modify i f ++ ys else xs ++ ys.modify (i - xs.length) f := by
  induction xs generalizing i with
  | nil => rfl
  | cons x xs ih =>
    cases i with
    | zero => rfl
    | succ i =>
      simp only [List.cons_append, List.modify_succ_cons, ih, List.length_cons,
        Nat.add_lt_add_iff_right, Nat.add_sub_add_right]
      split <;> rfl

mutual

/-- Of the seeds of a tree only that of the place differs. -/
theorem seeds_retext (p n : Nat) : (i : Nat) → (t : Outline) →
    (t.retext text i).seeds p n = (t.seeds p n).modify i (Seed.retext text)
  | 0, .node content children => by
    rw [retext, seeds, seeds, List.modify_zero_cons, Seed.retext]
  | i + 1, .node content children => by
    rw [retext, seeds, seeds, List.modify_succ_cons, seedsOf_retextAmong n (n + 1) i children,
      places_retextAmong]

/-- To change one text is to change one seed. -/
theorem seedsOf_retextAmong (p n : Nat) : (i : Nat) → (ts : List Outline) →
    seedsOf p n (retextAmong text i ts) = (seedsOf p n ts).modify i (Seed.retext text)
  | i, [] => by rw [retextAmong, seedsOf, List.modify_nil]
  | i, t :: ts => by
    rw [retextAmong, seedsOf, modify_append, length_seeds]
    split
    · rw [seedsOf, seeds_retext p n i t, size_retext]
    · rw [seedsOf, seedsOf_retextAmong p (n + t.size) (i - t.size) ts]

end

end Outline

/-! ### Writing into declarations -/

section Declarations

variable {text : String} (htext : Text.isBlank text = false)

/-- Where the text can be written into the tree of each of some specs, so that a spec without fault
comes out, it can be written among the trees of all. -/
theorem exists_map_eq_retextAmong {α : Type} {outline : α → Outline} {p : α → Prop} {xs : List α}
    (h : ∀ x ∈ xs, ∀ i, ∃ x', outline x' = (outline x).retext text i ∧ p x')
    (hxs : ∀ x ∈ xs, p x) (i : Nat) :
    ∃ xs' : List α, xs'.map outline = retextAmong text i (xs.map outline) ∧ ∀ x ∈ xs', p x := by
  induction xs generalizing i with
  | nil => exact ⟨[], by rw [List.map_nil, retextAmong], nofun⟩
  | cons x xs ih =>
    obtain ⟨hx, hrest⟩ := List.forall_mem_cons.1 hxs
    rw [List.map_cons, retextAmong]
    split
    · obtain ⟨x', hx', hp⟩ := h x List.mem_cons_self i
      exact ⟨x' :: xs, by rw [List.map_cons, hx'], List.forall_mem_cons.2 ⟨hp, hrest⟩⟩
    · obtain ⟨xs', hxs', hp⟩ := ih (fun y hy ↦ h y (List.mem_cons_of_mem x hy)) hrest
        (i - (outline x).size)
      exact ⟨x :: xs', by rw [List.map_cons, hxs'], List.forall_mem_cons.2 ⟨hx, hp⟩⟩

/-- Below one content, too, and at the content itself. -/
theorem exists_node_eq_retext {α : Type} {outline : α → Outline} {p : α → Prop} {xs : List α}
    (h : ∀ x ∈ xs, ∀ i, ∃ x', outline x' = (outline x).retext text i ∧ p x')
    (hxs : ∀ x ∈ xs, p x) (content : Content String) (i : Nat) :
    ∃ xs' : List α, .node (if i = 0 then content.map fun _ ↦ text else content) (xs'.map outline) =
        (Outline.node content (xs.map outline)).retext text i ∧ ∀ x ∈ xs', p x := by
  cases i with
  | zero => exact ⟨xs, by rw [retext]; rfl, hxs⟩
  | succ i =>
    obtain ⟨xs', heq, hp⟩ := exists_map_eq_retextAmong h hxs i
    exact ⟨xs', by rw [retext, heq]; rfl, hp⟩

/-- A leaf has no text but its own. -/
theorem retext_leaf (text : String) (i : Nat) (content : Content String) :
    (leaf content).retext text i = leaf (if i = 0 then content.map fun _ ↦ text else content) := by
  cases i with
  | zero => rw [leaf, retext]; rfl
  | succ i => rw [leaf, retext, retextAmong]; rfl

/-- What is wrong with a value does not depend on whose value it is. -/
theorem Value.violations_eq_nil_of_owner {owner : String} {v : Value}
    (h : v.violations owner = []) (owner' : String) : v.violations owner' = [] := by
  cases v with
  | scalar s => exact h
  | array elements =>
    refine List.flatMap_eq_nil_iff.2 fun x hx ↦ ?_
    obtain ⟨s, rfl⟩ := Value.exists_scalar_of_mem_array h hx
    exact List.flatMap_eq_nil_iff.1 h (.scalar s) hx

include htext

theorem MemberType.violations_map {t : MemberType String} :
    (t.map fun _ ↦ text).violations = [] := by
  cases t with
  | enumeration | entity => exact Violation.ofReference_eq_nil.2 htext
  | _ => rfl

theorem Scalar.violations_map {v : Scalar String} : (v.map fun _ ↦ text).violations = [] := by
  cases v with
  | literal | contained => exact Violation.ofReference_eq_nil.2 htext
  | _ => rfl

/-- A tree of a scalar with another text is the tree of another scalar, which is refused no more
than the first. -/
theorem Scalar.exists_retext {v : Scalar String} (hv : v.violations = []) (i : Nat) :
    ∃ v' : Scalar String, leaf (.value v') = (leaf (.value v)).retext text i ∧
      v'.violations = [] := by
  rw [retext_leaf]
  split
  · exact ⟨v.map fun _ ↦ text, rfl, v.violations_map htext⟩
  · exact ⟨v, rfl, hv⟩

theorem Value.exists_retext {owner : String} {v : Value} (hv : v.violations owner = [])
    (i : Nat) : ∃ v' : Value, v'.outline = v.outline.retext text i ∧ v'.violations owner = [] := by
  cases v with
  | scalar s =>
    obtain ⟨s', hs', hviolations⟩ := Scalar.exists_retext htext hv i
    exact ⟨.scalar s', hs', hviolations⟩
  | array elements =>
    have helement : ∀ x ∈ elements, ∀ i, ∃ x' : Value, x'.outline = x.outline.retext text i ∧
        x'.elementViolations owner = [] := by
      intro x hx i
      obtain ⟨s, rfl⟩ := Value.exists_scalar_of_mem_array hv hx
      have hs : s.violations = [] := List.flatMap_eq_nil_iff.1 hv (.scalar s) hx
      obtain ⟨s', hs', hviolations⟩ := Scalar.exists_retext htext hs i
      exact ⟨.scalar s', hs', hviolations⟩
    obtain ⟨elements', heq, hviolations⟩ :=
      exists_node_eq_retext helement (List.flatMap_eq_nil_iff.1 hv) .array i
    refine ⟨.array elements', ?_, List.flatMap_eq_nil_iff.2 hviolations⟩
    rw [outline, outline, outlines_eq_map, outlines_eq_map, ← heq, Content.map, ite_self]

/-- In a member the text is that of its type or one in its default. Its name is no reference. -/
theorem MemberSpec.exists_retext {m : MemberSpec} (hm : m.violations = []) (i : Nat) :
    ∃ m' : MemberSpec, m'.outline = m.outline.retext text i ∧ m'.violations = [] := by
  obtain ⟨hhead, hdefault⟩ := List.append_eq_nil_iff.1 hm
  obtain ⟨hname, htype⟩ := List.append_eq_nil_iff.1 hhead
  cases i with
  | zero => exact ⟨m, by rw [outline, retext]; rfl, hm⟩
  | succ i =>
    rw [outline, retext, retextAmong]
    split
    · -- the place is that of the type
      rename_i hi
      obtain rfl : i = 0 := Nat.lt_one_iff.1 hi
      refine ⟨{ m with type := m.type.map fun _ ↦ text }, ?_, ?_⟩
      · rw [retext_leaf]
        rfl
      · rw [violations, hname, m.type.violations_map htext]
        exact hdefault
    · obtain ⟨name, role, type, cardinality, unique, ordered, default⟩ := m
      cases default with
      | none => exact ⟨_, by rw [Option.toList_none, List.map_nil, retextAmong]; rfl, hm⟩
      | some v =>
        rw [Option.toList_some, List.map_singleton, retextAmong]
        split
        · have hv : v.violations name = [] := by simpa using hdefault
          obtain ⟨v', hv', hviolations⟩ :=
            Value.exists_retext htext hv (i - (leaf (.type type)).size)
          refine ⟨⟨name, role, type, cardinality, unique, ordered, some v'⟩, ?_, ?_⟩
          · rw [← hv']
            rfl
          · rw [violations, hname, htype]
            simpa using hviolations
        · exact ⟨_, by rw [retextAmong]; rfl, hm⟩

theorem AssignmentSpec.exists_retext {a : AssignmentSpec} (ha : a.violations = []) (i : Nat) :
    ∃ a' : AssignmentSpec, a'.outline = a.outline.retext text i ∧ a'.violations = [] := by
  obtain ⟨hmember, hvalue⟩ := List.append_eq_nil_iff.1 ha
  cases i with
  | zero =>
    refine ⟨⟨text, a.value⟩, by rw [outline, outline, retext]; rfl, ?_⟩
    rw [violations, Violation.ofReference_eq_nil.2 htext]
    exact Value.violations_eq_nil_of_owner hvalue text
  | succ i =>
    rw [outline, retext, retextAmong]
    split
    · obtain ⟨v', hv', hviolations⟩ := Value.exists_retext htext hvalue i
      refine ⟨⟨a.member, v'⟩, by rw [← hv']; rfl, ?_⟩
      rw [violations, hmember]
      exact hviolations
    · exact ⟨a, by rw [retextAmong]; rfl, ha⟩

theorem ImportItem.exists_retext {x : ImportItem} (hx : x.violations = []) (i : Nat) :
    ∃ x' : ImportItem, x'.outline = x.outline.retext text i ∧ x'.violations = [] := by
  obtain ⟨hrename, hname⟩ := List.append_eq_nil_iff.1 hx
  rw [outline, retext_leaf]
  split
  · refine ⟨⟨text, x.rename⟩, rfl, ?_⟩
    rw [violations, hrename]
    exact Violation.ofReference_eq_nil.2 htext
  · exact ⟨x, rfl, hx⟩

/-- The text can be written into every accepted declaration, and the result is accepted. -/
theorem Declaration.exists_retext {x : Declaration} (hx : x.violations = []) (i : Nat) :
    ∃ x' : Declaration, x'.outline = x.outline.retext text i ∧ x'.violations = [] := by
  -- one reference, which is the text or what it was
  have hreference {site : Site} {old : String} (h : Violation.ofReference site old = []) :
      Violation.ofReference site (if i = 0 then text else old) = [] := by
    split
    · exact Violation.ofReference_eq_nil.2 htext
    · exact h
  cases x with
  | imports s =>
    obtain ⟨hsource, hitems⟩ := List.append_eq_nil_iff.1 hx
    have hviolations := List.flatMap_eq_nil_iff.1 hitems
    obtain ⟨items, heq, hitems'⟩ := exists_node_eq_retext
      (fun x hx ↦ ImportItem.exists_retext htext (hviolations x hx)) hviolations
      (.importClause s.source) i
    refine ⟨.imports ⟨if i = 0 then text else s.source, items⟩, ?_, ?_⟩
    · rw [outline, outline, ← heq]
      split <;> rfl
    · rw [violations, hreference hsource]
      exact List.flatMap_eq_nil_iff.2 hitems'
  | entity s =>
    obtain ⟨hname, hmembers⟩ := List.append_eq_nil_iff.1 hx
    have hviolations := List.flatMap_eq_nil_iff.1 hmembers
    obtain ⟨members, heq, hmembers'⟩ := exists_node_eq_retext
      (fun m hm ↦ MemberSpec.exists_retext htext (hviolations m hm)) hviolations
      (.entity s.name s.id) i
    refine ⟨.entity ⟨s.name, s.id, members⟩, ?_, ?_⟩
    · rw [outline, outline, ← heq, Content.map, ite_self]
    · rw [violations, hname]
      exact List.flatMap_eq_nil_iff.2 hmembers'
  | enumeration s =>
    obtain ⟨hname, hliterals⟩ := List.append_eq_nil_iff.1 hx
    have hviolations := List.flatMap_eq_nil_iff.1 hliterals
    -- a literal is no reference, and stays
    have hliteral : ∀ l ∈ s.literals, ∀ i, ∃ l' : String,
        leaf (.literal l') = (leaf (.literal l)).retext text i ∧ Violation.ofName l' = [] := by
      intro l hl i
      exact ⟨l, by rw [retext_leaf, Content.map, ite_self], hviolations l hl⟩
    obtain ⟨literals, heq, hliterals'⟩ := exists_node_eq_retext hliteral hviolations
      (.enumeration s.name) i
    refine ⟨.enumeration ⟨s.name, literals⟩, ?_, ?_⟩
    · rw [outline, outline, ← heq, Content.map, ite_self]
    · rw [violations, hname]
      exact List.flatMap_eq_nil_iff.2 hliterals'
  | instantiation s =>
    obtain ⟨hhead, hassignments⟩ := List.append_eq_nil_iff.1 hx
    obtain ⟨hname, hentity⟩ := List.append_eq_nil_iff.1 hhead
    have hviolations := List.flatMap_eq_nil_iff.1 hassignments
    obtain ⟨assignments, heq, hassignments'⟩ := exists_node_eq_retext
      (fun a ha ↦ AssignmentSpec.exists_retext htext (hviolations a ha)) hviolations
      (.instantiation s.name s.entity) i
    refine ⟨.instantiation ⟨s.name, if i = 0 then text else s.entity, assignments⟩, ?_, ?_⟩
    · rw [outline, outline, ← heq]
      split <;> rfl
    · rw [violations, hname, hreference hentity]
      exact List.flatMap_eq_nil_iff.2 hassignments'

end Declarations

/-! ### Writing into documents -/

/-- Declarations whose trees have roots of the same kinds and begin at the same places are imports
at the same places. -/
theorem Declaration.placesOf_congr {n : LocalId} {xs xs' : List Declaration}
    (hkinds : xs'.map (·.outline.content.kind) = xs.map (·.outline.content.kind))
    (hplaces : places n (xs'.map outline) = places n (xs.map outline)) (q : Kind → Bool) :
    placesOf (fun x ↦ q x.outline.content.kind) n xs' =
      placesOf (fun x ↦ q x.outline.content.kind) n xs := by
  have hzip (xs : List Declaration) : placesOf (fun x ↦ q x.outline.content.kind) n xs =
      (((xs.map (·.outline.content.kind)).zip (places n (xs.map outline))).filter
        fun e ↦ q e.1).map (·.2) := by
    rw [List.zip_map_left, List.filter_map, List.map_map]
    rfl
  rw [hzip, hzip, hkinds, hplaces]

theorem Declaration.isImport_eq (x : Declaration) :
    x.isImport = decide (x.outline.content.kind = .importClause) := by
  cases x <;> rfl

namespace Document

namespace Lays

variable {d d' : Document} {xs xs' : List Declaration}

/-- A node says what its seed says. -/
theorem node_eq_seed (h : d.Lays xs) (i : Nat) :
    let seed? := (seedsOf 0 1 (xs.map Declaration.outline))[i]?
    d.parent? (i + 1) = seed?.map (·.parent) ∧
      d.children (i + 1) = (seed?.map (·.children)).getD [] ∧
      d.bareContent? (i + 1) = seed?.map (·.content) := by
  dsimp only
  simp only [parent?, children, bareContent?, content?, node?_succ]
  obtain ⟨hnode, hseed⟩ | ⟨node, seed, hnode, hseed, hi⟩ := h.getElem?_body i
  · rw [hnode, hseed]
    exact ⟨rfl, rfl, rfl⟩
  · obtain ⟨parent, hparent, rfl⟩ := Option.map_eq_some_iff.1 hi
    rw [hnode, hseed]
    exact ⟨hparent, rfl, rfl⟩

/-- Where a text is written into the tree of one declaration, the documents that are laid out differ
in this text. -/
theorem retexts (h : d.Lays xs) (h' : d'.Lays xs') (hfile : d'.file = d.file)
    (hname : d'.name = d.name) {text : String} {i : Nat}
    (houtlines : xs'.map Declaration.outline =
      retextAmong text i (xs.map Declaration.outline)) : d.Retexts d' (i + 1) text := by
  have hkinds : xs'.map (·.outline.content.kind) = xs.map (·.outline.content.kind) := by
    have hmap := map_kind_retextAmong text i (xs.map Declaration.outline)
    rwa [← houtlines, List.map_map, List.map_map] at hmap
  have hplaces : places 1 (xs'.map Declaration.outline) =
      places 1 (xs.map Declaration.outline) := by
    rw [houtlines, places_retextAmong]
  have himports : d'.imports = d.imports := by
    rw [h.imports, h'.imports, funext Declaration.isImport_eq]
    exact Declaration.placesOf_congr hkinds hplaces fun k ↦ decide (k = .importClause)
  have hclassifiers : d'.classifiers = d.classifiers := by
    rw [h.classifiers, h'.classifiers, funext Declaration.isImport_eq]
    exact Declaration.placesOf_congr hkinds hplaces fun k ↦ !decide (k = .importClause)
  have hseed (j : Nat) : (seedsOf 0 1 (xs'.map Declaration.outline))[j]? =
      (seedsOf 0 1 (xs.map Declaration.outline))[j]?.map fun seed ↦
        if i = j then seed.retext text else seed := by
    rw [houtlines, seedsOf_retextAmong, List.getElem?_modify]
    rfl
  have hroot : d'.root.content = d.root.content ∧ d'.root.children = d.root.children := by
    rw [root, root, hname, himports, hclassifiers]
    exact ⟨rfl, rfl⟩
  refine ⟨hfile, hname, himports, hclassifiers, ?_, fun j ↦ ?_, fun j ↦ ?_, ?_, fun j hj ↦ ?_⟩
  · rw [h.size_eq, h'.size_eq, houtlines, sizes_retextAmong]
  · cases j with
    | zero => rfl
    | succ j =>
      rw [(h.node_eq_seed j).1, (h'.node_eq_seed j).1, hseed, Option.map_map]
      refine congrArg (Option.map · _) (funext fun seed ↦ ?_)
      dsimp only [Function.comp]
      split <;> rfl
  · cases j with
    | zero => exact hroot.2
    | succ j =>
      rw [(h.node_eq_seed j).2.1, (h'.node_eq_seed j).2.1, hseed, Option.map_map]
      refine congrArg (fun f ↦ (Option.map f _).getD []) (funext fun seed ↦ ?_)
      dsimp only [Function.comp]
      split <;> rfl
  · rw [(h.node_eq_seed i).2.2, (h'.node_eq_seed i).2.2, hseed, Option.map_map, Option.map_map]
    refine congrArg (Option.map · _) (funext fun seed ↦ ?_)
    dsimp only [Function.comp]
    rw [if_pos rfl, Seed.retext]
  · cases j with
    | zero =>
      show some (d'.root.content.map _) = some (d.root.content.map _)
      rw [hroot.1]
    | succ j =>
      rw [(h.node_eq_seed j).2.2, (h'.node_eq_seed j).2.2, hseed, Option.map_map]
      refine congrArg (Option.map · _) (funext fun seed ↦ ?_)
      dsimp only [Function.comp]
      rw [if_neg fun hij ↦ hj (congrArg (· + 1) hij.symm)]

end Lays

/-- **A text can be written at any one reference**: there is a draft of a document that differs from
a drafted one in nothing but this text and in ranges. -/
theorem Drafted.exists_retexts {d : Document} (hd : d.Drafted) (i : LocalId) {text : String}
    (htext : Text.isBlank text = false) :
    ∃ edits d' outcomes, ofEdits? d.file d.name edits = .ok (d', outcomes) ∧
      d.Retexts d' i text := by
  obtain ⟨file, name, edits, outcomes, hedits⟩ := hd
  obtain ⟨hdraft, -⟩ := eq_drafting_of_ofEdits? hedits
  have hfile : d.file = file := by rw [hdraft, file_drafting]
  have hname : d.name = name := by rw [hdraft, name_drafting]
  cases i with
  | zero =>
    -- the root holds no reference
    refine ⟨edits, d, outcomes, hfile ▸ hname ▸ hedits, ?_⟩
    exact ⟨rfl, rfl, rfl, rfl, rfl, fun _ ↦ rfl, fun _ ↦ rfl, rfl, fun _ _ ↦ rfl⟩
  | succ i =>
    have hlays := lays_drafting_declarations file name edits
    rw [← hdraft] at hlays
    obtain ⟨xs, houtlines, hxs⟩ := exists_map_eq_retextAmong
      (fun x hx ↦ Declaration.exists_retext htext (hlays.accepted x hx)) hlays.accepted i
    have hlays' := lays_drafting_declare d.file d.name hxs
    have hqualified : Text.isQualifiedName d.name = true :=
      Drafted.isQualifiedName ⟨file, name, edits, outcomes, hedits⟩
    exact ⟨_, _, _, ofEdits?_eq_ok d.file (xs.map .declare) hqualified,
      hlays.retexts hlays' (file_drafting _ _ _) (name_drafting _ _ _) houtlines⟩

end Document

end Schemata
