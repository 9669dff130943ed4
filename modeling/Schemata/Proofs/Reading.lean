import Mathlib.Logic.Function.Basic
import Schemata.Document.Reading
import Schemata.Proofs.DocumentOrder

/-!
# A document can be read back

Drafting loses nothing that a declaration says. From the document alone, its imports and its
classifiers are read back as the declarations that were accepted, each list in the order of
declaration (`Document.Lays.writtenImports?_eq`, `Document.Lays.writtenClassifiers?_eq`).

Each reader is settled on the tree of what it reads, wherever that tree stands in a document. That a
declaration was accepted matters in one place: an array inside an array could not be read, and no
accepted declaration has one.
-/

namespace Schemata

variable {classes : Text.IdentifierClasses}

open Outline Declaration

namespace Document

variable {d d' : Document} {parent n : Nat}

/-! ### Reading what stands at a place -/

theorem Holds.bareContent?_eq {content : Content String} {children : List Outline}
    (h : d.Holds parent n (.node content children)) : d.bareContent? n = some content := by
  obtain ⟨node, hnode, hcontent, -, -⟩ := h.node?
  rw [bareContent?, content?, hnode, Option.map_some, Option.map_some, hcontent]

/-- What can be read at each of some places can be read of all. -/
theorem mapM_map_snd_eq {α : Type} {read : LocalId → Option α} {es : List (α × LocalId)}
    (h : ∀ e ∈ es, read e.2 = some e.1) : (es.map (·.2)).mapM read = some (es.map (·.1)) := by
  induction es with
  | nil => rfl
  | cons e es ih =>
    rw [List.map_cons, List.mapM_cons, h e List.mem_cons_self,
      ih fun e' he' ↦ h e' (List.mem_cons_of_mem e he')]
    rfl

/-- If the trees of some specs can be read back where they stand, so can a row of them. -/
theorem HoldsAll.mapM_eq {α : Type} {f : α → Outline} {read : LocalId → Option α} {xs : List α}
    (h : d.HoldsAll parent n (xs.map f))
    (hread : ∀ x ∈ xs, ∀ m, d.Holds parent m (f x) → read m = some x) :
    (places n (xs.map f)).mapM read = some xs := by
  have hlength : xs.length = (places n (xs.map f)).length := by simp
  have hall : ∀ e ∈ xs.zip (places n (xs.map f)), read e.2 = some e.1 := by
    rintro ⟨x, m⟩ he
    refine hread x (List.of_mem_zip he).1 m (h.holds ?_)
    rw [List.zip_map_left]
    exact List.mem_map.2 ⟨(x, m), he, rfl⟩
  have hmapM := mapM_map_snd_eq hall
  rwa [List.map_fst_zip hlength.le, List.map_snd_zip hlength.ge] at hmapM

/-- A value is read back: a scalar from its node, an array from its elements. -/
theorem writtenValue?_eq {owner : String} {v : Value} (hv : v.violations owner = [])
    (h : d.Holds parent n v.outline) : d.writtenValue? n = some v := by
  cases v with
  | scalar s => rw [writtenValue?, Holds.bareContent?_eq h]
  | array elements =>
    rw [Value.outline, Value.outlines_eq_map] at h
    have helements : (places (n + 1) (elements.map Value.outline)).mapM d.writtenElement? =
        some elements := by
      refine h.2.mapM_eq fun x hx m hm ↦ ?_
      obtain ⟨s, rfl⟩ := Value.exists_scalar_of_mem_array hv hx
      rw [writtenElement?, Holds.bareContent?_eq hm]
    rw [writtenValue?, h.bareContent?_eq, h.children_eq]
    simp only [helements, Option.map_some]

theorem writtenType?_eq {t : MemberType String} (h : d.Holds parent n (.leaf (.type t))) :
    d.writtenType? n = some t := by
  rw [writtenType?, Holds.bareContent?_eq h]

/-- A member is read back from its node, the type below it and, if there is one, the value after
that. -/
theorem writtenMember?_eq {m : MemberSpec} (hm : m.violations = [])
    (h : d.Holds parent n m.outline) : d.writtenMember? n = some m := by
  obtain ⟨name, role, type, cardinality, unique, ordered, default⟩ := m
  have hdefault := (List.append_eq_nil_iff.1 hm).2
  rw [MemberSpec.outline] at h
  have htype : d.writtenType? (n + 1) = some type := writtenType?_eq h.2.1
  rw [writtenMember?, h.bareContent?_eq, h.children_eq]
  cases default with
  | none => simp [places, htype]
  | some v =>
    have hv : v.violations name = [] := by simpa using hdefault
    have hvalue : d.writtenValue? (n + 1 + (Outline.leaf (.type type)).size) = some v :=
      writtenValue?_eq hv h.2.2.1
    simp [places, htype, hvalue]

theorem writtenItem?_eq {i : ImportItem} (h : d.Holds parent n i.outline) :
    d.writtenItem? n = some i := by
  rw [writtenItem?, Holds.bareContent?_eq h]

theorem writtenLiteral?_eq {name : String} (h : d.Holds parent n (.leaf (.literal name))) :
    d.writtenLiteral? n = some name := by
  rw [writtenLiteral?, Holds.bareContent?_eq h]

/-- An assignment is read back from its node and the value below it. -/
theorem writtenAssignment?_eq {a : AssignmentSpec} (ha : a.violations = [])
    (h : d.Holds parent n a.outline) : d.writtenAssignment? n = some a := by
  have hv : a.value.violations a.member = [] := (List.append_eq_nil_iff.1 ha).2
  rw [AssignmentSpec.outline] at h
  have hvalue : d.writtenValue? (n + 1) = some a.value := writtenValue?_eq hv h.2.1
  rw [writtenAssignment?, h.bareContent?_eq, h.children_eq]
  simp [places, hvalue]

/-- An accepted declaration is read back from where its tree stands. -/
theorem writtenDeclaration?_eq {x : Declaration} (hx : x.violations = [])
    (h : d.Holds parent n x.outline) : d.writtenDeclaration? n = some x := by
  cases x with
  | imports s =>
    rw [Declaration.outline] at h
    have hitems := h.2.mapM_eq fun i _ m hm ↦ writtenItem?_eq hm
    rw [writtenDeclaration?, h.bareContent?_eq, h.children_eq]
    simp only [hitems, Option.map_some]
  | entity s =>
    have hviolations := List.flatMap_eq_nil_iff.1 (List.append_eq_nil_iff.1 hx).2
    rw [Declaration.outline] at h
    have hmembers := h.2.mapM_eq fun m hm k hk ↦ writtenMember?_eq (hviolations m hm) hk
    rw [writtenDeclaration?, h.bareContent?_eq, h.children_eq]
    simp only [hmembers, Option.map_some]
  | enumeration s =>
    rw [Declaration.outline] at h
    have hliterals := h.2.mapM_eq fun l _ m hm ↦ writtenLiteral?_eq hm
    rw [writtenDeclaration?, h.bareContent?_eq, h.children_eq]
    simp only [hliterals, Option.map_some]
  | instantiation s =>
    have hviolations := List.flatMap_eq_nil_iff.1 (List.append_eq_nil_iff.1 hx).2
    rw [Declaration.outline] at h
    have hassignments := h.2.mapM_eq fun a ha m hm ↦ writtenAssignment?_eq (hviolations a ha) hm
    rw [writtenDeclaration?, h.bareContent?_eq, h.children_eq]
    simp only [hassignments, Option.map_some]

namespace Lays

variable {xs ys : List Declaration}

/-- The declarations that satisfy a condition are read back from their places, in order. -/
theorem mapM_placesOf_eq (h : d.Lays xs) (p : Declaration → Bool) :
    (placesOf p 1 xs).mapM d.writtenDeclaration? = some (xs.filter p) := by
  rw [placesOf, ← map_fst_filter_laid p 1 xs]
  refine mapM_map_snd_eq fun e he ↦ ?_
  obtain ⟨he, -⟩ := List.mem_filter.1 he
  exact writtenDeclaration?_eq (h.accepted e.1 (List.of_mem_zip he).1) (h.holds_of_mem_laid he)

/-- A document lists the declared imports, in order. -/
theorem writtenImports?_eq (h : d.Lays xs) : d.writtenImports? = some (xs.filter isImport) := by
  rw [writtenImports?, h.imports, h.mapM_placesOf_eq]

/-- And in a list of their own the other declarations, in order. -/
theorem writtenClassifiers?_eq (h : d.Lays xs) :
    d.writtenClassifiers? = some (xs.filter fun x ↦ !x.isImport) := by
  rw [writtenClassifiers?, h.classifiers, h.mapM_placesOf_eq]

end Lays

end Document

end Schemata
