import Schemata.Proofs.Reading

/-!
# Documents that say the same

What drafting loses is how imports and classifiers were mixed, and that is seen in the places only.
Two documents drafted from the same imports and the same classifiers are one document with its
places renumbered (`Document.Renumbers`), apart from ranges. The renumbering takes the order of one
tree to the order of the other. The tree of a declaration is a block of places in both, and moves as
a whole.

Together with `Document.Lays.writtenImports?_eq` this says that a document holds what was declared
and nothing else (`Document.ofEdits?_readBack`).
-/

namespace Schemata

open Outline Declaration

/-- A node apart from its range, with the places that it names renumbered. -/
def Seed.renumber (σ : LocalId → LocalId) (seed : Seed) : Seed :=
  ⟨seed.content, σ seed.parent, seed.children.map σ⟩

namespace Document

section Classes

variable {classes : Text.IdentifierClasses}

/-- Whether a document is another one with its places renumbered, apart from ranges. -/
structure Renumbers (σ : LocalId → LocalId) (d d' : Document) : Prop where
  file : d'.file = d.file
  name : d'.name = d.name
  root : σ 0 = 0
  /-- The renumbering takes the places of one document to those of the other, one to one. -/
  places_perm : ((List.range d.size).map σ).Perm (List.range d'.size)
  imports : d'.imports = d.imports.map σ
  classifiers : d'.classifiers = d.classifiers.map σ
  /-- Every node says the same, below the same parent and above the same children in order. -/
  seed? : ∀ n < d.size, d'.seed? (σ n) = (d.seed? n).map (Seed.renumber σ)

/-! ### One tree at two places -/

section Blocks

variable {d d' : Document} {σ : LocalId → LocalId}

theorem places_map {n n' : Nat} {ts : List Outline}
    (hσ : ∀ j < sizes ts, σ (n + j) = n' + j) : (places n ts).map σ = places n' ts := by
  induction ts generalizing n n' with
  | nil => rfl
  | cons t ts ih =>
    rw [sizes] at hσ
    have hpos : 0 < t.size := t.size_pos
    have hhead : σ n = n' := hσ 0 (by omega)
    have htail : ∀ j < sizes ts, σ (n + t.size + j) = n' + t.size + j := fun j hj ↦ by
      rw [Nat.add_assoc, Nat.add_assoc]
      exact hσ (t.size + j) (by omega)
    rw [places, List.map_cons, hhead, ih htail, places]

mutual

/-- If a renumbering moves a tree as a whole and takes its parent to the other, it takes the nodes
of the tree to each other. -/
theorem Holds.seed?_renumber {p p' n n' : Nat} : (t : Outline) → d.Holds p n t → d'.Holds p' n' t →
    σ p = p' → (∀ j < t.size, σ (n + j) = n' + j) →
    ∀ j < t.size, d'.seed? (n' + j) = (d.seed? (n + j)).map (Seed.renumber σ)
  | .node content children, h, h', hp, hσ, j, hj => by
    have hroot : σ n = n' := hσ 0 (size_pos _)
    have hbelow : ∀ j < sizes children, σ (n + 1 + j) = n' + 1 + j := fun j hj ↦ by
      rw [Nat.add_assoc, Nat.add_assoc]
      exact hσ (1 + j) (by rw [Outline.size]; omega)
    rcases j with - | j
    · rw [Nat.add_zero, Nat.add_zero, h.1, h'.1, Option.map_some, Seed.renumber, hp,
        places_map hbelow]
    · rw [Outline.size] at hj
      rw [Nat.add_comm j 1, ← Nat.add_assoc, ← Nat.add_assoc]
      exact HoldsAll.seed?_renumber children h.2 h'.2 hroot hbelow j (by omega)

theorem HoldsAll.seed?_renumber {p p' n n' : Nat} : (ts : List Outline) →
    d.HoldsAll p n ts → d'.HoldsAll p' n' ts → σ p = p' →
    (∀ j < sizes ts, σ (n + j) = n' + j) →
    ∀ j < sizes ts, d'.seed? (n' + j) = (d.seed? (n + j)).map (Seed.renumber σ)
  | [], _, _, _, _, j, hj => absurd hj (Nat.not_lt_zero j)
  | t :: ts, h, h', hp, hσ, j, hj => by
    rw [sizes] at hσ hj
    by_cases hinside : j < t.size
    · exact Holds.seed?_renumber t h.1 h'.1 hp (fun j hj ↦ hσ j (by omega)) j hinside
    · have hrest : ∀ j < sizes ts, σ (n + t.size + j) = n' + t.size + j := fun j hj ↦ by
        rw [Nat.add_assoc, Nat.add_assoc]
        exact hσ (t.size + j) (by omega)
      obtain ⟨k, rfl⟩ : ∃ k, j = t.size + k := ⟨j - t.size, by omega⟩
      rw [← Nat.add_assoc, ← Nat.add_assoc]
      exact HoldsAll.seed?_renumber ts h.2 h'.2 hp hrest k (by omega)

end

end Blocks

/-! ### A renumbering from one order to another -/

/-- A list without repeats can be taken to any list of its length. -/
theorem exists_map_eq {l l' : List LocalId} (hl : l.Nodup) (hlength : l.length = l'.length) :
    ∃ σ : LocalId → LocalId, l.map σ = l' := by
  induction l generalizing l' with
  | nil => exact ⟨fun n ↦ n, (List.length_eq_zero_iff.1 hlength.symm).symm⟩
  | cons n l ih =>
    obtain ⟨hn, hl⟩ := List.nodup_cons.1 hl
    cases l' with
    | nil => cases hlength
    | cons n' l' =>
      obtain ⟨σ, hσ⟩ := ih hl (Nat.succ.inj hlength)
      refine ⟨Function.update σ n n', ?_⟩
      rw [List.map_cons, Function.update_self, ← hσ]
      refine congrArg (n' :: ·) (List.map_congr_left fun m hm ↦ Function.update_of_ne ?_ _ _)
      rintro rfl
      exact hn hm

/-- Rows of the same declarations at different places: what takes one row of blocks to the other
takes each block to its counterpart. -/
theorem exists_counterpart {σ : LocalId → LocalId} {es es' : List (Declaration × LocalId)}
    (hsame : es.map (·.1) = es'.map (·.1)) (hσ : (es.flatMap block).map σ = es'.flatMap block) :
    (es.map (·.2)).map σ = es'.map (·.2) ∧
      ∀ e ∈ es, ∃ e' ∈ es', e'.1 = e.1 ∧ ∀ j < e.1.outline.size, σ (e.2 + j) = e'.2 + j := by
  induction es generalizing es' with
  | nil =>
    obtain rfl := List.map_eq_nil_iff.1 hsame.symm
    exact ⟨rfl, by simp⟩
  | cons e es ih =>
    obtain ⟨e', es', rfl, hfst, hrest⟩ := List.map_eq_cons_iff.1 hsame.symm
    rw [List.flatMap_cons, List.flatMap_cons, List.map_append] at hσ
    have hlength : ((block e).map σ).length = (block e').length := by
      rw [List.length_map, block, block, List.length_range', List.length_range', hfst]
    obtain ⟨hblock, hblocks⟩ := List.append_inj hσ hlength
    obtain ⟨hplaces, hcounterpart⟩ := ih hrest.symm hblocks
    have hshift : ∀ j < e.1.outline.size, σ (e.2 + j) = e'.2 + j := fun j hj ↦ by
      have hget := congrArg (·[j]?) hblock
      simpa [block, List.getElem?_range', hfst, hj] using hget
    refine ⟨?_, ?_⟩
    · have hhead : σ e.2 = e'.2 := hshift 0 e.1.outline.size_pos
      rw [List.map_cons, List.map_cons, List.map_cons, hhead, hplaces]
    · rintro f hf
      rcases List.mem_cons.1 hf with rfl | hf
      · exact ⟨e', List.mem_cons_self, hfst, hshift⟩
      · obtain ⟨f', hf', hcounterpart⟩ := hcounterpart f hf
        exact ⟨f', List.mem_cons_of_mem e' hf', hcounterpart⟩

/-! ### The same imports and the same classifiers -/

namespace Lays

variable {d : Document} {xs : List Declaration}

theorem length_imports (h : d.Lays xs) : d.imports.length = (xs.filter isImport).length := by
  rw [h.imports, placesOf, List.length_map, ← map_fst_filter_laid isImport 1 xs, List.length_map]

/-- Every place but that of the root is in the block of a declaration. -/
theorem exists_block (h : d.Lays xs) {n : Nat} (hn : n < d.size) :
    n = 0 ∨ ∃ e ∈ arranged 1 xs, ∃ j < e.1.outline.size, n = e.2 + j := by
  have hlisted : n ∈ d.preorder := h.preorder_perm.mem_iff.2 (List.mem_range.2 hn)
  rw [h.preorder_eq] at hlisted
  rcases List.mem_cons.1 hlisted with hroot | hlisted
  · exact .inl hroot
  · obtain ⟨e, he, hmem⟩ := List.mem_flatMap.1 hlisted
    rw [block, List.mem_range'_1] at hmem
    exact .inr ⟨e, he, n - e.2, by omega, by omega⟩

end Lays

section SameDeclarations

variable {d d' : Document} {xs ys : List Declaration}
  (himports : ys.filter isImport = xs.filter isImport)
  (hclassifiers : ys.filter (fun x ↦ !x.isImport) = xs.filter fun x ↦ !x.isImport)
include himports hclassifiers

theorem map_fst_arranged_eq (n : LocalId) :
    (arranged n xs).map (·.1) = (arranged n ys).map (·.1) := by
  simp only [arranged, List.map_append, map_fst_filter_laid isImport,
    map_fst_filter_laid fun x ↦ !x.isImport, himports, hclassifiers]

variable (h : d.Lays xs) (h' : d'.Lays ys)
include h h'

theorem length_preorder_eq : d.preorder.length = d'.preorder.length := by
  have hlength (es : List (Declaration × LocalId)) :
      (es.flatMap block).length = ((es.map (·.1)).map fun x ↦ x.outline.size).sum := by
    rw [List.length_flatMap, List.map_map]
    exact congrArg List.sum (List.map_congr_left fun e _ ↦ List.length_range')
  rw [h.preorder_eq, h'.preorder_eq, List.length_cons, List.length_cons, hlength, hlength,
    map_fst_arranged_eq himports hclassifiers]

theorem exists_renumbers (hfile : d'.file = d.file) (hname : d'.name = d.name) :
    ∃ σ, Renumbers σ d d' := by
  have hnodup : d.preorder.Nodup := h.preorder_perm.nodup_iff.2 List.nodup_range
  obtain ⟨σ, hσ⟩ :=
    exists_map_eq hnodup (length_preorder_eq himports hclassifiers h h')
  have hperm : ((List.range d.size).map σ).Perm (List.range d'.size) :=
    ((h.preorder_perm.map σ).symm.trans (hσ ▸ .refl _)).trans h'.preorder_perm
  have hpreorder := hσ
  rw [h.preorder_eq, h'.preorder_eq, List.map_cons, List.cons.injEq] at hpreorder
  obtain ⟨hroot, hblocks⟩ := hpreorder
  obtain ⟨hplaces, hcounterpart⟩ :=
    exists_counterpart (map_fst_arranged_eq himports hclassifiers 1) hblocks
  rw [h.map_snd_arranged, h'.map_snd_arranged, List.map_append] at hplaces
  have hlength : (d.imports.map σ).length = d'.imports.length := by
    rw [List.length_map, h.length_imports, h'.length_imports, himports]
  obtain ⟨hmapImports, hmapClassifiers⟩ := List.append_inj hplaces hlength
  refine ⟨σ, hfile, hname, hroot, hperm, hmapImports.symm, hmapClassifiers.symm, fun n hn ↦ ?_⟩
  rcases h.exists_block hn with rfl | ⟨e, he, j, hj, rfl⟩
  · -- the root is no seed
    rw [hroot]
    rfl
  · obtain ⟨e', he', hsame, hshift⟩ := hcounterpart e he
    have hholds := h.holds_of_mem_arranged he
    have hholds' := h'.holds_of_mem_arranged he'
    rw [hsame] at hholds'
    rw [hshift j hj]
    exact hholds.seed?_renumber _ hholds' hroot hshift j hj

end SameDeclarations

/-- **A document holds what was declared.** Whatever is declared, refused and moved, the document
has the name that it was given, and the accepted imports and the accepted classifiers are read back
from it, in the order of declaration and with all that they say. Two drafts of one name that accept
the same imports and the same classifiers, mixed in any way, come to documents that differ in
nothing but places and ranges. -/
theorem ofEdits?_readBack (file : FileId) {name : String} (edits : List Edit)
    (h : Text.isQualifiedName name = true) :
    ∃ d outcomes, ofEdits? file name edits = .ok (d, outcomes) ∧ d.name = name ∧
      d.writtenImports? = some ((Edit.accepted edits outcomes).filter isImport) ∧
      d.writtenClassifiers? = some ((Edit.accepted edits outcomes).filter fun x ↦ !x.isImport) ∧
      ∀ edits' d' outcomes', ofEdits? file name edits' = .ok (d', outcomes') →
        (Edit.accepted edits' outcomes').filter isImport =
          (Edit.accepted edits outcomes).filter isImport →
        ((Edit.accepted edits' outcomes').filter fun x ↦ !x.isImport) =
          (Edit.accepted edits outcomes).filter (fun x ↦ !x.isImport) →
        ∃ σ, Renumbers σ d d' := by
  have hlays := lays_drafting file name edits
  refine ⟨_, _, ofEdits?_eq_ok file edits h, name_drafting file name edits,
    hlays.writtenImports?_eq, hlays.writtenClassifiers?_eq, ?_⟩
  intro edits' d' outcomes' hd' himports hclassifiers
  obtain ⟨rfl, rfl⟩ := eq_drafting_of_ofEdits? hd'
  exact exists_renumbers himports hclassifiers hlays (lays_drafting file name edits')
    ((file_drafting file name edits').trans (file_drafting file name edits).symm)
    ((name_drafting file name edits').trans (name_drafting file name edits).symm)

end Classes

/-- An import of a classifier under another name. -/
def unitImport : Declaration := .imports ⟨"u", [⟨"Unit", some "U"⟩]⟩

/-- An entity with an array for a default, in which the negative zero comes first. -/
def probe : Declaration :=
  .entity ⟨"Probe", some "p", [⟨"x", .attribute, .float, ⟨some 1, none, true⟩, true, false,
    some (.array [.scalar (.float ⟨0x8000000000000000⟩), .scalar (.integer 7)])⟩]⟩

/-- The import before the entity. -/
def orderly : List Edit := [.declare unitImport, .declare probe]

/-- The entity before the import, and a refused entity and a move between them. -/
def mixed : List Edit :=
  [.declare probe, .declare (.entity ⟨"", none, []⟩), .setRange 1 ⟨30, 35⟩, .declare unitImport]

/-- The two drafts come to one document up to places and ranges. -/
theorem ofEdits?_readBack_ofMixed :
    Text.isQualifiedName "m" = true ∧
    ∃ d d' outcomes σ, ofEdits? ⟨0⟩ "m" orderly = .ok (d, [.declared 1, .declared 3]) ∧
      ofEdits? ⟨0⟩ "m" mixed = .ok (d', outcomes) ∧
      d.writtenImports? = some [unitImport] ∧ d.writtenClassifiers? = some [probe] ∧
      Renumbers σ d d' := by
  have hname : Text.isQualifiedName "m" = true := by decide
  have hmixed : (Draft.drafting ⟨0⟩ "m" mixed).2 =
      [.declared 1, .refused (.invalidIdentifier ""), .ranged, .declared 7] := by
    decide
  obtain ⟨d, outcomes, hd, -, himports, hclassifiers, hrenumbers⟩ :=
    ofEdits?_readBack ⟨0⟩ orderly hname
  have houtcomes : outcomes = [.declared 1, .declared 3] := by
    rw [(eq_drafting_of_ofEdits? hd).2]
    decide
  subst houtcomes
  obtain ⟨σ, hσ⟩ := hrenumbers mixed _ _ (ofEdits?_eq_ok ⟨0⟩ mixed hname)
    (by rw [hmixed]; rfl) (by rw [hmixed]; rfl)
  exact ⟨hname, d, _, _, σ, hd, ofEdits?_eq_ok ⟨0⟩ mixed hname, himports, hclassifiers, hσ⟩

end Document

end Schemata
