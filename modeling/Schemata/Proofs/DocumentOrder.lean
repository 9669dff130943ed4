import Schemata.Proofs.Ranges

/-!
# The order of the tree and the order of the places

Places are given in the order of the declarations, and within a declaration in the order of its
tree. The root, however, has all its imports before its classifiers. So the order of the tree is the
order of the places, and the order in which the nodes start, exactly if no import is declared after
a classifier (`Document.ofEdits?_preorder_eq_range_iff`). One late import is enough to tear them
apart (`Document.preorder_ofLateImport`).
-/

namespace Schemata

open Outline

/-- Moving what satisfies a condition to the front changes nothing exactly if it is in front. -/
theorem filter_append_filter_not_eq_self_iff {α : Type} {p : α → Bool} {l : List α} :
    l.filter p ++ l.filter (fun a ↦ !p a) = l ↔ l.Pairwise fun a b ↦ p b = true → p a = true := by
  constructor
  · intro h
    rw [← h, List.pairwise_append]
    refine ⟨List.pairwise_of_forall_mem_list fun a ha _ _ _ ↦ (List.mem_filter.1 ha).2,
      List.pairwise_of_forall_mem_list fun a _ b hb hpb ↦ ?_,
      fun a ha _ _ _ ↦ (List.mem_filter.1 ha).2⟩
    have hnot := (List.mem_filter.1 hb).2
    rw [hpb] at hnot
    cases hnot
  · intro h
    induction h with
    | nil => rfl
    | @cons a l ha h ih =>
      cases hp : p a with
      | true => rw [List.filter_cons_of_pos hp, List.filter_cons_of_neg (by simp [hp]),
          List.cons_append, ih]
      | false =>
        -- nothing behind the first that fails satisfies the condition
        have hfails : ∀ b ∈ l, p b = false := fun b hb ↦ by
          by_contra hpb
          rw [ha b hb (by simpa using hpb)] at hp
          cases hp
        have hfirst : (a :: l).filter p = [] := by
          rw [List.filter_cons_of_neg (by simp [hp]), List.filter_eq_nil_iff]
          exact fun b hb ↦ by simp [hfails b hb]
        rw [hfirst, List.nil_append, List.filter_eq_self]
        intro b hb
        rcases List.mem_cons.1 hb with rfl | hb
        · simp [hp]
        · simp [hfails b hb]

namespace Declaration

/-- Whether no import is declared after a classifier. -/
def ImportsFirst (xs : List Declaration) : Prop :=
  xs.Pairwise fun x y ↦ y.isImport = true → x.isImport = true

instance (xs : List Declaration) : Decidable (ImportsFirst xs) :=
  inferInstanceAs (Decidable (xs.Pairwise fun x y ↦ y.isImport = true → x.isImport = true))

/-- Declarations with the places at which their trees begin, in the order in which the root has
them. -/
def arranged (n : LocalId) (xs : List Declaration) : List (Declaration × LocalId) :=
  (laid n xs).filter (fun e ↦ e.1.isImport) ++ (laid n xs).filter fun e ↦ !e.1.isImport

/-- The places of the tree of a declaration. -/
def block (e : Declaration × LocalId) : List LocalId := List.range' e.2 e.1.outline.size

theorem map_fst_laid (n : LocalId) (xs : List Declaration) : (laid n xs).map (·.1) = xs :=
  List.map_fst_zip (by simp)

theorem map_fst_filter_laid (p : Declaration → Bool) (n : LocalId) (xs : List Declaration) :
    ((laid n xs).filter fun e ↦ p e.1).map (·.1) = xs.filter p := by
  conv_rhs => rw [← map_fst_laid n xs, List.filter_map]
  rfl

theorem laid_cons (n : LocalId) (x : Declaration) (xs : List Declaration) :
    laid n (x :: xs) = (x, n) :: laid (n + x.outline.size) xs :=
  rfl

/-- The trees follow each other without a gap. -/
theorem flatMap_block_laid (n : LocalId) (xs : List Declaration) :
    (laid n xs).flatMap block = List.range' n (sizes (xs.map outline)) := by
  induction xs generalizing n with
  | nil => rfl
  | cons x xs ih =>
    rw [laid_cons, List.flatMap_cons, ih, List.map_cons, sizes]
    exact List.range'_append_1

theorem mem_block_self (e : Declaration × LocalId) : e.2 ∈ block e := by
  have hpos : 0 < e.1.outline.size := e.1.outline.size_pos
  rw [block, List.mem_range'_1]
  omega

/-- The trees begin in order, if their places are in order. -/
theorem pairwise_snd_of_flatMap_block {es : List (Declaration × LocalId)}
    (h : (es.flatMap block).Pairwise (· < ·)) : es.Pairwise fun a b ↦ a.2 < b.2 :=
  (List.pairwise_flatMap.1 h).2.imp fun hab ↦ hab _ (mem_block_self _) _ (mem_block_self _)

theorem arranged_perm (n : LocalId) (xs : List Declaration) : (arranged n xs).Perm (laid n xs) :=
  List.filter_append_perm (fun e : Declaration × LocalId ↦ e.1.isImport) (laid n xs)

theorem arranged_eq_laid_iff {n : LocalId} {xs : List Declaration} :
    arranged n xs = laid n xs ↔ ImportsFirst xs := by
  rw [arranged, ImportsFirst,
    filter_append_filter_not_eq_self_iff (p := fun e : Declaration × LocalId ↦ e.1.isImport)]
  conv_rhs => rw [← map_fst_laid n xs, List.pairwise_map]

/-- The trees are in the order of their places exactly if the imports come first. -/
theorem flatMap_block_arranged_eq_iff {n : LocalId} {xs : List Declaration} :
    (arranged n xs).flatMap block = List.range' n (sizes (xs.map outline)) ↔ ImportsFirst xs := by
  rw [← flatMap_block_laid, ← arranged_eq_laid_iff]
  refine ⟨fun h ↦ ?_, fun h ↦ by rw [h]⟩
  have hsorted : ((laid n xs).flatMap block).Pairwise (· < ·) := by
    rw [flatMap_block_laid]
    exact List.pairwise_lt_range' 1
  -- both lists hold the same trees and have them in the order of their places
  exact (arranged_perm n xs).eq_of_pairwise (fun _ _ _ _ hab hba ↦ absurd hab (Nat.lt_asymm hba))
    (pairwise_snd_of_flatMap_block (h ▸ hsorted)) (pairwise_snd_of_flatMap_block hsorted)

end Declaration

open Declaration

namespace Document

section Classes

variable {classes : Text.IdentifierClasses}

variable {d : Document} {xs : List Declaration}

namespace Lays

theorem map_snd_arranged (h : d.Lays xs) :
    (arranged 1 xs).map (·.2) = d.imports ++ d.classifiers := by
  rw [h.imports, h.classifiers, arranged, List.map_append]
  rfl

theorem holds_of_mem_laid (h : d.Lays xs) {e : Declaration × LocalId} (he : e ∈ laid 1 xs) :
    d.Holds 0 e.2 e.1.outline := by
  refine h.holdsAll.holds ?_
  rw [List.zip_map_left]
  exact List.mem_map.2 ⟨e, he, rfl⟩

theorem holds_of_mem_arranged (h : d.Lays xs) {e : Declaration × LocalId}
    (he : e ∈ arranged 1 xs) : d.Holds 0 e.2 e.1.outline :=
  h.holds_of_mem_laid ((arranged_perm 1 xs).mem_iff.1 he)

theorem size_le_of_mem_arranged (h : d.Lays xs) {e : Declaration × LocalId}
    (he : e ∈ arranged 1 xs) : e.1.outline.size ≤ d.size - 1 := by
  have hmem : e ∈ laid 1 xs := (arranged_perm 1 xs).mem_iff.1 he
  have hdeclared : e.1 ∈ xs := (List.of_mem_zip hmem).1
  have hle := size_le_sizes_of_mem (List.mem_map_of_mem (f := outline) hdeclared)
  rw [h.size_eq]
  omega

/-- The order of the tree lists the root, then the trees of the imports, then those of the
classifiers, and the nodes of each tree in the order of their places. -/
theorem preorder_eq (h : d.Lays xs) : d.preorder = 0 :: (arranged 1 xs).flatMap block := by
  have hsize : d.size = d.size - 1 + 1 := by rw [h.size_eq]; omega
  have hchildren : d.children 0 = (arranged 1 xs).map (·.2) := h.map_snd_arranged.symm
  rw [preorder, hsize, subtreeWithin, hchildren, List.flatMap_map]
  refine congrArg (0 :: ·) (List.flatMap_congr fun e he ↦ ?_)
  exact (h.holds_of_mem_arranged he).subtreeWithin_eq _ (h.size_le_of_mem_arranged he)

theorem preorder_eq_range_iff (h : d.Lays xs) :
    d.preorder = List.range d.size ↔ ImportsFirst xs := by
  rw [h.preorder_eq, h.size_eq, Nat.add_comm, List.range_eq_range', List.range'_succ,
    List.cons.injEq, eq_self, true_and]
  exact flatMap_block_arranged_eq_iff

end Lays

/-- The order of the tree is the order of the places if it is increasing. -/
theorem Drafted.pairwise_preorder_iff (h : d.Drafted) :
    d.preorder.Pairwise (· < ·) ↔ d.preorder = List.range d.size := by
  constructor
  · intro hsorted
    exact h.preorder_perm.eq_of_pairwise (fun _ _ _ _ hab hba ↦ absurd hab (Nat.lt_asymm hba))
      hsorted List.pairwise_lt_range
  · intro heq
    rw [heq]
    exact List.pairwise_lt_range

/-- The nodes of a document in the order of the tree. -/
def nodesInOrder (d : Document) : List Node := d.preorder.filterMap d.node?

/-- If no node was moved, the nodes start in the order of the tree exactly if that is the order of
their places. -/
theorem pairwise_start_nodesInOrder_iff {draft : Draft} (h : draft.Unmoved xs)
    (hdrafted : draft.document.Drafted) :
    (draft.document.nodesInOrder.Pairwise fun a b ↦ a.range.start < b.range.start) ↔
      draft.document.preorder = List.range draft.document.size := by
  rw [← hdrafted.pairwise_preorder_iff, nodesInOrder, List.pairwise_filterMap]
  refine List.Pairwise.iff_of_mem fun {m n} hm hn ↦ ?_
  have hnode {k : LocalId} (hk : k ∈ draft.document.preorder) :
      ∃ node, draft.document.node? k = some node := by
    have hlt : k < draft.document.size := List.mem_range.1 (hdrafted.preorder_perm.mem_iff.1 hk)
    exact Option.isSome_iff_exists.1 ((isSome_node?_iff _ _).2 hlt)
  obtain ⟨a, ha⟩ := hnode hm
  obtain ⟨b, hb⟩ := hnode hn
  rw [← h.start_lt_start_iff ha hb]
  simp [ha, hb]

/-- **The order of the tree is the order of the places exactly if the imports come first.** Whatever
is declared, refused and moved in between, the order of the tree counts the places from zero if and
only if no accepted import follows an accepted classifier. If no node was moved, the same condition
decides whether the nodes start in the order of the tree. -/
theorem ofEdits?_preorder_eq_range_iff (file : FileId) {name : String} (edits : List Edit)
    (h : Text.isQualifiedName name = true) :
    ∃ d outcomes, ofEdits? file name edits = .ok (d, outcomes) ∧
      (d.preorder = List.range d.size ↔ ImportsFirst (Edit.accepted edits outcomes)) ∧
      ((∀ n range, Edit.setRange n range ∉ edits) →
        ((d.nodesInOrder.Pairwise fun a b ↦ a.range.start < b.range.start) ↔
          ImportsFirst (Edit.accepted edits outcomes))) := by
  have horder := (lays_drafting file name edits).preorder_eq_range_iff
  refine ⟨_, _, ofEdits?_eq_ok file edits h, horder, fun hedits ↦ ?_⟩
  rw [← horder]
  exact pairwise_start_nodesInOrder_iff (Draft.Unmoved.drafting file name hedits)
    (drafted_drafting file edits h)

end Classes

/-- An import, a refused entity and an entity. -/
def earlyImport : List Edit :=
  [.declare (.imports ⟨"o", [⟨"A", none⟩]⟩), .declare (.entity ⟨"", none, []⟩),
    .declare (.entity ⟨"E", none, []⟩)]

theorem ofEdits?_preorder_eq_range_iff_ofEarlyImport :
    Text.isQualifiedName "m" = true ∧ (∀ n range, Edit.setRange n range ∉ earlyImport) ∧
    ∃ d outcomes, ofEdits? ⟨0⟩ "m" earlyImport = .ok (d, outcomes) ∧
      d.preorder = [0, 1, 2, 3] ∧
      d.nodesInOrder.Pairwise fun a b ↦ a.range.start < b.range.start := by
  have hedits : ∀ n range, Edit.setRange n range ∉ earlyImport := by simp [earlyImport]
  have hname : Text.isQualifiedName "m" = true := by decide
  obtain ⟨d, outcomes, hd, horder, hstarts⟩ :=
    ofEdits?_preorder_eq_range_iff ⟨0⟩ earlyImport hname
  obtain ⟨hdocument, houtcomes⟩ := eq_drafting_of_ofEdits? hd
  have hfirst : ImportsFirst (Edit.accepted earlyImport outcomes) := by
    rw [houtcomes]
    decide
  have hsize : d.size = 4 := by
    rw [hdocument]
    decide
  refine ⟨hname, hedits, d, outcomes, hd, ?_, (hstarts hedits).2 hfirst⟩
  rw [horder.2 hfirst, hsize]
  rfl

/-- An entity and then an import. -/
def lateImport : List Edit :=
  [.declare (.entity ⟨"E", none, []⟩), .declare (.imports ⟨"o", []⟩)]

/-- The root has a late import before the entity, so that the order of the tree is not that of the
places, nor that in which the nodes start. -/
theorem preorder_ofLateImport :
    ∃ d, ofEdits? ⟨0⟩ "m" lateImport = .ok (d, [.declared 1, .declared 2]) ∧
      d.preorder = [0, 2, 1] ∧ d.preorder ≠ List.range d.size ∧
      ¬ d.nodesInOrder.Pairwise fun a b ↦ a.range.start < b.range.start := by
  have hname : Text.isQualifiedName "m" = true := by decide
  have hedits : ∀ n range, Edit.setRange n range ∉ lateImport := by simp [lateImport]
  have hpreorder : (drafting ⟨0⟩ "m" lateImport).preorder = [0, 2, 1] := by decide
  have hne : (drafting ⟨0⟩ "m" lateImport).preorder ≠
      List.range (drafting ⟨0⟩ "m" lateImport).size := by
    rw [hpreorder]
    decide
  refine ⟨_, ofEdits?_eq_ok ⟨0⟩ lateImport hname, hpreorder, hne, fun hstarts ↦ hne ?_⟩
  exact (pairwise_start_nodesInOrder_iff (Draft.Unmoved.drafting ⟨0⟩ "m" hedits)
    (drafted_drafting ⟨0⟩ lateImport hname)).1 hstarts

end Document

end Schemata
