import Schemata.Document.Lowering
import Schemata.Proofs.Ranges

/-!
# Refused declarations leave nothing behind

A declaration is taken into a draft node by node, and may be refused when a part of it is there
already. Until then nodes have been added after those of the draft, and nothing else has changed
(`Draft.Grows`): only added nodes are amended, and the root lists the declaration when nothing can
fail any more. What each part of a declaration comes to is said by `Lowering.Lowers`, once for
every way in which parts are put together.

So an attempt that is rewound leaves the draft that was there (`Draft.attempt_eq_declare`), and a
draft that is refused some declarations is the one to which they were never given
(`Document.ofEdits?_unrefused`).
-/

namespace Schemata

section Classes

variable {classes : Text.IdentifierClasses}

open Outline Violation

/-! ### Drafts with more nodes -/

/-- A node that was just added is amended alone. -/
theorem Document.amend_size (d : Document) (node : Node) (nodes : List Node) (f : Node → Node) :
    { d with body := d.body ++ node :: nodes }.amend d.size f =
      { d with body := d.body ++ f node :: nodes } := by
  have hmodify : (d.body ++ node :: nodes).modify d.body.length f = d.body ++ f node :: nodes :=
    List.modifyTailIdx_add (List.modifyHead f) 0 d.body (node :: nodes)
  rw [← hmodify]
  rfl

theorem Content.relocated_located (start range : Range) (c : Content String) :
    (c.located start).relocated range = c.located range := by
  rw [relocated, located, map_map]
  rfl

namespace Draft

/-- The draft with some more nodes. -/
def extend (d : Draft) (seeds : List Seed) : Draft :=
  { document := { d.document with body := d.document.body ++ Seed.place d.cursor seeds }
    cursor := Seed.advance d.cursor seeds }

theorem extend_nil (d : Draft) : d.extend [] = d := by
  rw [extend, Seed.place, List.append_nil]
  rfl

/-- To add nodes in two goes is to add them at once. -/
theorem extend_append (d : Draft) (seeds more : List Seed) :
    d.extend (seeds ++ more) = (d.extend seeds).extend more := by
  rw [extend, Seed.place_append, Seed.advance_append, ← List.append_assoc]
  rfl

theorem size_extend (d : Draft) (seeds : List Seed) :
    (d.extend seeds).document.size = d.document.size + seeds.length := by
  show (d.document.body ++ Seed.place d.cursor seeds).length + 1 = d.document.body.length + 1 + _
  rw [List.length_append, Seed.length_place, Nat.add_right_comm]

/-- Whether a draft has become another by nodes that were added after its own. -/
def Grows (d d' : Draft) : Prop :=
  ∃ nodes, d'.document = { d.document with body := d.document.body ++ nodes }

theorem Grows.refl (d : Draft) : d.Grows d :=
  ⟨[], by rw [List.append_nil]⟩

/-- Growth adds up. -/
theorem Grows.trans {d d' d'' : Draft} (h : d.Grows d') (h' : d'.Grows d'') : d.Grows d'' := by
  obtain ⟨nodes, h⟩ := h
  obtain ⟨more, h'⟩ := h'
  exact ⟨nodes ++ more, by rw [h', h, List.append_assoc]⟩

theorem grows_extend (d : Draft) (seeds : List Seed) : d.Grows (d.extend seeds) :=
  ⟨_, rfl⟩

/-- A draft that has only grown is rewound to what it was. -/
theorem Grows.rewind_eq {d d' : Draft} (h : d.Grows d') :
    d'.rewind d.document.body.length d.cursor = d := by
  obtain ⟨nodes, h⟩ := h
  rw [rewind, h, List.take_left]

end Draft

/-! ### What lowering comes to -/

namespace Lowering

variable {α : Type} {m : Lowering LocalId} {ms : Lowering (List LocalId)}
  {us vs ws : List BuildError} {parent : LocalId} {content : Content String} {t : Outline}
  {ts : List Outline}

/-- Whether a lowering adds seeds and gives a result, both as the size of the draft has them, if
there are no violations. Otherwise it fails for the first, and nodes may have been added. -/
def Lowers (m : Lowering α) (vs : List BuildError) (result : LocalId → α)
    (seeds : LocalId → List Seed) : Prop :=
  ∀ d : Draft,
    match vs with
    | [] => m.run d = .ok (result d.document.size) (d.extend (seeds d.document.size))
    | e :: _ => ∃ d', m.run d = .error e d' ∧ d.Grows d'

/-- Whether a lowering takes in a tree. -/
abbrev LowersTree (m : Lowering LocalId) (vs : List BuildError) (parent : LocalId)
    (t : Outline) : Prop :=
  Lowers m vs (fun n ↦ n) fun n ↦ t.seeds parent n

/-- Whether a lowering takes in some trees, one after the other. -/
abbrev LowersTrees (ms : Lowering (List LocalId)) (vs : List BuildError) (parent : LocalId)
    (ts : List Outline) : Prop :=
  Lowers ms vs (fun n ↦ places n ts) fun n ↦ seedsOf parent n ts

/-- What is checked first is the first to fail. -/
theorem Lowers.check {m : Lowering α} {result : LocalId → α} {seeds : LocalId → List Seed}
    (h : Lowers m vs result seeds) (us : List BuildError) :
    Lowers (do check us; m) (us ++ vs) result seeds := by
  intro d
  cases us with
  | nil => exact h d
  | cons e us => exact ⟨d, rfl, .refl d⟩

/-- A leaf is added at the next place, whatever its parent. -/
theorem run_leaf (content : Content String) (parent : LocalId) (d : Draft) :
    (leaf content parent).run d =
      .ok d.document.size (d.extend [⟨content, parent, []⟩]) := by
  have hamend := d.document.amend_size
    ⟨content.located .empty, some parent, [], ⟨d.cursor, d.cursor + content.extent⟩⟩ []
    fun node ↦ node.relocated node.range
  rw [Node.relocated, Content.relocated_located] at hamend
  exact congrArg (fun document ↦ EStateM.Result.ok d.document.size
    (Draft.mk document (d.cursor + content.extent + 1))) hamend

/-- What is checked of a leaf is checked before it is added. -/
theorem lowersTree_leaf (us : List BuildError) (content : Content String) (parent : LocalId) :
    LowersTree (do check us; leaf content parent) us parent (.leaf content) := by
  have hleaf : LowersTree (leaf content parent) [] parent (.leaf content) := run_leaf content parent
  simpa using hleaf.check us

theorem lowersTrees_nil (parent : LocalId) : LowersTrees (pure []) [] parent [] := fun d ↦
  congrArg (EStateM.Result.ok []) d.extend_nil.symm

/-- Trees are taken in one after the other, and the first that fails is the last that is tried. -/
theorem LowersTree.cons (hm : LowersTree m vs parent t) (hms : LowersTrees ms ws parent ts) :
    LowersTrees (do let n ← m; let ns ← ms; return n :: ns) (vs ++ ws) parent (t :: ts) := by
  intro d
  have htree := hm d
  cases vs with
  | cons e vs =>
    obtain ⟨d', hrun, hgrows⟩ := htree
    exact ⟨d', by rw [EStateM.run_bind, hrun], hgrows⟩
  | nil =>
    have htrees := hms (d.extend (t.seeds parent d.document.size))
    rw [Draft.size_extend, length_seeds] at htrees
    cases ws with
    | cons e ws =>
      obtain ⟨d', hrun, hgrows⟩ := htrees
      refine ⟨d', ?_, (d.grows_extend _).trans hgrows⟩
      rw [EStateM.run_bind, htree]
      dsimp only
      rw [EStateM.run_bind, hrun]
    | nil =>
      show _ = EStateM.Result.ok _ (d.extend (t.seeds parent _ ++ seedsOf parent _ ts))
      rw [EStateM.run_bind, htree, Draft.extend_append]
      dsimp only
      rw [EStateM.run_bind, htrees]
      rfl

theorem LowersTree.single (h : LowersTree m vs parent t) :
    LowersTrees (do let n ← m; return [n]) vs parent [t] := by
  simpa using h.cons (lowersTrees_nil parent)

/-- If every spec of a kind is lowered to its tree, so is a row of them. -/
theorem lowersTrees_mapM {β : Type} {f : β → Lowering LocalId} {vs : β → List BuildError}
    {outline : β → Outline} (h : ∀ x, LowersTree (f x) (vs x) parent (outline x)) (xs : List β) :
    LowersTrees (xs.mapM f) (xs.flatMap vs) parent (xs.map outline) := by
  induction xs with
  | nil => exact lowersTrees_nil parent
  | cons x xs ih =>
    rw [List.mapM_cons]
    exact (h x).cons ih

/-- Only the node itself is amended when what is below it is there. -/
theorem lowersTree_branch {below : LocalId → Lowering (List LocalId)} (content : Content String)
    (parent : LocalId) (h : ∀ n, LowersTrees (below n) vs n ts) :
    LowersTree (branch content parent below) vs parent (.node content ts) := by
  intro d
  have hbelow := h d.document.size (d.extend [⟨content, parent, []⟩])
  rw [Draft.size_extend] at hbelow
  cases vs with
  | cons e vs =>
    obtain ⟨d', hrun, hgrows⟩ := hbelow
    refine ⟨d', ?_, (d.grows_extend _).trans hgrows⟩
    rw [branch, EStateM.run_bind, run_leaf]
    dsimp only
    rw [EStateM.run_bind, hrun]
  | nil =>
    show _ = EStateM.Result.ok _ _
    rw [branch, EStateM.run_bind, run_leaf]
    dsimp only
    rw [EStateM.run_bind, hbelow, ← Draft.extend_append]
    dsimp only
    exact congrArg (fun document ↦ EStateM.Result.ok d.document.size
      (Draft.mk document _)) (d.document.amend_size _ _ _)

end Lowering

/-! ### Parts of a declaration -/

open Lowering

theorem MemberType.lowersTree (member : LocalId) (t : MemberType String) :
    LowersTree (t.lower member) t.violations member (.leaf (.type t)) :=
  lowersTree_leaf _ _ _

/-- An element fails before anything is added of it if it is an array. -/
theorem Value.lowersTree_element (owner : String) (array : LocalId) (v : Value) :
    LowersTree (v.lower owner true array) (v.elementViolations owner) array v.outline := by
  cases v with
  | scalar s => exact lowersTree_leaf _ _ _
  | array elements => exact fun d ↦ ⟨d, rfl, .refl d⟩

/-- The elements of an array, one after the other. -/
theorem Value.lowersTrees_elements (owner : String) (array : LocalId) (vs : List Value) :
    LowersTrees (lowerElements owner array vs) (vs.flatMap (elementViolations owner)) array
      (outlines vs) := by
  induction vs with
  | nil => exact lowersTrees_nil array
  | cons v vs ih => exact (v.lowersTree_element owner array).cons ih

theorem Value.lowersTree (owner : String) (parent : LocalId) (v : Value) :
    LowersTree (v.lower owner false parent) (v.violations owner) parent v.outline := by
  cases v with
  | scalar s => exact lowersTree_leaf _ _ _
  | array elements =>
    exact (lowersTree_branch .array parent fun array ↦
      lowersTrees_elements owner array elements).check []

theorem ImportItem.lowersTree (clause : LocalId) (i : ImportItem) :
    LowersTree (i.lower clause) i.violations clause i.outline :=
  (lowersTree_leaf _ (.importItem i.name i.rename) clause).check _

/-- A member, with its type and its default as what is below it. -/
theorem MemberSpec.lowersTree (entity : LocalId) (m : MemberSpec) :
    LowersTree (m.lower entity) m.violations entity m.outline := by
  rw [violations, List.append_assoc]
  exact (lowersTree_branch _ entity fun member ↦
    (m.type.lowersTree member).cons (lowersTrees_mapM (Value.lowersTree m.name member) _)).check _

theorem EnumerationSpec.lowersTree_literal (enumeration : LocalId) (name : String) :
    LowersTree (lowerLiteral enumeration name) (ofName name) enumeration (.leaf (.literal name)) :=
  lowersTree_leaf _ _ _

theorem AssignmentSpec.lowersTree (instantiation : LocalId) (a : AssignmentSpec) :
    LowersTree (a.lower instantiation) a.violations instantiation a.outline :=
  (lowersTree_branch (.assignment a.member) instantiation fun assignment ↦
    (a.value.lowersTree a.member assignment).single).check _

namespace Declaration

variable {x : Declaration}

/-- Each declaration is lowered to its tree below the root, and fails for its first violation. -/
theorem lowersTree [Text.IdentifierClasses] (x : Declaration) :
    LowersTree x.lowerTree x.violations 0 x.outline := by
  cases x with
  | imports s =>
    exact (lowersTree_branch (.importClause s.source) 0 fun clause ↦
      lowersTrees_mapM (ImportItem.lowersTree clause) s.items).check _
  | entity s =>
    exact (lowersTree_branch (.entity s.name s.id) 0 fun entity ↦
      lowersTrees_mapM (MemberSpec.lowersTree entity) s.members).check _
  | enumeration s =>
    exact (lowersTree_branch (.enumeration s.name) 0 fun enumeration ↦
      lowersTrees_mapM (EnumerationSpec.lowersTree_literal enumeration) s.literals).check _
  | instantiation s =>
    rw [violations, List.append_assoc]
    exact ((lowersTree_branch (.instantiation s.name s.entity) 0 fun instantiation ↦
      lowersTrees_mapM (AssignmentSpec.lowersTree instantiation) s.assignments).check _).check _

/-- A declaration with a violation fails for the first of them, when no more than nodes have been
added: the root does not list it yet. -/
theorem run_lower_of_violation {e : BuildError} (h : x.firstViolation? = some e) (d : Draft) :
    ∃ d', x.lower.run d = .error e d' ∧ d.Grows d' := by
  have htree := x.lowersTree d
  rw [firstViolation?] at h
  cases hviolations : x.violations with
  | nil =>
    rw [hviolations] at h
    cases h
  | cons e' vs =>
    rw [hviolations] at h htree
    obtain ⟨d', hrun, hgrows⟩ := htree
    rw [← Option.some.inj h]
    exact ⟨d', by rw [lower, EStateM.run_bind, hrun], hgrows⟩

/-- A declaration without violations is taken in whole. -/
theorem run_lower_of_no_violation (h : x.firstViolation? = none) (d : Draft) :
    x.lower.run d = .ok d.document.size (d.append x) := by
  have htree := x.lowersTree d
  rw [firstViolation?_eq_none_iff.1 h] at htree
  rw [lower, EStateM.run_bind, htree]
  cases x <;> rfl

end Declaration

/-! ### Attempts -/

/-- **An attempt accepts or refuses**, as a declaration that is checked before anything is added. -/
theorem Draft.attempt_eq_declare (d : Draft) (x : Declaration) : d.attempt x = d.declare x := by
  cases h : x.firstViolation? with
  | some e =>
    obtain ⟨d', hrun, hgrows⟩ := Declaration.run_lower_of_violation h d
    rw [attempt, hrun, declare_of_violation h]
    dsimp only
    rw [hgrows.rewind_eq]
  | none => rw [attempt, Declaration.run_lower_of_no_violation h, declare_of_no_violation h]

/-! ### Drafting without what is refused -/

def Outcome.isRefused : Outcome → Bool
  | .refused _ => true
  | _ => false

/-- Some steps without those that are refused. -/
def Edit.unrefused (edits : List Edit) (outcomes : List Outcome) : List Edit :=
  ((edits.zip outcomes).filter fun e ↦ !e.2.isRefused).map (·.1)

namespace Draft

theorem steps_cons (d : Draft) (e : Edit) (edits : List Edit) :
    d.steps (e :: edits) =
      (((d.step e).1.steps edits).1, (d.step e).2 :: ((d.step e).1.steps edits).2) :=
  rfl

/-- A step that is refused leaves the draft as it was. -/
theorem step_of_isRefused {d : Draft} {e : Edit} (h : (d.step e).2.isRefused = true) :
    (d.step e).1 = d := by
  cases e with
  | setRange n range => cases h
  | declare x =>
    rw [step] at h ⊢
    cases hx : x.firstViolation? with
    | some error => rw [declare_of_violation hx]
    | none =>
      rw [declare_of_no_violation hx] at h
      cases h

/-- The steps that are not refused lead to the same draft, and come to what they came to. -/
theorem steps_unrefused (d : Draft) (edits : List Edit) :
    d.steps (Edit.unrefused edits (d.steps edits).2) =
      ((d.steps edits).1, (d.steps edits).2.filter (!·.isRefused)) := by
  induction edits generalizing d with
  | nil => rfl
  | cons e edits ih =>
    have hrest := ih (d.step e).1
    rw [steps_cons]
    dsimp only
    cases hrefused : (d.step e).2.isRefused with
    | true =>
      -- the draft is as before the step, so that the other steps are taken in it
      rw [step_of_isRefused hrefused] at hrest ⊢
      rw [Edit.unrefused, List.zip_cons_cons, List.filter_cons_of_neg (by simp [hrefused]),
        List.filter_cons_of_neg (by simp [hrefused])]
      exact hrest
    | false =>
      rw [Edit.unrefused, List.zip_cons_cons, List.filter_cons_of_pos (by simp [hrefused]),
        List.filter_cons_of_pos (by simp [hrefused]), List.map_cons, ← Edit.unrefused, steps_cons,
        hrest]

end Draft

namespace Document

/-- **A refused declaration leaves nothing behind.** Attempting it in any draft gives the draft
back, with every node, both lists of the root and the cursor. So a document is the same, with its
ranges, as one that is drafted without the declarations that were refused, and what is accepted is
at the same places. -/
theorem ofEdits?_unrefused [Text.IdentifierClasses] :
    (∀ (draft : Draft) (x : Declaration), draft.attempt x = draft.declare x ∧
        ∀ e, (draft.attempt x).2 = .refused e → (draft.attempt x).1 = draft) ∧
      ∀ (file : FileId) (name : String) (edits : List Edit) (d : Document)
        (outcomes : List Outcome), ofEdits? file name edits = .ok (d, outcomes) →
          ofEdits? file name (Edit.unrefused edits outcomes) =
            .ok (d, outcomes.filter (!·.isRefused)) := by
  refine ⟨fun draft x ↦ ⟨draft.attempt_eq_declare x, fun e he ↦ ?_⟩,
    fun file name edits d outcomes h ↦ ?_⟩
  · rw [draft.attempt_eq_declare] at he ⊢
    exact Draft.step_of_isRefused (e := .declare x) (by rw [Draft.step, he]; rfl)
  · by_cases hname : Text.isQualifiedName name = true
    · obtain ⟨rfl, rfl⟩ := eq_drafting_of_ofEdits? h
      rw [ofEdits?_eq_ok file _ hname, drafting, Draft.drafting, Draft.drafting,
        Draft.steps_unrefused]
      rfl
    · rw [ofEdits?, Draft.start?, if_neg hname] at h
      cases h

end Document

end Classes

namespace Document

/-- A declaration of each kind that is refused when some of it is there, and one that is
accepted. -/
def halfDeclared : List Edit :=
  [.declare (.entity ⟨"E", none, [⟨"size", .attribute, .integer, ⟨none, none, false⟩, false,
      false, none⟩, ⟨"bad name", .attribute, .integer, ⟨none, none, false⟩, false, false, none⟩]⟩),
    .declare (.enumeration ⟨"Color", ["Red", "no way"]⟩),
    .setRange 0 ⟨5, 9⟩,
    .declare (.instantiation ⟨"i", "e", [⟨"x", .scalar (.integer 1)⟩,
      ⟨" ", .scalar (.integer 2)⟩]⟩),
    .declare (.imports ⟨"other", [⟨"A", none⟩, ⟨"B", some "not ok"⟩]⟩),
    .declare (.entity ⟨"E", none, []⟩)]

/-- Only the move and the last declaration are left, and the declaration is at the first place. -/
theorem ofEdits?_unrefused_ofHalfDeclared :
    ∃ d, ofEdits? ⟨0⟩ "m" halfDeclared = .ok (d, [.refused (.invalidIdentifier "bad name"),
        .refused (.invalidIdentifier "no way"), .ranged, .refused (.emptyReference .assignedMember),
        .refused (.invalidIdentifier "not ok"), .declared 1]) ∧
      ofEdits? ⟨0⟩ "m" [.setRange 0 ⟨5, 9⟩, .declare (.entity ⟨"E", none, []⟩)] =
        .ok (d, [.ranged, .declared 1]) := by
  have houtcomes : (Draft.drafting ⟨0⟩ "m" halfDeclared).2 =
      [.refused (.invalidIdentifier "bad name"), .refused (.invalidIdentifier "no way"), .ranged,
        .refused (.emptyReference .assignedMember), .refused (.invalidIdentifier "not ok"),
        .declared 1] := by
    decide +kernel
  have hname : Text.isQualifiedName "m" = true := by decide
  have h := ofEdits?_eq_ok ⟨0⟩ halfDeclared hname
  rw [houtcomes] at h
  exact ⟨_, h, ofEdits?_unrefused.2 ⟨0⟩ "m" halfDeclared _ _ h⟩

end Document

end Schemata
