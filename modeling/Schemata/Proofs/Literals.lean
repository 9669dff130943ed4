import Schemata.Proofs.FindingOrder
import Schemata.Proofs.Mismatches
import Schemata.Proofs.ValueNodes

/-!
# Literals in values

The enumeration of a literal is reached in two ways. Its name is looked up by climbing from the
literal to the member for which it is meant, through an assignment if there is one, and from there
to the enumeration that types the member. Its type is told by what it comes to: the enumeration that
declares the found literal. Both ways come to one node, so a literal that is found has the type of
its member (`Snapshot.typeAt?_eq_of_gives`).

Hence no comparison of types ever finds fault with a literal (`Snapshot.clash?_literal`), unless the
value as a whole is of the wrong shape. A literal of a foreign enumeration is not found in the first
place, and that is a finding about its reference.
-/

namespace Schemata

namespace Snapshot

section Classes

variable {classes : Text.IdentifierClasses}

variable {s : Snapshot} {n : NodeId} {x : Diagnostic}

/-! ### What is found at a node -/

/-- A reference that comes to nothing is found once in the check of its file, by a code that says
so. -/
theorem countP_linkingError_check (h : s.catalog.Loaded) (hn : s.resolutionAt n = .notFound) :
    (s.evaluate (s.check n.file)).countP
      (fun x ↦ x.code == some "linking-error" && x.node == n) = 1 := by
  have hfault : (s.resolutionAt n).isFault = true := by rw [hn]; rfl
  rw [← countP_isLinking_check h hfault]
  refine List.countP_congr fun x hx ↦ ?_
  simp only [Bool.and_eq_true, beq_iff_eq]
  constructor
  · rintro ⟨hcode, hnode⟩
    exact ⟨by simp [Diagnostic.isLinking, hcode], hnode⟩
  · rintro ⟨hlinking, hnode⟩
    obtain ⟨y, hy, hsays⟩ := exists_saysFault h hfault
    have hx := mem_referenceFindings_of_isLinking hx hlinking
    rw [hnode, hy, List.mem_singleton] at hx
    cases hsays with
    | notFound _ _ hcode _ => exact ⟨hx ▸ hcode, hnode⟩
    | ambiguous _ _ _ hambiguous _ _ _ => cases hn.symm.trans hambiguous

/-- A mismatch that is reported at a node of a value is one of the value for its member. -/
theorem exists_mismatch_of_mem_check (h : s.catalog.Loaded) {file : FileId} {member value : NodeId}
    (hg : s.Gives file member value) (hx : x ∈ s.evaluate (s.check file))
    (hnode : x.node ∈ s.catalog.valueNodes value) (hcode : x.code = some "type-mismatch") :
    ∃ m ∈ s.evaluate (s.mismatches member value), m.value = x.node := by
  have hmem : x ∈ (s.evaluate (s.check file)).filter (fun x ↦ x.code == some "type-mismatch" &&
      decide (x.node ∈ s.catalog.valueNodes value)) :=
    List.mem_filter.2 ⟨hx, by simp [hcode, hnode]⟩
  rw [filter_code_check_of_gives h hg (by decide) (by decide), List.mem_filter,
    evaluate_valueFindings, List.mem_append] at hmem
  obtain ⟨hmem | hmem, -⟩ := hmem
  · rw [evaluate_typeFindings] at hmem
    obtain ⟨m, hm, rfl⟩ := List.mem_map.1 hmem
    exact ⟨m, hm, rfl⟩
  · obtain ⟨p, u, -, -, -, -, hp, rfl⟩ := exists_finding_of_mem_arrayFindings hmem
    have hcode : p.code = "type-mismatch" := Option.some.inj hcode
    rcases hp with hp | hp <;> simp [hcode] at hp

/-! ### Literals given to a member -/

section Given

variable (h : s.catalog.Loaded) {file : FileId} {member value v : NodeId} {r : Reference}
  (hg : s.Gives file member value) (hmem : v ∈ s.catalog.scalarsOf value)
  (hv : s.catalog.content? v = some (.value (.literal r)))
include h hg hmem hv

/-- The two ways to the enumeration of a literal meet. -/
theorem typeAt?_eq_of_gives {l : NodeId} (hl : s.resolutionAt v = .found l) :
    ∃ e name, s.catalog.content? e = some (.enumeration name) ∧ l ∈ s.catalog.children e ∧
      s.typeAt? v = some (.enumeration e) ∧
      s.evaluate (s.declaredType member) = some (.enumeration e) := by
  obtain ⟨m, k, -, -, -, hscalars⟩ := hg.scalars h
  have htarget : s.targetAt? v = some l := targetAt?_eq_some_iff.2 hl
  obtain ⟨member', type, r', e, hmember, hw, htype, hparent, -⟩ :=
    exists_literal_of_literal h hv htarget
  obtain rfl : member = member' := Option.some.inj ((hscalars v hmem).2.symm.trans hmember)
  have hwritten := Catalog.content?_of_memberType? hw
  obtain ⟨name, he⟩ := exists_enumeration_of_enumerationType hwritten htype
  refine ⟨e, name, he, h.mem_children_iff.2 hparent, ?_, ?_⟩
  · rw [typeAt?_literal h hv, htarget, Option.bind_some, hparent, Option.map_some]
  · rw [evaluate_declaredType hw, typeAt?_enumerationType h hwritten, htype, Option.map_some]

/-- A literal never differs from the type of its member. -/
theorem clash?_literal {t : DataType} (ht : s.evaluate (s.declaredType member) = some t) :
    s.clash? member t v = none := by
  cases hl : s.targetAt? v with
  | none => exact clash?_eq_none ⟨_, _, r, hv, rfl⟩ hl
  | some l =>
    obtain ⟨e, -, -, hchild, -, htype⟩ :=
      typeAt?_eq_of_gives h hg hmem hv (targetAt?_eq_some_iff.1 hl)
    rw [ht, Option.some.injEq] at htype
    simp [clash?, hv, hl, h.mem_children_iff.1 hchild, htype]

/-- So it is never reported for its type, if the value has the shape that its member asks for. -/
theorem code_ne_of_mem_check_of_literal {m : Member}
    (hm : s.catalog.content? member = some (.member m))
    (hshape : m.cardinality.isArray = true ↔ s.catalog.content? value = some .array)
    (hx : x ∈ s.evaluate (s.check file)) (hnode : x.node = v) : x.code ≠ some "type-mismatch" := by
  intro hcode
  obtain ⟨-, k, -, hk, hvalue, -⟩ := hg.scalars h
  have hvnode : v ∈ s.catalog.valueNodes value := by
    rw [Catalog.scalarsOf] at hmem
    split at hmem
    · exact List.mem_cons_of_mem _ hmem
    · rw [List.mem_singleton.1 hmem]
      exact List.mem_cons_self
  obtain ⟨mismatch, hmismatch, hat⟩ := exists_mismatch_of_mem_check h hg hx (hnode ▸ hvnode) hcode
  cases ht : s.evaluate (s.declaredType member) with
  | none =>
    rw [mismatches_of_untyped ht] at hmismatch
    cases hmismatch
  | some t =>
    rw [mismatches_eq_filterMap_clash? h hm ht hk hvalue hshape] at hmismatch
    obtain ⟨y, -, heq⟩ := List.mem_filterMap.1 hmismatch
    obtain ⟨text, hclash, rfl⟩ := Option.map_eq_some_iff.1 heq
    obtain rfl : y = v := hat.trans hnode
    rw [clash?_literal h hg hmem hv ht] at hclash
    cases hclash

/-- A literal is not found exactly if its member is of another type, or of an enumeration that has
no literal of its name. -/
theorem resolutionAt_eq_notFound_iff_of_gives :
    s.resolutionAt v = .notFound ↔ ∀ type r', s.catalog.memberType? member =
      some (type, .enumeration r') → ∃ e, s.resolutionAt type = .found e ∧
        ∀ l ∈ s.catalog.children e, s.catalog.name? l ≠ some r.text := by
  obtain ⟨m, k, hm, -, -, hscalars⟩ := hg.scalars h
  have hmember := (hscalars v hmem).2
  obtain ⟨type, w, hw, -⟩ := h.exists_memberType hm
  have hiff : (∀ type' r', s.catalog.memberType? member = some (type', .enumeration r') →
      ∃ e, s.resolutionAt type' = .found e ∧
        ∀ l ∈ s.catalog.children e, s.catalog.name? l ≠ some r.text) ↔
      ∀ r', w = .enumeration r' → ∃ e, s.resolutionAt type = .found e ∧
        ∀ l ∈ s.catalog.children e, s.catalog.name? l ≠ some r.text := by
    rw [hw]
    constructor
    · rintro hall r' rfl
      exact hall type r' rfl
    · intro hall type' r' heq
      obtain ⟨rfl, rfl⟩ := Prod.mk.inj (Option.some.inj heq)
      exact hall r' rfl
  rw [hiff, resolutionAt_of_reference h hv rfl]
  by_cases henum : ∃ r', w = .enumeration r'
  · obtain ⟨r', rfl⟩ := henum
    rw [candidatesAt_literal_of_enumeration hv hmember hm hw]
    cases he : s.targetAt? type with
    | none =>
      -- nothing is known of the literals, which is not the same as finding none
      have hnone : ∀ e, s.resolutionAt type ≠ .found e := fun e hfound ↦ by
        rw [targetAt?_eq_some_iff.2 hfound] at he
        cases he
      simp [hnone]
    | some e =>
      obtain ⟨name, hc⟩ :=
        exists_enumeration_of_enumerationType (Catalog.content?_of_memberType? hw) he
      rw [targetAt?_eq_some_iff.1 he, Option.bind_some, hc]
      dsimp only
      rw [Scope.lookup_ofDeclared_eq_notFound_iff]
      simp [Catalog.mem_namedChildren_iff]
  · rw [candidatesAt_literal_of_other hv hmember hm hw fun r' hr' ↦ henum ⟨r', hr'⟩]
    have hempty : Scope.empty.lookup r.text = .notFound := rfl
    exact ⟨fun _ r' hr' ↦ absurd ⟨r', hr'⟩ henum, fun _ ↦ hempty⟩

end Given

/-- **Resolution and typing agree on literals.** Let a file give a value to a member, as its default
or by an assignment, be it of another document, and let a literal be that value or an element of it.
If the literal is found, it and the member have one type, the enumeration that declares what is
found. So in a value of the shape that the member asks for, a literal is never reported for its
type. A literal is not found exactly if the type of the member is no enumeration type, or comes to
an enumeration without a literal of this name, as for a literal of a foreign enumeration. Then it is
reported once, for its reference. -/
theorem literals_agree (s : Snapshot) (h : s.catalog.Loaded) {file : FileId}
    {member value : NodeId} {m : Member} (hg : s.Gives file member value)
    (hm : s.catalog.content? member = some (.member m)) {v : NodeId} {r : Reference}
    (hmem : v ∈ s.catalog.scalarsOf value)
    (hv : s.catalog.content? v = some (.value (.literal r))) :
    (∀ l, s.resolutionAt v = .found l → ∃ e name, s.catalog.content? e = some (.enumeration name) ∧
      l ∈ s.catalog.children e ∧ s.typeAt? v = some (.enumeration e) ∧
      s.evaluate (s.declaredType member) = some (.enumeration e)) ∧
    ((m.cardinality.isArray = true ↔ s.catalog.content? value = some .array) →
      ∀ x ∈ s.evaluate (s.check file), x.node = v → x.code ≠ some "type-mismatch") ∧
    (s.resolutionAt v = .notFound ↔ ∀ type r', s.catalog.memberType? member =
      some (type, .enumeration r') → ∃ e, s.resolutionAt type = .found e ∧
        ∀ l ∈ s.catalog.children e, s.catalog.name? l ≠ some r.text) ∧
    (s.resolutionAt v = .notFound → (s.evaluate (s.check file)).countP
      (fun x ↦ x.code == some "linking-error" && x.node == v) = 1) := by
  refine ⟨fun l hl ↦ typeAt?_eq_of_gives h hg hmem hv hl,
    fun hshape x hx hnode ↦ code_ne_of_mem_check_of_literal h hg hmem hv hm hshape hx hnode,
    resolutionAt_eq_notFound_iff_of_gives h hg hmem hv, fun hnone ↦ ?_⟩
  obtain ⟨-, -, -, -, -, hscalars⟩ := hg.scalars h
  rw [← (hscalars v hmem).1]
  exact countP_linkingError_check h hnone

end Classes

/-- Two enumerations and an entity with a member that holds an array of the first. Another document
has an instance of the entity, which assigns a literal of each. Place 6 is the member, and in the
other document 4 is the assignment, 5 its value, and 6 and 7 are the literals. -/
def ofForeignLiteral : Snapshot :=
  .ofDocuments
    [.drafting ⟨0⟩ "lib" [.declare (.enumeration ⟨"Color", ["Red"]⟩),
      .declare (.enumeration ⟨"Size", ["Small"]⟩),
      .declare (.entity ⟨"E", some "e", [⟨"colors", .attribute, .enumeration "Color",
        ⟨none, none, true⟩, false, false, none⟩]⟩)],
    .drafting ⟨1⟩ "app" [.declare (.imports ⟨"lib", [⟨"E", none⟩]⟩),
      .declare (.instantiation ⟨"i", "e", [⟨"colors",
        .array [.scalar (.literal "Red"), .scalar (.literal "Small")]⟩]⟩)]]

theorem loaded_ofForeignLiteral : ofForeignLiteral.catalog.Loaded := by
  refine .ofDocuments fun d hd ↦ ?_
  rcases List.mem_pair.1 hd with rfl | rfl <;> exact Document.drafted_drafting _ _ (by decide)

/-- There the one is found and has the type of the member, and the other is a linking error. -/
theorem literals_agree_ofForeignLiteral :
    ofForeignLiteral.Gives ⟨1⟩ ⟨⟨0⟩, 6⟩ ⟨⟨1⟩, 5⟩ ∧
      ofForeignLiteral.typeAt? ⟨⟨1⟩, 6⟩ =
        ofForeignLiteral.evaluate (ofForeignLiteral.declaredType ⟨⟨0⟩, 6⟩) ∧
      (∀ x ∈ ofForeignLiteral.evaluate (ofForeignLiteral.check ⟨1⟩), x.node = ⟨⟨1⟩, 7⟩ →
        x.code ≠ some "type-mismatch") ∧
      (ofForeignLiteral.evaluate (ofForeignLiteral.check ⟨1⟩)).countP
        (fun x ↦ x.code == some "linking-error" && x.node == ⟨⟨1⟩, 7⟩) = 1 := by
  have hassigned : ofForeignLiteral.resolutionAt ⟨⟨1⟩, 4⟩ = .found ⟨⟨0⟩, 6⟩ := by decide
  have hg : ofForeignLiteral.Gives ⟨1⟩ ⟨⟨0⟩, 6⟩ ⟨⟨1⟩, 5⟩ := .assigned rfl rfl hassigned rfl
  have hfound : ofForeignLiteral.resolutionAt ⟨⟨1⟩, 6⟩ = .found ⟨⟨0⟩, 2⟩ := by decide
  have hforeign : ofForeignLiteral.resolutionAt ⟨⟨1⟩, 7⟩ = .notFound := by decide
  have hred := literals_agree ofForeignLiteral loaded_ofForeignLiteral (v := ⟨⟨1⟩, 6⟩) hg rfl
    (by decide) rfl
  have hsmall := literals_agree ofForeignLiteral loaded_ofForeignLiteral (v := ⟨⟨1⟩, 7⟩) hg rfl
    (by decide) rfl
  obtain ⟨e, -, -, -, htype, hdeclared⟩ := hred.1 _ hfound
  exact ⟨hg, htype.trans hdeclared.symm, hsmall.2.1 ⟨fun _ ↦ rfl, fun _ ↦ rfl⟩,
    hsmall.2.2.2 hforeign⟩

end Snapshot

end Schemata
