import Schemata.Proofs.Refusals

/-!
# What a declaration requires

What is declared has to meet some requirements: a name is an identifier, the text of a reference is
not blank, and an element of an array is no array. `Declaration.requirements` lists them all in the
order of the text, at any depth and whether or not what is around them is allowed, so that it says
what is required and nothing about how it is checked. A draft accepts a declaration if all of them
are met, which is what a well-formed declaration is (`Declaration.wellFormed_iff`), and otherwise
refuses it for the first that is not (`Draft.accepts_exactly_wellFormed`).
-/

namespace Schemata

section Classes

variable {classes : Text.IdentifierClasses}

/-! ### Names and texts -/

namespace Text

/-- Whether characters spell an identifier: a low line or a character of `XID_Start`, and then
characters of `XID_Continue`. -/
def IsIdentifier [classes : IdentifierClasses] (cs : List Char) : Prop :=
  ∃ c rest, cs = c :: rest ∧ (c = '_' ∨ classes.isStart c = true) ∧
    ∀ d ∈ rest, classes.isContinue d = true

/-- Whether a text is made of identifiers with a full stop between each two. -/
def IsQualified [IdentifierClasses] (s : String) : Prop :=
  ∃ parts : List (List Char), parts ≠ [] ∧ s.toList = ['.'].intercalate parts ∧
    ∀ part ∈ parts, IsIdentifier part

/-- Whether a text has nothing but white space. -/
def IsBlank (s : String) : Prop := ∀ c ∈ s.toList, inRanges whiteSpaces c.toNat = true

/-- The check of a name reads the definition character by character. -/
theorem spellsIdentifier_iff {cs : List Char} :
    spellsIdentifier cs = true ↔ IsIdentifier cs := by
  cases cs with
  | nil => exact ⟨nofun, nofun⟩
  | cons c cs =>
    rw [spellsIdentifier_cons, isIdentifierStart, Bool.or_eq_true, beq_iff_eq]
    constructor
    · rintro ⟨hstart, hcontinue⟩
      exact ⟨c, cs, rfl, hstart, hcontinue⟩
    · rintro ⟨c', cs', heq, hstart, hcontinue⟩
      cases heq
      exact ⟨hstart, hcontinue⟩

theorem isBlank_eq_true_iff {s : String} : isBlank s = true ↔ IsBlank s := isBlank_iff

/-- A full stop is in no identifier. -/
theorem IsIdentifier.not_mem {cs : List Char} (h : IsIdentifier cs) : '.' ∉ cs := by
  obtain ⟨c, rest, rfl, hstart, hcontinue⟩ := h
  rw [List.mem_cons, not_or]
  refine ⟨?_, fun hmem ↦ ?_⟩
  · rintro rfl
    rw [classes.isStart_stop] at hstart
    exact hstart.elim (by decide) nofun
  · have hstop := hcontinue '.' hmem
    rw [classes.isContinue_stop] at hstop
    cases hstop

/-- The segments are what the library splits off, as there is one way only to cut a sequence into
parts that do not hold the separator. -/
theorem segments_eq_splitOn {α : Type} [DecidableEq α] (sep : α) (cs : List α) :
    segments sep cs = cs.splitOn sep := by
  conv_rhs => rw [← intercalate_segments sep cs]
  exact (List.splitOn_intercalate sep (fun _ hpart ↦ not_mem_of_mem_segments hpart)
    (segments_ne_nil sep cs)).symm

/-- A name is cut at its full stops, which is how it was put together, since no identifier has
one. -/
theorem isQualifiedName_eq_true_iff {s : String} :
    isQualifiedName s = true ↔ IsQualified s := by
  rw [isQualifiedName_iff]
  constructor
  · intro h
    exact ⟨_, segments_ne_nil '.' s.toList, (intercalate_segments '.' s.toList).symm,
      fun part hpart ↦ spellsIdentifier_iff.1 (h part hpart)⟩
  · rintro ⟨parts, hne, hs, hparts⟩ part hpart
    rw [segments_eq_splitOn, hs,
      List.splitOn_intercalate _ (fun part hpart ↦ (hparts part hpart).not_mem) hne] at hpart
    exact spellsIdentifier_iff.2 (hparts part hpart)

end Text

/-! ### Requirements -/

/-- Something that is required of a part of a declaration. -/
inductive Requirement where
  /-- A declared name is an identifier. -/
  | name (text : String)
  /-- The text of a reference is not blank. -/
  | reference (site : Site) (text : String)
  /-- An element of an array, in the value of the named member, is no array. -/
  | element (owner : String) (v : Value)

namespace Requirement

/-- Whether a requirement is met. -/
def Met [Text.IdentifierClasses] : Requirement → Prop
  | name text => Text.IsIdentifier text.toList
  | reference _ text => ¬ Text.IsBlank text
  | element _ v => ∀ elements, v ≠ .array elements

/-- What is reported if a requirement is not met. -/
def error : Requirement → BuildError
  | name text => .invalidIdentifier text
  | reference site _ => .emptyReference site
  | element owner _ => .nestedArray owner

/-- Whether an error is that of the first among some requirements that is not met. -/
def FirstUnmet [Text.IdentifierClasses] (rs : List Requirement) (e : BuildError) : Prop :=
  ∃ before r after, rs = before ++ r :: after ∧ (∀ q ∈ before, q.Met) ∧ ¬ r.Met ∧ r.error = e

variable {r : Requirement} {rs rs' : List Requirement} {vs vs' : List BuildError} {e : BuildError}

instance [Text.IdentifierClasses] : DecidablePred Met
  | name _ => decidable_of_iff _ Text.spellsIdentifier_iff
  | reference _ _ => decidable_of_iff _ (not_congr Text.isBlank_eq_true_iff)
  | element _ (.scalar _) => isTrue nofun
  | element _ (.array elements) => isFalse fun h ↦ h elements rfl

/-- The error of a requirement that is not met. -/
def error? [Text.IdentifierClasses] (r : Requirement) : Option BuildError :=
  if r.Met then none else some r.error

theorem error?_eq_none_iff : r.error? = none ↔ r.Met := by
  simp [error?]

theorem error?_eq_some_iff : r.error? = some e ↔ ¬ r.Met ∧ r.error = e := by
  simp [error?]

theorem findSome?_error?_eq_none_iff : rs.findSome? error? = none ↔ ∀ r ∈ rs, r.Met := by
  simp only [List.findSome?_eq_none_iff, error?_eq_none_iff]

/-- To look for the first error is to look for the first requirement that is not met. -/
theorem findSome?_error?_eq_some_iff : rs.findSome? error? = some e ↔ FirstUnmet rs e := by
  simp only [List.findSome?_eq_some_iff, error?_eq_none_iff, error?_eq_some_iff, FirstUnmet]
  constructor
  · rintro ⟨before, r, after, rfl, hr, hbefore⟩
    exact ⟨before, r, after, rfl, hbefore, hr⟩
  · rintro ⟨before, r, after, rfl, hbefore, hr⟩
    exact ⟨before, r, after, rfl, hr, hbefore⟩

/-- Whether the first of some violations is that of the first requirement that is not met. -/
def Judged [Text.IdentifierClasses] (rs : List Requirement) (vs : List BuildError) : Prop :=
  vs.head? = rs.findSome? error?

theorem judged_nil : Judged [] [] := rfl

theorem Judged.cons (h : Judged rs vs) (hr : r.Met) : Judged (r :: rs) vs := by
  rw [Judged, List.findSome?_cons_of_isNone (by rw [error?_eq_none_iff.2 hr]; rfl)]
  exact h

/-- What follows a requirement that is not met is not looked at. -/
theorem judged_cons_of_not_met (hr : ¬ r.Met) : Judged (r :: rs) (r.error :: vs) := by
  rw [Judged, List.head?_cons, List.findSome?_cons, error?_eq_some_iff.2 ⟨hr, rfl⟩]

/-- Requirements in a row are judged in a row: the first part decides, and the second if all of the
first are met. -/
theorem Judged.append (h : Judged rs vs) (h' : Judged rs' vs') :
    Judged (rs ++ rs') (vs ++ vs') := by
  rw [Judged, List.head?_append, List.findSome?_append, h, h']

theorem judged_flatMap {α : Type} {xs : List α} {f : α → List Requirement}
    {g : α → List BuildError} (h : ∀ x, Judged (f x) (g x)) :
    Judged (xs.flatMap f) (xs.flatMap g) := by
  induction xs with
  | nil => exact judged_nil
  | cons x xs ih =>
    rw [List.flatMap_cons, List.flatMap_cons]
    exact (h x).append ih

/-- A name is judged by the one requirement there is of it. -/
theorem judged_name (text : String) : Judged [name text] (Violation.ofName text) := by
  by_cases h : (name text).Met
  · rw [Violation.ofName_eq_nil.2 (Text.spellsIdentifier_iff.2 h)]
    exact judged_nil.cons h
  · rw [Violation.ofName, Text.isIdentifier, if_neg (mt Text.spellsIdentifier_iff.1 h)]
    exact judged_cons_of_not_met h

/-- Likewise the text of a reference. -/
theorem judged_reference (site : Site) (text : String) :
    Judged [reference site text] (Violation.ofReference site text) := by
  by_cases h : (reference site text).Met
  · rw [Violation.ofReference, if_neg (mt Text.isBlank_eq_true_iff.1 h)]
    exact judged_nil.cons h
  · rw [Violation.ofReference, if_pos (Text.isBlank_eq_true_iff.2 (not_not.1 h))]
    exact judged_cons_of_not_met h

end Requirement

open Requirement

/-! ### What is required, in the order of the text -/

/-- What is required of a type. -/
def MemberType.requirements (t : MemberType String) : List Requirement :=
  t.reference?.toList.map fun (site, text) ↦ .reference site text

/-- What is required of a scalar. -/
def Scalar.requirements (s : Scalar String) : List Requirement :=
  s.reference?.toList.map fun (site, text) ↦ .reference site text

mutual

/-- What is required of a value of `owner`, at any depth. -/
def Value.requirements (owner : String) : Value → List Requirement
  | .scalar s => s.requirements
  | .array elements => elementRequirements owner elements

/-- What is required of some elements of an array: of each before what is in it. -/
def Value.elementRequirements (owner : String) : List Value → List Requirement
  | [] => []
  | v :: vs => .element owner v :: v.requirements owner ++ elementRequirements owner vs

end

/-- What is required of a member: of its name, its type, then its default. -/
def MemberSpec.requirements (m : MemberSpec) : List Requirement :=
  .name m.name :: (m.type.requirements ++ m.default.toList.flatMap (Value.requirements m.name))

/-- What is required of an imported classifier: of its alias before its name. -/
def ImportItem.requirements (i : ImportItem) : List Requirement :=
  i.rename.toList.map .name ++ [.reference .importItem i.name]

/-- What is required of an assignment. -/
def AssignmentSpec.requirements (a : AssignmentSpec) : List Requirement :=
  .reference .assignedMember a.member :: a.value.requirements a.member

/-- Everything that is required of a declaration, in the order of the text. -/
def Declaration.requirements : Declaration → List Requirement
  | .imports s => .reference .importSource s.source :: s.items.flatMap ImportItem.requirements
  | .entity s => .name s.name :: s.members.flatMap MemberSpec.requirements
  | .enumeration s => .name s.name :: s.literals.map .name
  | .instantiation s =>
    .name s.name :: .reference .instanceEntity s.entity ::
      s.assignments.flatMap AssignmentSpec.requirements

theorem MemberType.judged (t : MemberType String) : Judged t.requirements t.violations := by
  cases t with
  | enumeration name => exact judged_reference .enumerationType name
  | entity name => exact judged_reference .entityType name
  | _ => exact judged_nil

theorem Scalar.judged (s : Scalar String) : Judged s.requirements s.violations := by
  cases s with
  | literal name => exact judged_reference .literalValue name
  | contained name => exact judged_reference .containedValue name
  | _ => exact judged_nil

namespace Value

theorem elementRequirements_eq_flatMap (owner : String) (vs : List Value) :
    elementRequirements owner vs =
      vs.flatMap fun v ↦ .element owner v :: v.requirements owner := by
  induction vs with
  | nil => rfl
  | cons v vs ih => rw [elementRequirements, ih, List.flatMap_cons]

/-- An array that is an element is refused before anything in it. -/
theorem judged_element (owner : String) (v : Value) :
    Judged (.element owner v :: v.requirements owner) (v.elementViolations owner) := by
  cases v with
  | scalar s => exact s.judged.cons nofun
  | array elements => exact judged_cons_of_not_met fun h ↦ h elements rfl

/-- The violations of a value go no deeper than the elements of one array, while what is required of
it goes to any depth. The first of either is the same, as what is deeper is in an element that is
refused. -/
theorem judged (owner : String) (v : Value) :
    Judged (v.requirements owner) (v.violations owner) := by
  cases v with
  | scalar s => exact s.judged
  | array elements =>
    rw [requirements, elementRequirements_eq_flatMap]
    exact judged_flatMap (judged_element owner)

end Value

/-- The parts of a member are judged in the order in which they are written. -/
theorem MemberSpec.judged (m : MemberSpec) : Judged m.requirements m.violations := by
  rw [MemberSpec.violations, List.append_assoc]
  exact (judged_name m.name).append
    (m.type.judged.append (judged_flatMap (Value.judged m.name)))

theorem Requirement.judged_names (texts : List String) :
    Judged (texts.map .name) (texts.flatMap Violation.ofName) := by
  rw [List.map_eq_flatMap]
  exact judged_flatMap judged_name

theorem ImportItem.judged (i : ImportItem) : Judged i.requirements i.violations :=
  (judged_names i.rename.toList).append (judged_reference .importItem i.name)

theorem AssignmentSpec.judged (a : AssignmentSpec) : Judged a.requirements a.violations :=
  (judged_reference .assignedMember a.member).append (a.value.judged a.member)

/-- The first violation of a declaration is that of its first requirement that is not met. -/
theorem Declaration.judged (x : Declaration) : Judged x.requirements x.violations := by
  cases x with
  | imports s => exact (judged_reference _ s.source).append (judged_flatMap ImportItem.judged)
  | entity s => exact (judged_name s.name).append (judged_flatMap MemberSpec.judged)
  | enumeration s => exact (judged_name s.name).append (judged_names s.literals)
  | instantiation s =>
    exact ((judged_name s.name).append (judged_reference _ s.entity)).append
      (judged_flatMap AssignmentSpec.judged)

/-! ### Well-formed declarations -/

/-- Whether a value is in another: whether it is that value, or in an element of it. -/
inductive Value.Within (v : Value) : Value → Prop
  | self : Within v v
  | element {e : Value} {elements : List Value} (he : e ∈ elements) (h : Within v e) :
      Within v (.array elements)

/-- Whether a value may be declared. -/
structure Value.Good (v : Value) : Prop where
  literal_not_blank : ∀ text, Within (.scalar (.literal text)) v → ¬ Text.IsBlank text
  contained_not_blank : ∀ text, Within (.scalar (.contained text)) v → ¬ Text.IsBlank text
  /-- No array is an element of an array. -/
  flat : ∀ elements inner, Within (.array elements) v → .array inner ∉ elements

structure ImportItem.WellFormed [Text.IdentifierClasses] (i : ImportItem) : Prop where
  name_not_blank : ¬ Text.IsBlank i.name
  rename_isIdentifier : ∀ text, i.rename = some text → Text.IsIdentifier text.toList

structure MemberSpec.WellFormed [Text.IdentifierClasses] (m : MemberSpec) : Prop where
  name_isIdentifier : Text.IsIdentifier m.name.toList
  enumeration_not_blank : ∀ text, m.type = .enumeration text → ¬ Text.IsBlank text
  entity_not_blank : ∀ text, m.type = .entity text → ¬ Text.IsBlank text
  default_good : ∀ v, m.default = some v → v.Good

structure AssignmentSpec.WellFormed (a : AssignmentSpec) : Prop where
  member_not_blank : ¬ Text.IsBlank a.member
  value_good : a.value.Good

/-- Whether every part of a declaration is as it may be declared. -/
def Declaration.WellFormed [Text.IdentifierClasses] : Declaration → Prop
  | .imports s => ¬ Text.IsBlank s.source ∧ ∀ i ∈ s.items, i.WellFormed
  | .entity s => Text.IsIdentifier s.name.toList ∧ ∀ m ∈ s.members, m.WellFormed
  | .enumeration s =>
    Text.IsIdentifier s.name.toList ∧ ∀ text ∈ s.literals, Text.IsIdentifier text.toList
  | .instantiation s =>
    Text.IsIdentifier s.name.toList ∧ ¬ Text.IsBlank s.entity ∧
      ∀ a ∈ s.assignments, a.WellFormed

/-- What is required of a value is required of whatever it is in. -/
theorem Value.Within.requirements_subset {v w : Value} (h : v.Within w) (owner : String) :
    v.requirements owner ⊆ w.requirements owner := by
  induction h with
  | self => exact List.Subset.refl _
  | element he _ ih =>
    intro r hr
    rw [requirements, elementRequirements_eq_flatMap]
    exact List.mem_flatMap.2 ⟨_, he, List.mem_cons_of_mem _ (ih hr)⟩

theorem MemberType.forall_met_iff {t : MemberType String} :
    (∀ r ∈ t.requirements, r.Met) ↔
      (∀ text, t = .enumeration text → ¬ Text.IsBlank text) ∧
        ∀ text, t = .entity text → ¬ Text.IsBlank text := by
  cases t <;> simp [requirements, reference?, Met]

theorem Scalar.forall_met_iff {s : Scalar String} :
    (∀ r ∈ s.requirements, r.Met) ↔
      (∀ text, s = .literal text → ¬ Text.IsBlank text) ∧
        ∀ text, s = .contained text → ¬ Text.IsBlank text := by
  cases s <;> simp [requirements, reference?, Met]

theorem Value.Good.forall_met_of_within {v : Value} {s : Scalar String} (h : v.Good)
    (hs : Within (.scalar s) v) : ∀ r ∈ s.requirements, r.Met :=
  Scalar.forall_met_iff.2
    ⟨fun text heq ↦ h.literal_not_blank text (heq ▸ hs),
      fun text heq ↦ h.contained_not_blank text (heq ▸ hs)⟩

/-- What is in a good value is a scalar, an array of scalars or one of these scalars, so that what
is required of it can be told at once. -/
theorem Value.good_iff {v : Value} (owner : String) :
    v.Good ↔ ∀ r ∈ v.requirements owner, r.Met := by
  constructor
  · intro h
    cases v with
    | scalar s => exact h.forall_met_of_within .self
    | array elements =>
      rw [requirements, elementRequirements_eq_flatMap, List.forall_mem_flatMap]
      intro e he
      cases e with
      | scalar s =>
        exact List.forall_mem_cons.2 ⟨nofun, h.forall_met_of_within (.element he .self)⟩
      | array inner => exact absurd he (h.flat elements inner .self)
  · intro h
    have hwithin {w : Value} (hw : w.Within v) : ∀ r ∈ w.requirements owner, r.Met :=
      fun r hr ↦ h r (hw.requirements_subset owner hr)
    refine ⟨fun text hw ↦ ?_, fun text hw ↦ ?_, fun elements inner hw hinner ↦ ?_⟩
    · exact (Scalar.forall_met_iff.1 (hwithin hw)).1 text rfl
    · exact (Scalar.forall_met_iff.1 (hwithin hw)).2 text rfl
    · have harray := hwithin hw
      rw [requirements, elementRequirements_eq_flatMap, List.forall_mem_flatMap] at harray
      exact (List.forall_mem_cons.1 (harray _ hinner)).1 inner rfl

theorem ImportItem.wellFormed_iff {i : ImportItem} :
    i.WellFormed ↔ ∀ r ∈ i.requirements, r.Met := by
  rw [requirements, List.forall_mem_append, List.forall_mem_map, List.forall_mem_singleton]
  simp only [Option.mem_toList]
  exact ⟨fun h ↦ ⟨h.rename_isIdentifier, h.name_not_blank⟩,
    fun ⟨hrename, hname⟩ ↦ ⟨hname, hrename⟩⟩

theorem MemberSpec.wellFormed_iff {m : MemberSpec} :
    m.WellFormed ↔ ∀ r ∈ m.requirements, r.Met := by
  rw [requirements, List.forall_mem_cons, List.forall_mem_append, MemberType.forall_met_iff,
    List.forall_mem_flatMap]
  simp only [Option.mem_toList, ← Value.good_iff]
  exact ⟨fun h ↦
      ⟨h.name_isIdentifier, ⟨h.enumeration_not_blank, h.entity_not_blank⟩, h.default_good⟩,
    fun ⟨hname, ⟨henumeration, hentity⟩, hdefault⟩ ↦ ⟨hname, henumeration, hentity, hdefault⟩⟩

theorem AssignmentSpec.wellFormed_iff {a : AssignmentSpec} :
    a.WellFormed ↔ ∀ r ∈ a.requirements, r.Met := by
  rw [requirements, List.forall_mem_cons, ← Value.good_iff]
  exact ⟨fun h ↦ ⟨h.member_not_blank, h.value_good⟩, fun ⟨hmember, hvalue⟩ ↦ ⟨hmember, hvalue⟩⟩

theorem Declaration.wellFormed_iff {x : Declaration} :
    x.WellFormed ↔ ∀ r ∈ x.requirements, r.Met := by
  cases x <;>
    simp only [WellFormed, requirements, List.forall_mem_cons, List.forall_mem_flatMap,
      List.forall_mem_map, ImportItem.wellFormed_iff, MemberSpec.wellFormed_iff,
      AssignmentSpec.wellFormed_iff, Met]

theorem Declaration.firstViolation?_eq_some_iff {x : Declaration} {e : BuildError} :
    x.firstViolation? = some e ↔ FirstUnmet x.requirements e := by
  rw [firstViolation?, x.judged, findSome?_error?_eq_some_iff]

theorem Declaration.wellFormed_iff_firstViolation? {x : Declaration} :
    x.WellFormed ↔ x.firstViolation? = none := by
  rw [wellFormed_iff, ← findSome?_error?_eq_none_iff, firstViolation?, x.judged]

namespace Draft

/-- **A draft accepts exactly the well-formed declarations**, whatever has been declared before. It
refuses any other for the first of its requirements that is not met. So it is with the name that a
draft is started with: the name is qualified, or reported. -/
theorem accepts_exactly_wellFormed [Text.IdentifierClasses] :
    (∀ (file : FileId) (name : String),
      ((∃ draft, start? file name = .ok draft) ↔ Text.IsQualified name) ∧
        ∀ e, start? file name = .error e ↔
          ¬ Text.IsQualified name ∧ e = .invalidIdentifier name) ∧
      ∀ (draft : Draft) (x : Declaration),
        ((∃ n, (draft.attempt x).2 = .declared n) ↔ x.WellFormed) ∧
          ((∃ e, (draft.attempt x).2 = .refused e) ↔ ¬ x.WellFormed) ∧
            ∀ e, (draft.attempt x).2 = .refused e ↔ FirstUnmet x.requirements e := by
  refine ⟨fun file name ↦ ?_, fun draft x ↦ ?_⟩
  · rw [start?, ← Text.isQualifiedName_eq_true_iff]
    by_cases hname : Text.isQualifiedName name = true
    · simp [hname]
    · simp [hname, eq_comm]
  · rw [attempt_eq_declare, Declaration.wellFormed_iff_firstViolation?]
    simp only [← Declaration.firstViolation?_eq_some_iff]
    cases hx : x.firstViolation? with
    | none => simp [declare_of_no_violation hx]
    | some e => simp [declare_of_violation hx]

end Draft

end Classes

namespace Draft

open Requirement

/-- An enumeration whose names are identifiers. -/
def sizes : Declaration := .enumeration ⟨"Größe", ["_klein", "x1"]⟩

/-- An import of a blank name, under an alias that is no identifier. -/
def misnamedImport : Declaration := .imports ⟨"m", [⟨" ", some "9"⟩]⟩

/-- The enumeration is accepted. Of the import the alias is reported, which comes before the name
that it stands for. -/
theorem accepts_exactly_wellFormed_ofMisnamedImport :
    (∃ draft, start? ⟨0⟩ "m" = .ok draft ∧ (draft.attempt sizes).2 = .declared 1 ∧
      (draft.attempt misnamedImport).2 = .refused (.invalidIdentifier "9")) ∧
    sizes.WellFormed ∧ FirstUnmet misnamedImport.requirements (.invalidIdentifier "9") ∧
    ¬ Text.IsQualified "a..b" := by
  obtain ⟨hstart, hattempt⟩ := accepts_exactly_wellFormed
  have hm : start? ⟨0⟩ "m" = .ok ⟨.blank ⟨0⟩ "m", 2⟩ := if_pos (by decide)
  have hdotted : start? ⟨0⟩ "a..b" = .error (.invalidIdentifier "a..b") := if_neg (by decide)
  have hsizes : ((Draft.mk (.blank ⟨0⟩ "m") 2).attempt sizes).2 = .declared 1 := by
    decide +kernel
  have hmisnamed : ((Draft.mk (.blank ⟨0⟩ "m") 2).attempt misnamedImport).2 =
      .refused (.invalidIdentifier "9") := by
    decide +kernel
  exact ⟨⟨_, hm, hsizes, hmisnamed⟩, (hattempt _ sizes).1.1 ⟨1, hsizes⟩,
    ((hattempt _ misnamedImport).2.2 _).1 hmisnamed, ((hstart ⟨0⟩ "a..b").2 _).1 hdotted |>.1⟩

end Draft

end Schemata
