import Schemata.Proofs.Types

/-!
# Well-formed documents

What a document has to be for its check to find nothing, said without the check. The relations on
types are given by rules of their own (`Snapshot.Declares`, `Snapshot.IsOf`), each with one lemma
that ties it to the inferred types. A document is well-formed (`Snapshot.WellFormed`) if

* none of its references comes to no node or to several,
* its classifiers, the members of each entity and the literals of each enumeration differ in name,
* the bounds of its members make sense,
* every value that its members or its instances give to a member fits that member,
* and its instances assign what their entities ask for, and nothing twice.

Nothing is said of values whose member has no known type, except of the sizes of arrays and of
repeated elements.
-/

namespace Schemata

variable {classes : Text.IdentifierClasses}

/-! ### Sameness of floating-point numbers -/

/-- Only the two zeros are folded into one. -/
theorem Binary64.foldedBits_eq_iff {x y : Binary64} :
    x.foldedBits = y.foldedBits ↔ x.bits = y.bits ∨ (x.isZero = true ∧ y.isZero = true) := by
  have hzero (z : Binary64) (hz : z.bits = 0) : z.isZero = true := by rw [isZero, hz]; rfl
  rw [foldedBits, foldedBits]
  constructor
  · intro h
    split at h
    · rename_i hx
      split at h
      · rename_i hy
        exact .inr ⟨hx, hy⟩
      · exact .inr ⟨hx, hzero y h.symm⟩
    · split at h
      · rename_i hy
        exact .inr ⟨hzero x h, hy⟩
      · exact .inl h
  · rintro (h | ⟨hx, hy⟩)
    · have heq : x.isZero = y.isZero := by rw [isZero, isZero, h]
      rw [heq, h]
    · rw [if_pos hx, if_pos hy]

namespace Catalog

/-- Whether no two of some nodes have the same name. -/
def DistinctNames (c : Catalog) (places : List NodeId) : Prop :=
  places.Pairwise fun a b ↦ ∀ name, c.name? a = some name → c.name? b ≠ some name

end Catalog

/-- Whether a lower and an upper bound, each of which may be missing, make sense: the lower one is
not greater, and they do not leave only zero. -/
structure Cardinality.Sensible (c : Cardinality) : Prop where
  lower_le_upper : ∀ l ∈ c.lower, ∀ u ∈ c.upper, l ≤ u
  not_zero : ¬ (c.upper = some 0 ∧ (c.lower = none ∨ c.lower = some 0))

namespace Snapshot

variable (s : Snapshot)

/-! ### Types by rules -/

/-- The type that a member declares, if its reference comes to something of the right kind. -/
inductive Declares (member : NodeId) : DataType → Prop
  | boolean {u : NodeId} (hu : s.catalog.memberType? member = some (u, .boolean)) :
      Declares member .boolean
  | integer {u : NodeId} (hu : s.catalog.memberType? member = some (u, .integer)) :
      Declares member .integer
  | float {u : NodeId} (hu : s.catalog.memberType? member = some (u, .float)) :
      Declares member .float
  | string {u : NodeId} (hu : s.catalog.memberType? member = some (u, .string)) :
      Declares member .string
  | enumeration {u e : NodeId} {r : Reference} {name : String}
      (hu : s.catalog.memberType? member = some (u, .enumeration r))
      (ht : s.resolutionAt u = .found e) (he : s.catalog.content? e = some (.enumeration name)) :
      Declares member (.enumeration e)
  | entity {u e : NodeId} {r : Reference} {name : String} {id : Option String}
      (hu : s.catalog.memberType? member = some (u, .entity r))
      (ht : s.resolutionAt u = .found e) (he : s.catalog.content? e = some (.entity name id)) :
      Declares member (.entity e)

/-- The type of which a value is, if it is a scalar. A literal is of the enumeration of which it
comes to a literal, and a contained value of the entity to which it comes. -/
inductive IsOf (value : NodeId) : DataType → Prop
  | boolean {b : Bool} (hv : s.catalog.content? value = some (.value (.boolean b))) :
      IsOf value .boolean
  | integer {i : Int64} (hv : s.catalog.content? value = some (.value (.integer i))) :
      IsOf value .integer
  | float {x : Binary64} (hv : s.catalog.content? value = some (.value (.float x))) :
      IsOf value .float
  | string {t : String} (hv : s.catalog.content? value = some (.value (.string t))) :
      IsOf value .string
  | literal {l e : NodeId} {r : Reference}
      (hv : s.catalog.content? value = some (.value (.literal r)))
      (ht : s.resolutionAt value = .found l) (hl : l ∈ s.catalog.children e) :
      IsOf value (.enumeration e)
  | contained {e : NodeId} {r : Reference}
      (hv : s.catalog.content? value = some (.value (.contained r)))
      (ht : s.resolutionAt value = .found e) : IsOf value (.entity e)

/-- Whether two scalars are the same value. The two zeros are the same, and so are references to one
node. -/
inductive SameValue (a b : NodeId) : Prop
  | boolean {x : Bool} (ha : s.catalog.content? a = some (.value (.boolean x)))
      (hb : s.catalog.content? b = some (.value (.boolean x)))
  | integer {x : Int64} (ha : s.catalog.content? a = some (.value (.integer x)))
      (hb : s.catalog.content? b = some (.value (.integer x)))
  | float {x y : Binary64} (ha : s.catalog.content? a = some (.value (.float x)))
      (hb : s.catalog.content? b = some (.value (.float y)))
      (hxy : x.bits = y.bits ∨ (x.isZero = true ∧ y.isZero = true))
  | string {x : String} (ha : s.catalog.content? a = some (.value (.string x)))
      (hb : s.catalog.content? b = some (.value (.string x)))
  | reference {x y : Scalar Reference} {t : NodeId}
      (ha : s.catalog.content? a = some (.value x)) (hb : s.catalog.content? b = some (.value y))
      (hx : s.resolutionAt a = .found t) (hy : s.resolutionAt b = .found t)

/-! ### Values in their positions -/

/-- The values that a file gives to members: the defaults of its members, and what its assignments
give to the members to which they come. -/
inductive Gives (file : FileId) : NodeId → NodeId → Prop
  | default {member value : NodeId} {m : Member} (hfile : member.file = file)
      (hm : s.catalog.content? member = some (.member m))
      (hv : s.catalog.default? member = some value) : Gives file member value
  | assigned {a member value : NodeId} {r : Reference} (hfile : a.file = file)
      (ha : s.catalog.content? a = some (.assignment r)) (ht : s.resolutionAt a = .found member)
      (hv : s.catalog.assigned? a = some value) : Gives file member value

/-- Whether a value fits what a member declares. -/
structure Fits (member : NodeId) (m : Member) (value : NodeId) : Prop where
  scalar : m.cardinality.isArray = false → ∀ t, s.Declares member t → s.IsOf value t
  array : m.cardinality.isArray = true → ∀ t, s.Declares member t →
    s.catalog.content? value = some .array ∧ ∀ e ∈ s.catalog.children value, s.IsOf e t
  size : s.catalog.content? value = some .array →
    (s.settings.arrayBounds.limits m.cardinality).1.toNat ≤ (s.catalog.children value).length ∧
      (s.catalog.children value).length ≤
        (s.settings.arrayBounds.limits m.cardinality).2.toNat
  distinct : s.catalog.content? value = some .array → m.unique = true →
    (s.catalog.children value).Pairwise fun a b ↦ ¬ s.SameValue a b

/-! ### Members and instances -/

/-- Whether the bounds of a member make sense. Unique values need as many values to choose from. -/
structure Bounded (n : NodeId) (m : Member) : Prop where
  sensible : m.cardinality.Sensible
  booleans : m.unique = true → ∀ u ∈ m.cardinality.upper, ∀ t,
    s.catalog.memberType? n = some (t, .boolean) → u ≤ 2
  literals : m.unique = true → ∀ u ∈ m.cardinality.upper, ∀ t r e,
    s.catalog.memberType? n = some (t, .enumeration r) → s.resolutionAt t = .found e →
      u.toNat ≤ (s.catalog.children e).length

/-- Whether an instance of an entity assigns a value to every attribute that has no default, by
name, and to no member twice. -/
structure Complete (n entity : NodeId) : Prop where
  assigns : ∀ member ∈ s.catalog.children entity, ∀ m,
    s.catalog.content? member = some (.member m) → m.role = .attribute →
      s.catalog.default? member = none → ∃ a ∈ s.catalog.children n, ∃ t,
        s.resolutionAt a = .found t ∧ s.catalog.name? t = some m.name
  once : (s.catalog.children n).Pairwise fun a b ↦
    ∀ t, s.resolutionAt a = .found t → s.resolutionAt b ≠ .found t

/-- Whether the document of a file is well-formed. -/
structure WellFormed (file : FileId) : Prop where
  linked : ∀ n : NodeId, n.file = file →
    s.resolutionAt n ≠ .notFound ∧ ∀ targets, s.resolutionAt n ≠ .ambiguous targets
  classifiers : ∀ d, s.catalog.document? file = some d →
    s.catalog.DistinctNames (d.classifiers.map d.id)
  members : ∀ n name id, n.file = file → s.catalog.content? n = some (.entity name id) →
    s.catalog.DistinctNames (s.catalog.children n)
  literals : ∀ n name, n.file = file → s.catalog.content? n = some (.enumeration name) →
    s.catalog.DistinctNames (s.catalog.children n)
  bounds : ∀ n m, n.file = file → s.catalog.content? n = some (.member m) → s.Bounded n m
  values : ∀ member m value, s.Gives file member value →
    s.catalog.content? member = some (.member m) → s.Fits member m value
  instances : ∀ n name r entity, n.file = file →
    s.catalog.content? n = some (.instantiation name r) → s.resolutionAt n = .found entity →
      s.Complete n entity

/-! ### The rules agree with the inferred types -/

variable {s} {n : NodeId}

/-- What a member declares is inferred for it. -/
theorem typeAt?_of_declares (h : s.catalog.Loaded) {m : Member} {t : DataType}
    (hn : s.catalog.content? n = some (.member m)) (ht : s.Declares n t) :
    s.typeAt? n = some t := by
  cases ht with
  | boolean hu | integer hu | float hu | string hu =>
    rw [typeAt?_member h hn hu, typeAt?_eq h, infer, Catalog.content?_of_memberType? hu]
    rfl
  | enumeration hu ht he =>
    rw [typeAt?_member h hn hu, typeAt?_enumerationType h (Catalog.content?_of_memberType? hu),
      targetAt?_eq_some_iff.2 ht, Option.map_some]
  | entity hu ht he =>
    rw [typeAt?_member h hn hu, typeAt?_entityType h (Catalog.content?_of_memberType? hu),
      targetAt?_eq_some_iff.2 ht, Option.bind_some, if_pos (Catalog.isEntity_iff.2 ⟨_, _, he⟩)]

theorem exists_declares (h : s.catalog.Loaded) {m : Member} {t : DataType}
    (hn : s.catalog.content? n = some (.member m)) (htype : s.typeAt? n = some t) :
    ∃ t', s.Declares n t' := by
  obtain ⟨u, w, hu, -⟩ := h.exists_memberType hn
  have hw : s.catalog.content? u = some (.type w) := Catalog.content?_of_memberType? hu
  rw [typeAt?_member h hn hu] at htype
  cases w with
  | boolean => exact ⟨_, .boolean hu⟩
  | integer => exact ⟨_, .integer hu⟩
  | float => exact ⟨_, .float hu⟩
  | string => exact ⟨_, .string hu⟩
  | enumeration r =>
    rw [typeAt?_enumerationType h hw] at htype
    obtain ⟨e, he, -⟩ := Option.map_eq_some_iff.1 htype
    obtain ⟨name, hname⟩ := exists_enumeration_of_enumerationType hw he
    exact ⟨_, .enumeration hu (targetAt?_eq_some_iff.1 he) hname⟩
  | entity r =>
    rw [typeAt?_entityType h hw] at htype
    obtain ⟨e, he, htype⟩ := Option.bind_eq_some_iff.1 htype
    split at htype
    · rename_i hentity
      obtain ⟨name, id, hname⟩ := Catalog.isEntity_iff.1 hentity
      exact ⟨_, .entity hu (targetAt?_eq_some_iff.1 he) hname⟩
    · cases htype

/-- A member declares the type that is inferred for it. -/
theorem declares_iff (h : s.catalog.Loaded) {m : Member} {t : DataType}
    (hn : s.catalog.content? n = some (.member m)) : s.Declares n t ↔ s.typeAt? n = some t := by
  refine ⟨typeAt?_of_declares h hn, fun htype ↦ ?_⟩
  obtain ⟨t', ht'⟩ := exists_declares h hn htype
  have htype' : s.typeAt? n = some t' := typeAt?_of_declares h hn ht'
  obtain rfl : t = t' := Option.some.inj (htype.symm.trans htype')
  exact ht'

/-- What a scalar is of is inferred for it. -/
theorem typeAt?_of_isOf (h : s.catalog.Loaded) {t : DataType} (hof : s.IsOf n t) :
    s.typeAt? n = some t := by
  cases hof with
  | boolean hv | integer hv | float hv | string hv =>
    rw [typeAt?_eq h, infer, hv]
    rfl
  | literal hv ht hl =>
    rw [typeAt?_literal h hv, targetAt?_eq_some_iff.2 ht, Option.bind_some,
      h.mem_children_iff.1 hl, Option.map_some]
  | contained hv ht =>
    rw [typeAt?_contained h hv, targetAt?_eq_some_iff.2 ht, Option.map_some]

theorem exists_isOf (h : s.catalog.Loaded) {v : Scalar Reference} {t : DataType}
    (hn : s.catalog.content? n = some (.value v)) (htype : s.typeAt? n = some t) :
    ∃ t', s.IsOf n t' := by
  cases v with
  | boolean b => exact ⟨_, .boolean hn⟩
  | integer i => exact ⟨_, .integer hn⟩
  | float x => exact ⟨_, .float hn⟩
  | string x => exact ⟨_, .string hn⟩
  | literal r =>
    rw [typeAt?_literal h hn] at htype
    obtain ⟨l, hl, htype⟩ := Option.bind_eq_some_iff.1 htype
    obtain ⟨e, he, -⟩ := Option.map_eq_some_iff.1 htype
    exact ⟨_, .literal hn (targetAt?_eq_some_iff.1 hl) (h.mem_children_iff.2 he)⟩
  | contained r =>
    rw [typeAt?_contained h hn] at htype
    obtain ⟨e, he, -⟩ := Option.map_eq_some_iff.1 htype
    exact ⟨_, .contained hn (targetAt?_eq_some_iff.1 he)⟩

/-- A scalar is of the type that is inferred for it. -/
theorem isOf_iff (h : s.catalog.Loaded) {v : Scalar Reference} {t : DataType}
    (hn : s.catalog.content? n = some (.value v)) : s.IsOf n t ↔ s.typeAt? n = some t := by
  refine ⟨typeAt?_of_isOf h, fun htype ↦ ?_⟩
  obtain ⟨t', ht'⟩ := exists_isOf h hn htype
  have htype' : s.typeAt? n = some t' := typeAt?_of_isOf h ht'
  obtain rfl : t = t' := Option.some.inj (htype.symm.trans htype')
  exact ht'

/-- Only scalars are of a type. -/
theorem exists_scalar_of_isOf {t : DataType} (h : s.IsOf n t) :
    ∃ v, s.catalog.content? n = some (.value v) := by
  cases h with
  | boolean hv | integer hv | float hv | string hv => exact ⟨_, hv⟩
  | literal hv _ _ => exact ⟨_, hv⟩
  | contained hv _ => exact ⟨_, hv⟩

end Snapshot

end Schemata
