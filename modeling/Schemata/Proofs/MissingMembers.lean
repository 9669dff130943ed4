import Schemata.Proofs.DuplicateNames
import Schemata.Proofs.FirstMatches

/-!
# Missing members

An instance has to assign a value to each attribute of its entity that has no default. Which are
assigned is decided by texts: the check compares the names of the attributes with the texts of the
assignments. But what an assignment gives a value to is decided by its reference, which comes to the
first member of its name. The two agree (`Snapshot.mem_assignedNames_iff_found`), so that what is
listed as missing are the attributes whose name has a first member to which no assignment comes
(`Snapshot.missing_members_reported`).

The agreement is about names. An attribute that repeats the name of an earlier member is missing if
the earlier one is not assigned, although nothing could be assigned to it. So it is listed at every
instance, once more than its name should be, or in the place of a member that need not be assigned
(`Snapshot.listsFirsts_iff`).

Where the entity of an instance is not known, none of this is said, nor anything else about the
instance, its assignments and their values, save that its own name may be repeated.
-/

namespace Schemata

theorem map_eq_map_some_filterMap {α β : Type} {f : α → Option β} {xs : List α}
    (h : ∀ x ∈ xs, ∃ y, f x = some y) : xs.map f = (xs.filterMap f).map some := by
  induction xs with
  | nil => rfl
  | cons x xs ih =>
    obtain ⟨y, hy⟩ := h x List.mem_cons_self
    rw [List.map_cons, List.filterMap_cons_some hy, List.map_cons, hy,
      ih fun z hz ↦ h z (List.mem_cons_of_mem x hz)]

namespace Catalog

variable {c : Catalog} {n entity u : NodeId}

/-- The first of the members of an entity that have a name. -/
def firstNamed? (c : Catalog) (entity : NodeId) (name : String) : Option NodeId :=
  (c.children entity).find? fun v ↦ c.name? v == some name

/-- The members of an entity that need a value and whose name no assignment of an instance uses. -/
def missingMembers (c : Catalog) (n entity : NodeId) : List NodeId :=
  (c.children entity).filter fun u ↦
    (c.member? u).any fun m ↦
      m.role = .attribute ∧ c.default? u = none ∧ m.name ∉ c.assignedNames n

theorem mem_missingMembers_iff :
    u ∈ c.missingMembers n entity ↔ u ∈ c.children entity ∧ ∃ m,
      c.content? u = some (.member m) ∧ m.role = .attribute ∧ c.default? u = none ∧
        m.name ∉ c.assignedNames n := by
  simp only [missingMembers, List.mem_filter, Option.any_eq_true, member?_eq_some_iff,
    decide_eq_true_eq]

/-- The check lists these members by their names. -/
theorem filterMap_name?_missingMembers (c : Catalog) (n entity : NodeId) :
    (c.missingMembers n entity).filterMap c.name? =
      (c.requiredNames entity).filter fun name ↦ !(c.assignedNames n).contains name := by
  rw [missingMembers, requiredNames, List.filterMap_filter, List.filter_filterMap]
  refine List.filterMap_congr fun u _ ↦ ?_
  cases hm : c.member? u with
  | none => rfl
  | some m =>
    rw [name?_of_member (member?_eq_some_iff.1 hm), Option.any_some]
    by_cases hrequired : m.role = .attribute ∧ c.default? u = none
    · simp [hrequired, Option.filter]
    · simp [hrequired, ← and_assoc]

/-- Each of them has a name. -/
theorem map_name?_missingMembers (c : Catalog) (n entity : NodeId) :
    (c.missingMembers n entity).map c.name? =
      ((c.missingMembers n entity).filterMap c.name?).map some := by
  refine map_eq_map_some_filterMap fun u hu ↦ ?_
  obtain ⟨-, m, hm, -⟩ := mem_missingMembers_iff.1 hu
  exact ⟨m.name, name?_of_member hm⟩

theorem exists_firstNamed? {name : String} (hu : u ∈ c.children entity)
    (hname : c.name? u = some name) : ∃ first, c.firstNamed? entity name = some first := by
  rw [← Option.isSome_iff_exists, firstNamed?, List.find?_isSome]
  exact ⟨u, hu, by simp [hname]⟩

theorem of_firstNamed? {name : String} (hu : c.firstNamed? entity name = some u) :
    u ∈ c.children entity ∧ c.name? u = some name :=
  ⟨List.mem_of_find?_eq_some hu, by simpa using List.find?_some hu⟩

end Catalog

namespace Snapshot

variable {s : Snapshot} {n entity u : NodeId} {name : String} {r : Reference}

section Classes

variable {classes : Text.IdentifierClasses}

/-- Whether an instance of an entity misses a member: an attribute without a default, so that no
assignment comes to the first member of its name. -/
structure Lacks (s : Snapshot) (n entity u : NodeId) (m : Member) : Prop where
  mem : u ∈ s.catalog.children entity
  content : s.catalog.content? u = some (.member m)
  role : m.role = .attribute
  no_default : s.catalog.default? u = none
  unassigned : ∀ first, s.catalog.firstNamed? entity m.name = some first →
    ∀ a ∈ s.catalog.children n, s.resolutionAt a ≠ .found first

section Instance

variable (h : s.catalog.Loaded) (hn : s.catalog.content? n = some (.instantiation name r))
  (hentity : s.resolutionAt n = .found entity)
include h hn hentity

/-- An assignment comes to the first member that has its text as a name. -/
theorem found_iff_firstNamed? {a t : NodeId} {r' : Reference} (ha : a ∈ s.catalog.children n)
    (hr : s.catalog.content? a = some (.assignment r')) :
    s.resolutionAt a = .found t ↔ s.catalog.firstNamed? entity r'.text = some t := by
  obtain ⟨entityName, id, hc⟩ := exists_entity_of_instantiation hn (targetAt?_eq_some_iff.2 hentity)
  have hlookup :
      (s.catalog.fields entity).lookup r'.text = s.catalog.firstNamed? entity r'.text := by
    rw [Catalog.fields, hc]
    exact (lookup_filterMap s.catalog.name? (fun v _ ↦ v) _ _).trans Option.map_id'
  rw [resolutionAt_assignment_of_found h hr (h.mem_children_iff.1 ha) hentity, hlookup]
  cases s.catalog.firstNamed? entity r'.text <;> simp

/-- **Texts and references agree.** The name of a member is the text of an assignment exactly if an
assignment comes to the first member of this name. -/
theorem mem_assignedNames_iff_found {k : String} {first : NodeId}
    (hfirst : s.catalog.firstNamed? entity k = some first) :
    k ∈ s.catalog.assignedNames n ↔
      ∃ a ∈ s.catalog.children n, s.resolutionAt a = .found first := by
  rw [Catalog.mem_assignedNames_iff]
  refine exists_congr fun a ↦ and_congr_right fun ha ↦ ?_
  obtain ⟨r', hr'⟩ := h.assignment_of_mem_children hn ha
  rw [found_iff_firstNamed? h hn hentity ha hr']
  constructor
  · rintro ⟨r'', hr'', rfl⟩
    cases hr'.symm.trans hr''
    exact hfirst
  · intro hfirst'
    refine ⟨r', hr', ?_⟩
    have hname := (Catalog.of_firstNamed? hfirst').2
    rw [(Catalog.of_firstNamed? hfirst).2] at hname
    exact (Option.some.inj hname).symm

theorem mem_missingMembers_iff_lacks :
    u ∈ s.catalog.missingMembers n entity ↔ ∃ m, s.Lacks n entity u m := by
  rw [Catalog.mem_missingMembers_iff]
  constructor
  · rintro ⟨hu, m, hm, hrole, hdefault, hnot⟩
    refine ⟨m, hu, hm, hrole, hdefault, fun first hfirst a ha hfound ↦ hnot ?_⟩
    exact (mem_assignedNames_iff_found h hn hentity hfirst).2 ⟨a, ha, hfound⟩
  · rintro ⟨m, hlacks⟩
    refine ⟨hlacks.mem, m, hlacks.content, hlacks.role, hlacks.no_default, fun hmem ↦ ?_⟩
    obtain ⟨first, hfirst⟩ :=
      Catalog.exists_firstNamed? hlacks.mem (Catalog.name?_of_member hlacks.content)
    obtain ⟨a, ha, hfound⟩ := (mem_assignedNames_iff_found h hn hentity hfirst).1 hmem
    exact hlacks.unassigned first hfirst a ha hfound

/-- In the check of its file, an instance is told its missing members once, by their names. -/
theorem filter_missingMembers_check {entityName : String} {id : Option String}
    (hc : s.catalog.content? entity = some (.entity entityName id)) :
    (s.evaluate (s.check n.file)).filter
        (fun x ↦ x.code == some "missing-members" && x.node == n) =
      let names := (s.catalog.missingMembers n entity).filterMap s.catalog.name?
      if names = [] then []
      else [(Problem.missingMembers entityName name names).report n (s.catalog.range n) []] := by
  have hassignments : (s.evaluate (s.assignmentFindings n)).filter
      (·.code == some "missing-members") = [] :=
    List.filter_eq_nil_iff.2 fun x hx ↦ by simp [code_of_mem_assignmentFindings hx]
  rw [filter_code_check_eq_filter_contentFindings h hn (by decide) (by decide),
    evaluate_contentFindings_instantiation hn, List.filter_append, hassignments, List.append_nil,
    evaluate_completenessFindings (targetAt?_eq_some_iff.2 hentity) hc,
    Catalog.filterMap_name?_missingMembers]
  simp only [List.isEmpty_iff]
  split
  · rfl
  · simp [Problem.report, Problem.code]

end Instance

/-! ### Instances of no known entity -/

/-- What is found in a value is found at one. -/
theorem isValue_of_given (h : s.catalog.Loaded) {member value : NodeId}
    (hg : s.GivenBy n member value) {x : Diagnostic}
    (hx : x ∈ s.evaluate (s.valueFindings member value)) :
    ∃ k, s.catalog.kind? x.node = some k ∧ k.isValue = true := by
  obtain ⟨p, u, -, hu, -, -, rfl⟩ := exists_finding_of_mem_valueFindings hx
  obtain ⟨-, k, hk, hvalue⟩ := hg.valueOwner? h
  exact (h.of_mem_valueNodes hk hvalue hu).2

/-- An instance is a classifier, so that only those are found to have its name before. -/
theorem exists_first_of_mem_nameFindings (h : s.catalog.Loaded)
    (hn : s.catalog.content? n = some (.instantiation name r)) {p : NodeId} {x : Diagnostic}
    (hx : x ∈ s.catalog.nameFindings p) (hnode : x.node = n) :
    ∃ first, x = (Problem.duplicateName "classifier" name).report n (s.catalog.range n)
      [⟨first, s.catalog.range first, "first declared here"⟩] := by
  cases hp : s.catalog.siblings? p with
  | none =>
    rw [Catalog.nameFindings, hp] at hx
    cases hx
  | some siblings =>
    obtain ⟨places, what⟩ := siblings
    obtain ⟨u, first, name', hrepeats, hname, rfl⟩ := (Catalog.mem_nameFindings_iff hp).1 hx
    obtain rfl : u = n := hnode
    rw [Catalog.name?_eq_bind, hn] at hname
    obtain rfl : name = name' := Option.some.inj hname
    cases Catalog.row_iff.2 ⟨p, rfl, hp⟩ with
    | classifiers _ => exact ⟨first, rfl⟩
    | members _ hp' =>
      obtain ⟨m, hm⟩ := h.member_of_mem_children hp' hrepeats.mem
      cases hn.symm.trans hm
    | literals _ hp' =>
      obtain ⟨literal, hliteral⟩ := h.literal_of_mem_children hp' hrepeats.mem
      cases hn.symm.trans hliteral

section NoEntity

variable (h : s.catalog.Loaded) (hn : s.catalog.content? n = some (.instantiation name r))
  (ht : s.targetAt? n = none)
include h hn ht

/-- Nothing is found in the content of its assignments. -/
theorem contentFindings_assignment_of_no_entity {a : NodeId} (ha : a ∈ s.catalog.children n) :
    s.evaluate (s.contentFindings a) = [] := by
  obtain ⟨r', hr'⟩ := h.assignment_of_mem_children hn ha
  refine contentFindings_assignment_eq_nil hr' (.inl (Option.eq_none_iff_forall_ne_some.2 ?_))
  exact fun t hta ↦ resolutionAt_ne_found_of_no_entity h hn ht ha t (targetAt?_eq_some_iff.1 hta)

variable {p : NodeId} {x : Diagnostic} (hx : x ∈ s.evaluate (s.contentFindings p))
include hx

/-- What is found at an instance of no known entity is that its name is repeated. -/
theorem eq_duplicateName_of_no_entity (hnode : x.node = n) :
    ∃ first, x = (Problem.duplicateName "classifier" name).report n (s.catalog.range n)
      [⟨first, s.catalog.range first, "first declared here"⟩] := by
  have hk : s.catalog.kind? x.node = some .instantiation := hnode ▸ Catalog.kind?_of_content? hn
  cases foundBy_of_mem_contentFindings hx with
  | name hx => exact exists_first_of_mem_nameFindings h hn hx hnode
  | assignment hp hx => cases hk.symm.trans (kind?_of_mem_assignmentFindings h hp hx)
  | own _ _ _ hx' =>
    have hp : n = p := hnode.symm.trans (hx' ▸ rfl)
    rw [← hp, contentFindings_of_no_entity h hn ht] at hx
    cases hx
  | given hg hx =>
    obtain ⟨k, hk', hvalue⟩ := isValue_of_given h hg hx
    cases Option.some.inj (hk.symm.trans hk')
    cases hvalue

/-- Nothing is found at its assignments. -/
theorem node_not_mem_children_of_no_entity : x.node ∉ s.catalog.children n := by
  intro hmem
  obtain ⟨r', hr'⟩ := h.assignment_of_mem_children hn hmem
  have hk : s.catalog.kind? x.node = some .assignment := Catalog.kind?_of_content? hr'
  cases foundBy_of_mem_contentFindings hx with
  | name hx =>
    obtain ⟨places, what, hp, t, name', hpair, -⟩ :=
      Catalog.exists_mem_nameFindings_iff.1 ⟨x, hx, rfl⟩
    obtain ⟨k, hk', hne⟩ := h.kind?_of_mem_siblings hp (hpair.mem (List.mem_pair.2 (.inr rfl)))
    exact hne (Option.some.inj (hk'.symm.trans hk))
  | assignment _ hx' =>
    -- it stands in no other instance
    have hchild := (nodes_assignmentFindings_sublist s p).subset (List.mem_map_of_mem hx')
    have hp : p = n :=
      Option.some.inj ((h.mem_children_iff.1 hchild).symm.trans (h.mem_children_iff.1 hmem))
    rw [hp, contentFindings_of_no_entity h hn ht] at hx
    cases hx
  | own _ _ _ hx' =>
    have hp : x.node = p := hx' ▸ rfl
    rw [← hp, contentFindings_assignment_of_no_entity h hn ht hmem] at hx
    cases hx
  | given hg hx =>
    obtain ⟨k, hk', hvalue⟩ := isValue_of_given h hg hx
    cases Option.some.inj (hk.symm.trans hk')
    cases hvalue

/-- Nothing is found at the values that they assign. -/
theorem node_not_mem_valueNodes_of_no_entity {a value : NodeId} (ha : a ∈ s.catalog.children n)
    (hv : s.catalog.assigned? a = some value) : x.node ∉ s.catalog.valueNodes value := by
  intro hmem
  obtain ⟨r', hr'⟩ := h.assignment_of_mem_children hn ha
  obtain ⟨value', k, hv', hparent, hk, hvalue⟩ := h.exists_assigned hr'
  obtain rfl : value = value' := Option.some.inj (hv.symm.trans hv')
  obtain ⟨howner, k', hk', hvalue'⟩ := h.of_mem_valueNodes hk hvalue hmem
  have hp : p = a := by
    have hx' := valueOwner?_of_mem_contentFindings h hx hk' hvalue'
    rw [howner, h.valueOwner?_of_parent hparent (Catalog.kind?_of_content? hr') (.inr rfl)] at hx'
    exact (Option.some.inj hx').symm
  rw [hp, contentFindings_assignment_of_no_entity h hn ht ha] at hx
  cases hx

end NoEntity

/-- **Missing members are reported once, and only at instances of known entities.** An instance
whose entity is known is told, in the order of their declaration, the names of the attributes
without a default of which no assignment comes to the first member of the name, or nothing if there
are none. At an instance whose entity is not known, at its assignments and at their values, nothing
is found of this kind, nor a repeated assignment, a type that does not match or anything about an
array, save that the name of the instance itself may be repeated. -/
theorem missing_members_reported (s : Snapshot) (h : s.catalog.Loaded) {n : NodeId} {name : String}
    {r : Reference} (hn : s.catalog.content? n = some (.instantiation name r)) :
    (∀ entity, s.resolutionAt n = .found entity →
      ∃ (entityName : String) (id : Option String) (missing : List NodeId) (names : List String),
        s.catalog.content? entity = some (.entity entityName id) ∧
        (s.catalog.children entity).Nodup ∧ missing.Sublist (s.catalog.children entity) ∧
        (∀ u, u ∈ missing ↔ ∃ m, s.Lacks n entity u m) ∧
        missing.map s.catalog.name? = names.map some ∧
        (s.evaluate (s.check n.file)).filter
            (fun x ↦ x.code == some "missing-members" && x.node == n) =
          if names = [] then []
          else [(Problem.missingMembers entityName name names).report n (s.catalog.range n) []]) ∧
    ((∀ entity, s.resolutionAt n ≠ .found entity) → ∀ file, ∀ x ∈ s.evaluate (s.check file),
      x.code ∈ [some "missing-members", some "duplicate-name", some "type-mismatch",
        some "array-size", some "array-not-unique"] →
      (x.node = n → ∃ first, x = (Problem.duplicateName "classifier" name).report n
        (s.catalog.range n) [⟨first, s.catalog.range first, "first declared here"⟩]) ∧
      x.node ∉ s.catalog.children n ∧
      ∀ a ∈ s.catalog.children n, ∀ value, s.catalog.assigned? a = some value →
        x.node ∉ s.catalog.valueNodes value) := by
  refine ⟨fun entity hentity ↦ ?_, fun hnone file x hx hcode ↦ ?_⟩
  · obtain ⟨entityName, id, hc⟩ :=
      exists_entity_of_instantiation hn (targetAt?_eq_some_iff.2 hentity)
    have hmem (u : NodeId) := mem_missingMembers_iff_lacks h hn hentity (u := u)
    exact ⟨entityName, id, s.catalog.missingMembers n entity, _, hc, h.children_nodup entity,
      List.filter_sublist, hmem, Catalog.map_name?_missingMembers s.catalog n entity,
      filter_missingMembers_check h hn hentity hc⟩
  · have ht : s.targetAt? n = none :=
      Option.eq_none_iff_forall_ne_some.2 fun t ht ↦ hnone t (targetAt?_eq_some_iff.1 ht)
    have hlinking : x.isLinking = false := by
      simp only [List.mem_cons, List.not_mem_nil, or_false] at hcode
      rcases hcode with hcode | hcode | hcode | hcode | hcode <;> simp [Diagnostic.isLinking, hcode]
    obtain ⟨p, hx⟩ := exists_mem_contentFindings hx hlinking
    exact ⟨eq_duplicateName_of_no_entity h hn ht hx,
      node_not_mem_children_of_no_entity h hn ht hx,
      fun a ha value hv ↦ node_not_mem_valueNodes_of_no_entity h hn ht hx ha hv⟩

end Classes

/-- One document with an entity of three attributes, of which the second has a default, and two
instances of one name. The one at place 9 is of the entity and assigns the third attribute. The one
at place 12 is of no entity and assigns an array, at place 14, in which a value is repeated. -/
def ofIncomplete : Snapshot :=
  .ofDocuments [.drafting ⟨0⟩ "m"
    [.declare (.entity ⟨"E", some "e",
      [⟨"x", .attribute, .integer, ⟨none, none, false⟩, false, false, none⟩,
        ⟨"y", .attribute, .integer, ⟨none, none, false⟩, false, false, some (.scalar (.integer 3))⟩,
        ⟨"z", .attribute, .integer, ⟨none, none, true⟩, true, false, none⟩]⟩),
      .declare (.instantiation ⟨"i", "e", [⟨"z", .array []⟩]⟩),
      .declare (.instantiation
        ⟨"i", "f", [⟨"z", .array [.scalar (.integer 1), .scalar (.integer 1)]⟩]⟩)]]

theorem loaded_ofIncomplete : ofIncomplete.catalog.Loaded :=
  .ofDrafting _ _ (by decide)

/-- There the first instance is told to miss the first attribute. At the second only its name is
found, and nothing in its array. -/
theorem missing_members_reported_ofIncomplete :
    ofIncomplete.catalog.Loaded ∧
      ofIncomplete.resolutionAt ⟨⟨0⟩, 9⟩ = .found ⟨⟨0⟩, 1⟩ ∧
      (∃ missing : List NodeId,
        (∀ u, u ∈ missing ↔ ∃ m, ofIncomplete.Lacks ⟨⟨0⟩, 9⟩ ⟨⟨0⟩, 1⟩ u m) ∧
        missing.map ofIncomplete.catalog.name? = [some "x"]) ∧
      (ofIncomplete.evaluate (ofIncomplete.check ⟨0⟩)).map (fun x ↦ (x.node.index, x.code)) =
        [(12, some "linking-error"), (12, some "duplicate-name"), (9, some "missing-members")] ∧
      ∀ x ∈ ofIncomplete.evaluate (ofIncomplete.check ⟨0⟩), x.code = some "array-not-unique" →
        x.node ∉ ofIncomplete.catalog.valueNodes ⟨⟨0⟩, 14⟩ := by
  have hfound : ofIncomplete.resolutionAt ⟨⟨0⟩, 9⟩ = .found ⟨⟨0⟩, 1⟩ := by decide
  have hnone : ofIncomplete.resolutionAt ⟨⟨0⟩, 12⟩ = .notFound := by decide
  obtain ⟨entityName, id, missing, names, -, -, -, hmem, hmap, hfilter⟩ :=
    (missing_members_reported ofIncomplete loaded_ofIncomplete (n := ⟨⟨0⟩, 9⟩) rfl).1 _ hfound
  obtain ⟨-, hunknown⟩ :=
    missing_members_reported ofIncomplete loaded_ofIncomplete (n := ⟨⟨0⟩, 12⟩) rfl
  have hnames : names = ["x"] := by
    have hpayloads : ((ofIncomplete.evaluate (ofIncomplete.check ⟨0⟩)).filter
        fun x ↦ x.code == some "missing-members" && x.node == ⟨⟨0⟩, 9⟩).map (·.payload) =
          [some (.missingMembers "i" ["x"])] := by
      decide
    rw [hfilter] at hpayloads
    split at hpayloads
    · cases hpayloads
    · simpa [Problem.report, Problem.payload] using hpayloads
  refine ⟨loaded_ofIncomplete, hfound, ⟨missing, hmem, by rw [hmap, hnames]; rfl⟩, by decide,
    fun x hx hcode ↦ ?_⟩
  exact (hunknown (by simp [hnone]) ⟨0⟩ x hx (by simp [hcode])).2.2 ⟨⟨0⟩, 13⟩ (by decide) _ rfl

/-! ### Attributes that repeat a name -/

section Classes

variable {classes : Text.IdentifierClasses}

/-- Whether an instance of an entity misses a member to which an assignment could come: an attribute
without a default that is the first of its name, and no assignment has the name as its text. -/
structure LacksFirst (s : Snapshot) (n entity u : NodeId) (m : Member) : Prop where
  first : s.catalog.firstNamed? entity m.name = some u
  content : s.catalog.content? u = some (.member m)
  role : m.role = .attribute
  no_default : s.catalog.default? u = none
  unassigned : ∀ a ∈ s.catalog.children n, ∀ r, s.catalog.content? a = some (.assignment r) →
    r.text ≠ m.name

/-- Whether some names are those of these members, each once and in the order of their
declaration. -/
structure ListsFirsts (s : Snapshot) (n entity : NodeId) (names : List String) : Prop where
  nodup : names.Nodup
  exists_firsts : ∃ firsts : List NodeId, firsts.Sublist (s.catalog.children entity) ∧
    (∀ u, u ∈ firsts ↔ ∃ m, s.LacksFirst n entity u m) ∧
      firsts.map s.catalog.name? = names.map some

/-- The names that an instance is told to be missing. -/
def listedMissing (s : Snapshot) (n : NodeId) : List String :=
  ((s.evaluate (s.check n.file)).filter
    fun x ↦ x.code == some "missing-members" && x.node == n).flatMap fun x ↦
      match x.payload with
      | some (.missingMembers _ names) => names
      | _ => []

section Listed

variable (h : s.catalog.Loaded) (hn : s.catalog.content? n = some (.instantiation name r))
  (hentity : s.resolutionAt n = .found entity)
include h hn hentity

theorem listedMissing_eq :
    s.listedMissing n = (s.catalog.missingMembers n entity).filterMap s.catalog.name? := by
  obtain ⟨entityName, id, hc⟩ := exists_entity_of_instantiation hn (targetAt?_eq_some_iff.2 hentity)
  rw [listedMissing, filter_missingMembers_check h hn hentity hc]
  dsimp only
  split
  · rename_i hnil
    rw [hnil]
    rfl
  · exact List.append_nil _

theorem lacksFirst_iff {m : Member} :
    s.LacksFirst n entity u m ↔
      s.Lacks n entity u m ∧ s.catalog.firstNamed? entity m.name = some u := by
  have hassigned (hfirst : s.catalog.firstNamed? entity m.name = some u) :
      (∃ a ∈ s.catalog.children n, ∃ r, s.catalog.content? a = some (.assignment r) ∧
        r.text = m.name) ↔ ∃ a ∈ s.catalog.children n, s.resolutionAt a = .found u :=
    Catalog.mem_assignedNames_iff.symm.trans (mem_assignedNames_iff_found h hn hentity hfirst)
  constructor
  · intro hlacks
    refine ⟨⟨(Catalog.of_firstNamed? hlacks.first).1, hlacks.content, hlacks.role,
      hlacks.no_default, fun first hfirst a ha hfound ↦ ?_⟩, hlacks.first⟩
    obtain rfl : u = first := Option.some.inj (hlacks.first.symm.trans hfirst)
    obtain ⟨a, ha, r', hr', htext⟩ := (hassigned hfirst).2 ⟨a, ha, hfound⟩
    exact hlacks.unassigned a ha r' hr' htext
  · rintro ⟨hlacks, hfirst⟩
    refine ⟨hfirst, hlacks.content, hlacks.role, hlacks.no_default, fun a ha r' hr' htext ↦ ?_⟩
    obtain ⟨a, ha, hfound⟩ := (hassigned hfirst).1 ⟨a, ha, r', hr', htext⟩
    exact hlacks.unassigned u hfirst a ha hfound

end Listed

/-- Members that are the first of their names have different names. -/
theorem listsFirsts_of_mem_iff (h : s.catalog.Loaded) {firsts : List NodeId}
    (hsublist : firsts.Sublist (s.catalog.children entity))
    (hmem : ∀ u, u ∈ firsts ↔ ∃ m, s.LacksFirst n entity u m) :
    s.ListsFirsts n entity (firsts.filterMap s.catalog.name?) := by
  have hmap : firsts.map s.catalog.name? = (firsts.filterMap s.catalog.name?).map some := by
    refine map_eq_map_some_filterMap fun u hu ↦ ?_
    obtain ⟨m, hlacks⟩ := (hmem u).1 hu
    exact ⟨m.name, Catalog.name?_of_member hlacks.content⟩
  have hnodup : (firsts.map s.catalog.name?).Nodup := by
    refine List.Nodup.map_on (fun u hu v hv heq ↦ ?_) ((h.children_nodup entity).sublist hsublist)
    obtain ⟨m, hlacks⟩ := (hmem u).1 hu
    obtain ⟨m', hlacks'⟩ := (hmem v).1 hv
    rw [Catalog.name?_of_member hlacks.content, Catalog.name?_of_member hlacks'.content,
      Option.some.injEq] at heq
    exact Option.some.inj (hlacks.first.symm.trans (heq ▸ hlacks'.first))
  rw [hmap] at hnodup
  exact ⟨hnodup.of_map some, firsts, hsublist, hmem, hmap⟩

/-- **What is listed is what should be, unless a repeated attribute is missing.** An instance is
told the names of the members it misses that are the first of their names, in order, but others may
stand between them. None do, exactly if no member that it misses repeats the name of one before. -/
theorem listsFirsts_iff (s : Snapshot) (h : s.catalog.Loaded) {n entity : NodeId} {name : String}
    {r : Reference} (hn : s.catalog.content? n = some (.instantiation name r))
    (hentity : s.resolutionAt n = .found entity) :
    (∃ names, s.ListsFirsts n entity names ∧ names.Sublist (s.listedMissing n)) ∧
      (s.ListsFirsts n entity (s.listedMissing n) ↔
        ∀ u m, s.Lacks n entity u m → s.catalog.firstNamed? entity m.name = some u) := by
  have hmissing (u : NodeId) := mem_missingMembers_iff_lacks h hn hentity (u := u)
  rw [listedMissing_eq h hn hentity]
  refine ⟨⟨((s.catalog.missingMembers n entity).filter fun u ↦
    (s.catalog.name? u).bind (s.catalog.firstNamed? entity) == some u).filterMap s.catalog.name?,
    listsFirsts_of_mem_iff h (List.filter_sublist.trans List.filter_sublist) fun u ↦ ?_,
    List.filter_sublist.filterMap _⟩, fun hlists u m hlacks ↦ ?_, fun hfirst ↦ ?_⟩
  · rw [List.mem_filter, hmissing, beq_iff_eq, ← exists_and_right]
    refine exists_congr fun m ↦ ?_
    rw [lacksFirst_iff h hn hentity]
    refine and_congr_right fun hlacks ↦ ?_
    rw [Catalog.name?_of_member hlacks.content, Option.bind_some]
  · -- the firsts are among the missing, and as many
    obtain ⟨firsts, hsublist, hmem, hmap⟩ := hlists.exists_firsts
    have hnodup : firsts.Nodup := (h.children_nodup entity).sublist hsublist
    have hsubset : firsts ⊆ s.catalog.missingMembers n entity := by
      intro v hv
      obtain ⟨m', hlacks'⟩ := (hmem v).1 hv
      exact (hmissing v).2 ⟨m', ((lacksFirst_iff h hn hentity).1 hlacks').1⟩
    have hnames : firsts.map s.catalog.name? =
        (s.catalog.missingMembers n entity).map s.catalog.name? :=
      hmap.trans (Catalog.map_name?_missingMembers s.catalog n entity).symm
    have hlength : firsts.length = (s.catalog.missingMembers n entity).length := by
      simpa using congrArg List.length hnames
    have hperm := (List.subperm_of_subset hnodup hsubset).perm_of_length_le hlength.ge
    obtain ⟨m', hlacks'⟩ := (hmem u).1 (hperm.mem_iff.2 ((hmissing u).2 ⟨m, hlacks⟩))
    cases hlacks.content.symm.trans hlacks'.content
    exact hlacks'.first
  · refine listsFirsts_of_mem_iff h List.filter_sublist fun u ↦ (hmissing u).trans ?_
    refine exists_congr fun m ↦ ?_
    rw [lacksFirst_iff h hn hentity]
    exact ⟨fun hlacks ↦ ⟨hlacks, hfirst u m hlacks⟩, And.left⟩

end Classes

/-- One document with an entity of four attributes and an instance of it, at place 11, that assigns
nothing. The second attribute has the name of the first. The fourth has no default, but the third of
the same name has one. -/
def ofRepeatedMembers : Snapshot :=
  .ofDocuments [.drafting ⟨0⟩ "m"
    [.declare (.entity ⟨"E", some "e",
      [⟨"x", .attribute, .integer, ⟨none, none, false⟩, false, false, none⟩,
        ⟨"x", .attribute, .integer, ⟨none, none, false⟩, false, false, none⟩,
        ⟨"y", .attribute, .integer, ⟨none, none, false⟩, false, false, some (.scalar (.integer 3))⟩,
        ⟨"y", .attribute, .integer, ⟨none, none, false⟩, false, false, none⟩]⟩),
      .declare (.instantiation ⟨"i", "e", []⟩)]]

theorem loaded_ofRepeatedMembers : ofRepeatedMembers.catalog.Loaded :=
  .ofDrafting _ _ (by decide)

/-- There the first name is listed twice, and the second in the place of a member that has a
default. So some attribute is missing that is not the first of its name. -/
theorem listsFirsts_iff_ofRepeatedMembers :
    ofRepeatedMembers.catalog.Loaded ∧
      ofRepeatedMembers.resolutionAt ⟨⟨0⟩, 11⟩ = .found ⟨⟨0⟩, 1⟩ ∧
      ofRepeatedMembers.listedMissing ⟨⟨0⟩, 11⟩ = ["x", "x", "y"] ∧
      (∃ names, ofRepeatedMembers.ListsFirsts ⟨⟨0⟩, 11⟩ ⟨⟨0⟩, 1⟩ names ∧
        names.Sublist ["x", "x", "y"]) ∧
      ∃ u m, ofRepeatedMembers.Lacks ⟨⟨0⟩, 11⟩ ⟨⟨0⟩, 1⟩ u m ∧
        ofRepeatedMembers.catalog.firstNamed? ⟨⟨0⟩, 1⟩ m.name ≠ some u := by
  have hfound : ofRepeatedMembers.resolutionAt ⟨⟨0⟩, 11⟩ = .found ⟨⟨0⟩, 1⟩ := by decide
  have hlisted : ofRepeatedMembers.listedMissing ⟨⟨0⟩, 11⟩ = ["x", "x", "y"] := by decide
  obtain ⟨hnames, hiff⟩ :=
    listsFirsts_iff ofRepeatedMembers loaded_ofRepeatedMembers (n := ⟨⟨0⟩, 11⟩) rfl hfound
  rw [hlisted] at hnames hiff
  have hnot : ¬ ofRepeatedMembers.ListsFirsts ⟨⟨0⟩, 11⟩ ⟨⟨0⟩, 1⟩ ["x", "x", "y"] :=
    fun hlists ↦ absurd hlists.nodup (by decide)
  refine ⟨loaded_ofRepeatedMembers, hfound, hlisted, hnames, ?_⟩
  simpa [hiff] using hnot

/-- So what is listed can name a member twice. -/
theorem not_listsFirsts_listedMissing :
    ¬ ∀ s : Snapshot, s.catalog.Loaded → ∀ n name r entity,
      s.catalog.content? n = some (.instantiation name r) → s.resolutionAt n = .found entity →
        s.ListsFirsts n entity (s.listedMissing n) := by
  intro hall
  have hlists := hall ofRepeatedMembers loaded_ofRepeatedMembers ⟨⟨0⟩, 11⟩ _ _ ⟨⟨0⟩, 1⟩ rfl
    (by decide)
  exact absurd hlists.nodup (by decide)

end Snapshot

end Schemata
