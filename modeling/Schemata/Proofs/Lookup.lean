import Mathlib.Data.List.Nodup
import Schemata.Scope

/-!
# Looking up a name

What a name stands for is decided by its meanings: the nodes for which its entries stand, each once
and in the order of the scope. Without a meaning the name is not found. With several it is ambiguous
as soon as one of its entries is imported, and in all other cases it stands for its first meaning.
So there is one lemma for each outcome, and an ambiguous name is the only one that does not stand
for its first meaning.
-/

namespace Schemata

/-! ### Distinct elements -/

section Distinct

variable {α : Type} [BEq α] [LawfulBEq α]

theorem nodup_eraseDups : (xs : List α) → xs.eraseDups.Nodup
  | [] => List.nodup_nil
  | x :: xs => by
    rw [List.eraseDups_cons, List.nodup_cons]
    exact ⟨by simp, nodup_eraseDups _⟩
termination_by xs => xs.length
decreasing_by
  have hle := List.length_filter_le (fun b ↦ !b == x) xs
  rw [List.length_cons]
  omega

theorem eraseDups_eq_self {xs : List α} (h : xs.Nodup) : xs.eraseDups = xs := by
  induction xs with
  | nil => rfl
  | cons x xs ih =>
    obtain ⟨hx, hxs⟩ := List.nodup_cons.1 h
    have hrest : xs.filter (fun b ↦ !b == x) = xs := by
      refine List.filter_eq_self.2 fun b hb ↦ ?_
      have hne : b ≠ x := fun heq ↦ hx (heq ▸ hb)
      simpa using hne
    rw [List.eraseDups_cons, hrest, ih hxs]

omit [LawfulBEq α] in
theorem eraseDups_eq_nil_iff {xs : List α} : xs.eraseDups = [] ↔ xs = [] := by
  cases xs <;> simp [List.eraseDups_cons]

omit [LawfulBEq α] in
theorem head?_eraseDups (xs : List α) : xs.eraseDups.head? = xs.head? := by
  cases xs <;> simp [List.eraseDups_cons]

/-- Repeats are erased on the left alone if nothing on the right repeats. -/
theorem eraseDups_append_of_disjoint {xs ys : List α} (hys : ys.Nodup) (h : xs.Disjoint ys) :
    (xs ++ ys).eraseDups = xs.eraseDups ++ ys := by
  have hnew : ys.removeAll xs = ys :=
    List.filter_eq_self.2 fun y hy ↦ by simpa using fun hx ↦ h hx hy
  rw [List.eraseDups_append, hnew, eraseDups_eq_self hys]

end Distinct

/-- The nodes that a reference comes to, or could mean. -/
def Resolution.targets : Resolution → List NodeId
  | .found t => [t]
  | .ambiguous ts => ts
  | .notFound | .blocked => []

namespace Scope

variable {scope : Scope} {name : String} {t : NodeId}

/-- The nodes for which a name stands, each once, in the order of the scope. -/
def meanings (scope : Scope) (name : String) : List NodeId :=
  ((scope.matching name).map (·.target)).eraseDups

theorem mem_matching_iff {e : ScopeEntry} :
    e ∈ scope.matching name ↔ e ∈ scope.entries ∧ e.name = name := by
  simp [matching]

/-- A name means what its entries stand for. -/
theorem mem_meanings_iff :
    t ∈ scope.meanings name ↔ ∃ e ∈ scope.entries, e.name = name ∧ e.target = t := by
  simp [meanings, mem_matching_iff, and_assoc]

theorem nodup_meanings (scope : Scope) (name : String) : (scope.meanings name).Nodup :=
  nodup_eraseDups _

/-- A name has one meaning if all its entries stand for one node. -/
theorem meanings_eq_singleton (hmem : ∃ e ∈ scope.entries, e.name = name ∧ e.target = t)
    (hall : ∀ e ∈ scope.entries, e.name = name → e.target = t) : scope.meanings name = [t] := by
  have heq : ∀ t' ∈ scope.meanings name, t' = t := by
    intro t' ht'
    obtain ⟨e, he, hname, rfl⟩ := mem_meanings_iff.1 ht'
    exact hall e he hname
  have hnodup := scope.nodup_meanings name
  have ht : t ∈ scope.meanings name := mem_meanings_iff.2 hmem
  generalize scope.meanings name = ts at heq hnodup ht ⊢
  rcases ts with - | ⟨a, - | ⟨b, ts⟩⟩
  · cases ht
  · rw [List.mem_singleton.1 ht]
  · -- two elements of the list would be the same
    have hab : a = b := (heq a (by simp)).trans (heq b (by simp)).symm
    simp [hab] at hnodup

/-! ### The outcomes -/

/-- A name is not found if it has no meaning. -/
theorem lookup_eq_notFound_iff : scope.lookup name = .notFound ↔ scope.meanings name = [] := by
  rw [lookup, ← meanings]
  cases scope.meanings name with
  | nil => simp
  | cons t ts =>
    cases ts with
    | nil => simp
    | cons t' ts => cases (scope.matching name).any (·.imported) <;> simp

/-- A name comes to its first meaning, if it has no other or has no entry that is imported. -/
theorem lookup_eq_found_iff :
    scope.lookup name = .found t ↔ (scope.meanings name).head? = some t ∧
      (scope.meanings name = [t] ∨ ∀ e ∈ scope.matching name, e.imported = false) := by
  have hany : (∀ e ∈ scope.matching name, e.imported = false) ↔
      (scope.matching name).any (·.imported) = false := by simp
  rw [hany, lookup, ← meanings]
  cases scope.meanings name with
  | nil => simp
  | cons t' ts =>
    cases ts with
    | nil => simp +contextual
    | cons t'' ts => cases (scope.matching name).any (·.imported) <;> simp

/-- A name is ambiguous if it has several meanings and one of its entries is imported. -/
theorem lookup_eq_ambiguous_iff {ts : List NodeId} :
    scope.lookup name = .ambiguous ts ↔ ts = scope.meanings name ∧ 2 ≤ ts.length ∧
      ∃ e ∈ scope.matching name, e.imported = true := by
  have hany : (∃ e ∈ scope.matching name, e.imported = true) ↔
      (scope.matching name).any (·.imported) = true := by simp
  rw [hany, lookup, ← meanings]
  cases scope.meanings name with
  | nil => simp +contextual
  | cons t ts' =>
    cases ts' with
    | nil => simp +contextual
    | cons t' ts' =>
      cases (scope.matching name).any (·.imported) with
      | false => simp
      | true =>
        show Resolution.ambiguous (t :: t' :: ts') = .ambiguous ts ↔ _
        rw [Resolution.ambiguous.injEq, eq_comm]
        simp +contextual

/-- A scope always has an answer. Blocked is only where there is no scope. -/
theorem lookup_ne_blocked (scope : Scope) (name : String) : scope.lookup name ≠ .blocked := by
  rw [lookup, ← meanings]
  cases scope.meanings name with
  | nil => simp
  | cons t ts =>
    cases ts with
    | nil => simp
    | cons t' ts => cases (scope.matching name).any (·.imported) <;> simp

/-- What a name comes to are meanings of it. -/
theorem mem_meanings_of_mem_targets (h : t ∈ (scope.lookup name).targets) :
    t ∈ scope.meanings name := by
  cases hlookup : scope.lookup name with
  | found t' =>
    rw [hlookup] at h
    obtain rfl : t = t' := List.mem_singleton.1 h
    exact List.mem_of_head? (lookup_eq_found_iff.1 hlookup).1
  | ambiguous ts =>
    rw [hlookup] at h
    exact (lookup_eq_ambiguous_iff.1 hlookup).1 ▸ h
  | notFound | blocked =>
    rw [hlookup] at h
    cases h

/-- A name that is found is the name of an entry. -/
theorem exists_mem_of_lookup (h : scope.lookup name = .found t) :
    ∃ e ∈ scope.entries, e.name = name ∧ e.target = t :=
  mem_meanings_iff.1 (List.mem_of_head? (lookup_eq_found_iff.1 h).1)

/-- A name is not found if no entry has it. -/
theorem lookup_eq_notFound (h : ∀ e ∈ scope.entries, e.name ≠ name) :
    scope.lookup name = .notFound := by
  rw [lookup_eq_notFound_iff, List.eq_nil_iff_forall_not_mem]
  intro t ht
  obtain ⟨e, he, hname, -⟩ := mem_meanings_iff.1 ht
  exact h e he hname

/-- A name is found if all its entries stand for one node. -/
theorem lookup_eq_found (hmem : ∃ e ∈ scope.entries, e.name = name ∧ e.target = t)
    (hall : ∀ e ∈ scope.entries, e.name = name → e.target = t) : scope.lookup name = .found t := by
  have hone : scope.meanings name = [t] := meanings_eq_singleton hmem hall
  rw [lookup_eq_found_iff, hone]
  exact ⟨rfl, .inl rfl⟩

/-! ### Imported names before declared ones -/

section Imported

variable {imported declared : List NodeId}
  (h : scope.matching name =
    imported.map (⟨name, ·, true⟩) ++ declared.map (⟨name, ·, false⟩))
include h

theorem exists_imported_iff_of_matching :
    (∃ e ∈ scope.matching name, e.imported = true) ↔ imported.eraseDups ≠ [] := by
  rw [h, Ne, eraseDups_eq_nil_iff]
  constructor
  · rintro ⟨e, he, himported⟩
    rcases List.mem_append.1 he with he | he
    · obtain ⟨t, ht, -⟩ := List.mem_map.1 he
      exact List.ne_nil_of_mem ht
    · obtain ⟨t, -, rfl⟩ := List.mem_map.1 he
      cases himported
  · intro hne
    obtain ⟨t, ht⟩ := List.exists_mem_of_ne_nil _ hne
    exact ⟨_, List.mem_append_left _ (List.mem_map_of_mem ht), rfl⟩

variable (hdeclared : declared.Nodup) (hdisjoint : imported.Disjoint declared)
include hdeclared hdisjoint

/-- What is imported comes first, and each node once. -/
theorem meanings_of_matching : scope.meanings name = imported.eraseDups ++ declared := by
  rw [meanings, h, List.map_append, List.map_map, List.map_map]
  show (imported.map id ++ declared.map id).eraseDups = _
  rw [List.map_id, List.map_id, eraseDups_append_of_disjoint hdeclared hdisjoint]

theorem lookup_eq_notFound_iff_of_matching :
    scope.lookup name = .notFound ↔ imported.eraseDups = [] ∧ declared = [] := by
  rw [lookup_eq_notFound_iff, meanings_of_matching h hdeclared hdisjoint, List.append_eq_nil_iff]

/-- Declarations are found by the first of them, and an imported node only if it is all there is. -/
theorem lookup_eq_found_iff_of_matching :
    scope.lookup name = .found t ↔ (imported.eraseDups = [] ∧ declared.head? = some t) ∨
      (imported.eraseDups = [t] ∧ declared = []) := by
  have hnone : (∀ e ∈ scope.matching name, e.imported = false) ↔ imported.eraseDups = [] := by
    rw [← not_iff_not, ← Ne, ← exists_imported_iff_of_matching h]
    simp
  rw [lookup_eq_found_iff, meanings_of_matching h hdeclared hdisjoint, hnone]
  cases imported.eraseDups with
  | nil => simp
  | cons t' ts => simp +contextual [and_assoc, eq_comm]

/-- An imported name is ambiguous as soon as it has a second meaning. -/
theorem lookup_eq_ambiguous_iff_of_matching {ts : List NodeId} :
    scope.lookup name = .ambiguous ts ↔ ts = imported.eraseDups ++ declared ∧
      imported.eraseDups ≠ [] ∧ ¬∃ t, imported.eraseDups = [t] ∧ declared = [] := by
  rw [lookup_eq_ambiguous_iff, meanings_of_matching h hdeclared hdisjoint,
    exists_imported_iff_of_matching h]
  refine and_congr_right fun hts ↦ ?_
  rw [hts]
  rcases imported.eraseDups with - | ⟨t, - | ⟨t', ts'⟩⟩
  · simp
  · cases declared <;> simp
  · simp

end Imported

/-! ### Declared names -/

/-- A declared name that is found was declared. -/
theorem exists_mem_of_lookup_ofDeclared {names : List (String × NodeId)}
    (h : (ofDeclared names).lookup name = .found t) : (name, t) ∈ names := by
  obtain ⟨e, he, rfl, rfl⟩ := exists_mem_of_lookup h
  obtain ⟨x, hx, rfl⟩ := List.mem_map.1 he
  exact hx

theorem imported_of_mem_ofDeclared {names : List (String × NodeId)} {e : ScopeEntry}
    (h : e ∈ (ofDeclared names).entries) : e.imported = false := by
  obtain ⟨x, -, rfl⟩ := List.mem_map.1 h
  rfl

/-- Where nothing is imported no name is ambiguous. -/
theorem lookup_ne_ambiguous (h : ∀ e ∈ scope.entries, e.imported = false) {ts : List NodeId} :
    scope.lookup name ≠ .ambiguous ts := by
  intro hlookup
  obtain ⟨-, -, e, he, himported⟩ := lookup_eq_ambiguous_iff.1 hlookup
  rw [h e (mem_matching_iff.1 he).1] at himported
  cases himported

/-- The first meaning of a declared name is that of the first declaration of it. -/
theorem head?_meanings_ofDeclared (names : List (String × NodeId)) (name : String) :
    ((ofDeclared names).meanings name).head? = names.lookup name := by
  rw [meanings, head?_eraseDups, matching, ofDeclared]
  induction names with
  | nil => rfl
  | cons x names ih =>
    rw [List.map_cons, List.lookup_cons, List.filter_cons, Bool.beq_comm]
    cases name == x.1 with
    | true => rfl
    | false => exact ih

/-- A declared name stands for the first declaration of it, and is not found if there is none. -/
theorem lookup_ofDeclared (names : List (String × NodeId)) (name : String) :
    (ofDeclared names).lookup name = (names.lookup name).elim .notFound .found := by
  have hdeclared : ∀ e ∈ (ofDeclared names).matching name, e.imported = false := fun e he ↦
    imported_of_mem_ofDeclared (mem_matching_iff.1 he).1
  have hhead := head?_meanings_ofDeclared names name
  cases hlookup : names.lookup name with
  | none => exact lookup_eq_notFound_iff.2 (List.head?_eq_none_iff.1 (hhead.trans hlookup))
  | some t => exact lookup_eq_found_iff.2 ⟨hhead.trans hlookup, .inr hdeclared⟩

/-- A declared name is not found if it was not declared. -/
theorem lookup_ofDeclared_eq_notFound_iff {names : List (String × NodeId)} :
    (ofDeclared names).lookup name = .notFound ↔ ∀ t, (name, t) ∉ names := by
  rw [lookup_eq_notFound_iff, List.eq_nil_iff_forall_not_mem]
  refine forall_congr' fun t ↦ not_congr ?_
  simp [mem_meanings_iff, ofDeclared]

/-- A declared name is found, since declarations of one place are never ambiguous. -/
theorem exists_lookup_ofDeclared {names : List (String × NodeId)} (h : (name, t) ∈ names) :
    ∃ t', (ofDeclared names).lookup name = .found t' := by
  rw [lookup_ofDeclared]
  cases hlookup : names.lookup name with
  | none => exact absurd rfl (bne_iff_ne.1 (List.lookup_eq_none_iff.1 hlookup _ h))
  | some t' => exact ⟨t', rfl⟩

end Scope

end Schemata
