import Mathlib.Data.List.Induction
import Mathlib.Data.List.Perm.Basic
import Schemata.Proofs.Lookup

/-!
# Looking up a name entry by entry

A name is looked up in one walk over its entries. The walk keeps the targets that it has met, and
whether an import was among the entries (`Scope.Tally`). After any number of entries the targets are
the first occurrences of theirs, and the mark tells whether one of them is imported
(`Scope.Tally.Counts`). So an entry that comes again changes nothing
(`Scope.Tally.Counts.add_eq_self`), while one that repeats only the target can still bring the mark
that the first of them lacks.
-/

namespace Schemata

/-! ### First occurrences -/

section FirstOccurrences

variable {α : Type} [DecidableEq α] {ts us xs : List α}

/-- Whether a list has the elements of another, each once, in the order in which they first occur
there. -/
structure FirstOccurrences (ts xs : List α) : Prop where
  nodup : ts.Nodup
  mem_iff : ∀ t, t ∈ ts ↔ t ∈ xs
  ordered : ts.Pairwise fun a b ↦ xs.idxOf a < xs.idxOf b

namespace FirstOccurrences

theorem nil : FirstOccurrences ([] : List α) [] := ⟨.nil, fun _ ↦ .rfl, .nil⟩

/-- One more element occurs first at the end, or has occurred before. -/
theorem append_singleton (h : FirstOccurrences ts xs) (x : α) :
    FirstOccurrences (if x ∈ ts then ts else ts ++ [x]) (xs ++ [x]) := by
  have hordered : ts.Pairwise fun a b ↦ (xs ++ [x]).idxOf a < (xs ++ [x]).idxOf b := by
    refine h.ordered.imp_of_mem fun {a b} ha hb hab ↦ ?_
    rwa [List.idxOf_append_of_mem ((h.mem_iff a).1 ha),
      List.idxOf_append_of_mem ((h.mem_iff b).1 hb)]
  by_cases hx : x ∈ ts
  · rw [if_pos hx]
    refine ⟨h.nodup, fun t ↦ ?_, hordered⟩
    rw [List.mem_append, List.mem_singleton, h.mem_iff]
    exact ⟨.inl, fun ht ↦ ht.elim id fun heq ↦ heq ▸ (h.mem_iff x).1 hx⟩
  · rw [if_neg hx]
    have hxs : x ∉ xs := fun hmem ↦ hx ((h.mem_iff x).2 hmem)
    refine ⟨?_, fun t ↦ ?_, ?_⟩
    · refine h.nodup.append (List.nodup_singleton x) fun a ha hax ↦ hx ?_
      rwa [← List.mem_singleton.1 hax]
    · rw [List.mem_append, List.mem_append, h.mem_iff]
    · refine List.pairwise_append.2 ⟨hordered, List.pairwise_singleton _ _, fun a ha b hb ↦ ?_⟩
      have hmem : a ∈ xs := (h.mem_iff a).1 ha
      have hlt : xs.idxOf a < xs.length := List.idxOf_lt_length_iff.2 hmem
      rw [List.mem_singleton.1 hb, List.idxOf_append_of_mem hmem, List.idxOf_append_of_notMem hxs]
      omega

/-- There is one such list. -/
theorem unique (h : FirstOccurrences ts xs) (h' : FirstOccurrences us xs) : ts = us := by
  have hperm : ts.Perm us :=
    (List.perm_ext_iff_of_nodup h.nodup h'.nodup).2 fun t ↦ (h.mem_iff t).trans (h'.mem_iff t).symm
  exact hperm.eq_of_pairwise (fun _ _ _ _ hab hba ↦ absurd hab (Nat.lt_asymm hba)) h.ordered
    h'.ordered

theorem eraseDups (xs : List α) : FirstOccurrences xs.eraseDups xs := by
  induction xs using List.reverseRecOn with
  | nil => exact nil
  | append_singleton xs x ih =>
    have hmem : x ∈ xs.eraseDups ↔ x ∈ xs := ih.mem_iff x
    have hlast : (xs ++ [x]).eraseDups =
        if x ∈ xs.eraseDups then xs.eraseDups else xs.eraseDups ++ [x] := by
      rw [List.eraseDups_append]
      by_cases hx : x ∈ xs <;> simp [List.removeAll, hmem, hx, List.eraseDups_cons]
    rw [hlast]
    exact ih.append_singleton x

end FirstOccurrences

end FirstOccurrences

namespace Scope

/-! ### One walk over the entries -/

/-- What has been met of a name: its targets, and whether one of them was imported. -/
structure Tally where
  targets : List NodeId
  imported : Bool
  deriving DecidableEq, Repr

namespace Tally

def empty : Tally := ⟨[], false⟩

/-- Meets one more entry. -/
def add (t : Tally) (e : ScopeEntry) : Tally :=
  ⟨if e.target ∈ t.targets then t.targets else t.targets ++ [e.target], t.imported || e.imported⟩

/-- What a name comes to when all its entries have been met. -/
def resolution (t : Tally) : Resolution :=
  match t.targets with
  | [] => .notFound
  | [target] => .found target
  | target :: targets => if t.imported then .ambiguous (target :: targets) else .found target

/-- Whether a tally says of some entries what is to be said of them. -/
structure Counts (t : Tally) (es : List ScopeEntry) : Prop where
  targets : FirstOccurrences t.targets (es.map (·.target))
  imported : t.imported = true ↔ ∃ e ∈ es, e.imported = true

variable {t : Tally} {es : List ScopeEntry} {e : ScopeEntry}

theorem Counts.add (h : t.Counts es) (e : ScopeEntry) : (t.add e).Counts (es ++ [e]) := by
  refine ⟨?_, ?_⟩
  · rw [List.map_append]
    exact h.targets.append_singleton e.target
  · show (t.imported || e.imported) = true ↔ _
    rw [Bool.or_eq_true, h.imported]
    simp [or_and_right, exists_or]

/-- After a walk over some entries they are counted. -/
theorem counts_foldl (es : List ScopeEntry) : (es.foldl Tally.add empty).Counts es := by
  induction es using List.reverseRecOn with
  | nil => exact ⟨.nil, by simp [empty]⟩
  | append_singleton es e ih =>
    rw [List.foldl_append]
    exact ih.add e

/-- An entry that was met before has its target and its mark counted. -/
theorem Counts.add_eq_self (h : t.Counts es) (he : e ∈ es) : t.add e = t := by
  have htarget : e.target ∈ t.targets := (h.targets.mem_iff _).2 (List.mem_map_of_mem he)
  have hmark : (t.imported || e.imported) = t.imported := by
    cases hm : e.imported with
    | false => exact Bool.or_false _
    | true => rw [h.imported.2 ⟨e, he, hm⟩]; rfl
  rw [Tally.add, if_pos htarget, hmark]

end Tally

/-- What is met of a name in a walk over the entries. -/
def tally (scope : Scope) (name : String) : Tally :=
  (scope.matching name).foldl Tally.add .empty

variable {scope : Scope} {name : String}

theorem counts_tally (scope : Scope) (name : String) :
    (scope.tally name).Counts (scope.matching name) :=
  Tally.counts_foldl _

/-- The walk meets the meanings of the name. -/
theorem targets_tally (scope : Scope) (name : String) :
    (scope.tally name).targets = scope.meanings name :=
  (scope.counts_tally name).targets.unique (.eraseDups _)

/-- **A name comes to what the walk over the entries finds.** -/
theorem lookup_eq_resolution_tally (scope : Scope) (name : String) :
    scope.lookup name = (scope.tally name).resolution := by
  have hmark : (scope.matching name).any (·.imported) = (scope.tally name).imported := by
    rw [Bool.eq_iff_iff, List.any_eq_true, (scope.counts_tally name).imported]
  rw [lookup, ← meanings, hmark, ← targets_tally]
  generalize scope.tally name = met
  obtain ⟨targets, imported⟩ := met
  rcases targets with - | ⟨t, - | ⟨t', ts⟩⟩ <;> rfl

/-! ### Entries at the end -/

/-- Adds an entry at the end, as a declared or as an imported name. -/
def add (scope : Scope) (e : ScopeEntry) : Scope :=
  if e.imported then scope.pushImported e.name e.target else scope.push e.name e.target

/-- The scope of some entries that are added one after the other. -/
def ofPushes (es : List ScopeEntry) : Scope := es.foldl add .empty

@[simp]
theorem entries_add (scope : Scope) (e : ScopeEntry) :
    (scope.add e).entries = scope.entries ++ [e] := by
  obtain ⟨name, target, imported⟩ := e
  cases imported <;> rfl

theorem entries_ofPushes (es : List ScopeEntry) : (ofPushes es).entries = es := by
  induction es using List.reverseRecOn with
  | nil => rfl
  | append_singleton es e ih =>
    rw [ofPushes, List.foldl_append, ← ofPushes]
    exact (entries_add _ e).trans (congrArg (· ++ [e]) ih)

/-- Every scope is made by adding its entries. -/
theorem eq_ofPushes_entries (scope : Scope) : scope = ofPushes scope.entries := by
  have hentries := entries_ofPushes scope.entries
  generalize ofPushes scope.entries = made at hentries ⊢
  cases scope
  cases made
  exact congrArg Scope.mk hentries.symm

/-- The walk meets an entry that was added if it has the name. -/
theorem tally_add (scope : Scope) (e : ScopeEntry) (name : String) :
    (scope.add e).tally name =
      if e.name = name then (scope.tally name).add e else scope.tally name := by
  rw [tally, matching, entries_add, List.filter_append, List.foldl_append, ← matching, ← tally]
  by_cases h : e.name = name <;> simp [h]

/-- An entry that comes again changes what no name comes to. -/
theorem lookup_add_of_mem {e : ScopeEntry} (he : e ∈ scope.entries) (name : String) :
    (scope.add e).lookup name = scope.lookup name := by
  rw [lookup_eq_resolution_tally, lookup_eq_resolution_tally, tally_add]
  by_cases h : e.name = name
  · rw [if_pos h, (scope.counts_tally name).add_eq_self (mem_matching_iff.2 ⟨he, h⟩)]
  · rw [if_neg h]

/-- Names are looked up among their own entries. -/
theorem lookup_congr {other : Scope} (h : other.matching name = scope.matching name) :
    other.lookup name = scope.lookup name := by
  rw [lookup_eq_resolution_tally, lookup_eq_resolution_tally, tally, h, ← tally]

theorem matching_filter {keep : ScopeEntry → Bool}
    (h : ∀ e ∈ scope.entries, e.name = name → keep e = true) :
    (scope.filter keep).matching name = scope.matching name := by
  rw [matching, entries_filter, List.filter_filter, matching]
  refine List.filter_congr fun e he ↦ ?_
  by_cases hname : e.name = name
  · simp [hname, h e he hname]
  · simp [hname]

/-! ### What a name comes to -/

theorem exists_imported_iff :
    (∃ e ∈ scope.matching name, e.imported = true) ↔
      ∃ e ∈ scope.entries, e.name = name ∧ e.imported = true := by
  simp only [mem_matching_iff, and_assoc]

theorem lookup_eq_found_iff_length {t : NodeId} :
    scope.lookup name = .found t ↔ (scope.meanings name).head? = some t ∧
      ((scope.meanings name).length = 1 ∨ 2 ≤ (scope.meanings name).length ∧
        ¬∃ e ∈ scope.entries, e.name = name ∧ e.imported = true) := by
  rw [lookup_eq_found_iff, ← exists_imported_iff]
  refine and_congr_right fun hhead ↦ ?_
  have hnone : (∀ e ∈ scope.matching name, e.imported = false) ↔
      ¬∃ e ∈ scope.matching name, e.imported = true := by simp
  rw [hnone]
  cases hmeanings : scope.meanings name with
  | nil => rw [hmeanings] at hhead; cases hhead
  | cons t' ts =>
    obtain rfl : t' = t := by rw [hmeanings] at hhead; exact Option.some.inj hhead
    cases ts with
    | nil => simp
    | cons t'' ts => simp

/-- **What a name comes to is decided by its distinct targets and by whether one of its entries is
imported.** The targets are those of the entries that have the name, in the order in which they
first occur. Without any the name is not found. If there is one, or if no entry of the name is
imported, the name stands for the first, and in all other cases it is ambiguous between all of them.
This is what one walk over the entries finds, in every scope that is made by adding names. Entries
of other names do not matter, so they can be left out, nor does an entry that comes again. -/
theorem lookup_decided (scope : Scope) (name : String) :
    scope = ofPushes scope.entries ∧ scope.lookup name = (scope.tally name).resolution ∧
      (∃ ts : List NodeId,
        (∀ us, FirstOccurrences us ((scope.matching name).map (·.target)) ↔ us = ts) ∧
        (scope.lookup name = .notFound ↔ ts = []) ∧
        (∀ t, scope.lookup name = .found t ↔ ts.head? = some t ∧
          (ts.length = 1 ∨ 2 ≤ ts.length ∧
            ¬∃ e ∈ scope.entries, e.name = name ∧ e.imported = true)) ∧
        ∀ us, scope.lookup name = .ambiguous us ↔ us = ts ∧ 2 ≤ ts.length ∧
          ∃ e ∈ scope.entries, e.name = name ∧ e.imported = true) ∧
      (∀ other : Scope, other.matching name = scope.matching name →
        other.lookup name = scope.lookup name) ∧
      (∀ e ∈ scope.entries, (scope.add e).lookup name = scope.lookup name) ∧
      ∀ keep : ScopeEntry → Bool, (∀ e ∈ scope.entries, e.name = name → keep e = true) →
        (scope.filter keep).lookup name = scope.lookup name := by
  refine ⟨scope.eq_ofPushes_entries, scope.lookup_eq_resolution_tally name,
    ⟨scope.meanings name, fun us ↦ ?_, lookup_eq_notFound_iff,
      fun t ↦ lookup_eq_found_iff_length, fun us ↦ ?_⟩,
    fun other h ↦ lookup_congr h, fun e he ↦ lookup_add_of_mem he name,
    fun keep h ↦ lookup_congr (matching_filter h)⟩
  · exact ⟨fun h ↦ h.unique (.eraseDups _), fun h ↦ h ▸ .eraseDups _⟩
  · rw [lookup_eq_ambiguous_iff, exists_imported_iff]
    exact and_congr_right fun h ↦ by rw [h]

/-- A declared name that is declared again, and then the first of its nodes imported. -/
def lateMark : Scope :=
  .ofPushes [⟨"B", ⟨⟨0⟩, 2⟩, false⟩, ⟨"B", ⟨⟨0⟩, 3⟩, false⟩, ⟨"A", ⟨⟨0⟩, 1⟩, false⟩,
    ⟨"B", ⟨⟨0⟩, 2⟩, true⟩]

/-- The mark counts, although the node was met without it. -/
theorem lookup_decided_ofLateMark :
    lateMark.lookup "B" = .ambiguous [⟨⟨0⟩, 2⟩, ⟨⟨0⟩, 3⟩] ∧
      (lateMark.add ⟨"B", ⟨⟨0⟩, 3⟩, false⟩).lookup "B" = .ambiguous [⟨⟨0⟩, 2⟩, ⟨⟨0⟩, 3⟩] ∧
      (lateMark.filter (·.name != "A")).lookup "B" = .ambiguous [⟨⟨0⟩, 2⟩, ⟨⟨0⟩, 3⟩] ∧
      (empty.push "B" ⟨⟨0⟩, 2⟩ |>.push "B" ⟨⟨0⟩, 3⟩ |>.pushImported "B" ⟨⟨0⟩, 2⟩).lookup "B" =
        .ambiguous [⟨⟨0⟩, 2⟩, ⟨⟨0⟩, 3⟩] := by
  obtain ⟨-, hwalk, -, hcongr, hadd, hfilter⟩ := lookup_decided lateMark "B"
  have hlookup : lateMark.lookup "B" = .ambiguous [⟨⟨0⟩, 2⟩, ⟨⟨0⟩, 3⟩] := hwalk.trans (by decide)
  exact ⟨hlookup, (hadd _ (by decide)).trans hlookup, (hfilter _ (by decide)).trans hlookup,
    (hcongr _ (by decide)).trans hlookup⟩

end Scope

end Schemata
