import Mathlib.Data.List.Nodup

/-!
# Lists with keys

Documents are searched by their file or name, files by their path or number. Each time a list is
searched for a key, and what is found is the only entry that has the key, if no key comes twice.
-/

namespace Schemata

variable {α κ : Type}

/-- Where no key comes twice, an entry is found by its key. -/
theorem find?_eq_some_iff_of_nodup {key : α → κ} {l : List α} (h : (l.map key).Nodup)
    {p : α → Bool} {k : κ} (hp : ∀ a, p a = true ↔ key a = k) {a : α} :
    l.find? p = some a ↔ a ∈ l ∧ key a = k := by
  constructor
  · intro hfind
    exact ⟨List.mem_of_find?_eq_some hfind, (hp a).1 (List.find?_some hfind)⟩
  · rintro ⟨ha, rfl⟩
    cases hfind : l.find? p with
    | none => exact absurd ((hp a).2 rfl) (List.find?_eq_none.1 hfind a ha)
    | some b =>
      have hb : b ∈ l := List.mem_of_find?_eq_some hfind
      have hkey : key b = key a := (hp b).1 (List.find?_some hfind)
      rw [List.inj_on_of_nodup_map h hb ha hkey]

variable [BEq κ] [LawfulBEq κ] {k k' : κ} {a : α}

/-- And so is what stands under the key. -/
theorem lookup_eq_some_iff_mem {l : List (κ × α)} (h : (l.map (·.1)).Nodup) :
    l.lookup k = some a ↔ (k, a) ∈ l := by
  induction l with
  | nil => simp
  | cons e l ih =>
    obtain ⟨key, value⟩ := e
    obtain ⟨hkey, hl⟩ := List.nodup_cons.1 h
    rw [List.lookup_cons, List.mem_cons, ← ih hl]
    cases heq : k == key with
    | true =>
      obtain rfl := eq_of_beq heq
      have hnone : (k, a) ∉ l := fun hmem ↦ hkey (List.mem_map_of_mem (f := (·.1)) hmem)
      simp [hnone, eq_comm, ih hl]
    | false => simp [ne_of_beq_false heq]

/-- Nothing stands under other keys than those of the list. -/
theorem lookup_eq_none_iff_not_mem {xs : List (κ × α)} :
    xs.lookup k = none ↔ k ∉ xs.map Prod.fst := by
  rw [List.lookup_eq_none_iff]
  constructor
  · intro hne hk
    obtain ⟨x, hx, rfl⟩ := List.mem_map.1 hk
    exact absurd (hne x hx) (by simp)
  · intro hk x hx
    have hne : k ≠ x.1 := by
      rintro rfl
      exact hk (List.mem_map_of_mem hx)
    simpa using hne

theorem exists_lookup_iff_mem {xs : List (κ × α)} :
    (∃ x, xs.lookup k = some x) ↔ k ∈ xs.map Prod.fst := by
  rw [← Option.ne_none_iff_exists', Ne, lookup_eq_none_iff_not_mem, not_not]

/-- Under a key of elements that may have one, the first element that has it is found. -/
theorem lookup_filterMap {β : Type} (key : β → Option κ) (tell : β → κ → α) (xs : List β) (k : κ) :
    (xs.filterMap fun x ↦ (key x).map fun k ↦ (k, tell x k)).lookup k =
      (xs.find? fun x ↦ key x == some k).map fun x ↦ tell x k := by
  induction xs with
  | nil => rfl
  | cons x xs ih =>
    cases hx : key x with
    | none =>
      rw [List.filterMap_cons_none (by rw [hx]; rfl), List.find?_cons_of_neg (by simp [hx]), ih]
    | some k' =>
      rw [List.filterMap_cons_some (by rw [hx]; rfl), List.lookup_cons]
      by_cases hk : k = k'
      · rw [beq_iff_eq.2 hk, List.find?_cons_of_pos (by simp [hx, hk]), hk]
        rfl
      · rw [beq_false_of_ne hk, List.find?_cons_of_neg (by simp [hx, ne_comm.1 hk]), ih]

/-- A key that is filtered out is not looked up, and any other as before. -/
theorem lookup_filter_ne [DecidableEq κ] (l : List (κ × α)) (k k' : κ) :
    (l.filter (·.1 != k)).lookup k' = if k' = k then none else l.lookup k' := by
  induction l with
  | nil => simp
  | cons e l ih =>
    by_cases hkey : e.1 = k
    · rw [List.filter_cons_of_neg (by simp [hkey]), ih]
      split
      · rfl
      · next hne => rw [List.lookup_cons, beq_false_of_ne fun heq ↦ hne (heq.trans hkey)]
    · rw [List.filter_cons_of_pos (by simp [hkey]), List.lookup_cons, List.lookup_cons, ih]
      by_cases hne : k' = k
      · simp [hne, beq_false_of_ne (Ne.symm hkey)]
      · rw [if_neg hne, if_neg hne]

end Schemata
