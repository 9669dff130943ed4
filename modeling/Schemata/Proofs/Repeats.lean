import Mathlib.Data.List.Forall2
import Mathlib.Data.List.Induction
import Mathlib.Data.List.Nodup
import Schemata.Checking.Repeats
import Schemata.Proofs.Keys

/-!
# Repeated elements

An element of a list is a repeat if an earlier one has its key, and it is told with the first
element that has the key. The recursion carries the first element of each key that it has passed, so
what it does with an element depends on all elements before it: it looks up the key among them
(`repeats_append_singleton`). Everything else is proved by adding elements at the end.

The elements of a list that is checked may have keys or not, as a reference that does not resolve
has no target. `RepeatsFirst` says of such elements which one repeats which.
-/

namespace Schemata

/-! ### Pairs of elements in the order of a list -/

section Pairs

variable {α β : Type}

theorem pair_sublist_cons_iff {a b c : α} {l : List α} :
    [a, b].Sublist (c :: l) ↔ (a = c ∧ b ∈ l) ∨ [a, b].Sublist l := by
  rw [List.sublist_cons_iff, or_comm]
  simp

/-- The head of a list stands before the other elements. -/
theorem pair_sublist_of_head? {a b : α} {l : List α} (ha : l.head? = some a) (hb : b ∈ l)
    (hne : b ≠ a) : [a, b].Sublist l := by
  obtain ⟨l, rfl⟩ := List.head?_eq_some_iff.1 ha
  exact pair_sublist_cons_iff.2 (.inl ⟨rfl, (List.mem_cons.1 hb).resolve_left hne⟩)

theorem pair_sublist_append_singleton_iff {a b c : α} {l : List α} :
    [a, b].Sublist (l ++ [c]) ↔ [a, b].Sublist l ∨ (b = c ∧ a ∈ l) := by
  induction l with
  | nil => simp
  | cons x l ih =>
    rw [List.cons_append, pair_sublist_cons_iff, pair_sublist_cons_iff, ih, List.mem_append,
      List.mem_singleton, List.mem_cons]
    grind

theorem pair_sublist_filterMap_iff {f : α → Option β} {l : List α} {a b : β} :
    [a, b].Sublist (l.filterMap f) ↔ ∃ x y, [x, y].Sublist l ∧ f x = some a ∧ f y = some b := by
  induction l with
  | nil => simp
  | cons z l ih =>
    cases hz : f z with
    | none =>
      rw [List.filterMap_cons_none hz, ih]
      constructor
      · rintro ⟨x, y, hxy, hx, hy⟩
        exact ⟨x, y, pair_sublist_cons_iff.2 (.inr hxy), hx, hy⟩
      · rintro ⟨x, y, hxy, hx, hy⟩
        rcases pair_sublist_cons_iff.1 hxy with ⟨rfl, -⟩ | hxy
        · rw [hz] at hx
          cases hx
        · exact ⟨x, y, hxy, hx, hy⟩
    | some c =>
      rw [List.filterMap_cons_some hz, pair_sublist_cons_iff, ih, List.mem_filterMap]
      constructor
      · rintro (⟨rfl, y, hy, hb⟩ | ⟨x, y, hxy, hx, hy⟩)
        · exact ⟨z, y, pair_sublist_cons_iff.2 (.inl ⟨rfl, hy⟩), hz, hb⟩
        · exact ⟨x, y, pair_sublist_cons_iff.2 (.inr hxy), hx, hy⟩
      · rintro ⟨x, y, hxy, hx, hy⟩
        rcases pair_sublist_cons_iff.1 hxy with ⟨rfl, hmem⟩ | hxy
        · rw [hz, Option.some.injEq] at hx
          exact .inl ⟨hx.symm, y, hmem, hy⟩
        · exact .inr ⟨x, y, hxy, hx, hy⟩

end Pairs

/-! ### Repeats -/

section Repeats

variable {κ α β : Type} [BEq κ] [LawfulBEq κ]

/-- An element at the end is a repeat if its key stands before it, or among the firsts. -/
theorem repeatsAfter_append_singleton (firsts xs : List (κ × α)) (k : κ) (x : α) :
    repeatsAfter firsts (xs ++ [(k, x)]) = repeatsAfter firsts xs ++
      (((firsts.lookup k).or (xs.lookup k)).map fun first ↦ (x, first)).toList := by
  induction xs generalizing firsts with
  | nil =>
    rw [List.nil_append, repeatsAfter, repeatsAfter, repeatsAfter, List.lookup_nil, Option.or_none]
    cases firsts.lookup k <;> rfl
  | cons z xs ih =>
    obtain ⟨key, z⟩ := z
    rw [List.cons_append, repeatsAfter, repeatsAfter]
    cases hkey : firsts.lookup key with
    | some first =>
      have hlookup : (firsts.lookup k).or (((key, z) :: xs).lookup k) =
          (firsts.lookup k).or (xs.lookup k) := by
        by_cases heq : k = key
        · rw [heq, hkey, Option.some_or, Option.some_or]
        · rw [List.lookup_cons, beq_false_of_ne heq]
      show (z, first) :: repeatsAfter firsts (xs ++ [(k, x)]) = _
      rw [ih, hlookup]
      rfl
    | none =>
      -- the element is now the first of its key, and so it is found among the firsts
      have hlookup : (((key, z) :: firsts).lookup k).or (xs.lookup k) =
          (firsts.lookup k).or (((key, z) :: xs).lookup k) := by
        by_cases heq : k = key
        · rw [heq, hkey, List.lookup_cons_self, List.lookup_cons_self, Option.some_or,
            Option.none_or]
        · rw [List.lookup_cons, List.lookup_cons, beq_false_of_ne heq]
      show repeatsAfter ((key, z) :: firsts) (xs ++ [(k, x)]) = _
      rw [ih, hlookup]

/-- An element at the end is a repeat if its key stands before it, of the first that has the key. -/
theorem repeats_append_singleton (xs : List (κ × α)) (k : κ) (x : α) :
    repeats (xs ++ [(k, x)]) =
      repeats xs ++ ((xs.lookup k).map fun first ↦ (x, first)).toList := by
  rw [repeats, repeatsAfter_append_singleton]
  rfl

/-- What is told of a repeat are elements of the list. -/
theorem mem_of_mem_repeats {xs : List (κ × α)} {x first : α} (h : (x, first) ∈ repeats xs) :
    x ∈ xs.map Prod.snd ∧ first ∈ xs.map Prod.snd := by
  induction xs using List.reverseRecOn with
  | nil => cases h
  | append_singleton xs z ih =>
    obtain ⟨k, z⟩ := z
    rw [repeats_append_singleton, List.mem_append, Option.mem_toList] at h
    rw [List.map_append, List.mem_append, List.mem_append]
    rcases h with h | h
    · exact ⟨.inl (ih h).1, .inl (ih h).2⟩
    · obtain ⟨first', hfirst, heq⟩ := Option.map_eq_some_iff.1 h
      obtain ⟨rfl, rfl⟩ := Prod.mk.inj heq
      obtain ⟨l₁, l₂, rfl, -⟩ := List.lookup_eq_some_iff.1 hfirst
      exact ⟨.inr (List.mem_singleton_self _), .inl (by simp)⟩

/-- Repeats are told in the order of the list, each once. -/
theorem map_fst_repeats_sublist (xs : List (κ × α)) :
    ((repeats xs).map Prod.fst).Sublist (xs.map Prod.snd) := by
  induction xs using List.reverseRecOn with
  | nil => exact .slnil
  | append_singleton xs z ih =>
    obtain ⟨k, x⟩ := z
    rw [repeats_append_singleton, List.map_append, List.map_append]
    refine ih.append ?_
    cases xs.lookup k with
    | none => exact List.nil_sublist _
    | some first => exact .refl _

/-- Repeats can be told in another way if that makes no difference for elements of the list. -/
theorem map_repeats_congr {xs : List (κ × α)} {f g : α × α → β}
    (h : ∀ x ∈ xs.map Prod.snd, ∀ y ∈ xs.map Prod.snd, f (x, y) = g (x, y)) :
    (repeats xs).map f = (repeats xs).map g := by
  refine List.map_congr_left fun (x, first) hmem ↦ ?_
  obtain ⟨hx, hfirst⟩ := mem_of_mem_repeats hmem
  exact h x hx first hfirst

/-- Every element is a repeat or the first of its key. -/
theorem length_repeats (xs : List (κ × α)) :
    (repeats xs).length + (xs.map Prod.fst).eraseDups.length = xs.length := by
  induction xs using List.reverseRecOn with
  | nil => rfl
  | append_singleton xs z ih =>
    obtain ⟨k, x⟩ := z
    have hkey : ((xs.lookup k).map fun first ↦ (x, first)).toList.length +
        ([k].removeAll (xs.map Prod.fst)).eraseDups.length = 1 := by
      by_cases hk : k ∈ xs.map Prod.fst
      · obtain ⟨first, hfirst⟩ := exists_lookup_iff_mem.2 hk
        rw [hfirst]
        simp [List.removeAll, hk]
      · rw [lookup_eq_none_iff_not_mem.2 hk]
        simp [List.removeAll, hk, List.eraseDups_cons]
    rw [repeats_append_singleton, List.map_append, List.map_singleton, List.eraseDups_append]
    simp only [List.length_append, List.length_singleton]
    omega

/-- There are no repeats exactly if the keys differ. -/
theorem repeats_eq_nil_iff (xs : List (κ × α)) : repeats xs = [] ↔ (xs.map Prod.fst).Nodup := by
  induction xs using List.reverseRecOn with
  | nil => exact iff_of_true rfl List.nodup_nil
  | append_singleton xs z ih =>
    obtain ⟨k, x⟩ := z
    rw [repeats_append_singleton, List.append_eq_nil_iff, ih, List.map_append,
      List.nodup_append_comm, List.map_singleton, List.singleton_append, List.nodup_cons,
      ← lookup_eq_none_iff_not_mem, and_comm]
    cases xs.lookup k <;> simp

/-! ### Elements that may have keys -/

omit [BEq κ] [LawfulBEq κ] in
theorem map_fst_filterMap (key : β → Option κ) (tell : β → κ → α) (xs : List β) :
    (xs.filterMap fun x ↦ (key x).map fun k ↦ (k, tell x k)).map Prod.fst = xs.filterMap key := by
  rw [List.map_filterMap]
  refine List.filterMap_congr fun x _ ↦ ?_
  cases key x <;> rfl

/-- There are no repeats among elements that may have keys exactly if no two have the same key. -/
theorem repeats_filterMap_eq_nil_iff (key : β → Option κ) (tell : β → κ → α) (xs : List β) :
    repeats (xs.filterMap fun x ↦ (key x).map fun k ↦ (k, tell x k)) = [] ↔
      xs.Pairwise fun x y ↦ ∀ k, key x = some k → key y ≠ some k := by
  rw [repeats_eq_nil_iff, map_fst_filterMap, List.Nodup, List.pairwise_filterMap]
  refine List.Pairwise.iff fun x y ↦ ?_
  constructor
  · intro hne k hx hy
    exact hne k hx k hy rfl
  · intro hne k hx k' hy heq
    exact hne k hx (heq ▸ hy)

/-- Every element that has a key is a repeat or the first of its key. -/
theorem length_repeats_filterMap (key : β → Option κ) (tell : β → κ → α) (xs : List β) :
    (repeats (xs.filterMap fun x ↦ (key x).map fun k ↦ (k, tell x k))).length +
      (xs.filterMap key).eraseDups.length = (xs.filterMap key).length := by
  have hlength := length_repeats (xs.filterMap fun x ↦ (key x).map fun k ↦ (k, tell x k))
  rw [map_fst_filterMap] at hlength
  rw [hlength, ← map_fst_filterMap key tell xs, List.length_map]

/-- What is told of the repeats comes in the order of the list, if it leads back to its elements. -/
theorem map_repeats_filterMap_sublist (key : β → Option κ) (tell : β → κ → α) (xs : List β)
    (back : α → β) (hback : ∀ x k, back (tell x k) = x) :
    ((repeats (xs.filterMap fun x ↦ (key x).map fun k ↦ (k, tell x k))).map
      fun p ↦ back p.1).Sublist xs := by
  have hkeyed : (xs.filterMap fun x ↦ (key x).map fun k ↦ (k, tell x k)).map (back ∘ Prod.snd) =
      xs.filter fun x ↦ (key x).isSome := by
    rw [List.map_filterMap, ← List.filterMap_eq_filter]
    refine List.filterMap_congr fun x _ ↦ ?_
    cases hx : key x <;> simp [Option.guard, hx, hback]
  have hsublist := (map_fst_repeats_sublist
    (xs.filterMap fun x ↦ (key x).map fun k ↦ (k, tell x k))).map back
  rw [List.map_map, List.map_map, hkeyed] at hsublist
  exact hsublist.trans List.filter_sublist

/-- An element of a list repeats another if that is the first element before it that has its key. -/
def RepeatsFirst (key : β → Option κ) (xs : List β) (x first : β) : Prop :=
  ∃ before after k, xs = before ++ x :: after ∧ key x = some k ∧
    before.find? (fun y ↦ key y == some k) = some first

section RepeatsFirst

omit [LawfulBEq κ]

variable {key : β → Option κ} {xs : List β} {x first : β}

theorem RepeatsFirst.mem (h : RepeatsFirst key xs x first) : x ∈ xs := by
  obtain ⟨before, after, k, rfl, -⟩ := h
  simp

theorem RepeatsFirst.first_mem (h : RepeatsFirst key xs x first) : first ∈ xs := by
  obtain ⟨before, after, k, rfl, -, hfirst⟩ := h
  exact List.mem_append_left _ (List.mem_of_find?_eq_some hfirst)

theorem repeatsFirst_append_singleton {z : β} :
    RepeatsFirst key (xs ++ [z]) x first ↔ RepeatsFirst key xs x first ∨
      x = z ∧ ∃ k, key z = some k ∧ xs.find? (fun y ↦ key y == some k) = some first := by
  constructor
  · rintro ⟨before, after, k, heq, hk, hfirst⟩
    rcases List.eq_nil_or_concat after with rfl | ⟨after, z', rfl⟩
    · obtain ⟨rfl, hz⟩ := List.append_inj' heq rfl
      obtain rfl : z = x := List.singleton_inj.1 hz
      exact .inr ⟨rfl, k, hk, hfirst⟩
    · rw [List.concat_eq_append, ← List.cons_append, ← List.append_assoc] at heq
      exact .inl ⟨before, after, k, (List.append_inj' heq rfl).1, hk, hfirst⟩
  · rintro (⟨before, after, k, rfl, hk, hfirst⟩ | ⟨rfl, k, hk, hfirst⟩)
    · exact ⟨before, after ++ [z], k, by simp, hk, hfirst⟩
    · exact ⟨xs, [], k, rfl, hk, hfirst⟩

end RepeatsFirst

/-- The first element that is repeated has the key, too. -/
theorem RepeatsFirst.key_eq {key : β → Option κ} {xs : List β} {x first : β}
    (h : RepeatsFirst key xs x first) : ∃ k, key x = some k ∧ key first = some k := by
  obtain ⟨before, after, k, -, hk, hfirst⟩ := h
  exact ⟨k, hk, by simpa using List.find?_some hfirst⟩

/-- An element repeats another exactly if one before it has its key. -/
theorem exists_repeatsFirst_iff {key : β → Option κ} {xs : List β} {x : β} :
    (∃ first, RepeatsFirst key xs x first) ↔
      ∃ y k, [y, x].Sublist xs ∧ key y = some k ∧ key x = some k := by
  induction xs using List.reverseRecOn with
  | nil => simp [RepeatsFirst]
  | append_singleton xs z ih =>
    have hfirst (k : κ) : (∃ first, xs.find? (fun y ↦ key y == some k) = some first) ↔
        ∃ y ∈ xs, key y = some k := by
      rw [← Option.isSome_iff_exists, List.find?_isSome]
      simp
    simp only [repeatsFirst_append_singleton, exists_or, ih, pair_sublist_append_singleton_iff,
      or_and_right]
    refine or_congr_right ⟨?_, ?_⟩
    · rintro ⟨first, rfl, k, hk, hfound⟩
      obtain ⟨y, hy, hyk⟩ := (hfirst k).1 ⟨first, hfound⟩
      exact ⟨y, k, ⟨rfl, hy⟩, hyk, hk⟩
    · rintro ⟨y, k, ⟨rfl, hy⟩, hyk, hk⟩
      obtain ⟨first, hfound⟩ := (hfirst k).2 ⟨y, hy, hyk⟩
      exact ⟨first, rfl, k, hk, hfound⟩

/-- What is told of elements that may have keys is told of the repeats and of the first elements
that they repeat. -/
theorem mem_repeats_filterMap_iff (key : β → Option κ) (tell : β → κ → α) (xs : List β)
    {p : α × α} :
    p ∈ repeats (xs.filterMap fun x ↦ (key x).map fun k ↦ (k, tell x k)) ↔
      ∃ x first k, RepeatsFirst key xs x first ∧ key x = some k ∧ p = (tell x k, tell first k) := by
  induction xs using List.reverseRecOn with
  | nil => simp [RepeatsFirst]
  | append_singleton xs z ih =>
    rw [List.filterMap_append]
    cases hz : key z with
    | none =>
      rw [List.filterMap_cons_none (by rw [hz]; rfl), List.filterMap_nil, List.append_nil, ih]
      simp [repeatsFirst_append_singleton, hz]
    | some k =>
      rw [List.filterMap_cons_some (by rw [hz]; rfl), List.filterMap_nil, repeats_append_singleton,
        lookup_filterMap, List.mem_append, ih, Option.mem_toList, Option.map_map]
      simp only [repeatsFirst_append_singleton, or_and_right, exists_or]
      refine or_congr_right ⟨?_, ?_⟩
      · intro hp
        obtain ⟨first, hfirst, rfl⟩ := Option.map_eq_some_iff.1 hp
        exact ⟨z, first, k, ⟨rfl, k, hz, hfirst⟩, hz, rfl⟩
      · rintro ⟨x, first, k', ⟨rfl, k'', hk'', hfirst⟩, hk', rfl⟩
        obtain rfl : k = k'' := Option.some.inj (hz.symm.trans hk'')
        obtain rfl : k = k' := Option.some.inj (hz.symm.trans hk')
        exact Option.map_eq_some_iff.2 ⟨first, hfirst, rfl⟩

/-! ### Repeats in two lists -/

section Relation

omit [LawfulBEq κ]

variable {R : α → β → Prop} {firsts xs : List (κ × α)} {firsts' ys : List (κ × β)}

theorem rel_lookup (h : List.Forall₂ (fun p q ↦ p.1 = q.1 ∧ R p.2 q.2) firsts firsts') (key : κ) :
    Option.Rel R (firsts.lookup key) (firsts'.lookup key) := by
  induction h with
  | nil => exact .none
  | @cons p q firsts firsts' hpq _ ih =>
    obtain ⟨hkey, hR⟩ := hpq
    rw [List.lookup_cons, List.lookup_cons, hkey]
    cases key == q.1 with
    | true => exact .some hR
    | false => exact ih

theorem forall₂_repeatsAfter
    (hfirsts : List.Forall₂ (fun p q ↦ p.1 = q.1 ∧ R p.2 q.2) firsts firsts')
    (h : List.Forall₂ (fun p q ↦ p.1 = q.1 ∧ R p.2 q.2) xs ys) :
    List.Forall₂ (fun p q ↦ R p.1 q.1 ∧ R p.2 q.2) (repeatsAfter firsts xs)
      (repeatsAfter firsts' ys) := by
  induction h generalizing firsts firsts' with
  | nil => exact .nil
  | @cons p q xs ys hpq _ ih =>
    obtain ⟨key, x⟩ := p
    obtain ⟨key', y⟩ := q
    obtain ⟨rfl, hR⟩ := hpq
    have hlookup := rel_lookup hfirsts key
    rw [repeatsAfter, repeatsAfter]
    generalize firsts.lookup key = first at hlookup ⊢
    generalize firsts'.lookup key = first' at hlookup ⊢
    cases hlookup with
    | some hfirst => exact .cons ⟨hR, hfirst⟩ (ih hfirsts)
    | none => exact ih (.cons ⟨rfl, hR⟩ hfirsts)

/-- Where the keys are the same, so are the positions of the repeats. -/
theorem forall₂_repeats (h : List.Forall₂ (fun p q ↦ p.1 = q.1 ∧ R p.2 q.2) xs ys) :
    List.Forall₂ (fun p q ↦ R p.1 q.1 ∧ R p.2 q.2) (repeats xs) (repeats ys) :=
  forall₂_repeatsAfter .nil h

end Relation

end Repeats

end Schemata
