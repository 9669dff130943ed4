/-!
# Segments

Cutting a sequence at every occurrence of a separator. The separators are dropped and nothing else
is: joining the segments with the separator gives the sequence back (`intercalate_segments`), and no
segment holds the separator (`not_mem_of_mem_segments`).
-/

namespace Schemata.Text

variable {α : Type} [DecidableEq α]

/-- The runs between occurrences of `sep`, in order. There is always one more segment than there are
separators, so the empty sequence has one, empty, segment. -/
def segments (sep : α) : List α → List (List α)
  | [] => [[]]
  | c :: cs =>
    if c = sep then [] :: segments sep cs
    else match segments sep cs with
      | [] => [[c]]
      | s :: rest => (c :: s) :: rest

theorem segments_ne_nil (sep : α) (cs : List α) : segments sep cs ≠ [] := by
  cases cs with
  | nil => simp [segments]
  | cons c cs =>
    unfold segments
    split
    · simp
    · split <;> simp

/-- No segment holds the separator. -/
theorem not_mem_of_mem_segments {sep : α} {cs s : List α} (h : s ∈ segments sep cs) : sep ∉ s := by
  induction cs generalizing s with
  | nil => simp_all [segments]
  | cons c cs ih =>
    unfold segments at h
    split at h
    · rcases List.mem_cons.1 h with rfl | h
      · simp
      · exact ih h
    · rename_i hc
      cases hs : segments sep cs with
      | nil => exact absurd hs (segments_ne_nil sep cs)
      | cons t rest =>
        rw [hs] at h ih
        rcases List.mem_cons.1 h with rfl | h
        · have := ih (s := t) (by simp)
          simp only [List.mem_cons, not_or]
          exact ⟨fun e ↦ hc e.symm, this⟩
        · exact ih (by simp [h])

/-- Joining the segments with the separator gives the sequence back. -/
theorem intercalate_segments (sep : α) (cs : List α) :
    [sep].intercalate (segments sep cs) = cs := by
  induction cs with
  | nil => simp [segments, List.intercalate]
  | cons c cs ih =>
    unfold segments
    cases hs : segments sep cs with
    | nil => exact absurd hs (segments_ne_nil sep cs)
    | cons t rest =>
      rw [hs] at ih
      split
      · rename_i hc
        rw [← ih, hc]
        simp [List.intercalate, List.intersperse]
      · rw [← ih]
        cases rest <;> simp [List.intercalate, List.intersperse]

end Schemata.Text
