/-!
# Repeats

Which elements of a list repeat an earlier one, by a key. Each repeat is told with the first element
of its key, which is not a repeat itself.
-/

namespace Schemata

variable {κ α : Type} [BEq κ]

/-- The repeats in a list, given the first element of each key that occurred before it. -/
def repeatsAfter (firsts : List (κ × α)) : List (κ × α) → List (α × α)
  | [] => []
  | (key, x) :: rest =>
    match firsts.lookup key with
    | some first => (x, first) :: repeatsAfter firsts rest
    | none => repeatsAfter ((key, x) :: firsts) rest

/-- The elements of a list whose key an earlier element has, each with the first such element. -/
def repeats (xs : List (κ × α)) : List (α × α) := repeatsAfter [] xs

@[simp] theorem repeats_nil : repeats ([] : List (κ × α)) = [] := rfl

end Schemata
