import Schemata.Json.Number

/-!
# JSON values

A tree that keeps what a reader may still have to refuse: repeated keys, numerals of any size, and
texts whose escapes spell a surrogate that stands alone. Reading a value of the library from a tree
decides each of these (`field?`, `optionalField?`, `fits`).
-/

namespace Schemata

/-- A JSON value. A text is `none` when its escapes spell a lone surrogate, since it then is no
sequence of Unicode scalar values. -/
inductive Json where
  | null
  | bool (b : Bool)
  | number (n : Json.Number)
  | string (s : Option String)
  | array (elements : List Json)
  | object (fields : List (Option String × Json))
  deriving Repr, BEq, Inhabited

namespace Json

/-- A text value. -/
def text (s : String) : Json := .string (some s)

/-- An object from its keys and values. -/
def ofFields (fields : List (String × Json)) : Json :=
  .object (fields.map fun f ↦ (some f.1, f.2))

/-- The text of a text value. -/
def text? : Json → Option String
  | .string s => s
  | _ => none

/-- The truth value of a boolean. -/
def bool? : Json → Option Bool
  | .bool b => some b
  | _ => none

/-- The texts of an array of texts. -/
def texts? : Json → Option (List String)
  | .array elements => elements.mapM text?
  | _ => none

/-- Every value under a key, in order. -/
def valuesAt (key : String) (fields : List (Option String × Json)) : List Json :=
  fields.filterMap fun f ↦ if f.1 = some key then some f.2 else none

/-- The value of a key that occurs exactly once. -/
def field? (key : String) (fields : List (Option String × Json)) : Option Json :=
  match valuesAt key fields with
  | [v] => some v
  | _ => none

/-- The value of a key that occurs at most once; the outer `none` stands for a repeated key. -/
def optionalField? (key : String) (fields : List (Option String × Json)) :
    Option (Option Json) :=
  match valuesAt key fields with
  | [] => some none
  | [v] => some (some v)
  | _ => none

mutual

/-- Whether a tree can be taken up whole: every text is a sequence of Unicode scalar values, every
numeral is in range, and arrays and objects are nested no deeper than `depth`. -/
def fits (depth : Nat) : Json → Bool
  | .null => true
  | .bool _ => true
  | .number n => !n.overflows
  | .string s => s.isSome
  | .array elements =>
    match depth with
    | 0 => false
    | d + 1 => allFit d elements
  | .object fields =>
    match depth with
    | 0 => false
    | d + 1 => fieldsFit d fields

/-- `fits` for every element. -/
def allFit (depth : Nat) : List Json → Bool
  | [] => true
  | j :: rest => fits depth j && allFit depth rest

/-- `fits` for every key and value. -/
def fieldsFit (depth : Nat) : List (Option String × Json) → Bool
  | [] => true
  | (key, j) :: rest => key.isSome && fits depth j && fieldsFit depth rest

end

@[simp] theorem text?_text (s : String) : (text s).text? = some s := rfl

@[simp] theorem texts?_map_text (xs : List String) :
    (Json.array (xs.map text)).texts? = some xs := by
  simp only [texts?]
  induction xs with
  | nil => rfl
  | cons x xs ih => simp [List.mapM_cons, ih]

@[simp] theorem valuesAt_nil (key : String) : valuesAt key [] = [] := rfl

theorem valuesAt_cons (key k : String) (v : Json) (fields : List (Option String × Json)) :
    valuesAt key ((some k, v) :: fields) =
      if k = key then v :: valuesAt key fields else valuesAt key fields := by
  by_cases h : k = key <;> simp [valuesAt, h]

end Json

end Schemata
