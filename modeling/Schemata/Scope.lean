import Schemata.Document.Id

/-!
# Scopes

A scope lists the names that can be used at a place, each with what it stands for. Several entries
of one name are one match if they stand for the same node. If they do not, the name is ambiguous as
soon as one of them was imported; among declarations of one place the first wins.
-/

namespace Schemata

/-- A name that can be used at a place. -/
structure ScopeEntry where
  name : String
  target : NodeId
  /-- Whether an import brought the name here. -/
  imported : Bool
  deriving DecidableEq, Repr

/-- The names that can be used at a place, in order. -/
structure Scope where
  entries : List ScopeEntry
  deriving DecidableEq, Repr

/-- What a reference comes to. -/
inductive Resolution where
  /-- One node. -/
  | found (target : NodeId)
  /-- Several nodes, in the order of the scope. -/
  | ambiguous (targets : List NodeId)
  /-- No node of the scope has the name. -/
  | notFound
  /-- There is no scope, because another reference on which it depends does not resolve, or there is
  no reference at all. -/
  | blocked
  deriving DecidableEq, Repr

namespace Resolution

/-- The one node that a reference comes to. -/
def target? : Resolution → Option NodeId
  | .found t => some t
  | _ => none

def isFound (r : Resolution) : Bool := r.target?.isSome

theorem target?_eq_some_iff {r : Resolution} {t : NodeId} : r.target? = some t ↔ r = .found t := by
  cases r <;> simp [target?]

end Resolution

namespace Scope

def empty : Scope := ⟨[]⟩

/-- The scope of declarations, none of them imported. -/
def ofDeclared (names : List (String × NodeId)) : Scope :=
  ⟨names.map fun e ↦ ⟨e.1, e.2, false⟩⟩

/-- Adds a declared name at the end. -/
def push (s : Scope) (name : String) (target : NodeId) : Scope :=
  ⟨s.entries ++ [⟨name, target, false⟩]⟩

/-- Adds an imported name at the end. -/
def pushImported (s : Scope) (name : String) (target : NodeId) : Scope :=
  ⟨s.entries ++ [⟨name, target, true⟩]⟩

/-- The entries that satisfy a condition. -/
def filter (keep : ScopeEntry → Bool) (s : Scope) : Scope := ⟨s.entries.filter keep⟩

/-- The names, with repetitions. -/
def names (s : Scope) : List String := s.entries.map (·.name)

def size (s : Scope) : Nat := s.entries.length

def isEmpty (s : Scope) : Bool := s.size == 0

/-- The entries of a name. -/
def matching (s : Scope) (name : String) : List ScopeEntry :=
  s.entries.filter (·.name == name)

/-- What a name stands for. -/
def lookup (s : Scope) (name : String) : Resolution :=
  let found := s.matching name
  match (found.map (·.target)).eraseDups with
  | [] => .notFound
  | [t] => .found t
  | t :: ts => if found.any (·.imported) then .ambiguous (t :: ts) else .found t

@[simp] theorem entries_filter (keep : ScopeEntry → Bool) (s : Scope) :
    (s.filter keep).entries = s.entries.filter keep := rfl

end Scope

end Schemata
