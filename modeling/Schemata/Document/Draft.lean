import Schemata.Document.Basic
import Schemata.Document.Layout
import Schemata.Document.Violation
import Schemata.Text.IdentifierRanges

/-!
# Drafts

A document is drafted by declarations, one after the other, and by moving nodes to other ranges. A
declaration that is refused leaves the draft as it was.
-/

namespace Schemata

/-- A document under way. -/
structure Draft where
  document : Document
  /-- Where the next node starts. -/
  cursor : Nat
  deriving Repr

/-- A step of drafting. -/
inductive Edit where
  | declare (declaration : Declaration)
  | setRange (n : LocalId) (range : Range)
  deriving Repr

/-- What a step of drafting comes to. -/
inductive Outcome where
  /-- The declaration is at this place. -/
  | declared (n : LocalId)
  | refused (e : BuildError)
  | ranged
  deriving DecidableEq, Repr

namespace Document

/-- A document that declares nothing, with its root at the start of the text. -/
def blank (file : FileId) (name : String) : Document :=
  ⟨file, name, [], [], ⟨0, (Content.root name).extent⟩, []⟩

/-- Takes a node into the list of imports or of classifiers, by what is declared. -/
def enlist (d : Document) (declaration : Declaration) (n : LocalId) : Document :=
  match declaration with
  | .imports _ => { d with imports := d.imports ++ [n] }
  | _ => { d with classifiers := d.classifiers ++ [n] }

end Document

variable [Text.IdentifierClasses]

namespace Draft

/-- Starts a document. Its name is a qualified name. -/
def start? (file : FileId) (name : String) : Except BuildError Draft :=
  if Text.isQualifiedName name then
    .ok ⟨.blank file name, (Content.root name).extent + 1⟩
  else .error (.invalidIdentifier name)

/-- Adds the nodes of a declaration, unchecked. -/
def append (d : Draft) (declaration : Declaration) : Draft :=
  let n := d.document.size
  let seeds := declaration.outline.seeds 0 n
  let document := d.document.enlist declaration n
  { document := { document with body := document.body ++ Seed.place d.cursor seeds }
    cursor := Seed.advance d.cursor seeds }

/-- Adds a declaration, or refuses it for its first violation. -/
def declare (d : Draft) (declaration : Declaration) : Draft × Outcome :=
  match declaration.firstViolation? with
  | some e => (d, .refused e)
  | none => (d.append declaration, .declared d.document.size)

/-- Moves a node to a range. The cursor stays, so that nodes to come are where they would be. -/
def setRange (d : Draft) (n : LocalId) (range : Range) : Draft :=
  { d with document := d.document.setRange n range }

/-- Takes one step. -/
def step (d : Draft) : Edit → Draft × Outcome
  | .declare declaration => d.declare declaration
  | .setRange n range => (d.setRange n range, .ranged)

/-- Takes some steps, and tells what each comes to. -/
def steps (d : Draft) : List Edit → Draft × List Outcome
  | [] => (d, [])
  | e :: es =>
    let (d, outcome) := d.step e
    let (d, outcomes) := d.steps es
    (d, outcome :: outcomes)

@[simp] theorem declare_of_violation {d : Draft} {declaration : Declaration} {e : BuildError}
    (h : declaration.firstViolation? = some e) : d.declare declaration = (d, .refused e) := by
  simp [declare, h]

@[simp] theorem declare_of_no_violation {d : Draft} {declaration : Declaration}
    (h : declaration.firstViolation? = none) :
    d.declare declaration = (d.append declaration, .declared d.document.size) := by
  simp [declare, h]

end Draft

namespace Document

/-- The document that some steps draft, and what each step comes to. -/
def ofEdits? (file : FileId) (name : String) (edits : List Edit) :
    Except BuildError (Document × List Outcome) := do
  let (d, outcomes) := (← Draft.start? file name).steps edits
  return (d.document, outcomes)

end Document

end Schemata
