import Schemata.Diagnostic.Payload
import Schemata.Document.Id
import Schemata.Severity
import Schemata.Source.Lines

/-!
# Findings

A diagnostic is a finding at a node of a document. `Report` collects diagnostics in the order in
which they are found.
-/

namespace Schemata

/-- Another node that a finding mentions. -/
structure Related where
  node : NodeId
  range : Range
  message : String
  deriving DecidableEq, Repr

/-- A finding at a node. -/
structure Diagnostic where
  node : NodeId
  range : Range
  severity : Severity
  /-- The kind of the finding, by which tools know it. -/
  code : Option String
  message : String
  payload : Option Payload
  related : List Related
  deriving DecidableEq, Repr

namespace Diagnostic

/-- The file that a finding is about. -/
def file (d : Diagnostic) : FileId := d.node.file

def isError (d : Diagnostic) : Bool := d.severity == .error

/-- The payload with the code of the finding; a finding without a code has the empty one. -/
def data? (d : Diagnostic) : Option Json := d.payload.map (·.toJson (d.code.getD ""))

/-- Where a finding is, in lines and columns. -/
def positions (d : Diagnostic) (lines : Lines) : PositionRange := lines.positions d.range

end Diagnostic

/-- Diagnostics in the order in which they were found. -/
structure Report where
  diagnostics : List Diagnostic
  deriving DecidableEq, Repr

namespace Report

def empty : Report := ⟨[]⟩

/-- Adds a finding at the end. -/
def add (r : Report) (d : Diagnostic) : Report := ⟨r.diagnostics ++ [d]⟩

/-- The number of findings of a severity. -/
def count (r : Report) (severity : Severity) : Nat :=
  r.diagnostics.countP (·.severity == severity)

def hasErrors (r : Report) : Bool := r.diagnostics.any Diagnostic.isError

def size (r : Report) : Nat := r.diagnostics.length

def isEmpty (r : Report) : Bool := r.size == 0

end Report

end Schemata
