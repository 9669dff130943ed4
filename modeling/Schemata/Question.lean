import Schemata.DataType
import Schemata.Query.Basic
import Schemata.Scope

/-!
# Questions

Three kinds of question about a snapshot have answers worth remembering, because the answers to
other questions rest on them: what the reference at a node comes to, which type a node has, and
which classifiers can be named in a file.
-/

namespace Schemata

/-- A question about a snapshot. -/
inductive Question where
  | resolution (site : NodeId)
  | dataType (n : NodeId)
  | classifiers (file : FileId)
  deriving DecidableEq, Repr, Hashable

namespace Question

/-- The answers to a question. A node has no type when the type depends on a reference that does not
resolve, or when nodes of its kind have none. -/
abbrev Answer : Question → Type
  | .resolution _ => Resolution
  | .dataType _ => Option DataType
  | .classifiers _ => Scope

/-- The answer of last resort. -/
def noAnswer : (q : Question) → q.Answer
  | .resolution _ => .blocked
  | .dataType _ => none
  | .classifiers _ => .empty

end Question

/-- A computation that asks questions about a snapshot. -/
abbrev Inquiry (α : Type) := Query Question.Answer α

namespace Inquiry

/-- What the reference at a node comes to. -/
def resolution (site : NodeId) : Inquiry Resolution := Query.question (Question.resolution site)

/-- The node that the reference at a node comes to, if it comes to one. -/
def target? (site : NodeId) : Inquiry (Option NodeId) := (·.target?) <$> resolution site

/-- The type of a node. -/
def dataType (n : NodeId) : Inquiry (Option DataType) := Query.question (Question.dataType n)

/-- The classifiers that can be named in a file. -/
def classifiers (file : FileId) : Inquiry Scope := Query.question (Question.classifiers file)

end Inquiry

end Schemata
