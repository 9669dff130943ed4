import Schemata.Query.Memo
import Schemata.Typing
import Schemata.Visibility

/-!
# Answers

The rules by which questions about a snapshot are answered, and the plain answers, which remember
nothing. The recursion is cut at a depth of seven questions. In a snapshot of drafted documents this
cuts nothing, although they may import each other and entities may refer to each other.
-/

namespace Schemata

namespace Snapshot

variable (s : Snapshot)

/-- The rules by which questions are answered. -/
def rules : Rules Question.Answer where
  rule
    | .resolution site => s.resolve site
    | .dataType n => s.infer n
    | .classifiers file => s.classifierScope file
  beyond := Question.noAnswer

/-- A depth that no chain of questions about drafted documents exceeds. -/
def depth : Nat := 7

/-- The plain answer to a question. -/
def answer (q : Question) : q.Answer := s.rules.answerWithin depth q

/-- The result of an inquiry by plain answers. -/
def evaluate {α : Type} (i : Inquiry α) : α := i.eval s.answer

end Snapshot

end Schemata
