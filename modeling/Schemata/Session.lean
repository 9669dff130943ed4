import Schemata.Answers

/-!
# Sessions

A session answers one inquiry about a snapshot after the other from one memory, so that every
question is computed once.
-/

namespace Schemata

/-- A snapshot and what has been answered about it so far. -/
structure Session where
  snapshot : Snapshot
  memory : Std.DHashMap Question Question.Answer

namespace Session

/-- A session in which nothing has been asked. -/
def start (s : Snapshot) : Session := ⟨s, ∅⟩

/-- The result of an inquiry, and the session after it. -/
def run {α : Type} (session : Session) (i : Inquiry α) : α × Session :=
  let (a, memory) :=
    i.evalFrom (session.snapshot.rules.recallWithin Snapshot.depth) session.memory
  (a, { session with memory := memory })

end Session

end Schemata
