import Schemata.Query.Basic
import Std.Data.DHashMap.Basic

/-!
# Rules and memories

Questions are answered by rules, which may ask further questions. `Rules.answerWithin` is the plain
recursion, and `Rules.recallWithin` the same recursion with a memory: a question that has an answer
there is not computed again, and an answer once noted stays. Both are cut at a depth. Where
questions have ranks and a rule asks only questions of lower rank, a depth above the rank cuts
nothing.
-/

namespace Schemata

/-- How questions are answered: by a rule, or beyond the depth of the recursion by a default. -/
structure Rules {κ : Type} (Answer : κ → Type) where
  rule : (q : κ) → Query Answer (Answer q)
  beyond : (q : κ) → Answer q

namespace Rules

variable {κ : Type} {Answer : κ → Type} (rules : Rules Answer)

/-- The answer to a question, computed no deeper than `depth` questions. -/
def answerWithin : (depth : Nat) → (q : κ) → Answer q
  | 0, q => rules.beyond q
  | depth + 1, q => (rules.rule q).eval (answerWithin depth)

/-- Whether every rule asks only questions of lower rank than the one it answers. The answers that
it gets on the way are those of the recursion itself, cut at any depth: what a rule would ask after
answers that never occur does not count. -/
def Ranked (rank : κ → Nat) : Prop :=
  ∀ depth q, ∀ q' ∈ (rules.rule q).asked (rules.answerWithin depth), rank q' < rank q

variable {rules} in
/-- Above the rank of a question the depth of the recursion does not matter. -/
theorem Ranked.answerWithin_eq {rank : κ → Nat} (h : rules.Ranked rank) {m n : Nat} {q : κ}
    (hm : rank q < m) (hn : rank q < n) : rules.answerWithin m q = rules.answerWithin n q := by
  induction m generalizing n q with
  | zero => omega
  | succ m ih =>
    cases n with
    | zero => omega
    | succ n =>
      refine Query.eval_congr fun q' hq' ↦ ?_
      have hlower : rank q' < rank q := h m q q' hq'
      exact ih (by omega) (by omega)

/-- Whether answers obey the rules, and a rule that is answered by them asks only questions of lower
rank. -/
structure Settled (rank : κ → Nat) (answer : (q : κ) → Answer q) : Prop where
  obeys : ∀ q, answer q = (rules.rule q).eval answer
  rank_lt : ∀ q, ∀ q' ∈ (rules.rule q).asked answer, rank q' < rank q

variable {rules} in
/-- At a depth above all ranks the recursion comes to answers that obey the rules. -/
theorem Ranked.settled {rank : κ → Nat} (h : rules.Ranked rank) {depth : Nat}
    (hdepth : ∀ q, rank q < depth) : rules.Settled rank (rules.answerWithin depth) where
  obeys q := h.answerWithin_eq (hdepth q) (Nat.lt_succ_of_lt (hdepth q))
  rank_lt := h depth

variable [BEq κ] [LawfulBEq κ] [Hashable κ]

/-- The answer to a question and the memory afterwards. -/
def recallWithin : (depth : Nat) → (q : κ) → Std.DHashMap κ Answer →
    Answer q × Std.DHashMap κ Answer
  | 0, q, memory => (rules.beyond q, memory)
  | depth + 1, q, memory =>
    match memory.get? q with
    | some x => (x, memory)
    | none =>
      let (x, memory) := (rules.rule q).evalFrom (recallWithin depth) memory
      (x, memory.insertIfNew q x)

end Rules

end Schemata
