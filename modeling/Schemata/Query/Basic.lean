/-!
# Queries

A query is a computation that may ask questions of a fixed kind before it is done. It does not say
how questions are answered. `eval` answers them by a function, and `evalFrom` by a step on a state,
so that one and the same query can be read as a plain recursion and as a recursion that remembers
what it has answered.
-/

namespace Schemata

/-- A computation of an `α` that asks questions from `κ`, to which there are answers of type
`Answer`. -/
inductive Query {κ : Type} (Answer : κ → Type) (α : Type) where
  | done (a : α)
  | ask (q : κ) (next : Answer q → Query Answer α)

namespace Query

variable {κ : Type} {Answer : κ → Type} {α β : Type}

/-- Goes on with the result of a query. -/
def bind : Query Answer α → (α → Query Answer β) → Query Answer β
  | done a, f => f a
  | ask q next, f => ask q fun x ↦ (next x).bind f

instance : Monad (Query Answer) where
  pure := done
  bind := bind

/-- The query that asks one question. -/
def question (q : κ) : Query Answer (Answer q) := ask q done

/-- One query for each element, in order. -/
def forEach (xs : List α) (f : α → Query Answer β) : Query Answer (List β) :=
  match xs with
  | [] => pure []
  | x :: xs => do
    let y ← f x
    let ys ← forEach xs f
    return y :: ys

/-- The lists that are found for each element, one after the other. -/
def collect (xs : List α) (f : α → Query Answer (List β)) : Query Answer (List β) :=
  List.flatten <$> forEach xs f

/-- The results that are found for those elements for which there is one, in order. -/
def choose (xs : List α) (f : α → Query Answer (Option β)) : Query Answer (List β) :=
  List.filterMap id <$> forEach xs f

instance : LawfulMonad (Query Answer) := LawfulMonad.mk' _
  (by
    intro α x
    show x.bind _ = x
    induction x with
    | done a => rfl
    | ask q next ih => simp only [bind]; congr; funext y; exact ih y)
  (by intros; rfl)
  (by
    intro α β γ x f g
    show (x.bind f).bind g = x.bind fun y ↦ (f y).bind g
    induction x with
    | done a => rfl
    | ask q next ih => simp only [bind]; congr; funext y; exact ih y)

/-! ### Answers by a function -/

/-- The result of a query when a function answers its questions. -/
def eval (answer : (q : κ) → Answer q) : Query Answer α → α
  | done a => a
  | ask q next => (next (answer q)).eval answer

section Eval

variable (answer : (q : κ) → Answer q)

@[simp] theorem eval_pure (a : α) : (pure a : Query Answer α).eval answer = a := rfl

@[simp] theorem eval_question (q : κ) : (question q).eval answer = answer q := rfl

/-- The result of a query is all that what follows it gets to know. -/
@[simp] theorem eval_bind (x : Query Answer α) (f : α → Query Answer β) :
    (x >>= f).eval answer = (f (x.eval answer)).eval answer := by
  show (x.bind f).eval answer = _
  induction x with
  | done a => rfl
  | ask q next ih => exact ih (answer q)

@[simp] theorem eval_map (x : Query Answer α) (f : α → β) :
    (f <$> x).eval answer = f (x.eval answer) := by
  rw [← bind_pure_comp, eval_bind, eval_pure]

@[simp] theorem eval_forEach (xs : List α) (f : α → Query Answer β) :
    (forEach xs f).eval answer = xs.map fun x ↦ (f x).eval answer := by
  induction xs with
  | nil => rfl
  | cons x xs ih => simp [forEach, ih]

@[simp] theorem eval_collect (xs : List α) (f : α → Query Answer (List β)) :
    (collect xs f).eval answer = xs.flatMap fun x ↦ (f x).eval answer := by
  simp [collect, List.flatMap]

@[simp] theorem eval_choose (xs : List α) (f : α → Query Answer (Option β)) :
    (choose xs f).eval answer = xs.filterMap fun x ↦ (f x).eval answer := by
  simp only [choose, eval_map, eval_forEach, List.filterMap_map]
  rfl

end Eval

/-! ### Answers from a state -/

/-- The result of a query, and the state after it, when each question is answered by a step on the
state. -/
def evalFrom {σ : Type} (step : (q : κ) → σ → Answer q × σ) : Query Answer α → σ → α × σ
  | done a, s => (a, s)
  | ask q next, s =>
    let (x, s) := step q s
    (next x).evalFrom step s

/-! ### The questions of a query -/

/-- The questions that a query asks, in order, when a function answers them. -/
def asked (answer : (q : κ) → Answer q) : Query Answer α → List κ
  | done _ => []
  | ask q next => q :: (next (answer q)).asked answer

section Asked

variable (answer : (q : κ) → Answer q)

@[simp] theorem asked_pure (a : α) : (pure a : Query Answer α).asked answer = [] := rfl

@[simp] theorem asked_question (q : κ) :
    (question q : Query Answer (Answer q)).asked answer = [q] :=
  rfl

/-- What follows a query asks after it, and asks what its result makes it ask. -/
@[simp] theorem asked_bind (x : Query Answer α) (f : α → Query Answer β) :
    (x >>= f).asked answer = x.asked answer ++ (f (x.eval answer)).asked answer := by
  show (x.bind f).asked answer = _
  induction x with
  | done a => rfl
  | ask q next ih => exact congrArg (q :: ·) (ih (answer q))

@[simp] theorem asked_map (x : Query Answer α) (f : α → β) :
    (f <$> x).asked answer = x.asked answer := by
  rw [← bind_pure_comp, asked_bind, asked_pure, List.append_nil]

@[simp] theorem asked_forEach (xs : List α) (f : α → Query Answer β) :
    (forEach xs f).asked answer = xs.flatMap fun x ↦ (f x).asked answer := by
  induction xs with
  | nil => rfl
  | cons x xs ih => simp [forEach, ih]

@[simp] theorem asked_choose (xs : List α) (f : α → Query Answer (Option β)) :
    (choose xs f).asked answer = xs.flatMap fun x ↦ (f x).asked answer := by
  simp [choose]

variable {answer}

/-- A query has the same result under answers that agree on what it asks. -/
theorem eval_congr {x : Query Answer α} {answer' : (q : κ) → Answer q}
    (h : ∀ q ∈ x.asked answer, answer q = answer' q) : x.eval answer = x.eval answer' := by
  induction x with
  | done a => rfl
  | ask q next ih =>
    rw [eval, eval, ← h q List.mem_cons_self]
    exact ih (answer q) fun q' hq' ↦ h q' (List.mem_cons_of_mem q hq')

end Asked

end Query

end Schemata
