import Mathlib.Data.List.Forall2
import Schemata.Query.Basic

/-!
# Queries in step

Two queries are in step if they ask the same questions for as long as the answers are good, and then
give related results (`Query.InStep`). Nothing is said about how they go on after other answers, so
queries about different states can be in step although they would part over an answer that does not
occur.

The relation follows the form of queries: there is one lemma for each way in which they are built.
What comes out of it is `Query.InStep.eval`: if the questions have the same good answers on both
sides, the results are related.
-/

namespace Schemata

/-- Whether two results are the same and satisfy a condition. -/
def SameWith {α : Type} (good : α → Prop) (a b : α) : Prop := b = a ∧ good a

namespace Query

variable {κ : Type} {Answer : κ → Type} {α α' β β' : Type}

/-- Whether two queries ask the same questions, all of them from `p`, as long as the answers are
good, and give related results. -/
inductive InStep (p : κ → Prop) (good : (q : κ) → Answer q → Prop) (R : α → β → Prop) :
    Query Answer α → Query Answer β → Prop
  | done {a : α} {b : β} (h : R a b) : InStep p good R (.done a) (.done b)
  | ask {q : κ} {f : Answer q → Query Answer α} {g : Answer q → Query Answer β} (hq : p q)
      (h : ∀ x, good q x → InStep p good R (f x) (g x)) : InStep p good R (.ask q f) (.ask q g)

namespace InStep

variable {p : κ → Prop} {good : (q : κ) → Answer q → Prop} {R : α → β → Prop} {T : α' → β' → Prop}
  {x : Query Answer α} {y : Query Answer β}

theorem pure {a : α} {b : β} (h : R a b) :
    InStep p good R (Pure.pure a : Query Answer α) (Pure.pure b : Query Answer β) :=
  .done h

/-- A question is in step with itself. -/
theorem question {q : κ} (hq : p q) :
    InStep p good (SameWith (good q)) (Query.question q) (Query.question q) :=
  .ask hq fun _ hx ↦ .done ⟨rfl, hx⟩

/-- Queries in step go on in step, if they do so after all related results. -/
theorem bind {f : α → Query Answer α'} {g : β → Query Answer β'} (hx : InStep p good R x y)
    (hf : ∀ a b, R a b → InStep p good T (f a) (g b)) : InStep p good T (x >>= f) (y >>= g) := by
  show InStep p good T (x.bind f) (y.bind g)
  induction hx with
  | done h => exact hf _ _ h
  | ask hq _ ih => exact .ask hq ih

/-- After the same result both go on with it. -/
theorem bind_same {G : α → Prop} {x y : Query Answer α} {f : α → Query Answer α'}
    {g : α → Query Answer β'} (hx : InStep p good (SameWith G) x y)
    (hf : ∀ a, G a → InStep p good T (f a) (g a)) : InStep p good T (x >>= f) (y >>= g) := by
  refine hx.bind fun a b hab ↦ ?_
  obtain ⟨rfl, ha⟩ := hab
  exact hf b ha

theorem pure_none {G : α → Prop} :
    InStep p good (SameWith fun a? ↦ ∀ a ∈ a?, G a) (Pure.pure none : Query Answer (Option α))
      (Pure.pure none) :=
  .pure ⟨rfl, by simp⟩

theorem pure_some {G : α → Prop} {a : α} (ha : G a) :
    InStep p good (SameWith fun a? ↦ ∀ a ∈ a?, G a) (Pure.pure (some a) : Query Answer (Option α))
      (Pure.pure (some a)) :=
  .pure ⟨rfl, fun _ h ↦ Option.some.inj h ▸ ha⟩

/-- After the same result, if there is one, both go on with it. -/
theorem bind_option {G : α → Prop} {x y : Query Answer (Option α)}
    {f : Option α → Query Answer α'} {g : Option α → Query Answer β'}
    (hx : InStep p good (SameWith fun a? ↦ ∀ a ∈ a?, G a) x y)
    (hnone : InStep p good T (f none) (g none))
    (hsome : ∀ a, G a → InStep p good T (f (some a)) (g (some a))) :
    InStep p good T (x >>= f) (y >>= g) := by
  refine hx.bind_same fun a? ha ↦ ?_
  cases a? with
  | none => exact hnone
  | some a => exact hsome a (ha a rfl)

theorem map {f : α → α'} {g : β → β'} (hx : InStep p good R x y)
    (hf : ∀ a b, R a b → T (f a) (g b)) : InStep p good T (f <$> x) (g <$> y) := by
  rw [← bind_pure_comp, ← bind_pure_comp]
  exact hx.bind fun a b hab ↦ .pure (hf a b hab)

/-- Element by element in step is in step over a list. -/
theorem forEach {γ : Type} {xs : List γ} {f : γ → Query Answer α} {g : γ → Query Answer β}
    (h : ∀ z ∈ xs, InStep p good R (f z) (g z)) :
    InStep p good (List.Forall₂ R) (Query.forEach xs f) (Query.forEach xs g) := by
  induction xs with
  | nil => exact .pure .nil
  | cons z xs ih =>
    have hz : InStep p good R (f z) (g z) := h z List.mem_cons_self
    have hxs := ih fun z hz ↦ h z (List.mem_cons_of_mem _ hz)
    exact hz.bind fun a b hab ↦ hxs.bind fun as bs habs ↦ .pure (.cons hab habs)

theorem collect {γ : Type} {xs : List γ} {f : γ → Query Answer (List α)}
    {g : γ → Query Answer (List β)} (h : ∀ z ∈ xs, InStep p good (List.Forall₂ R) (f z) (g z)) :
    InStep p good (List.Forall₂ R) (Query.collect xs f) (Query.collect xs g) := by
  refine (forEach h).map fun as bs hab ↦ ?_
  induction hab with
  | nil => exact .nil
  | cons h _ ih => exact List.rel_append h ih

/-- The results that are chosen are the same, and all of them are good. -/
theorem choose {γ : Type} {G : α → Prop} {xs : List γ} {f g : γ → Query Answer (Option α)}
    (h : ∀ z ∈ xs, InStep p good (SameWith fun a? ↦ ∀ a ∈ a?, G a) (f z) (g z)) :
    InStep p good (SameWith fun as ↦ ∀ a ∈ as, G a) (Query.choose xs f) (Query.choose xs g) := by
  refine (forEach h).map fun as bs hab ↦ ?_
  induction hab with
  | nil => exact ⟨rfl, by simp⟩
  | @cons a? b? as bs h _ ih =>
    obtain ⟨rfl, ha⟩ := h
    obtain ⟨heq, has⟩ := ih
    cases b? with
    | none => exact ⟨heq, has⟩
    | some a =>
      refine ⟨congrArg (a :: ·) heq, fun b hb ↦ ?_⟩
      rcases List.mem_cons.1 hb with rfl | hb
      · exact ha b rfl
      · exact has b hb

/-- Queries in step have related results, if what they ask has the same good answers on both
sides. -/
theorem eval (h : InStep p good R x y) {answer answer' : (q : κ) → Answer q}
    (ha : ∀ q, p q → answer' q = answer q ∧ good q (answer q)) :
    R (x.eval answer) (y.eval answer') := by
  induction h with
  | done h => exact h
  | @ask q f g hq _ ih =>
    obtain ⟨heq, hgood⟩ := ha q hq
    show R ((f (answer q)).eval answer) ((g (answer' q)).eval answer')
    rw [heq]
    exact ih _ hgood

end InStep

end Query

end Schemata
