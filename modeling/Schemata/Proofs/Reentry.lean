import Mathlib.Data.List.Chain
import Mathlib.Order.WellFounded
import Schemata.Proofs.Recall

/-!
# No question runs into itself

A session keeps a slot for every question, and fills it when the rule of the question is done.
While a rule is at work its slot is open: empty, and waiting for this rule. If the rule came to ask
its own question again, directly or by way of others, it would wait for itself. The documents give
no bound, since they can import each other and their entities refer to each other; what gives one is
the rank of a question, which falls with every question that a rule asks.

`Rules.Runs` is the recursion with slots, without a bound on its depth. A question whose slot is
open has no rule there, so a recursion that waits for itself does not run to an end. Where rules are
ranked every query does (`Rules.Settled.runs_evalFrom`), and in one way (`Rules.Runs.unique`).
-/

namespace Schemata

variable {κ : Type} {Answer : κ → Type} {α : Type}

namespace Rules

/-! ### What a rule asks -/

/-- Whether the rule of one question, when it gets some answers, asks another. -/
def Asks (rules : Rules Answer) (answer : (q : κ) → Answer q) (q q' : κ) : Prop :=
  q' ∈ (rules.rule q).asked answer

section Settled

variable {rules : Rules Answer} {rank : κ → Nat} {answer : (q : κ) → Answer q}
  (h : rules.Settled rank answer)
include h

/-- Where answers are settled, no question leads to others without end. -/
theorem Settled.wellFounded_asks : WellFounded fun q' q ↦ rules.Asks answer q q' :=
  Subrelation.wf (fun {q' q} hq ↦ h.rank_lt q q' hq) (measure rank).wf

/-- And none leads to itself. -/
theorem Settled.not_transGen_asks (q : κ) : ¬ Relation.TransGen (rules.Asks answer) q q := by
  intro hq
  have hwf := h.wellFounded_asks.transGen
  exact hwf.irrefl.irrefl q (Relation.transGen_swap.2 hq)

/-- The rank of a question bounds how far it leads. -/
theorem Settled.length_le_of_isChain {q : κ} {qs : List κ}
    (hqs : List.IsChain (rules.Asks answer) (q :: qs)) : qs.length ≤ rank q := by
  induction qs generalizing q with
  | nil => exact Nat.zero_le _
  | cons q' qs ih =>
    obtain ⟨hq, hqs⟩ := List.isChain_cons_cons.1 hqs
    exact Nat.succ_le_of_lt ((ih hqs).trans_lt (h.rank_lt q q' hq))

/-- No other answers obey the rules. -/
theorem Settled.eq_of_obeys {answer' : (q : κ) → Answer q}
    (h' : ∀ q, answer' q = (rules.rule q).eval answer') : answer' = answer := by
  funext q
  induction q using h.wellFounded_asks.induction with
  | _ q ih =>
    calc answer' q
        = (rules.rule q).eval answer' := h' q
      _ = (rules.rule q).eval answer := (Query.eval_congr fun q' hq' ↦ (ih q' hq').symm).symm
      _ = answer q := (h.obeys q).symm

end Settled

/-! ### The recursion with slots -/

variable [BEq κ] [LawfulBEq κ] [Hashable κ]

/-- The recursion with slots: a query that begins with some slots filled and others open runs to a
result, and to filled slots. A question whose slot is filled has the answer that stands there. A
question whose slot is neither filled nor open is answered by its rule, which works while the slot
is open, and the slot is filled when it is done. A question whose slot is open has no answer. -/
inductive Runs (rules : Rules Answer) : {α : Type} → List κ → Std.DHashMap κ Answer →
    Query Answer α → α → Std.DHashMap κ Answer → Prop
  | done {α : Type} {opened : List κ} {memory : Std.DHashMap κ Answer} (a : α) :
    Runs rules opened memory (.done a) a memory
  | filled {α : Type} {opened : List κ} {memory last : Std.DHashMap κ Answer} {q : κ}
    {next : Answer q → Query Answer α} {x : Answer q} {a : α} (hslot : memory.get? q = some x)
    (hnext : Runs rules opened memory (next x) a last) :
    Runs rules opened memory (.ask q next) a last
  | computed {α : Type} {opened : List κ} {memory later last : Std.DHashMap κ Answer} {q : κ}
    {next : Answer q → Query Answer α} {x : Answer q} {a : α} (hslot : memory.get? q = none)
    (hopened : q ∉ opened) (hrule : Runs rules (q :: opened) memory (rules.rule q) x later)
    (hempty : later.get? q = none)
    (hnext : Runs rules opened (later.insertIfNew q x) (next x) a last) :
    Runs rules opened memory (.ask q next) a last

section Runs

variable {rules : Rules Answer} {opened : List κ} {memory last last' : Std.DHashMap κ Answer}
  {x : Query Answer α} {a a' : α}

/-- An open slot is left as it is. -/
theorem Runs.get?_of_mem (h : rules.Runs opened memory x a last) {q : κ} (hq : q ∈ opened) :
    last.get? q = memory.get? q := by
  induction h with
  | done a => rfl
  | filled _ _ ih => exact ih hq
  | @computed α opened memory later last q' next x a hslot hopened _ _ _ ihrule ihnext =>
    have hne : ¬ (q' == q) = true := fun heq ↦ hopened (eq_of_beq heq ▸ hq)
    rw [ihnext hq, Std.DHashMap.get?_insertIfNew, dif_neg fun h ↦ hne h.1]
    exact ihrule (List.mem_cons_of_mem q' hq)

/-- A query runs in one way only. -/
theorem Runs.unique (h : rules.Runs opened memory x a last)
    (h' : rules.Runs opened memory x a' last') : a' = a ∧ last' = last := by
  induction h generalizing last' with
  | done a => cases h'; exact ⟨rfl, rfl⟩
  | filled hslot _ ih =>
    cases h' with
    | filled hslot' hnext' =>
      obtain rfl := Option.some.inj (hslot.symm.trans hslot')
      exact ih hnext'
    | computed hslot' => rw [hslot] at hslot'; cases hslot'
  | computed hslot _ _ _ _ ihrule ihnext =>
    cases h' with
    | filled hslot' => rw [hslot] at hslot'; cases hslot'
    | computed _ _ hrule' _ hnext' =>
      obtain ⟨rfl, rfl⟩ := ihrule hrule'
      exact ihnext hnext'

/-- Where answers are settled, a query that asks only questions of lower rank than those whose slots
are open runs to an end, and to what the recursion of bounded depth comes to. -/
theorem Settled.runs_evalFrom {rank : κ → Nat} {answer : (q : κ) → Answer q}
    (h : rules.Settled rank answer) (hmemory : Faithful answer memory) {bound depth : Nat}
    (hx : ∀ q ∈ x.asked answer, rank q < bound) (hdepth : bound ≤ depth)
    (hopened : ∀ q ∈ opened, bound ≤ rank q) :
    rules.Runs opened memory x (x.evalFrom (rules.recallWithin depth) memory).1
      (x.evalFrom (rules.recallWithin depth) memory).2 := by
  -- on the depth for the rules that are called, and on the query for the questions of one rule
  induction depth generalizing α bound opened memory x with
  | zero =>
    cases x with
    | done a => exact .done a
    | ask q next => exact absurd (hx q List.mem_cons_self) (by omega)
  | succ depth ihdepth =>
    induction x generalizing memory with
    | done a => exact .done a
    | ask q next ih =>
      have hq : rank q < bound := hx q List.mem_cons_self
      have hnext : ∀ q' ∈ (next (answer q)).asked answer, rank q' < bound :=
        fun q' hq' ↦ hx q' (List.mem_cons_of_mem q hq')
      have hanswered := Rules.recallWithin_answered h (hq.trans_le hdepth) hmemory
      rw [recallWithin] at hanswered
      rw [Query.evalFrom, recallWithin]
      cases hslot : memory.get? q with
      | some y =>
        obtain rfl : y = answer q := hmemory q y hslot
        exact .filled hslot (ih (answer q) hmemory hnext)
      | none =>
        have hbelow : ∀ q' ∈ q :: opened, rank q ≤ rank q' := by
          intro q' hq'
          rcases List.mem_cons.1 hq' with rfl | hq'
          · exact Nat.le_refl _
          · exact hq.le.trans (hopened q' hq')
        have hclosed : q ∉ opened := fun hmem ↦ Nat.not_le_of_lt hq (hopened q hmem)
        have hrule : rules.Runs (q :: opened) memory (rules.rule q)
              ((rules.rule q).evalFrom (rules.recallWithin depth) memory).1
              ((rules.rule q).evalFrom (rules.recallWithin depth) memory).2 :=
            ihdepth hmemory (h.rank_lt q) (by omega) hbelow
        have hempty := (hrule.get?_of_mem List.mem_cons_self).trans hslot
        -- the query goes on with the plain answer, from a memory that is faithful again
        rw [hslot] at hanswered
        generalize (rules.rule q).evalFrom (rules.recallWithin depth) memory = result
          at hanswered hrule hempty ⊢
        obtain ⟨y, later⟩ := result
        obtain rfl : y = answer q := hanswered.value_eq
        exact .computed hslot hclosed hrule hempty (ih (answer q) hanswered.faithful hnext)

end Runs

end Rules

/-- **No question runs into itself.** Whatever documents import each other and whatever entities
refer to each other, exactly the plain answers obey the rules of a snapshot. A rule that gets them
leads from its question to others, but never back to it and never more than seven deep. So after any
requests a session answers every request, also one about a node that does not exist, by a recursion
in which no rule comes to ask a question whose slot is open, and every slot is filled once; there is
one such recursion, and it comes to the reply. -/
theorem Session.no_reentry {classes : Text.IdentifierClasses} (s : Snapshot)
    (h : s.catalog.Loaded) (past : List Request) :
    (∀ answer : (q : Question) → q.Answer,
      (∀ q, answer q = (s.rules.rule q).eval answer) ↔ answer = s.answer) ∧
    (WellFounded fun q' q ↦ s.rules.Asks s.answer q q') ∧
    (∀ q, ¬ Relation.TransGen (s.rules.Asks s.answer) q q) ∧
    (∀ qs, List.IsChain (s.rules.Asks s.answer) qs → qs.length ≤ Snapshot.depth) ∧
    ∀ (r : Request) (reply : r.Reply) (memory : Std.DHashMap Question Question.Answer),
      s.rules.Runs [] ((start s).after past).memory (r.inquiry s) reply memory ↔
        reply = (((start s).after past).serve r).1 ∧
          memory = (((start s).after past).serve r).2.memory := by
  have hsettled := Snapshot.settled_rules h
  refine ⟨fun answer ↦ ⟨hsettled.eq_of_obeys, ?_⟩, hsettled.wellFounded_asks,
    hsettled.not_transGen_asks, fun qs hqs ↦ ?_, fun r reply memory ↦ ?_⟩
  · rintro rfl
    exact hsettled.obeys
  · cases qs with
    | nil => exact Nat.zero_le _
    | cons q qs =>
      have hlength : qs.length ≤ 6 := (hsettled.length_le_of_isChain hqs).trans (s.rank_le q)
      exact Nat.succ_le_succ hlength
  · have hsound := ((sound_start s).after h past).1
    have hruns : s.rules.Runs [] ((start s).after past).memory (r.inquiry s)
        (((start s).after past).serve r).1 (((start s).after past).serve r).2.memory := by
      rw [Session.serve, Session.run, hsound.snapshot_eq]
      exact hsettled.runs_evalFrom hsound.faithful (fun q _ ↦ Nat.lt_succ_of_le (s.rank_le q))
        (Nat.le_refl _) (fun _ hq ↦ absurd hq List.not_mem_nil)
    constructor
    · exact fun h ↦ hruns.unique h
    · rintro ⟨rfl, rfl⟩
      exact hruns

open Snapshot in
/-- Two documents that import each other have scopes that do not wait for each other. -/
theorem Session.no_reentry_ofMutualImports :
    ofMutualImports.catalog.Loaded ∧
      ¬ Relation.TransGen (ofMutualImports.rules.Asks ofMutualImports.answer)
        (.classifiers ⟨0⟩) (.classifiers ⟨0⟩) ∧
      ∃ reply memory, ofMutualImports.rules.Runs []
        ((start ofMutualImports).after [.infer ⟨⟨1⟩, 4⟩]).memory
        (Request.inquiry ofMutualImports (.scope ⟨0⟩)) reply memory := by
  obtain ⟨-, -, hloop, -, hruns⟩ :=
    no_reentry ofMutualImports loaded_ofMutualImports [.infer ⟨⟨1⟩, 4⟩]
  exact ⟨loaded_ofMutualImports, hloop (.classifiers ⟨0⟩), _, _,
    (hruns (.scope ⟨0⟩) _ _).2 ⟨rfl, rfl⟩⟩

end Schemata
