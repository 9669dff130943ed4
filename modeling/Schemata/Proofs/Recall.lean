import Schemata.Checking
import Schemata.Proofs.Ranks
import Schemata.Session
import Std.Data.DHashMap.Lemmas

/-!
# Memory is transparent

A session computes every question once and keeps the answer, and nobody can tell: whatever was asked
before, a request is answered as if it were the first, and as the recursion without a memory answers
it.

Two facts about a memory carry everything. It is `Faithful` when each answer noted in it is the
plain answer, and it only `Extends`: an answer once noted stays. `Answered` packs both for one step
of the recursion. A rule may note answers to other questions, in other documents, while its own
question is still open; this is why the statement about a step speaks of every faithful memory, and
why the induction (`Rules.recallWithin_answered`) runs on the depth, while `Query.evalFrom_answered`
follows the questions of a single rule.
-/

namespace Schemata

section Memory

variable {κ : Type} {Answer : κ → Type} [BEq κ] [LawfulBEq κ] [Hashable κ]

/-- Whether every answer noted in a memory is the given one. -/
def Faithful (answer : (q : κ) → Answer q) (memory : Std.DHashMap κ Answer) : Prop :=
  ∀ q x, memory.get? q = some x → x = answer q

/-- Whether every answer noted in a memory is noted in a later one too. -/
def Extends (memory later : Std.DHashMap κ Answer) : Prop :=
  ∀ q x, memory.get? q = some x → later.get? q = some x

/-- Whether a result and the memory after it are what a faithful memory may lead to: the value, and
a faithful memory that has lost nothing. -/
structure Answered {α : Type} (answer : (q : κ) → Answer q) (memory : Std.DHashMap κ Answer)
    (value : α) (result : α × Std.DHashMap κ Answer) : Prop where
  value_eq : result.1 = value
  faithful : Faithful answer result.2
  kept : Extends memory result.2

variable {answer : (q : κ) → Answer q} {memory later last : Std.DHashMap κ Answer} {α : Type}

theorem Extends.refl (memory : Std.DHashMap κ Answer) : Extends memory memory := fun _ _ h ↦ h

theorem Extends.trans (h : Extends memory later) (h' : Extends later last) :
    Extends memory last := fun q x hx ↦ h' q x (h q x hx)

theorem faithful_empty (answer : (q : κ) → Answer q) : Faithful answer ∅ := by
  intro q x hx
  rw [Std.DHashMap.get?_empty] at hx
  cases hx

theorem extends_insertIfNew (memory : Std.DHashMap κ Answer) (q : κ) (x : Answer q) :
    Extends memory (memory.insertIfNew q x) := by
  intro q' y hy
  rw [Std.DHashMap.get?_insertIfNew]
  split
  · rename_i h
    obtain rfl : q = q' := eq_of_beq h.1
    have hnone : memory.get? q = none := Std.DHashMap.get?_eq_none h.2
    rw [hnone] at hy
    cases hy
  · exact hy

theorem Faithful.insertIfNew (h : Faithful answer memory) (q : κ) :
    Faithful answer (memory.insertIfNew q (answer q)) := by
  intro q' y hy
  rw [Std.DHashMap.get?_insertIfNew] at hy
  split at hy
  · rename_i hq
    obtain rfl : q = q' := eq_of_beq hq.1
    exact (Option.some.inj hy).symm
  · exact h q' y hy

/-! ### From the questions of a query to the query -/

/-- If each question that a query asks is answered, from any faithful memory, by its plain answer,
then so is the query. -/
theorem Query.evalFrom_answered {x : Query Answer α}
    {step : (q : κ) → Std.DHashMap κ Answer → Answer q × Std.DHashMap κ Answer}
    (hstep : ∀ q ∈ x.asked answer, ∀ memory, Faithful answer memory →
      Answered answer memory (answer q) (step q memory))
    (h : Faithful answer memory) :
    Answered answer memory (x.eval answer) (x.evalFrom step memory) := by
  induction x generalizing memory with
  | done a => exact ⟨rfl, h, .refl memory⟩
  | ask q next ih =>
    have hq : Answered answer memory (answer q) (step q memory) :=
      hstep q List.mem_cons_self memory h
    -- the query goes on with the plain answer, from a memory that is faithful again
    rw [Query.evalFrom]
    generalize step q memory = result at hq ⊢
    obtain ⟨y, later⟩ := result
    obtain rfl : y = answer q := hq.value_eq
    have hrest := ih (answer q) (fun q' hq' ↦ hstep q' (List.mem_cons_of_mem q hq')) hq.faithful
    exact ⟨hrest.value_eq, hrest.faithful, hq.kept.trans hrest.kept⟩

/-- Where answers are settled, the recursion with a memory gives them at every depth above the rank
of the question. -/
theorem Rules.recallWithin_answered {rules : Rules Answer} {rank : κ → Nat}
    (hsettled : rules.Settled rank answer) {depth : Nat} {q : κ} (hq : rank q < depth)
    (h : Faithful answer memory) :
    Answered answer memory (answer q) (rules.recallWithin depth q memory) := by
  induction depth generalizing q memory with
  | zero => omega
  | succ depth ih =>
    rw [Rules.recallWithin]
    split
    · -- the answer is in memory
      rename_i x hx
      exact ⟨h q x hx, h, .refl memory⟩
    · have hrule : Answered answer memory ((rules.rule q).eval answer)
          ((rules.rule q).evalFrom (rules.recallWithin depth) memory) := by
        refine Query.evalFrom_answered (fun q' hq' _ h' ↦ ih ?_ h') h
        have hlower : rank q' < rank q := hsettled.rank_lt q q' hq'
        omega
      rw [← hsettled.obeys q] at hrule
      generalize (rules.rule q).evalFrom (rules.recallWithin depth) memory = result at hrule ⊢
      obtain ⟨y, later⟩ := result
      obtain rfl : y = answer q := hrule.value_eq
      -- meanwhile other answers may have been noted, this one not before now
      exact ⟨rfl, hrule.faithful.insertIfNew q, hrule.kept.trans (extends_insertIfNew _ _ _)⟩

end Memory

/-! ### Sessions -/

section Classes

variable {classes : Text.IdentifierClasses}

namespace Snapshot

variable {s : Snapshot} (h : s.catalog.Loaded)
include h

/-- A question is answered from a faithful memory by its plain answer. -/
theorem recallWithin_answered (q : Question) {memory : Std.DHashMap Question Question.Answer}
    (hmemory : Faithful s.answer memory) :
    Answered s.answer memory (s.answer q) (s.rules.recallWithin depth q memory) :=
  Rules.recallWithin_answered (settled_rules h) (Nat.lt_succ_of_le (s.rank_le q)) hmemory

theorem evalFrom_answered {α : Type} (i : Inquiry α)
    {memory : Std.DHashMap Question Question.Answer} (hmemory : Faithful s.answer memory) :
    Answered s.answer memory (s.evaluate i) (i.evalFrom (s.rules.recallWithin depth) memory) :=
  Query.evalFrom_answered (fun q _ _ ↦ recallWithin_answered h q) hmemory

end Snapshot

/-- What a client asks of a snapshot. -/
inductive Request where
  | resolve (site : NodeId)
  | candidates (site : NodeId)
  | scope (file : FileId)
  | infer (n : NodeId)
  | declaredType (member : NodeId)
  | fieldType (entity : NodeId) (name : String)
  | mismatches (member value : NodeId)
  | check (file : FileId)
  | checkAll
  deriving DecidableEq, Repr

namespace Request

/-- What a client is told. -/
abbrev Reply : Request → Type
  | .resolve _ => Resolution
  | .candidates _ => Option Scope
  | .scope _ => Scope
  | .infer _ | .declaredType _ | .fieldType .. => Option DataType
  | .mismatches .. => List Mismatch
  | .check _ => List Diagnostic
  | .checkAll => List (FileId × List Diagnostic)

/-- The inquiry that a request comes to. -/
def inquiry (s : Snapshot) : (r : Request) → Inquiry r.Reply
  | .resolve site => Inquiry.resolution site
  | .candidates site => s.candidates site
  | .scope file => Inquiry.classifiers file
  | .infer n => Inquiry.dataType n
  | .declaredType member => s.declaredType member
  | .fieldType entity name => s.fieldType entity name
  | .mismatches member value => s.mismatches member value
  | .check file => s.check file
  | .checkAll => s.checkAll

end Request

namespace Session

/-- The reply to a request, and the session after it. -/
def serve (session : Session) (r : Request) : r.Reply × Session :=
  session.run (r.inquiry session.snapshot)

/-- The session after some requests. -/
def after (session : Session) : List Request → Session
  | [] => session
  | r :: rs => (session.serve r).2.after rs

theorem after_append (session : Session) (rs rs' : List Request) :
    session.after (rs ++ rs') = (session.after rs).after rs' := by
  induction rs generalizing session with
  | nil => rfl
  | cons r rs ih => exact ih (session.serve r).2

/-- Whether a session could be one about a snapshot: every answer noted is the plain one. -/
structure Sound (session : Session) (s : Snapshot) : Prop where
  snapshot_eq : session.snapshot = s
  faithful : Faithful s.answer session.memory

theorem sound_start (s : Snapshot) : (start s).Sound s :=
  ⟨rfl, faithful_empty s.answer⟩

variable {s : Snapshot} (hloaded : s.catalog.Loaded) {session : Session}
include hloaded

/-- One request: the reply is the plain one, and the memory stays faithful and loses nothing. -/
theorem Sound.serve (h : session.Sound s) (r : Request) :
    (session.serve r).1 = s.evaluate (r.inquiry s) ∧ (session.serve r).2.Sound s ∧
      Extends session.memory (session.serve r).2.memory := by
  obtain ⟨snapshot, memory⟩ := session
  obtain rfl : snapshot = s := h.snapshot_eq
  have hr := Snapshot.evalFrom_answered hloaded (r.inquiry snapshot) h.faithful
  exact ⟨hr.value_eq, ⟨rfl, hr.faithful⟩, hr.kept⟩

/-- Any number of requests: the memory stays faithful and loses nothing. -/
theorem Sound.after (h : session.Sound s) (rs : List Request) :
    (session.after rs).Sound s ∧ Extends session.memory (session.after rs).memory := by
  induction rs generalizing session with
  | nil => exact ⟨h, .refl _⟩
  | cons r rs ih =>
    obtain ⟨-, hsound, hkept⟩ := h.serve hloaded r
    obtain ⟨hsound', hkept'⟩ := ih hsound
    exact ⟨hsound', hkept.trans hkept'⟩

/-- The reply to a request after any others. -/
theorem serve_after_start (past : List Request) (r : Request) :
    (((start s).after past).serve r).1 = s.evaluate (r.inquiry s) :=
  (((sound_start s).after hloaded past).1.serve hloaded r).1

end Session

/-- What was asked before changes no reply. After any requests, each request is answered as it is
when nothing has been asked, and as the plain recursion answers it, however deep that may go. An
answer in memory is the plain one, and stays whatever is asked later. In particular the findings of
all documents are, document by document, those that each document has by itself, whatever was asked
before it. -/
theorem Session.memory_transparent (s : Snapshot) (h : s.catalog.Loaded) (past : List Request) :
    (∀ r : Request,
      (((start s).after past).serve r).1 = ((start s).serve r).1 ∧
      ∀ depth, Snapshot.depth ≤ depth →
        ((start s).serve r).1 = (r.inquiry s).eval (s.rules.answerWithin depth)) ∧
    (∀ q x, ((start s).after past).memory.get? q = some x →
      x = s.answer q ∧ x = (s.rules.rule q).eval s.answer ∧
      ∀ future, ((start s).after (past ++ future)).memory.get? q = some x) ∧
    ∀ before : FileId → List Request,
      (((start s).after past).serve .checkAll).1 =
        s.catalog.files.map fun file ↦
          (file, (((start s).after (before file)).serve (.check file)).1) := by
  have hplain (r : Request) : ((start s).serve r).1 = s.evaluate (r.inquiry s) :=
    serve_after_start h [] r
  refine ⟨fun r ↦ ⟨?_, fun depth hdepth ↦ ?_⟩, fun q x hx ↦ ?_, fun before ↦ ?_⟩
  · rw [serve_after_start h, hplain]
  · rw [hplain, Snapshot.answerWithin_eq h hdepth]
    rfl
  · have hsound := ((sound_start s).after h past).1
    have hvalue : x = s.answer q := hsound.faithful q x hx
    refine ⟨hvalue, hvalue.trans (Snapshot.answer_eq h q), fun future ↦ ?_⟩
    rw [after_append]
    exact (hsound.after h future).2 q x hx
  · rw [serve_after_start h]
    show (Query.forEach s.catalog.files fun file ↦ return (file, ← s.check file)).eval s.answer = _
    rw [Query.eval_forEach]
    refine List.map_congr_left fun file _ ↦ ?_
    rw [serve_after_start h, Query.eval_bind, Query.eval_pure]
    rfl

end Classes

/-- Two documents that import each other's entity, and use it as the type of a member of their own.
A third document has the name of the first, imports from a document of its own name, and assigns the
member of one entity. Place 3 is the entity in each of the two, and 4 its member; in the third
document 3 is the instance and 4 the assignment. -/
def Snapshot.ofMutualImports : Snapshot :=
  .ofDocuments
    [.drafting ⟨0⟩ "left" [.declare (.imports ⟨"right", [⟨"B", none⟩]⟩),
      .declare (.entity ⟨"A", some "a", [⟨"b", .relation false, .entity "B", ⟨none, none, false⟩,
        false, false, none⟩]⟩)],
    .drafting ⟨1⟩ "right" [.declare (.imports ⟨"left", [⟨"A", none⟩]⟩),
      .declare (.entity ⟨"B", some "b", [⟨"a", .relation false, .entity "A", ⟨none, none, false⟩,
        false, false, none⟩]⟩)],
    .drafting ⟨2⟩ "left" [.declare (.imports ⟨"left", [⟨"A", none⟩]⟩),
      .declare (.imports ⟨"right", [⟨"B", none⟩]⟩),
      .declare (.instantiation ⟨"i", "b", [⟨"a", .scalar (.integer 3)⟩]⟩)]]

theorem Snapshot.loaded_ofMutualImports : ofMutualImports.catalog.Loaded := by
  refine .ofDocuments fun d hd ↦ ?_
  simp only [List.mem_cons, List.not_mem_nil, or_false] at hd
  rcases hd with rfl | rfl | rfl <;> exact Document.drafted_drafting _ _ (by decide)

open Snapshot in
/-- There each member has the entity of the other document as its type, before and after all
documents have been checked. -/
theorem Session.memory_transparent_ofMutualImports :
    (((start ofMutualImports).after [.checkAll, .scope ⟨2⟩]).serve (.infer ⟨⟨0⟩, 4⟩)).1 =
        some (.entity ⟨⟨1⟩, 3⟩) ∧
      (((start ofMutualImports).after [.infer ⟨⟨0⟩, 4⟩]).serve (.infer ⟨⟨1⟩, 4⟩)).1 =
        some (.entity ⟨⟨0⟩, 3⟩) := by
  have hlate := memory_transparent ofMutualImports loaded_ofMutualImports [.checkAll, .scope ⟨2⟩]
  have hearly := memory_transparent ofMutualImports loaded_ofMutualImports [.infer ⟨⟨0⟩, 4⟩]
  obtain ⟨hleft, hdeep⟩ := hlate.1 (.infer ⟨⟨0⟩, 4⟩)
  obtain ⟨hright, hdeep'⟩ := hearly.1 (.infer ⟨⟨1⟩, 4⟩)
  rw [hleft, hdeep 7 (Nat.le_refl _), hright, hdeep' 7 (Nat.le_refl _)]
  decide

end Schemata
