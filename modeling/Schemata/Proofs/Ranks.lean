import Schemata.Answers
import Schemata.Proofs.Loaded
import Schemata.Proofs.Lookup

/-!
# Ranks of questions

Documents may import each other and entities may refer to each other, but questions never go in
circles: a question has a rank by the kind of its node, and its rule asks only questions of lower
rank (`Snapshot.ranked_rules`). The ranks end at six, so a recursion of depth seven cuts nothing,
and the answers obey the rules (`Snapshot.answer_eq`).

Two things carry the ranks. One is the tree of a drafted document, which says what stands above an
imported item or an assignment, and what the type of a member is. The other is a fact about answers.
The type of a literal is that of whatever its reference comes to, and what keeps this from leading
anywhere is that the reference comes to a literal of an enumeration
(`Snapshot.exists_literal_of_eval_resolve`), which has its type from the tree. So ranks speak of
what a rule asks when it is answered, and not of all that it would ask after other answers.
-/

namespace Schemata

variable {classes : Text.IdentifierClasses}

/-- The rank of the question what a reference comes to. -/
def Site.rank : Site → Nat
  | .importSource => 0
  | .importItem => 1
  | .entityType | .enumerationType | .instanceEntity | .containedValue => 3
  | .assignedMember => 4
  | .literalValue => 5

/-- The rank of the question which type a node has. -/
def Content.rank {ρ : Type} : Content ρ → Nat
  | .type _ | .instantiation .. => 4
  | .member _ | .assignment _ => 5
  | .value _ => 6
  | _ => 0

namespace Snapshot

open Inquiry

/-- The rank of a question. -/
def rank (s : Snapshot) : Question → Nat
  | .resolution site =>
    match (s.catalog.content? site).bind (·.reference?) with
    | some (kind, _) => kind.rank
    | none => 0
  | .classifiers _ => 2
  | .dataType n =>
    match s.catalog.content? n with
    | some content => content.rank
    | none => 0

/-- There are seven ranks, one for each level of the recursion. -/
theorem rank_le (s : Snapshot) (q : Question) : s.rank q ≤ 6 := by
  cases q with
  | resolution site =>
    simp only [rank]
    split
    · rename_i kind _ _; cases kind <;> simp [Site.rank]
    · omega
  | dataType n =>
    simp only [rank]
    split
    · rename_i content _; cases content <;> simp [Content.rank]
    · omega
  | classifiers file => simp [rank]

variable {s : Snapshot} {n : NodeId} {content : Content Reference}

theorem rank_resolution {site : Site} {r : Reference} (hn : s.catalog.content? n = some content)
    (hr : content.reference? = some (site, r)) : s.rank (.resolution n) = site.rank := by
  simp [rank, hn, hr]

theorem rank_dataType (hn : s.catalog.content? n = some content) :
    s.rank (.dataType n) = content.rank := by
  simp [rank, hn]

/-! ### What each inquiry asks -/

section Asked

variable (answer : (q : Question) → q.Answer)

@[simp]
theorem asked_target? (n : NodeId) : (target? n).asked answer = [.resolution n] :=
  Query.asked_map answer _ _

@[simp]
theorem asked_dataType (n : NodeId) : (dataType n).asked answer = [.dataType n] := rfl

@[simp]
theorem asked_classifiers (file : FileId) : (classifiers file).asked answer = [.classifiers file] :=
  rfl

/-- An inquiry that goes on only to a result asks what its first step asks. -/
theorem asked_bind_of_forall {α β : Type} (x : Inquiry α) {f : α → Inquiry β}
    (hf : ∀ a, (f a).asked answer = []) : (x >>= f).asked answer = x.asked answer := by
  rw [Query.asked_bind, hf, List.append_nil]

/-- The imported classifiers of a document ask what its items come to, and nothing else. -/
theorem asked_importedEntries (s : Snapshot) (d : Document) :
    (s.importedEntries d).asked answer = d.importItems.map fun x ↦ .resolution (d.id x.1) := by
  rw [importedEntries, Query.asked_choose, List.map_eq_flatMap]
  refine List.flatMap_congr fun x _ ↦ ?_
  rw [asked_bind_of_forall answer _ fun t ↦ by cases t <;> rfl, asked_target?]

/-- An imported item asks what its import comes to. -/
theorem asked_exportScope? (s : Snapshot) (n : NodeId) :
    (s.exportScope? n).asked answer = (s.catalog.parent? n).toList.map .resolution := by
  rw [exportScope?]
  cases s.catalog.parent? n with
  | none => rfl
  | some clause =>
    exact (asked_bind_of_forall answer _ fun t ↦ by cases t <;> rfl).trans (asked_target? answer _)

/-- An assignment asks what the entity of its instance is. -/
theorem asked_memberScope? (s : Snapshot) (n : NodeId) :
    (s.memberScope? n).asked answer = (s.catalog.parent? n).toList.map .resolution := by
  rw [memberScope?]
  cases s.catalog.parent? n with
  | none => rfl
  | some owner =>
    refine (asked_bind_of_forall answer _ fun t ↦ ?_).trans (asked_target? answer _)
    (repeat' split) <;> rfl

theorem asked_entityTypeAt (s : Snapshot) (n : NodeId) :
    (s.entityTypeAt n).asked answer = [.resolution n] := by
  refine (asked_bind_of_forall answer _ fun t ↦ ?_).trans (asked_target? answer n)
  (repeat' split) <;> rfl

theorem asked_enumerationTypeAt (s : Snapshot) (n : NodeId) :
    (s.enumerationTypeAt n).asked answer = [.resolution n] := by
  refine (asked_bind_of_forall answer _ fun t ↦ ?_).trans (asked_target? answer n)
  (repeat' split) <;> rfl

/-- A member asks what type its type node has. -/
theorem asked_declaredType (s : Snapshot) (n : NodeId) :
    (s.declaredType n).asked answer = (s.catalog.typeNode? n).toList.map .dataType := by
  rw [declaredType]
  cases s.catalog.typeNode? n <;> rfl

end Asked

/-! ### A rule asks only questions of lower rank -/

section Loaded

variable (h : s.catalog.Loaded) (answer : (q : Question) → q.Answer) {q : Question}
include h

/-- Above an imported item stands an import, which asks nothing. -/
theorem rank_lt_of_mem_asked_exportScope? {r : Reference} {rename : Option String}
    (hn : s.catalog.content? n = some (.importItem r rename))
    (hq : q ∈ (s.exportScope? n).asked answer) : s.rank q < 1 := by
  obtain ⟨clause, r', hparent, hc⟩ := h.exists_importClause hn
  rw [asked_exportScope?, hparent] at hq
  rw [List.mem_singleton.1 hq, rank_resolution hc rfl]
  decide

/-- Above an assignment stands an instance, whose entity is one of the classifiers. -/
theorem rank_lt_of_mem_asked_memberScope? {r : Reference}
    (hn : s.catalog.content? n = some (.assignment r))
    (hq : q ∈ (s.memberScope? n).asked answer) : s.rank q < 4 := by
  obtain ⟨owner, name, r', hparent, hc⟩ := h.exists_instantiation hn
  rw [asked_memberScope?, hparent] at hq
  rw [List.mem_singleton.1 hq, rank_resolution hc rfl]
  decide

omit h in
/-- The names that a literal can use are asked of an assignment and of a type, and never of another
literal. -/
theorem rank_lt_of_mem_asked_literalScope? (hq : q ∈ (s.literalScope? n).asked answer) :
    s.rank q < 5 := by
  rw [literalScope?, Query.asked_bind, List.mem_append] at hq
  rcases hq with hq | hq
  · -- the member of a value is known at once, or it is what an assignment comes to
    rw [memberOfValue?] at hq
    split at hq
    · split at hq
      · rename_i hc
        rw [asked_target?, List.mem_singleton] at hq
        rw [hq, rank_resolution hc rfl]
        decide
      · cases hq
    · cases hq
  · split at hq
    · split at hq
      · split at hq
        · rename_i htype
          have hc := Catalog.content?_of_memberType? htype
          rw [asked_bind_of_forall answer _ fun t ↦ by (repeat' split) <;> rfl, asked_target?,
            List.mem_singleton] at hq
          rw [hq, rank_resolution hc rfl]
          decide
        · cases hq
      · cases hq
    · cases hq

/-- The names that can be used at a reference are asked of references of lower rank. -/
theorem rank_lt_of_mem_asked_candidates {site : Site} {r : Reference}
    (hn : s.catalog.content? n = some content) (hr : content.reference? = some (site, r))
    (hq : q ∈ (s.candidates n).asked answer) : s.rank q < site.rank := by
  have hclassifiers : q = .classifiers n.file → s.rank q < 3 := by
    rintro rfl
    exact Nat.lt_succ_self 2
  simp only [candidates, hn, hr, Option.bind_some] at hq
  match content, hr with
  | .importClause _, rfl => cases hq
  | .importItem .., rfl => exact rank_lt_of_mem_asked_exportScope? h answer hn hq
  | .assignment _, rfl => exact rank_lt_of_mem_asked_memberScope? h answer hn hq
  | .value (.literal _), rfl => exact rank_lt_of_mem_asked_literalScope? answer hq
  | .type (.entity _), rfl => exact hclassifiers (by simpa using hq)
  | .type (.enumeration _), rfl => exact hclassifiers (by simpa using hq)
  | .instantiation .., rfl => exact hclassifiers (by simpa using hq)
  | .value (.contained _), rfl => exact hclassifiers (by simpa using hq)

theorem rank_lt_of_mem_asked_resolve (hq : q ∈ (s.resolve n).asked answer) :
    s.rank q < s.rank (.resolution n) := by
  rw [resolve] at hq
  split at hq
  · rename_i site r hreference
    obtain ⟨content, hn, hr⟩ := Option.bind_eq_some_iff.1 hreference
    rw [asked_bind_of_forall answer _ fun scope? ↦ by cases scope? <;> rfl] at hq
    rw [rank_resolution hn hr]
    exact rank_lt_of_mem_asked_candidates h answer hn hr hq
  · cases hq

omit h in
/-- The classifiers of a file are asked of its imported items alone. -/
theorem rank_lt_of_mem_asked_classifierScope {file : FileId}
    (hq : q ∈ (s.classifierScope file).asked answer) : s.rank q < 2 := by
  rw [classifierScope] at hq
  split at hq
  · rename_i d hd
    rw [asked_bind_of_forall answer _ fun _ ↦ rfl, asked_importedEntries, List.mem_map] at hq
    obtain ⟨⟨item, rename⟩, hitem, rfl⟩ := hq
    obtain ⟨r, hr⟩ := Document.content?_of_mem_importItems hitem
    rw [rank_resolution ((Catalog.content?_id hd item).trans hr) rfl]
    decide
  · cases hq

/-- What stands at the type of a member is a type. -/
theorem rank_lt_of_mem_asked_declaredType (hq : q ∈ (s.declaredType n).asked answer) :
    s.rank q < 5 := by
  rw [asked_declaredType] at hq
  obtain ⟨type, htype, rfl⟩ := List.mem_map.1 hq
  obtain ⟨w, hw⟩ := h.exists_type_of_typeNode? (Option.mem_toList.1 htype)
  rw [rank_dataType hw]
  exact Nat.lt_succ_self 4

/-- By whatever answers, the names that a literal can use are those of literals. -/
theorem exists_literal_of_mem_literalScope {scope : Scope} {e : ScopeEntry}
    (hscope : (s.literalScope? n).eval answer = some scope) (he : e ∈ scope.entries) :
    ∃ name, s.catalog.content? e.target = some (.literal name) := by
  simp only [literalScope?, Query.eval_bind] at hscope
  split at hscope
  · split at hscope
    · split at hscope
      · rw [Query.eval_bind] at hscope
        split at hscope
        · split at hscope
          · rename_i enumeration _ _ name hc
            obtain rfl := Option.some.inj hscope
            obtain ⟨x, hx, rfl⟩ := List.mem_map.1 he
            exact h.literal_of_mem_children hc (Catalog.mem_namedChildren_iff.1 hx).1
          · cases hscope
        · cases hscope
      · obtain rfl := Option.some.inj hscope
        cases he
    · cases hscope
  · cases hscope

/-- By whatever answers, a literal comes to nothing but a literal. -/
theorem exists_literal_of_eval_resolve {r : Reference} {t : NodeId}
    (hn : s.catalog.content? n = some (.value (.literal r)))
    (ht : ((s.resolve n).eval answer).target? = some t) :
    ∃ name, s.catalog.content? t = some (.literal name) := by
  simp only [resolve, candidates, hn, Content.reference?, Scalar.reference?, Option.bind_some,
    Query.eval_bind] at ht
  cases hscope : (s.literalScope? n).eval answer with
  | none =>
    rw [hscope] at ht
    cases ht
  | some scope =>
    rw [hscope] at ht
    obtain ⟨e, he, -, rfl⟩ := Scope.exists_mem_of_lookup (Resolution.target?_eq_some_iff.1 ht)
    exact exists_literal_of_mem_literalScope h answer hscope he

/-- Answers that are computed to any depth take a literal to nothing but a literal. -/
theorem exists_literal_of_answerWithin {depth : Nat} {r : Reference} {t : NodeId}
    (hn : s.catalog.content? n = some (.value (.literal r)))
    (ht : (s.rules.answerWithin depth (.resolution n)).target? = some t) :
    ∃ name, s.catalog.content? t = some (.literal name) := by
  cases depth with
  | zero => cases ht
  | succ depth => exact exists_literal_of_eval_resolve h (s.rules.answerWithin depth) hn ht

/-- The type of a node is asked of the type that it names or of what it refers to. It is here that
the answers matter, because a literal asks the type of whatever it comes to. -/
theorem rank_lt_of_mem_asked_infer {depth : Nat}
    (hq : q ∈ (s.infer n).asked (s.rules.answerWithin depth)) :
    s.rank q < s.rank (.dataType n) := by
  rw [infer] at hq
  cases hn : s.catalog.content? n with
  | none =>
    rw [hn] at hq
    cases hq
  | some content =>
    rw [hn] at hq
    rw [rank_dataType hn]
    have htarget {site : Site} {r : Reference} (hr : content.reference? = some (site, r))
        (hrank : site.rank < content.rank) (hq : q = .resolution n) : s.rank q < content.rank := by
      rw [hq, rank_resolution hn hr]
      exact hrank
    match content with
    | .type .boolean | .type .integer | .type .float | .type .string => cases hq
    | .value (.boolean _) | .value (.integer _) | .value (.float _) | .value (.string _) => cases hq
    | .entity .. | .enumeration _ | .literal _ => cases hq
    | .root _ | .importClause _ | .importItem .. | .array => cases hq
    | .type (.enumeration _) =>
      rw [asked_enumerationTypeAt, List.mem_singleton] at hq
      exact htarget rfl (by simp [Site.rank, Content.rank]) hq
    | .type (.entity _) | .instantiation .. | .value (.contained _) =>
      rw [asked_entityTypeAt, List.mem_singleton] at hq
      exact htarget rfl (by simp [Site.rank, Content.rank]) hq
    | .value (.literal _) =>
      rw [literalTypeAt, Query.asked_bind, asked_target?, List.mem_append, List.mem_singleton] at hq
      rcases hq with hq | hq
      · exact htarget rfl (by simp [Site.rank, Content.rank]) hq
      · split at hq
        · rename_i t ht
          obtain ⟨name, hc⟩ := exists_literal_of_answerWithin h hn ht
          rw [asked_dataType, List.mem_singleton] at hq
          rw [hq, rank_dataType hc]
          simp [Content.rank]
        · cases hq
    | .member _ => exact rank_lt_of_mem_asked_declaredType h _ hq
    | .assignment _ =>
      dsimp only at hq
      rw [Query.asked_bind, asked_target?, List.mem_append, List.mem_singleton] at hq
      rcases hq with hq | hq
      · exact htarget rfl (by simp [Site.rank, Content.rank]) hq
      · split at hq
        · exact rank_lt_of_mem_asked_declaredType h _ hq
        · cases hq

/-- **Questions never go in circles.** -/
theorem ranked_rules : s.rules.Ranked s.rank := by
  intro depth q q' hq'
  cases q with
  | resolution n => exact rank_lt_of_mem_asked_resolve h _ hq'
  | dataType n => exact rank_lt_of_mem_asked_infer h hq'
  | classifiers file => exact rank_lt_of_mem_asked_classifierScope _ hq'

/-- The plain answers obey the rules, and a rule that gets them asks only questions of lower
rank. -/
theorem settled_rules : s.rules.Settled s.rank s.answer :=
  (ranked_rules h).settled fun q ↦ Nat.lt_succ_of_le (s.rank_le q)

theorem answer_eq (q : Question) : s.answer q = (s.rules.rule q).eval s.answer :=
  (settled_rules h).obeys q

/-- Recursion to the depth of the plain answers, or deeper, gives the plain answers. -/
theorem answerWithin_eq {depth : Nat} (hdepth : Snapshot.depth ≤ depth) :
    s.rules.answerWithin depth = s.answer := by
  funext q
  have hq : s.rank q < Snapshot.depth := Nat.lt_succ_of_le (s.rank_le q)
  exact (ranked_rules h).answerWithin_eq (hq.trans_le hdepth) hq

end Loaded

end Snapshot

end Schemata
