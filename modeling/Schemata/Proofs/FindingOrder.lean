import Schemata.Proofs.Erasure
import Schemata.Proofs.Placement

/-!
# The order of findings

The findings of a document come in two parts (`Snapshot.check_eq_append`). The first is about
references: one finding for each that comes to no node or to several, in the order of the tree, and
none for the others. The second is about contents, and none of its findings has a code of the first.

Both parts keep to the file that is checked, which rests on where findings stand
(`Snapshot.standsIn_of_mem_check`).
-/

namespace Schemata

namespace Snapshot

section Classes

variable {classes : Text.IdentifierClasses}

/-- Whether a finding says of the reference at a node that it comes to no node, or to several. Then
it is related to these, which are the distinct candidates of the name in the order of the scope. -/
inductive SaysFault (s : Snapshot) (n : NodeId) (x : Diagnostic) : Prop
  | notFound (hnode : x.node = n) (hresolution : s.resolutionAt n = .notFound)
      (hcode : x.code = some "linking-error") (hseverity : x.severity = .error)
  | ambiguous {scope : Scope} {text : String} (hnode : x.node = n)
      (hscope : s.candidatesAt n = some scope) (htext : s.catalog.text? n = some text)
      (hresolution : s.resolutionAt n = .ambiguous (scope.meanings text))
      (hcode : x.code = some "ambiguous-reference")
      (hseverity : x.severity = s.settings.ambiguousReferenceSeverity)
      (hrelated : x.related = (scope.meanings text).map s.catalog.asCandidate)

section Faults

variable {s : Snapshot} (hloaded : s.catalog.Loaded) {n : NodeId}
include hloaded

/-- A faulty reference is one finding, which says what is wrong. -/
theorem exists_saysFault (h : (s.resolutionAt n).isFault = true) :
    ∃ x, s.evaluate (s.referenceFindings n) = [x] ∧ s.SaysFault n x := by
  cases hr : (s.catalog.content? n).bind (·.reference?) with
  | none =>
    rw [resolutionAt_of_no_reference hr] at h
    cases h
  | some sr =>
    have htext : s.catalog.text? n = some sr.2.text := by rw [Catalog.text?, hr]; rfl
    obtain ⟨content, hn, hr⟩ := Option.bind_eq_some_iff.1 hr
    have hlookup := resolutionAt_of_reference hloaded hn hr
    simp only [referenceFindings, hn, hr, evaluate, Query.eval_bind, eval_resolution]
    rcases Resolution.isFault_iff.1 h with hres | ⟨ts, hres⟩
    · rw [hres]
      exact ⟨_, rfl, .notFound rfl hres rfl rfl⟩
    · rw [hres] at hlookup ⊢
      cases hs : s.candidatesAt n with
      | none =>
        rw [hs] at hlookup
        cases hlookup
      | some scope =>
        rw [hs] at hlookup
        obtain ⟨rfl, -⟩ := Scope.lookup_eq_ambiguous_iff.1 hlookup.symm
        exact ⟨_, rfl, .ambiguous rfl hs htext hres rfl rfl rfl⟩

/-- Of some nodes those with faulty references are found, in their order. -/
theorem forall₂_saysFault (ns : List NodeId) :
    List.Forall₂ s.SaysFault (ns.filter fun n ↦ (s.resolutionAt n).isFault)
      (ns.flatMap fun n ↦ s.evaluate (s.referenceFindings n)) := by
  induction ns with
  | nil => exact .nil
  | cons n ns ih =>
    rw [List.flatMap_cons, List.filter_cons]
    cases hfault : (s.resolutionAt n).isFault with
    | true =>
      obtain ⟨x, hx, hsays⟩ := exists_saysFault hloaded hfault
      rw [if_pos rfl, hx]
      exact .cons hsays ih
    | false =>
      rw [if_neg Bool.false_ne_true, referenceFindings_eq_nil hfault]
      exact ih

end Faults

/-- **A check lists the faulty references first, and then what is wrong with contents.** The order
of the tree has each node of the file once. Of these nodes each reference that comes to no node or
to several is one finding of the first part, in this order, and no other reference is. No finding of
the second part has the code of one of the first. All findings are about the file that is checked,
at nodes of its document, and have the ranges of these nodes. -/
theorem check_eq_append (s : Snapshot) (h : s.catalog.Loaded) {file : FileId} {d : Document}
    (hd : s.catalog.document? file = some d) :
    (d.preorder.map d.id).Nodup ∧
      (∀ n content, n.file = file → s.catalog.content? n = some content →
        n ∈ d.preorder.map d.id) ∧
      ∃ linking contents, s.evaluate (s.check file) = linking ++ contents ∧
        List.Forall₂ s.SaysFault
          ((d.preorder.map d.id).filter fun n ↦ (s.resolutionAt n).isFault) linking ∧
        (∀ x ∈ contents, x.code ≠ some "linking-error" ∧ x.code ≠ some "ambiguous-reference") ∧
        ∀ x ∈ s.evaluate (s.check file), x.file = file ∧
          ∃ node, d.node? x.node.index = some node ∧ x.range = node.range := by
  refine ⟨(h.drafted_of_document? hd).nodes_nodup,
    fun n content hn hc ↦ (h.mem_nodes_iff hd).2 ⟨hn, content, hc⟩,
    _, _, evaluate_check hd, forall₂_saysFault h d.nodes, fun x hx ↦ ?_, fun x hx ↦ ?_⟩
  · obtain ⟨n, -, hx⟩ := List.mem_flatMap.1 hx
    have hlinking := isLinking_of_mem_contentFindings hx
    simpa [Diagnostic.isLinking] using hlinking
  · have hstands := standsIn_of_mem_check h hx
    obtain ⟨node, hnode, hrange⟩ := hstands.node
    have hfile : x.node.file = file := hstands.file_eq
    rw [Catalog.node?, hfile, hd, Option.bind_some] at hnode
    exact ⟨hfile, node, hnode, hrange⟩

end Classes

/-- A document that declares a name twice, and after that a member whose type is not declared. -/
def repeatingSize : Document :=
  .drafting ⟨0⟩ "shapes" [.declare (.enumeration ⟨"Size", []⟩),
    .declare (.entity ⟨"Size", none, [⟨"color", .attribute, .enumeration "Color",
      ⟨none, none, false⟩, false, false, none⟩]⟩)]

def ofRepeatingSize : Snapshot := .ofDocuments [repeatingSize]

theorem loaded_ofRepeatingSize : ofRepeatingSize.catalog.Loaded := .ofDrafting _ _ (by decide)

/-- The repeated name comes first in the document, but the reference is found first. -/
theorem check_eq_append_ofRepeatingSize :
    ofRepeatingSize.catalog.document? ⟨0⟩ = some repeatingSize ∧
      ∃ linking contents,
        ofRepeatingSize.evaluate (ofRepeatingSize.check ⟨0⟩) = linking ++ contents ∧
        List.Forall₂ ofRepeatingSize.SaysFault [⟨⟨0⟩, 4⟩] linking ∧
        contents.map (·.node) = [⟨⟨0⟩, 2⟩] := by
  have hd : ofRepeatingSize.catalog.document? ⟨0⟩ = some repeatingSize := rfl
  obtain ⟨-, -, linking, contents, hcheck, hlinking, -, -⟩ :=
    check_eq_append ofRepeatingSize loaded_ofRepeatingSize hd
  have hfaults : ((repeatingSize.preorder.map repeatingSize.id).filter fun n ↦
      (ofRepeatingSize.resolutionAt n).isFault) = [⟨⟨0⟩, 4⟩] := by decide
  rw [hfaults] at hlinking
  have hnodes : (ofRepeatingSize.evaluate (ofRepeatingSize.check ⟨0⟩)).map (·.node) =
      [⟨⟨0⟩, 4⟩, ⟨⟨0⟩, 2⟩] := by decide
  refine ⟨hd, linking, contents, hcheck, hlinking, ?_⟩
  rw [hcheck, List.map_append] at hnodes
  cases hlinking with
  | cons hsays hnil =>
    cases hnil
    exact (List.cons.inj hnodes).2

end Snapshot

end Schemata
