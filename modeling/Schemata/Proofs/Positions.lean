import Schemata.Proofs.Acceptance
import Schemata.Proofs.LoadOrder
import Schemata.Proofs.Placement
import Schemata.Proofs.Unplaced

/-!
# Ranges decide nothing

Two documents that are drafted by the same declarations differ in their ranges at most, however
nodes were moved in between (`Document.SameDeclarations.unplaced_eq`). Two histories that load such
documents in the same order therefore end in workspaces that are the same without ranges, and that
is all on which answers and findings depend. Only the ranges of findings differ, and they are those
of the nodes to which the findings point (`Workspace.replay_unplaced`).
-/

namespace Schemata

section Classes

variable {classes : Text.IdentifierClasses}

open Outline

/-! ### Documents of the same declarations -/

/-- Whether two documents of one file and name are drafted by the same declarations. Between these,
each may move its nodes to other ranges. -/
def Document.SameDeclarations [Text.IdentifierClasses] (d d' : Document) : Prop :=
  ∃ file name edits edits' outcomes outcomes',
    Document.ofEdits? file name edits = .ok (d, outcomes) ∧
      Document.ofEdits? file name edits' = .ok (d', outcomes') ∧
      Edit.declarations edits' = Edit.declarations edits

/-- The node of a seed, without a range. -/
def Seed.unplaced (seed : Seed) : Node :=
  ⟨seed.content.map fun text ↦ ⟨text, .empty⟩, some seed.parent, seed.children, .empty⟩

/-- Without its range a node is all that its seed says. -/
theorem Node.stripped_eq_of_seed? {node : Node} {seed : Seed} (h : node.seed? = some seed) :
    node.stripped Reference.unplaced = seed.unplaced := by
  obtain ⟨parent, hparent, rfl⟩ := Option.map_eq_some_iff.1 h
  rw [Node.stripped, Seed.unplaced, Content.map_map, hparent]
  rfl

namespace Document

/-- Without ranges a document is all that is laid out. -/
theorem Lays.body_unplaced {d : Document} {xs : List Declaration} (h : d.Lays xs) :
    d.unplaced.body = (seedsOf 0 1 (xs.map Declaration.outline)).map Seed.unplaced := by
  refine List.ext_getElem? fun i ↦ ?_
  show (d.body.map (Node.stripped Reference.unplaced))[i]? = _
  rw [List.getElem?_map, List.getElem?_map]
  obtain ⟨hnode, hseed⟩ | ⟨node, seed, hnode, hseed, hi⟩ := h.getElem?_body i
  · rw [hnode, hseed]
    rfl
  · rw [hnode, hseed, Option.map_some, Option.map_some, Node.stripped_eq_of_seed? hi]

/-- Documents of the same declarations are the same without ranges. -/
theorem SameDeclarations.unplaced_eq {d d' : Document} (h : d.SameDeclarations d') :
    d'.unplaced = d.unplaced := by
  obtain ⟨file, name, edits, edits', outcomes, outcomes', hd, hd', hdeclarations⟩ := h
  obtain ⟨rfl, -⟩ := eq_drafting_of_ofEdits? hd
  obtain ⟨rfl, -⟩ := eq_drafting_of_ofEdits? hd'
  have hlays := lays_drafting_declarations file name edits
  have hlays' := lays_drafting_declarations file name edits'
  rw [hdeclarations] at hlays'
  have hbody := hlays'.body_unplaced.trans hlays.body_unplaced.symm
  rw [unplaced, unplaced, stripped, stripped, file_drafting, file_drafting, name_drafting,
    name_drafting, hlays.imports, hlays'.imports, hlays.classifiers, hlays'.classifiers]
  exact congrArg _ hbody

theorem SameDeclarations.drafted {d d' : Document} (h : d.SameDeclarations d') :
    d.Drafted ∧ d'.Drafted := by
  obtain ⟨file, name, edits, edits', outcomes, outcomes', hd, hd', -⟩ := h
  exact ⟨⟨file, name, edits, outcomes, hd⟩, ⟨file, name, edits', outcomes', hd'⟩⟩

end Document

/-! ### Histories of the same declarations -/

/-- Whether two changes load documents of the same declarations, or unload the same file. -/
inductive Change.SameDeclarations [Text.IdentifierClasses] : Change → Change → Prop
  | load {d d' : Document} (h : d.SameDeclarations d') : SameDeclarations (.load d) (.load d')
  | unload (file : FileId) : SameDeclarations (.unload file) (.unload file)

namespace Catalog

variable {f : Reference → Reference} {c c' : Catalog}

theorem stripped_insert (f : Reference → Reference) (c : Catalog) (d : Document) :
    (c.insert d).stripped f = ⟨⟨0⟩, ((c.stripped f).insert (d.stripped f)).documents⟩ := by
  have hany : (c.stripped f).documents.any (·.file == (d.stripped f).file) =
      c.documents.any (·.file == d.file) :=
    List.any_map
  rw [stripped, insert, insert, hany]
  dsimp only
  rw [apply_ite (List.map _), List.map_append]
  congr 2
  show (replace d c.documents).map _ = (c.documents.map _).map _
  rw [replace, List.map_map, List.map_map]
  exact List.map_congr_left fun e _ ↦ apply_ite (Document.stripped f) _ _ _

section SameOnceStripped

variable (h : c'.stripped f = c.stripped f)
include h

/-- What is loaded is stripped with the rest. -/
theorem stripped_insert_congr {d d' : Document} (hd : d'.stripped f = d.stripped f) :
    (c'.insert d').stripped f = (c.insert d).stripped f := by
  rw [stripped_insert, stripped_insert, h, hd]

theorem stripped_erase_congr (file : FileId) :
    (c'.erase file).stripped f = (c.erase file).stripped f := by
  have herase (c : Catalog) : ((c.erase file).stripped f).documents =
      (c.stripped f).documents.filter (·.file != file) := by
    show _ = (c.documents.map (Document.stripped f)).filter (·.file != file)
    rw [List.filter_map]
    rfl
  have hdocuments : ((c'.erase file).stripped f).documents =
      ((c.erase file).stripped f).documents := by
    rw [herase, herase, h]
  exact congrArg (Catalog.mk ⟨0⟩) hdocuments

theorem contains_eq_of_stripped (file : FileId) : c'.contains file = c.contains file := by
  have hcontains (c : Catalog) : (c.stripped f).contains file = c.contains file := by
    rw [contains, contains, document?_stripped]
    cases c.document? file <;> rfl
  rw [← hcontains c', h, hcontains]

end SameOnceStripped

end Catalog

namespace Workspace

theorem catalog_apply_unload (w : Workspace) (file : FileId) :
    (w.apply (.unload file)).catalog =
      if w.catalog.contains file then w.catalog.erase file else w.catalog :=
  rfl

theorem loaded_apply_unload {w : Workspace} (h : w.catalog.Loaded) (file : FileId) :
    (w.apply (.unload file)).catalog.Loaded := by
  rw [catalog_apply_unload]
  split
  · exact h.erase file
  · exact h

/-- Whether two workspaces hold drafted documents that are the same without ranges, under the same
settings. -/
structure SameButRanges [Text.IdentifierClasses] (w w' : Workspace) : Prop where
  loaded : w.catalog.Loaded
  loaded' : w'.catalog.Loaded
  settings_eq : w'.settings = w.settings
  unplaced_eq : w'.catalog.unplaced = w.catalog.unplaced

namespace SameButRanges

variable {w w' : Workspace}

/-- A change of the same declarations keeps workspaces the same but for ranges. -/
theorem apply (h : SameButRanges w w') {change change' : Change}
    (hchange : change.SameDeclarations change') :
    SameButRanges (w.apply change) (w'.apply change') := by
  cases hchange with
  | load hd =>
    exact ⟨h.loaded.insert hd.drafted.1, h.loaded'.insert hd.drafted.2, h.settings_eq,
      Catalog.stripped_insert_congr h.unplaced_eq hd.unplaced_eq⟩
  | unload file =>
    have hcontains : w'.catalog.contains file = w.catalog.contains file :=
      Catalog.contains_eq_of_stripped h.unplaced_eq file
    refine ⟨loaded_apply_unload h.loaded file, loaded_apply_unload h.loaded' file,
      h.settings_eq, ?_⟩
    rw [catalog_apply_unload, catalog_apply_unload, hcontains]
    split
    · exact Catalog.stripped_erase_congr h.unplaced_eq file
    · exact h.unplaced_eq

/-- So do histories. -/
theorem replay (h : SameButRanges w w') {history history' : List Change}
    (hhistory : List.Forall₂ Change.SameDeclarations history history') :
    SameButRanges (w.replay history) (w'.replay history') := by
  induction hhistory generalizing w w' with
  | nil => exact h
  | cons hchange _ ih => exact ih (h.apply hchange)

end SameButRanges

/-- **Ranges decide nothing.** Let two histories load documents of the same declarations, and unload
the same files, under the same settings. Then references come to the same nodes, have the same
candidates, and nodes have the same types. Every file has the same findings in the same order, save
for their ranges and those of what is related to them; and on both sides these are the ranges that
the nodes have which they point to. -/
theorem replay_unplaced (settings : Settings) {history history' : List Change}
    (h : List.Forall₂ Change.SameDeclarations history history') :
    let s := ((empty settings).replay history).snapshot
    let s' := ((empty settings).replay history').snapshot
    (∀ n, s'.resolutionAt n = s.resolutionAt n ∧ s'.candidatesAt n = s.candidatesAt n ∧
        s'.typeAt? n = s.typeAt? n) ∧
      ∀ file, (s'.evaluate (s'.check file)).map Diagnostic.unplaced =
          (s.evaluate (s.check file)).map Diagnostic.unplaced ∧
        (∀ x ∈ s.evaluate (s.check file), x.StandsIn s.catalog file) ∧
        ∀ x ∈ s'.evaluate (s'.check file), x.StandsIn s'.catalog file := by
  intro s s'
  have hempty : SameButRanges (empty settings) (empty settings) := ⟨.empty, .empty, rfl, rfl⟩
  have hsame := hempty.replay h
  have hunplaced : s'.unplaced = s.unplaced :=
    congrArg₂ Snapshot.mk hsame.unplaced_eq hsame.settings_eq
  refine ⟨fun n ↦ ⟨?_, ?_, ?_⟩, fun file ↦ ⟨?_, ?_, ?_⟩⟩
  · rw [← s'.resolutionAt_unplaced, hunplaced, s.resolutionAt_unplaced]
  · rw [← s'.candidatesAt_unplaced, hunplaced, s.candidatesAt_unplaced]
  · rw [← s'.typeAt?_unplaced, hunplaced, s.typeAt?_unplaced]
  · rw [← s'.check_unplaced, hunplaced, s.check_unplaced]
  · exact fun x hx ↦ Snapshot.standsIn_of_mem_check hsame.loaded hx
  · exact fun x hx ↦ Snapshot.standsIn_of_mem_check hsame.loaded' hx

end Workspace

end Classes

namespace Workspace

/-- An entity with a member whose type is not declared. -/
def undeclaredTyre : Declaration :=
  .entity ⟨"Wheel", none, [⟨"tyre", .relation false, .entity "Tyre", ⟨none, none, false⟩, false,
    false, none⟩]⟩

/-- The entity alone, and with its type moved elsewhere. -/
def stayingTyre : List Edit := [.declare undeclaredTyre]

def movedTyre : List Edit := [.declare undeclaredTyre, .setRange 3 ⟨100, 104⟩]

/-- The type is found in both documents, where it is. -/
theorem replay_unplaced_ofMovedTyre :
    let s := ((empty .default).replay [.load (.drafting ⟨0⟩ "cars" stayingTyre)]).snapshot
    let s' := ((empty .default).replay [.load (.drafting ⟨0⟩ "cars" movedTyre)]).snapshot
    (s'.evaluate (s'.check ⟨0⟩)).map Diagnostic.unplaced =
        (s.evaluate (s.check ⟨0⟩)).map Diagnostic.unplaced ∧
      (s.evaluate (s.check ⟨0⟩)).map (·.range) = [⟨16, 20⟩] ∧
      (s'.evaluate (s'.check ⟨0⟩)).map (·.range) = [⟨100, 104⟩] := by
  intro s s'
  have hsame : (Document.drafting ⟨0⟩ "cars" stayingTyre).SameDeclarations
      (.drafting ⟨0⟩ "cars" movedTyre) :=
    ⟨⟨0⟩, "cars", stayingTyre, movedTyre, _, _, Document.ofEdits?_eq_ok _ _ (by decide),
      Document.ofEdits?_eq_ok _ _ (by decide), rfl⟩
  obtain ⟨-, hcheck⟩ := replay_unplaced .default (.cons (.load hsame) .nil)
  exact ⟨(hcheck ⟨0⟩).1, by decide, by decide⟩

end Workspace

end Schemata
