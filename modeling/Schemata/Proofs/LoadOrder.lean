import Schemata.Proofs.CheckAgreement
import Schemata.Workspace

/-!
# The order of loading

Documents are loaded, loaded again and unloaded in any order, and a workspace keeps them in the
order in which their files were first loaded. That order can be seen in two places: an import comes
to the first document of a name, and a reference that comes to nothing points to declarations
elsewhere in the order of the documents.

If the names of the documents differ, the first place is closed, because an import then has no
choice. What remains is the order of candidates of an import and of what is related to a finding
(`Workspace.replay_eq_of_document?_eq`). The proof rests on two facts about catalogs: histories
leave no two documents of one file, and so two of them that end with the same document in each file
end with the same documents in another order.
-/

namespace Schemata

/-! ### Catalogs with the same documents -/

namespace Catalog

variable {c c' : Catalog}

theorem mem_documents_iff (hfiles : c.files.Nodup) {d : Document} :
    d ∈ c.documents ↔ c.document? d.file = some d :=
  ⟨document?_eq_some_of_mem hfiles, List.mem_of_find?_eq_some⟩

section SameDocuments

variable (hfiles : c.files.Nodup) (hfiles' : c'.files.Nodup)
  (hdocuments : ∀ file, c'.document? file = c.document? file)
include hfiles hfiles' hdocuments

/-- Catalogs with the same document in each file hold the same documents. -/
theorem documents_perm : c'.documents.Perm c.documents := by
  have hnodup : c.documents.Nodup := hfiles.of_map
  have hnodup' : c'.documents.Nodup := hfiles'.of_map
  refine (List.perm_ext_iff_of_nodup hnodup' hnodup).2 fun d ↦ ?_
  rw [mem_documents_iff hfiles, mem_documents_iff hfiles', hdocuments]

theorem declaredElsewhere_perm (file : FileId) (site : Site) (name : String) :
    (c'.declaredElsewhere file site name).Perm (c.declaredElsewhere file site name) := by
  have hoffers : c'.offers site name = c.offers site name :=
    funext fun d ↦ offers_congr (hdocuments d.file)
  rw [declaredElsewhere_eq, declaredElsewhere_eq, hoffers]
  exact ((documents_perm hfiles hfiles' hdocuments).filter _).flatMap_right _

end SameDocuments

/-! ### Documents of different names -/

section DifferentNames

variable (hperm : c'.documents.Perm c.documents) (hnames : (c.documents.map (·.name)).Nodup)
include hperm hnames

/-- Where the names differ, the first document of a name is the only one, in any order. -/
theorem find?_name_eq_of_perm (name : String) :
    c'.documents.find? (·.name == name) = c.documents.find? (·.name == name) := by
  have hnames' : (c'.documents.map (·.name)).Nodup := (hperm.map _).nodup_iff.2 hnames
  refine Option.ext fun d ↦ ?_
  rw [find?_eq_some_iff_of_nodup hnames fun _ ↦ beq_iff_eq,
    find?_eq_some_iff_of_nodup hnames' fun _ ↦ beq_iff_eq, hperm.mem_iff]

theorem documentNamed?_eq_of_perm (hfiles : c.files.Nodup) (name : String) :
    c'.documentNamed? name = c.documentNamed? name := by
  have hfiles' : c'.files.Nodup := (hperm.map _).nodup_iff.2 hfiles
  rw [documentNamed?_eq_find? hfiles, documentNamed?_eq_find? hfiles',
    find?_name_eq_of_perm hperm hnames]

/-- Imports have the same candidates in another order. -/
theorem documentScope_perm (own : String) :
    (c'.documentScope own).entries.Perm (c.documentScope own).entries := by
  have hnodup : (c.documentScope own).entries.Nodup := (c.nodup_names_documentScope own).of_map
  have hnodup' : (c'.documentScope own).entries.Nodup := (c'.nodup_names_documentScope own).of_map
  refine (List.perm_ext_iff_of_nodup hnodup' hnodup).2 fun e ↦ ?_
  rw [mem_entries_documentScope_iff, mem_entries_documentScope_iff,
    find?_name_eq_of_perm hperm hnames]

end DifferentNames

end Catalog

/-! ### Histories -/

/-- A change of the loaded documents. -/
inductive Change where
  | load (d : Document)
  | unload (file : FileId)

namespace Workspace

/-- The workspace after a change. -/
def apply (w : Workspace) : Change → Workspace
  | .load d => w.setDocument d
  | .unload file => w.removeDocument file

/-- The workspace after a history of changes. -/
def replay (w : Workspace) : List Change → Workspace
  | [] => w
  | change :: history => (w.apply change).replay history

variable {w : Workspace}

/-- A change leaves no two documents of one file. -/
theorem nodup_files_apply (h : w.catalog.files.Nodup) (change : Change) :
    (w.apply change).catalog.files.Nodup := by
  cases change with
  | load d => exact Catalog.nodup_files_insert h d
  | unload file =>
    show (if w.catalog.contains file then w.catalog.erase file else w.catalog).files.Nodup
    split
    · exact Catalog.nodup_files_erase h file
    · exact h

/-- And so does a history. -/
theorem nodup_files_replay (h : w.catalog.files.Nodup) (history : List Change) :
    (w.replay history).catalog.files.Nodup := by
  induction history generalizing w with
  | nil => exact h
  | cons change history ih => exact ih (nodup_files_apply h change)

theorem settings_apply (w : Workspace) (change : Change) :
    (w.apply change).settings = w.settings := by
  cases change <;> rfl

theorem settings_replay (w : Workspace) (history : List Change) :
    (w.replay history).settings = w.settings := by
  induction history generalizing w with
  | nil => rfl
  | cons change history ih => exact (ih (w.apply change)).trans (settings_apply w change)

end Workspace

/-! ### Answers do not depend on the order -/

/-- Whether two findings are the same, save for the order of what is related to a reference that
comes to nothing. -/
structure Diagnostic.SameUpToOrder (x y : Diagnostic) : Prop where
  same : { y with related := x.related } = x
  related : y.related = x.related ∨
    (x.code = some "linking-error" ∧ y.related.Perm x.related)

namespace Snapshot

variable {s s' : Snapshot} (hfiles : s.catalog.files.Nodup) (hfiles' : s'.catalog.files.Nodup)
  (hdocuments : ∀ file, s'.catalog.document? file = s.catalog.document? file)
  (hnames : (s.catalog.documents.map (·.name)).Nodup)
include hfiles hfiles' hdocuments hnames

/-- Snapshots with the same documents agree on all files, if the names of the documents differ. -/
theorem agreeOn_of_document?_eq : AgreeOn (fun _ ↦ True) s s' where
  document? file _ := hdocuments file
  clause n r _ hn := by
    have hn' : s'.catalog.content? n = some (.importClause r) :=
      (Catalog.content?_congr (hdocuments n.file)).trans hn
    obtain ⟨d, hd⟩ := Catalog.exists_document_of_content? hn
    have hperm := Catalog.documents_perm hfiles hfiles' hdocuments
    rw [resolutionAt_importClause hfiles hd hn,
      resolutionAt_importClause hfiles' ((hdocuments _).trans hd) hn',
      Catalog.documentNamed?_eq_of_perm hperm hnames hfiles]
  closed _ _ _ _ _ _ := trivial

/-- An import has the same candidates in another order, and every other site has the same in the
same order. -/
theorem candidatesAt_perm (n : NodeId) :
    Option.Rel (fun scope scope' ↦ scope'.entries.Perm scope.entries) (s.candidatesAt n)
      (s'.candidatesAt n) := by
  by_cases hclause : ∃ r, s.catalog.content? n = some (.importClause r)
  · obtain ⟨r, hn⟩ := hclause
    have hn' : s'.catalog.content? n = some (.importClause r) :=
      (Catalog.content?_congr (hdocuments n.file)).trans hn
    have hperm := Catalog.documents_perm hfiles hfiles' hdocuments
    rw [candidatesAt_importClause hn, candidatesAt_importClause hn', hdocuments]
    cases s.catalog.document? n.file with
    | none => exact .none
    | some d => exact .some (Catalog.documentScope_perm hperm hnames d.name)
  · have hagree := agreeOn_of_document?_eq hfiles hfiles' hdocuments hnames
    rw [hagree.candidatesAt_eq trivial fun r hn ↦ hclause ⟨r, hn⟩]
    cases s.candidatesAt n with
    | none => exact .none
    | some scope => exact .some (.refl _)

theorem forall₂_check_of_document?_eq (hsettings : s'.settings = s.settings) (file : FileId) :
    List.Forall₂ Diagnostic.SameUpToOrder (s.evaluate (s.check file))
      (s'.evaluate (s'.check file)) := by
  have hagree := agreeOn_of_document?_eq hfiles hfiles' hdocuments hnames
  refine hagree.forall₂_check hsettings (fun x _ ↦ ⟨rfl, .inl rfl⟩) ?_ trivial
  intro failure n range site text _
  refine ⟨rfl, .inr ⟨rfl, ?_⟩⟩
  show (s'.related n.file site text).Perm (s.related n.file site text)
  rw [related, related, hsettings]
  split
  · exact Catalog.declaredElsewhere_perm hfiles hfiles' hdocuments n.file site text
  · exact .nil

end Snapshot

/-- **The order of loading does not matter where names differ.** Take two histories of loading,
loading again and unloading, under the same settings, that end with the same document in each file.
If the final names differ, every reference comes to the same and every node has the same type. The
candidates are the same, those of an import up to their order. And each check finds the same in the
same order, except that what is related to a reference that comes to nothing may be told in another
order. -/
theorem Workspace.replay_eq_of_document?_eq (settings : Settings) (history history' : List Change)
    (hdocuments : ∀ file, ((empty settings).replay history').catalog.document? file =
      ((empty settings).replay history).catalog.document? file)
    (hnames : (((empty settings).replay history).catalog.documents.map (·.name)).Nodup) :
    let s := ((empty settings).replay history).snapshot
    let s' := ((empty settings).replay history').snapshot
    (∀ n, s'.resolutionAt n = s.resolutionAt n ∧ s'.typeAt? n = s.typeAt? n) ∧
    (∀ n, (∀ r, s.catalog.content? n ≠ some (.importClause r)) →
      s'.candidatesAt n = s.candidatesAt n) ∧
    (∀ n, Option.Rel (fun scope scope' ↦ scope'.entries.Perm scope.entries) (s.candidatesAt n)
      (s'.candidatesAt n)) ∧
    ∀ file, List.Forall₂ Diagnostic.SameUpToOrder (s.evaluate (s.check file))
      (s'.evaluate (s'.check file)) := by
  intro s s'
  have hempty : (empty settings).catalog.files.Nodup := List.nodup_nil
  have hfiles : s.catalog.files.Nodup := nodup_files_replay hempty history
  have hfiles' : s'.catalog.files.Nodup := nodup_files_replay hempty history'
  have hsettings : s'.settings = s.settings :=
    (settings_replay _ history').trans (settings_replay _ history).symm
  have hagree := Snapshot.agreeOn_of_document?_eq hfiles hfiles' hdocuments hnames
  exact ⟨fun n ↦ ⟨hagree.resolutionAt_eq trivial, hagree.typeAt?_eq trivial⟩,
    fun n hn ↦ hagree.candidatesAt_eq trivial hn,
    Snapshot.candidatesAt_perm hfiles hfiles' hdocuments hnames,
    Snapshot.forall₂_check_of_document?_eq hfiles hfiles' hdocuments hnames hsettings⟩

/-- A document with an entity. -/
def Document.wheels : Document := .drafting ⟨0⟩ "wheels" [.declare (.entity ⟨"Wheel", none, []⟩)]

/-- A document that imports it and types a member by it. Place 5 is that type. -/
def Document.cars : Document :=
  .drafting ⟨1⟩ "cars"
    [.declare (.imports ⟨"wheels", [⟨"Wheel", none⟩]⟩),
      .declare (.entity ⟨"Car", none, [⟨"wheel", .relation false, .entity "Wheel",
        ⟨none, none, false⟩, false, false, none⟩]⟩)]

namespace Workspace

/-- The two documents, loaded in order. -/
def straight : List Change := [.load .wheels, .load .cars]

/-- The two documents, loaded the other way round. The first file held something else in between,
and there was a third one. -/
def detour : List Change :=
  [.load .cars, .load (.drafting ⟨0⟩ "old" []), .load (.drafting ⟨2⟩ "more" []), .load .wheels,
    .unload ⟨2⟩]

/-- Both histories end with these documents, and the type comes to the imported entity in both. -/
theorem replay_eq_of_document?_eq_ofWheels :
    (∀ file, ((empty .default).replay detour).catalog.document? file =
      ((empty .default).replay straight).catalog.document? file) ∧
    (((empty .default).replay straight).catalog.documents.map (·.name)).Nodup ∧
    ((empty .default).replay detour).snapshot.typeAt? ⟨⟨1⟩, 5⟩ = some (.entity ⟨⟨0⟩, 1⟩) := by
  have hdocuments : ∀ file, ((empty .default).replay detour).catalog.document? file =
      ((empty .default).replay straight).catalog.document? file := by
    intro file
    show [Document.cars, .wheels].find? (·.file == file) =
      [Document.wheels, .cars].find? (·.file == file)
    by_cases hcars : Document.cars.file = file
    · subst hcars
      rfl
    · simp [List.find?_cons, hcars]
  have hnames : (((empty .default).replay straight).catalog.documents.map (·.name)).Nodup := by
    decide
  obtain ⟨hsame, -⟩ := replay_eq_of_document?_eq .default straight detour hdocuments hnames
  have htype : ((empty .default).replay straight).snapshot.typeAt? ⟨⟨1⟩, 5⟩ =
      some (.entity ⟨⟨0⟩, 1⟩) := by
    decide
  exact ⟨hdocuments, hnames, (hsame ⟨⟨1⟩, 5⟩).2.trans htype⟩

end Workspace

end Schemata
