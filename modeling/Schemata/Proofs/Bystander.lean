import Schemata.Proofs.CheckAgreement

/-!
# Documents that nobody imports

A document to which no import of another document comes is a bystander: whether it is loaded or not,
and wherever it stands among the others, nobody else can tell from answers. There is one trace of
it. A reference that comes to nothing points to declarations of its name in all other documents,
also in those that nobody imports.

Nothing is assumed about names. A bystander may share its name with others; that no import comes to
it then says that one of these stands before it, and so hides it from every import of the name
(`Catalog.documentNamed?_insert`). Without imports of it the other files agree with each other
(`Snapshot.agreeOn_of_bystander`), and the rest follows from that.
-/

namespace Schemata

/-- A finding without what is related to it in a file, if it is about a reference that comes to
nothing. -/
def Diagnostic.without (file : FileId) (x : Diagnostic) : Diagnostic :=
  if x.code = some "linking-error" then
    { x with related := x.related.filter (·.node.file != file) }
  else x

namespace Catalog

variable {c c' : Catalog} {g : Document} {before after : List Document}
  (hc : c.documents = before ++ after) (hc' : c'.documents = before ++ g :: after)
include hc hc'

theorem document?_insert {file : FileId} (hfile : file ≠ g.file) :
    c'.document? file = c.document? file := by
  have hg : (g.file == file) = false := by simpa using hfile.symm
  rw [document?, document?, hc, hc', List.find?_append, List.find?_append,
    List.find?_cons_of_neg (by simp [hg])]

variable (hfiles : c'.files.Nodup)
include hfiles

theorem nodup_files_of_insert : c.files.Nodup := by
  rw [files, hc'] at hfiles
  rw [files, hc]
  exact hfiles.sublist (((List.sublist_cons_self g after).append_left before).map _)

/-- One more document takes a name only if it is the first that has it. -/
theorem documentNamed?_insert (name : String) :
    c'.documentNamed? name = some g ∨ c'.documentNamed? name = c.documentNamed? name := by
  rw [documentNamed?_eq_find? hfiles, documentNamed?_eq_find? (nodup_files_of_insert hc hc' hfiles),
    hc, hc', List.find?_append, List.find?_append]
  cases before.find? (·.name == name) with
  | some d => exact .inr rfl
  | none =>
    by_cases hname : g.name = name
    · exact .inl (by simp [hname])
    · exact .inr (by simp [hname])

theorem file_ne_of_insert {d : Document} (hd : d ∈ c.documents) : d.file ≠ g.file := by
  rw [files, hc', List.map_append, List.map_cons, List.nodup_middle, List.nodup_cons] at hfiles
  rw [hc] at hd
  intro heq
  rw [← List.map_append] at hfiles
  exact hfiles.1 (heq ▸ List.mem_map_of_mem hd)

/-- What is declared elsewhere is the same, apart from the document that is added. -/
theorem declaredElsewhere_insert {file : FileId} (hfile : file ≠ g.file) (site : Site)
    (name : String) :
    c.declaredElsewhere file site name =
      (c'.declaredElsewhere file site name).filter (·.node.file != g.file) := by
  have hother : ∀ d ∈ c.documents,
      (c'.offers site name d).filter (·.node.file != g.file) = c.offers site name d := by
    intro d hd
    have hne : d.file ≠ g.file := file_ne_of_insert hc hc' hfiles hd
    rw [offers_congr (document?_insert hc hc' hne), List.filter_eq_self]
    intro x hx
    rw [file_of_mem_offers hx]
    simpa using hne
  have hnone : (c'.offers site name g).filter (·.node.file != g.file) = [] := by
    rw [List.filter_eq_nil_iff]
    intro x hx
    rw [file_of_mem_offers hx]
    simp
  have hkeep : (g.file != file) = true := by simpa using hfile.symm
  rw [declaredElsewhere_eq, declaredElsewhere_eq, List.filter_flatMap, hc', List.filter_append,
    List.filter_cons_of_pos (by exact hkeep), List.flatMap_append, List.flatMap_cons, hnone,
    List.nil_append, ← List.flatMap_append, ← List.filter_append, ← hc]
  exact List.flatMap_congr fun d hd ↦ (hother d (List.mem_filter.1 hd).1).symm

end Catalog

namespace Snapshot

section Insert

variable {s s' : Snapshot} {g : Document} {before after : List Document}
  (hdocuments : s.catalog.documents = before ++ after)
  (hdocuments' : s'.catalog.documents = before ++ g :: after)
  (hfiles : s'.catalog.files.Nodup)
include hdocuments hdocuments' hfiles

/-- Where no import of another document comes to a document, the other files agree without it. -/
theorem agreeOn_of_bystander (hbystander : ∀ n r, n.file ≠ g.file →
      s'.catalog.content? n = some (.importClause r) → s'.resolutionAt n ≠ .found g.rootId) :
    AgreeOn (· ≠ g.file) s s' where
  document? _ hfile := Catalog.document?_insert hdocuments hdocuments' hfile
  clause n r hfile hn := by
    have hdocument : s'.catalog.document? n.file = s.catalog.document? n.file :=
      Catalog.document?_insert hdocuments hdocuments' hfile
    have hn' : s'.catalog.content? n = some (.importClause r) :=
      (Catalog.content?_congr hdocument).trans hn
    obtain ⟨d, hd⟩ := Catalog.exists_document_of_content? hn
    have hfiles₀ : s.catalog.files.Nodup :=
      Catalog.nodup_files_of_insert hdocuments hdocuments' hfiles
    have hbystander := hbystander n r hfile hn'
    rw [resolutionAt_importClause hfiles (hdocument.trans hd) hn'] at hbystander ⊢
    rw [resolutionAt_importClause hfiles₀ hd hn]
    split
    · rfl
    · rename_i hown
      rcases Catalog.documentNamed?_insert hdocuments hdocuments' hfiles r.text with hg | hsame
      · -- the import would come to the bystander
        rw [if_neg hown, hg] at hbystander
        exact absurd rfl hbystander
      · rw [hsame]
  closed n r hfile hn := by
    obtain ⟨d, hd⟩ := Catalog.exists_document_of_content? hn
    have hfiles₀ : s.catalog.files.Nodup :=
      Catalog.nodup_files_of_insert hdocuments hdocuments' hfiles
    rw [resolutionAt_importClause hfiles₀ hd hn]
    intro t ht
    split at ht
    · cases ht
    · cases he : s.catalog.documentNamed? r.text with
      | none =>
        rw [he] at ht
        cases ht
      | some e =>
        rw [he] at ht
        obtain rfl : t = e.rootId := List.mem_singleton.1 ht
        exact Catalog.file_ne_of_insert hdocuments hdocuments' hfiles
          (Catalog.mem_documents_of_documentNamed? he)

/-- The check of another file relates references to one more document, and does not differ
otherwise. -/
theorem map_without_check (hagree : AgreeOn (· ≠ g.file) s s')
    (hsettings : s'.settings = s.settings) {file : FileId} (hfile : file ≠ g.file) :
    (s'.evaluate (s'.check file)).map (·.without g.file) = s.evaluate (s.check file) := by
  have hsame : ∀ x : Diagnostic, x.code ≠ some "linking-error" → x = x.without g.file :=
    fun x hcode ↦ (if_neg hcode).symm
  have hunresolved : ∀ failure n range site text, n.file ≠ g.file →
      (Problem.unresolved failure).report n range (s.related n.file site text) =
        ((Problem.unresolved failure).report n range (s'.related n.file site text)).without
          g.file := by
    intro failure n range site text hn
    have hrelated : s.related n.file site text =
        (s'.related n.file site text).filter (·.node.file != g.file) := by
      rw [related, related, hsettings]
      split
      · exact Catalog.declaredElsewhere_insert hdocuments hdocuments' hfiles hn site text
      · rfl
    rw [hrelated]
    rfl
  have hcheck := hagree.forall₂_check hsettings (D := fun x y ↦ x = y.without g.file) hsame
    hunresolved hfile
  rw [← List.forall₂_map_right_iff, List.forall₂_eq_eq_eq] at hcheck
  exact hcheck.symm

omit hdocuments hdocuments' hfiles in
/-- Under settings that relate nothing to references that come to nothing, the checks are the
same. -/
theorem check_eq_of_agreeOn {p : FileId → Prop} (hagree : AgreeOn p s s')
    (hsettings : s'.settings = s.settings) (hrelated : s.settings.relatedCandidates = false)
    {file : FileId} (hfile : p file) : s'.evaluate (s'.check file) = s.evaluate (s.check file) := by
  have hnone (file' : FileId) (site : Site) (text : String) :
      s'.related file' site text = s.related file' site text := by
    rw [related, related, hsettings, hrelated]
    rfl
  have hcheck := hagree.forall₂_check hsettings (D := Eq) (fun _ _ ↦ rfl)
    (fun failure n range site text _ ↦ by rw [hnone]) hfile
  rw [List.forall₂_eq_eq_eq] at hcheck
  exact hcheck.symm

end Insert

/-- **A document that nobody imports does not influence the others.** Take one more document, loaded
anywhere among the others, such that no import of another document comes to it. Then outside of it
every reference comes to the same as without it, every node has the same type and every site but
an import has the same candidates. Each check finds the same, except that a reference that comes to
nothing may point to the document, and the same without exception under settings that relate nothing
to such references. -/
theorem bystander (s s' : Snapshot) {g : Document} {before after : List Document}
    (hdocuments : s.catalog.documents = before ++ after)
    (hdocuments' : s'.catalog.documents = before ++ g :: after)
    (hfiles : s'.catalog.files.Nodup) (hsettings : s'.settings = s.settings)
    (hbystander : ∀ n r, n.file ≠ g.file → s'.catalog.content? n = some (.importClause r) →
      s'.resolutionAt n ≠ .found g.rootId) :
    (∀ n, n.file ≠ g.file →
      s'.resolutionAt n = s.resolutionAt n ∧ s'.typeAt? n = s.typeAt? n ∧
      ((∀ r, s.catalog.content? n ≠ some (.importClause r)) →
        s'.candidatesAt n = s.candidatesAt n)) ∧
    ∀ file, file ≠ g.file →
      (s'.evaluate (s'.check file)).map (·.without g.file) = s.evaluate (s.check file) ∧
      (s.settings.relatedCandidates = false →
        s'.evaluate (s'.check file) = s.evaluate (s.check file)) := by
  have hagree := agreeOn_of_bystander hdocuments hdocuments' hfiles hbystander
  refine ⟨fun n hn ↦ ⟨hagree.resolutionAt_eq hn, hagree.typeAt?_eq hn, hagree.candidatesAt_eq hn⟩,
    fun file hfile ↦ ⟨?_, fun hrelated ↦ ?_⟩⟩
  · exact map_without_check hdocuments hdocuments' hfiles hagree hsettings hfile
  · exact check_eq_of_agreeOn hagree hsettings hrelated hfile

/-- A document with an entity. -/
def namesake : Document := .drafting ⟨0⟩ "wheels" [.declare (.entity ⟨"Wheel", none, []⟩)]

/-- Another document of that name with another entity. -/
def bystanding : Document := .drafting ⟨1⟩ "wheels" [.declare (.entity ⟨"Axle", none, []⟩)]

/-- A document that imports the first entity and misses the second. -/
def importer : Document :=
  .drafting ⟨2⟩ "cars"
    [.declare (.imports ⟨"wheels", [⟨"Wheel", none⟩]⟩),
      .declare (.entity ⟨"Car", none, [⟨"axle", .relation false, .entity "Axle",
        ⟨none, none, false⟩, false, false, none⟩]⟩)]

/-- The three documents, of which the second is a bystander. -/
def ofBystander : Snapshot := .ofDocuments [namesake, bystanding, importer]

/-- The same without it. -/
def ofOthers : Snapshot := .ofDocuments [namesake, importer]

theorem resolutionAt_ofBystander {n : NodeId} {r : Reference}
    (hn : ofBystander.catalog.content? n = some (.importClause r)) :
    ofBystander.resolutionAt n ≠ .found bystanding.rootId := by
  have hfiles : ofBystander.catalog.files.Nodup := by decide
  obtain ⟨d, hd⟩ := Catalog.exists_document_of_content? hn
  rw [resolutionAt_importClause hfiles hd hn]
  split
  · simp
  · cases he : ofBystander.catalog.documentNamed? r.text with
    | none => simp
    | some e =>
      intro hfound
      have hroot : e.rootId = bystanding.rootId := Resolution.found.inj hfound
      have hmem : e ∈ [namesake, bystanding, importer] :=
        Catalog.mem_documents_of_documentNamed? he
      simp only [List.mem_cons, List.not_mem_nil, or_false] at hmem
      rcases hmem with rfl | rfl | rfl
      · exact absurd hroot (by decide)
      · -- the name is taken by the first document
        have hname : bystanding.name = r.text := Catalog.documentNamed?_eq_some hfiles he
        have hfirst : (ofBystander.catalog.documentNamed? bystanding.name).map (·.file) =
            some ⟨0⟩ := by
          decide
        rw [hname, he] at hfirst
        exact absurd hfirst (by decide)
      · exact absurd hroot (by decide)

/-- There a type is not found. With the bystander the check offers its entity, and without it
nothing; apart from that, the checks are the same. -/
theorem bystander_ofBystander :
    ofBystander.catalog.files.Nodup ∧
      (∀ n r, n.file ≠ bystanding.file →
        ofBystander.catalog.content? n = some (.importClause r) →
        ofBystander.resolutionAt n ≠ .found bystanding.rootId) ∧
      ofBystander.resolutionAt ⟨⟨2⟩, 5⟩ = .notFound ∧
      (ofBystander.evaluate (ofBystander.check ⟨2⟩)).map (·.without ⟨1⟩) =
        ofOthers.evaluate (ofOthers.check ⟨2⟩) := by
  have hfiles : ofBystander.catalog.files.Nodup := by decide
  have hbystander : ∀ n r, n.file ≠ bystanding.file →
      ofBystander.catalog.content? n = some (.importClause r) →
      ofBystander.resolutionAt n ≠ .found bystanding.rootId :=
    fun _ _ _ hn ↦ resolutionAt_ofBystander hn
  have hothers : ofOthers.catalog.documents = [namesake] ++ [importer] := rfl
  have hall : ofBystander.catalog.documents = [namesake] ++ bystanding :: [importer] := rfl
  obtain ⟨hanswers, hchecks⟩ := bystander ofOthers ofBystander hothers hall hfiles rfl hbystander
  have hnotFound : ofOthers.resolutionAt ⟨⟨2⟩, 5⟩ = .notFound := by decide
  exact ⟨hfiles, hbystander, (hanswers ⟨⟨2⟩, 5⟩ (by decide)).1.trans hnotFound,
    (hchecks ⟨2⟩ (by decide)).1⟩

end Snapshot

end Schemata
