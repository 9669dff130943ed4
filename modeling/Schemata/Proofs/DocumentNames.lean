import Schemata.Proofs.Loaded
import Schemata.Proofs.Lookup

/-!
# Documents by name

Documents may share a name. Two loops go through the documents in order and take each name once: the
index of names, which is made anew at every change, and the scope of an import, which leaves out the
name of its own document besides. Both come to the first document of a name. For the index this is
`Catalog.documentNamed?_eq_find?`, which needs that no two documents are of one file, since the
index tells a file and the document is found under it. For the scope it is
`Catalog.mem_documentScope_iff`, and what the name of an import stands for follows
(`Catalog.lookup_documentScope`).
-/

namespace Schemata

namespace Catalog

variable {c : Catalog} {name own : String} {d : Document}

/-! ### The index of names -/

theorem lookup_addName (index : List (String × FileId)) (d : Document) (name : String) :
    (addName index d).lookup name =
      (index.lookup name).or (if d.name = name then some d.file else none) := by
  rw [addName]
  by_cases hname : d.name = name
  · subst hname
    cases hlookup : index.lookup d.name <;> simp [hlookup, List.lookup_append]
  · have hne : (name == d.name) = false := by simpa using Ne.symm hname
    rw [if_neg hname, Option.or_none]
    split
    · rfl
    · rw [List.lookup_append, List.lookup_cons, hne, List.lookup_nil, Option.or_none]

/-- A name that is noted already keeps its file, and any other gets that of the first document. -/
theorem lookup_foldl_addName (ds : List Document) (index : List (String × FileId))
    (name : String) :
    (ds.foldl addName index).lookup name =
      (index.lookup name).or ((ds.find? (·.name == name)).map (·.file)) := by
  induction ds generalizing index with
  | nil => simp
  | cons d ds ih =>
    rw [List.foldl_cons, ih, lookup_addName, Option.or_assoc, List.find?_cons]
    by_cases hname : d.name = name
    · simp [hname]
    · have hne : (d.name == name) = false := by simpa using hname
      rw [if_neg hname, Option.none_or, hne]

theorem lookup_nameIndex (c : Catalog) (name : String) :
    c.nameIndex.lookup name = (c.documents.find? (·.name == name)).map (·.file) :=
  lookup_foldl_addName c.documents [] name

/-- What the index tells of a name is the first document that has it. -/
theorem documentNamed?_eq_find? (hfiles : c.files.Nodup) (name : String) :
    c.documentNamed? name = c.documents.find? (·.name == name) := by
  rw [documentNamed?, lookup_nameIndex]
  cases hfind : c.documents.find? (·.name == name) with
  | none => rfl
  | some d => exact document?_eq_some_of_mem hfiles (List.mem_of_find?_eq_some hfind)

theorem mem_documents_of_documentNamed? (h : c.documentNamed? name = some d) :
    d ∈ c.documents := by
  obtain ⟨file, -, hd⟩ := Option.bind_eq_some_iff.1 h
  exact List.mem_of_find?_eq_some hd

theorem documentNamed?_eq_some (hfiles : c.files.Nodup) (h : c.documentNamed? name = some d) :
    d.name = name := by
  rw [documentNamed?_eq_find? hfiles] at h
  simpa using List.find?_some h

/-! ### The scope of an import -/

/-- The entry of a document in the scope of an import. -/
def importEntry (d : Document) : ScopeEntry := ⟨d.name, d.rootId, false⟩

theorem skips_iff {s : Scope} :
    (d.name == own || s.names.any (· == d.name)) = true ↔ d.name = own ∨ d.name ∈ s.names := by
  simp

theorem mem_addDocument_iff {s : Scope} {e : ScopeEntry} :
    e ∈ (addDocument own s d).entries ↔
      e ∈ s.entries ∨ d.name ≠ own ∧ d.name ∉ s.names ∧ e = importEntry d := by
  rw [addDocument]
  split
  · rename_i hskip
    rw [skips_iff] at hskip
    tauto
  · rename_i hskip
    rw [skips_iff, not_or] at hskip
    rw [Scope.push, List.mem_append, List.mem_singleton, importEntry]
    tauto

theorem mem_names_addDocument_iff {s : Scope} :
    name ∈ (addDocument own s d).names ↔ name ∈ s.names ∨ d.name ≠ own ∧ name = d.name := by
  simp only [Scope.names, List.mem_map, mem_addDocument_iff]
  constructor
  · rintro ⟨e, he | ⟨hown, -, rfl⟩, rfl⟩
    · exact .inl ⟨e, he, rfl⟩
    · exact .inr ⟨hown, rfl⟩
  · rintro (⟨e, he, rfl⟩ | ⟨hown, rfl⟩)
    · exact ⟨e, .inl he, rfl⟩
    · by_cases htaken : ∃ e ∈ s.entries, e.name = d.name
      · obtain ⟨e, he, hname⟩ := htaken
        exact ⟨e, .inl he, hname⟩
      · exact ⟨importEntry d, .inr ⟨hown, htaken, rfl⟩, rfl⟩

/-- Going through some documents adds the first of each name that is neither `own` nor taken. -/
theorem mem_foldl_addDocument_iff {ds : List Document} {s : Scope} {e : ScopeEntry} :
    e ∈ (ds.foldl (addDocument own) s).entries ↔ e ∈ s.entries ∨
      e.name ∉ s.names ∧ ∃ d, ds.find? (·.name == e.name) = some d ∧ d.name ≠ own ∧
        e = importEntry d := by
  induction ds generalizing s with
  | nil => simp
  | cons d ds ih =>
    rw [List.foldl_cons, ih, mem_addDocument_iff, mem_names_addDocument_iff]
    by_cases hname : d.name = e.name
    · -- nothing comes later under the name of this document
      have hlater : ∀ d', d'.name ≠ own → e = importEntry d' → d.name ≠ own := by
        rintro d' hown rfl
        exact hname ▸ hown
      rw [List.find?_cons_of_pos (by simpa using hname)]
      simp only [Option.some.injEq, exists_eq_left', hname] at hlater ⊢
      grind
    · have hne : e ≠ importEntry d := by
        rintro rfl
        exact hname rfl
      rw [List.find?_cons_of_neg (by simpa using hname)]
      simp [hne, Ne.symm hname]

/-- An import can use the names of other documents, each for the first document that has it. -/
theorem mem_entries_documentScope_iff {e : ScopeEntry} :
    e ∈ (c.documentScope own).entries ↔
      ∃ d, c.documents.find? (·.name == e.name) = some d ∧ d.name ≠ own ∧ e = importEntry d := by
  rw [documentScope, mem_foldl_addDocument_iff]
  simp [Scope.empty, Scope.names]

/-- No name is twice in the scope of an import. -/
theorem nodup_names_documentScope (c : Catalog) (own : String) :
    (c.documentScope own).names.Nodup := by
  suffices hfold : ∀ (ds : List Document) (s : Scope), s.names.Nodup →
      (ds.foldl (addDocument own) s).names.Nodup from hfold c.documents .empty List.nodup_nil
  intro ds
  induction ds with
  | nil => exact fun s hs ↦ hs
  | cons d ds ih =>
    refine fun s hs ↦ ih _ ?_
    rw [addDocument]
    split
    · exact hs
    · rename_i hskip
      rw [skips_iff, not_or] at hskip
      rw [Scope.names, Scope.push, List.map_append]
      exact hs.append (List.nodup_singleton d.name) (by simpa using hskip.2)

section Files

variable (hfiles : c.files.Nodup)
include hfiles

/-- The names that an import can use: those of other documents, each for the first document that
has it. -/
theorem mem_documentScope_iff {e : ScopeEntry} :
    e ∈ (c.documentScope own).entries ↔
      ∃ d, c.documentNamed? e.name = some d ∧ d.name ≠ own ∧ e = importEntry d := by
  rw [mem_entries_documentScope_iff, documentNamed?_eq_find? hfiles]

/-- What the name of an import stands for in a document called `own`. -/
theorem lookup_documentScope (own name : String) :
    (c.documentScope own).lookup name =
      if name = own then .notFound else
        match c.documentNamed? name with
        | none => .notFound
        | some d => .found d.rootId := by
  split
  · rename_i hown
    refine Scope.lookup_eq_notFound fun e he hname ↦ ?_
    obtain ⟨d, hd, hne, -⟩ := (mem_documentScope_iff hfiles).1 he
    exact hne ((documentNamed?_eq_some hfiles hd).trans (hname.trans hown))
  · rename_i hown
    cases hd : c.documentNamed? name with
    | none =>
      refine Scope.lookup_eq_notFound fun e he hname ↦ ?_
      obtain ⟨d, hd', -⟩ := (mem_documentScope_iff hfiles).1 he
      rw [hname, hd] at hd'
      cases hd'
    | some d =>
      have hname : d.name = name := documentNamed?_eq_some hfiles hd
      have hmem : importEntry d ∈ (c.documentScope own).entries := by
        refine (mem_documentScope_iff hfiles).2 ⟨d, ?_, fun h ↦ hown (hname ▸ h), rfl⟩
        rw [importEntry, hname]
        exact hd
      refine Scope.lookup_eq_found ⟨_, hmem, hname, rfl⟩ fun e he he' ↦ ?_
      obtain ⟨d', hd', -, rfl⟩ := (mem_documentScope_iff hfiles).1 he
      rw [he', hd, Option.some.injEq] at hd'
      rw [hd', importEntry]

end Files

end Catalog

end Schemata
