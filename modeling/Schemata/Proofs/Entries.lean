import Schemata.Proofs.LoadOrder

/-!
# Catalogs as ordered association lists

A catalog keeps documents only, each of which knows its file. Seen from outside it is an ordered
association list from files to documents (`Entries`): loading replaces what is under a file where it
stands or appends it, and unloading takes it out. The two are kept in step by every change
(`Catalog.entries_apply`), because no two documents of a catalog are of one file.

A workspace makes the same changes to its catalog, except that unloading a file that has no document
is no change to it. So its history is that of a catalog with those changes left out
(`Workspace.catalog_replay`), and its generation counts the rest.

The index of names finds a document by its name, and this is the first in the order of the entries
that has it (`Catalog.documentNamed?_eq_find?_entries`).
-/

namespace Schemata

/-! ### Ordered association lists -/

/-- Documents under files, in order. -/
abbrev Entries := List (FileId × Document)

namespace Entries

/-- Puts a document under a file: in place of the one that is there, or after all others. -/
def put (file : FileId) (d : Document) : Entries → Entries
  | [] => [(file, d)]
  | e :: es => if e.1 = file then (file, d) :: es else e :: put file d es

/-- Takes out the document under a file. -/
def remove (file : FileId) : Entries → Entries
  | [] => []
  | e :: es => if e.1 = file then es else e :: remove file es

/-- The entries after a change. -/
def apply (es : Entries) : Change → Entries
  | .load d => es.put d.file d
  | .unload file => es.remove file

/-- The entries after a history of changes. -/
def replay (es : Entries) : List Change → Entries
  | [] => es
  | change :: history => (es.apply change).replay history

/-- Whether a change concerns the entries: unloading does only if there is something to unload. -/
def concerns (es : Entries) : Change → Bool
  | .load _ => true
  | .unload file => (es.lookup file).isSome

/-- The changes of a history that concern the entries when their turn comes. -/
def effective (es : Entries) : List Change → List Change
  | [] => []
  | change :: history =>
    if es.concerns change then change :: (es.apply change).effective history
    else es.effective history

end Entries

namespace Catalog

/-- A document under its own file. -/
def entry (d : Document) : FileId × Document := (d.file, d)

/-- A catalog as an ordered association list. -/
def entries (c : Catalog) : Entries := c.documents.map entry

/-- The catalog after a change. -/
def apply (c : Catalog) : Change → Catalog
  | .load d => c.insert d
  | .unload file => c.erase file

/-- The catalog after a history of changes. -/
def replay (c : Catalog) : List Change → Catalog
  | [] => c
  | change :: history => (c.apply change).replay history

variable {c : Catalog}

theorem map_fst_entries (c : Catalog) : c.entries.map (·.1) = c.files := by
  rw [entries, List.map_map]
  rfl

theorem file_of_mem_entries {e : FileId × Document} (h : e ∈ c.entries) : e.2.file = e.1 := by
  obtain ⟨d, -, rfl⟩ := List.mem_map.1 h
  rfl

/-! ### One change -/

theorem replace_cons (d e : Document) (ds : List Document) :
    replace d (e :: ds) = (if e.file = d.file then d else e) :: replace d ds :=
  rfl

/-- Where no document is of a file, there is nothing to replace. -/
theorem replace_eq_self {d : Document} {ds : List Document} (h : d.file ∉ ds.map (·.file)) :
    replace d ds = ds := by
  induction ds with
  | nil => rfl
  | cons e ds ih =>
    have hne : e.file ≠ d.file := fun heq ↦ h (heq ▸ List.mem_cons_self)
    rw [replace_cons, if_neg hne, ih fun hmem ↦ h (List.mem_cons_of_mem _ hmem)]

/-- Loading puts a document under its file. -/
theorem put_map_entry (d : Document) {ds : List Document} (h : (ds.map (·.file)).Nodup) :
    Entries.put d.file d (ds.map entry) =
      (if ds.any (·.file == d.file) then replace d ds else ds ++ [d]).map entry := by
  induction ds with
  | nil => rfl
  | cons e ds ih =>
    obtain ⟨he, hds⟩ := List.nodup_cons.1 h
    rw [List.map_cons, Entries.put, List.any_cons]
    by_cases hfile : e.file = d.file
    · -- the documents behind the first of the file are of other files
      have hrest : replace d ds = ds := replace_eq_self (hfile ▸ he)
      rw [if_pos (show (entry e).1 = d.file from hfile),
        show (e.file == d.file) = true by simp [hfile], Bool.true_or, if_pos rfl, replace_cons,
        if_pos hfile, hrest]
      rfl
    · rw [if_neg (show (entry e).1 ≠ d.file from hfile), ih hds,
        show (e.file == d.file) = false by simp [hfile], Bool.false_or]
      split
      · rw [replace_cons, if_neg hfile, List.map_cons]
      · rfl

/-- Unloading takes out what is under a file. -/
theorem remove_map_entry (file : FileId) {ds : List Document} (h : (ds.map (·.file)).Nodup) :
    Entries.remove file (ds.map entry) = (ds.filter (·.file != file)).map entry := by
  induction ds with
  | nil => rfl
  | cons e ds ih =>
    obtain ⟨he, hds⟩ := List.nodup_cons.1 h
    rw [List.map_cons, Entries.remove]
    by_cases hfile : e.file = file
    · have hrest : ds.filter (·.file != file) = ds := by
        refine List.filter_eq_self.2 fun e' he' ↦ bne_iff_ne.2 fun heq ↦ he ?_
        exact List.mem_map.2 ⟨e', he', heq.trans hfile.symm⟩
      rw [if_pos (show (entry e).1 = file from hfile), List.filter_cons_of_neg (by simp [hfile]),
        hrest]
    · rw [if_neg (show (entry e).1 ≠ file from hfile), List.filter_cons_of_pos (by simp [hfile]),
        ih hds, List.map_cons]

/-- A change does to the entries what it does to the catalog. -/
theorem entries_apply (h : c.files.Nodup) (change : Change) :
    (c.apply change).entries = c.entries.apply change := by
  cases change with
  | load d => exact (put_map_entry d h).symm
  | unload file => exact (remove_map_entry file h).symm

theorem nodup_files_apply (h : c.files.Nodup) (change : Change) :
    (c.apply change).files.Nodup := by
  cases change with
  | load d => exact nodup_files_insert h d
  | unload file => exact nodup_files_erase h file

theorem generation_apply (c : Catalog) (change : Change) :
    (c.apply change).generation = c.generation.next := by
  cases change <;> rfl

/-! ### Any number of changes -/

theorem nodup_files_replay (h : c.files.Nodup) (history : List Change) :
    (c.replay history).files.Nodup := by
  induction history generalizing c with
  | nil => exact h
  | cons change history ih => exact ih (nodup_files_apply h change)

theorem entries_replay (h : c.files.Nodup) (history : List Change) :
    (c.replay history).entries = c.entries.replay history := by
  induction history generalizing c with
  | nil => rfl
  | cons change history ih =>
    rw [replay, ih (nodup_files_apply h change), entries_apply h, Entries.replay]

theorem generation_replay (c : Catalog) (history : List Change) :
    (c.replay history).generation.count = c.generation.count + history.length := by
  induction history generalizing c with
  | nil => rfl
  | cons change history ih =>
    have hnext : (c.apply change).generation.count = c.generation.count + 1 := by
      rw [generation_apply, Generation.next]
    rw [replay, ih, hnext, List.length_cons, Nat.add_right_comm, Nat.add_assoc]

/-! ### Looking up -/

/-- A document is found under its file. -/
theorem document?_eq_lookup (c : Catalog) (file : FileId) :
    c.document? file = c.entries.lookup file := by
  rw [document?, entries]
  induction c.documents with
  | nil => rfl
  | cons d ds ih =>
    rw [List.map_cons, List.find?_cons, entry, List.lookup_cons, Bool.beq_comm, ih]

theorem contains_eq (c : Catalog) (file : FileId) :
    c.contains file = (c.entries.lookup file).isSome := by
  rw [contains, document?_eq_lookup]

/-- A document is found by its name among the entries in order. -/
theorem documentNamed?_eq_find?_entries {c : Catalog} (hfiles : c.files.Nodup) (name : String) :
    c.documentNamed? name = (c.entries.find? (·.2.name == name)).map (·.2) := by
  rw [documentNamed?_eq_find? hfiles, entries, List.find?_map, Option.map_map]
  exact Option.map_id'.symm

theorem node?_eq_lookup_bind (c : Catalog) (n : NodeId) :
    c.node? n = (c.entries.lookup n.file).bind (·.node? n.index) := by
  rw [node?, document?_eq_lookup]

end Catalog

/-! ### Workspaces -/

namespace Workspace

variable {w : Workspace}

/-- A workspace makes the changes that concern its documents, and no other. -/
theorem catalog_apply (w : Workspace) (change : Change) :
    (w.apply change).catalog =
      if w.catalog.entries.concerns change then w.catalog.apply change else w.catalog := by
  cases change with
  | load d => rfl
  | unload file =>
    rw [Entries.concerns, ← Catalog.contains_eq]
    rfl

/-- The catalog of a workspace has the history of the workspace, save for what does not concern it
when its turn comes. -/
theorem catalog_replay (h : w.catalog.files.Nodup) (history : List Change) :
    (w.replay history).catalog =
      w.catalog.replay (w.catalog.entries.effective history) := by
  induction history generalizing w with
  | nil => rfl
  | cons change history ih =>
    rw [replay, ih (nodup_files_apply h change), catalog_apply, Entries.effective]
    split
    · rw [Catalog.entries_apply h, Catalog.replay]
    · rfl

theorem generation_apply (w : Workspace) (change : Change) :
    (w.apply change).catalog.generation =
      if w.catalog.entries.concerns change then w.catalog.generation.next
      else w.catalog.generation := by
  rw [catalog_apply]
  split
  · exact Catalog.generation_apply _ _
  · rfl

theorem generation_le_replay (w : Workspace) (history : List Change) :
    w.catalog.generation.count ≤ (w.replay history).catalog.generation.count := by
  induction history generalizing w with
  | nil => exact Nat.le_refl _
  | cons change history ih =>
    refine le_trans ?_ (ih (w.apply change))
    rw [generation_apply]
    split
    · exact Nat.le_succ _
    · exact Nat.le_refl _

end Workspace

/-- **A catalog is an ordered association list.** After any history of loading and unloading, a
catalog is the association list with the same history. No file is there twice, each document is of
the file under which it is, and every change is counted. What is asked of the catalog is answered
from the list: the document of a file, a node, and the first document of a name, which an index of
names finds as well.

A workspace with the same history has the catalog of the changes that concern it. The next change is
counted if it concerns the workspace, as loading always does, and else changes nothing. So the
generation never goes down. -/
theorem Catalog.replay_eq_entries_replay (settings : Settings) (history : List Change) :
    let c := Catalog.empty.replay history
    let es := Entries.replay [] history
    let w := (Workspace.empty settings).replay history
    (c.entries = es ∧ (es.map (·.1)).Nodup ∧ (∀ e ∈ es, e.2.file = e.1) ∧
      c.generation = ⟨history.length⟩) ∧
    ((∀ file, c.document? file = es.lookup file) ∧
      (∀ n, c.node? n = (es.lookup n.file).bind (·.node? n.index)) ∧
      ∀ name, c.documentNamed? name = (es.find? (·.2.name == name)).map (·.2) ∧
        (c.nameIndex.lookup name).bind c.document? = c.documents.find? (·.name == name)) ∧
    w.catalog = Catalog.empty.replay (Entries.effective [] history) ∧
    (∀ change, (w.apply change).catalog =
        (if w.catalog.entries.concerns change then w.catalog.apply change else w.catalog) ∧
      (w.apply change).catalog.generation =
        if w.catalog.entries.concerns change then w.catalog.generation.next
        else w.catalog.generation) ∧
    ∀ more, w.catalog.generation.count ≤ (w.replay more).catalog.generation.count := by
  intro c es w
  have hempty : Catalog.empty.files.Nodup := List.nodup_nil
  have hfiles : c.files.Nodup := nodup_files_replay hempty history
  have hentries : c.entries = es := entries_replay hempty history
  have hcount : c.generation.count = 0 + history.length := generation_replay .empty history
  rw [Nat.zero_add] at hcount
  have hnone : (Workspace.empty settings).catalog.files.Nodup := hempty
  -- the list with the same history is the list of the catalog, of which the lemmas speak
  rw [← hentries]
  refine ⟨⟨rfl, ?_, fun e ↦ file_of_mem_entries, congrArg Generation.mk hcount⟩,
    ⟨c.document?_eq_lookup, c.node?_eq_lookup_bind, fun name ↦ ?_⟩,
    Workspace.catalog_replay hnone history,
    fun change ↦ ⟨w.catalog_apply change, w.generation_apply change⟩, w.generation_le_replay⟩
  · rw [map_fst_entries]
    exact hfiles
  · exact ⟨documentNamed?_eq_find?_entries hfiles name, documentNamed?_eq_find? hfiles name⟩

/-- Two documents of one name, of which the first is renamed, a file that was never loaded, and then
the renamed document is unloaded and loaded again under the old name. -/
def Workspace.renaming : List Change :=
  [.load (.drafting ⟨4⟩ "dup" []), .load (.drafting ⟨2⟩ "dup" []), .load (.drafting ⟨4⟩ "x" []),
    .unload ⟨9⟩, .unload ⟨4⟩, .load (.drafting ⟨4⟩ "dup" [])]

/-- The document that was second has the name now, and five changes of six are counted. -/
theorem Catalog.replay_eq_entries_replay_ofRenaming :
    let c := Catalog.empty.replay Workspace.renaming
    c.generation = ⟨6⟩ ∧ (c.documentNamed? "dup").map (·.file) = some ⟨2⟩ ∧
      ((Workspace.empty .default).replay Workspace.renaming).catalog.generation = ⟨5⟩ := by
  intro c
  obtain ⟨⟨-, -, -, hgeneration⟩, ⟨-, -, hname⟩, hcatalog, -, -⟩ :=
    replay_eq_entries_replay .default Workspace.renaming
  refine ⟨hgeneration, ?_, ?_⟩
  · rw [(hname "dup").1]
    decide
  · rw [hcatalog]
    decide

end Schemata
