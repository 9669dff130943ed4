import Schemata.Proofs.FileTable
import Schemata.Workspace

/-!
# What the table of files remembers

What the table of files holds after a sequence of requests is told by the log of the requests alone:
which paths are known and under which number, how each was first spelled, and which text of a file
was the last (`Files.Recounts`). A workspace passes its requests on to its table of files, and so
the same is told by its log (`Workspace.files_recount`).
-/

namespace Schemata

namespace Files

variable {fs : Files} {log : FileLog} {allocated : Nat}

/-! ### What a log tells of the table -/

/-- The table of files holds what the log of its requests says. -/
structure Recounts (fs : Files) (log : FileLog) : Prop where
  /-- The known paths are those that are live, each under its number. -/
  find?_eq_some_iff : ∀ path file,
    fs.find? path = some file ↔ log.Live (Path.ofText path) file
  /-- The known numbers are those that are live, each with the first spelling of its path. -/
  path?_eq_some_iff : ∀ file spelling,
    fs.path? file = some spelling ↔ log.Spells file spelling
  /-- Paths and numbers are looked up inversely to each other. -/
  find?_iff_path? : ∀ path file, fs.find? path = some file ↔
    ∃ spelling, fs.path? file = some spelling ∧ Path.same spelling path = true
  /-- The number that a path gets has the first spelling of the path from then on. -/
  path?_fileId : ∀ path, ∃ spelling, (fs.fileId path).2.path? (fs.fileId path).1 = some spelling ∧
    Path.same spelling path = true ∧
    FileLog.Spells (log ++ [.numbered path (fs.fileId path).1]) (fs.fileId path).1 spelling
  numbersByPath : log.NumbersByPath
  /-- A number that was forgotten does not come back. -/
  not_again : ∀ before between after path file,
    log = before ++ .numbered path file :: (between ++ .forgotten file :: after) →
      ∀ path', .numbered path' file ∉ after
  index_lt_next : ∀ path file, .numbered path file ∈ log → file.index < fs.next
  /-- As many paths are known as are live. -/
  exists_size_eq : ∃ live : List Path, live.Nodup ∧
    (∀ path, path ∈ live ↔ ∃ file, log.Live path file) ∧ fs.size = live.length
  /-- The lines are those of the last text of the file. -/
  lines?_eq_some_iff : ∀ file lines,
    fs.lines? file = some lines ↔ ∃ text, log.Tells file text ∧ Lines.ofText text = lines

/-- A path that is known keeps the spelling under which it became known. One that is new is spelled
as it was given. -/
theorem Tracks.path?_fileId (h : fs.Tracks log allocated) (path : String) :
    ∃ spelling, (fs.fileId path).2.path? (fs.fileId path).1 = some spelling ∧
      Path.same spelling path = true ∧
      FileLog.Spells (log ++ [.numbered path (fs.fileId path).1]) (fs.fileId path).1 spelling := by
  rw [fileId]
  cases hfind : fs.find? path with
  | some file =>
    obtain ⟨spelling, hmem, hsame⟩ := h.find?_eq_some_iff.1 hfind
    exact ⟨spelling, h.path?_eq_some_iff.2 hmem, Path.same_iff.2 hsame,
      (h.recall hfind).mem_paths_iff.1 hmem⟩
  | none =>
    refine ⟨path, ?_, Path.same_self path, FileLog.spells_concat.2 (.inl ⟨rfl, h.not_live hfind⟩)⟩
    exact List.lookup_cons_self

/-- The table has one entry for each path that is live. -/
theorem Tracks.exists_size_eq (h : fs.Tracks log allocated) : ∃ live : List Path, live.Nodup ∧
    (∀ path, path ∈ live ↔ ∃ file, log.Live path file) ∧ fs.size = live.length := by
  have hsize : fs.size = (fs.numbers.map fun e ↦ Path.ofText e.1).length :=
    (List.length_map _).symm
  refine ⟨_, h.numbers_nodup, fun path ↦ ?_, hsize⟩
  simp only [List.mem_map, Prod.exists, h.mem_numbers_iff, h.live_iff]
  exact exists_comm

/-- A table that has kept step with a log holds what the log says. -/
theorem Tracks.recounts (h : fs.Tracks log allocated) : fs.Recounts log where
  find?_eq_some_iff _ _ := h.find?_eq_some_iff_live
  path?_eq_some_iff _ _ := h.path?_eq_some_iff.trans h.mem_paths_iff
  find?_iff_path? path file := by
    simp only [h.find?_eq_some_iff, h.path?_eq_some_iff, Path.same_iff]
  path?_fileId := h.path?_fileId
  numbersByPath := h.numbersByPath
  not_again _ _ _ _ _ hlog _ := h.numbersByPath.not_mem hlog
  index_lt_next _ _ := h.index_lt_next
  exists_size_eq := h.exists_size_eq
  lines?_eq_some_iff _ _ := h.lines?_eq_some_iff

end Files

/-! ### Histories -/

/-- A request to the table of files. -/
inductive FileRequest where
  | number (path : String)
  | tell (file : FileId) (text : String)
  | forget (file : FileId)

/-- A table of files with what was asked of it so far. -/
structure FileHistory where
  files : Files
  log : FileLog
  /-- How many times a path got a new number. -/
  allocated : Nat

namespace FileHistory

def start : FileHistory := ⟨.empty, [], 0⟩

/-- How many times a path got a new number, once the file of a path is asked for. -/
def allocatedWith (files : Files) (allocated : Nat) (path : String) : Nat :=
  match files.find? path with
  | some _ => allocated
  | none => allocated + 1

def ask (h : FileHistory) : FileRequest → FileHistory
  | .number path =>
    ⟨(h.files.fileId path).2, h.log ++ [.numbered path (h.files.fileId path).1],
      allocatedWith h.files h.allocated path⟩
  | .tell file text => ⟨h.files.setText file text, h.log ++ [.told file text], h.allocated⟩
  | .forget file => ⟨h.files.remove file, h.log ++ [.forgotten file], h.allocated⟩

def after (h : FileHistory) : List FileRequest → FileHistory
  | [] => h
  | request :: requests => (h.ask request).after requests

/-- The table has kept step with what was asked of it. -/
def Tracks (h : FileHistory) : Prop := h.files.Tracks h.log h.allocated

variable {h : FileHistory}

/-- An empty table has kept step with an empty log. -/
theorem tracks_start : start.Tracks := by
  refine ⟨rfl, ?_, List.nodup_nil, List.nodup_nil, ?_, ?_, ?_, ?_, ?_, ?_⟩ <;>
    simp [start, Files.empty, FileLog.Spells, FileLog.Live, FileLog.NumbersByPath, FileLog.Tells,
      Files.lines?]

theorem allocated_le_ask (h : FileHistory) (request : FileRequest) :
    h.allocated ≤ (h.ask request).allocated := by
  cases request with
  | number path =>
    show h.allocated ≤ allocatedWith h.files h.allocated path
    rw [allocatedWith]
    split <;> omega
  | tell file text => exact Nat.le_refl _
  | forget file => exact Nat.le_refl _

/-- Requests never give numbers back. -/
theorem allocated_le_after (h : FileHistory) (requests : List FileRequest) :
    h.allocated ≤ (h.after requests).allocated := by
  induction requests generalizing h with
  | nil => exact Nat.le_refl _
  | cons request requests ih => exact Nat.le_trans (h.allocated_le_ask request) (ih _)

/-- A request keeps the table in step, while numbers are left. -/
theorem Tracks.ask (hh : h.Tracks) {request : FileRequest}
    (hleft : (h.ask request).allocated < UInt32.size) : (h.ask request).Tracks := by
  cases request with
  | number path =>
    replace hleft : allocatedWith h.files h.allocated path < UInt32.size := hleft
    show (h.files.fileId path).2.Tracks (h.log ++ [.numbered path (h.files.fileId path).1])
      (allocatedWith h.files h.allocated path)
    rw [allocatedWith] at hleft ⊢
    rw [Files.fileId]
    cases hfind : h.files.find? path with
    | some file => exact Files.Tracks.recall hh hfind
    | none => exact Files.Tracks.allocate hh hfind (by simpa [hfind] using hleft)
  | tell file text => exact Files.Tracks.setText hh file text
  | forget file => exact Files.Tracks.remove hh file

/-- And so do any requests. -/
theorem Tracks.after (hh : h.Tracks) {requests : List FileRequest}
    (hleft : (h.after requests).allocated < UInt32.size) : (h.after requests).Tracks := by
  induction requests generalizing h with
  | nil => exact hh
  | cons request requests ih =>
    have hask := Nat.lt_of_le_of_lt (allocated_le_after (h.ask request) requests) hleft
    exact ih (hh.ask hask) hleft

end FileHistory

/-! ### Workspaces -/

/-- A request to a workspace that can change it. -/
inductive WorkspaceRequest where
  | number (path : String)
  | tell (file : FileId) (text : String)
  | load (d : Document)
  | unload (file : FileId)

/-- A workspace with what was asked of its table of files so far. To unload a file forgets it,
whether or not it has a document. -/
structure WorkspaceHistory where
  workspace : Workspace
  log : FileLog
  /-- How many times a path got a new number. -/
  allocated : Nat

namespace WorkspaceHistory

def start (settings : Settings) : WorkspaceHistory := ⟨.empty settings, [], 0⟩

def ask (h : WorkspaceHistory) : WorkspaceRequest → WorkspaceHistory
  | .number path =>
    ⟨(h.workspace.fileId path).2, h.log ++ [.numbered path (h.workspace.fileId path).1],
      FileHistory.allocatedWith h.workspace.files h.allocated path⟩
  | .tell file text => ⟨h.workspace.setText file text, h.log ++ [.told file text], h.allocated⟩
  | .load d => { h with workspace := h.workspace.setDocument d }
  | .unload file => ⟨h.workspace.removeDocument file, h.log ++ [.forgotten file], h.allocated⟩

def after (h : WorkspaceHistory) : List WorkspaceRequest → WorkspaceHistory
  | [] => h
  | request :: requests => (h.ask request).after requests

/-- The history of the table of files. -/
def onFiles (h : WorkspaceHistory) : FileHistory := ⟨h.workspace.files, h.log, h.allocated⟩

end WorkspaceHistory

/-- What a request to a workspace asks of its table of files. -/
def WorkspaceRequest.onFiles : WorkspaceRequest → List FileRequest
  | .number path => [.number path]
  | .tell file text => [.tell file text]
  | .load _ => []
  | .unload file => [.forget file]

namespace WorkspaceHistory

/-- A workspace passes each request on to its table of files. -/
theorem onFiles_ask (h : WorkspaceHistory) (request : WorkspaceRequest) :
    (h.ask request).onFiles = h.onFiles.after request.onFiles := by
  cases request <;> rfl

theorem after_append (h : FileHistory) (requests requests' : List FileRequest) :
    h.after (requests ++ requests') = (h.after requests).after requests' := by
  induction requests generalizing h with
  | nil => rfl
  | cons request requests ih => exact ih _

/-- And so it does with any requests, one after the other. -/
theorem onFiles_after (h : WorkspaceHistory) (requests : List WorkspaceRequest) :
    (h.after requests).onFiles = h.onFiles.after (requests.flatMap (·.onFiles)) := by
  induction requests generalizing h with
  | nil => rfl
  | cons request requests ih =>
    rw [List.flatMap_cons, after_append, ← onFiles_ask]
    exact ih _

end WorkspaceHistory

/-- **The table of files holds what its history says.** After any requests for fewer than 2 ^ 32
new numbers the paths and numbers that are known are those that are live in the log, looked up
inversely to each other and each path under its first spelling since it was last forgotten; a path
keeps its number until that is forgotten, and a number that was forgotten does not come back; and
the lines of a file are those of its last text. So it is in a workspace, where to unload a file
forgets it whether or not a document was loaded for it. -/
theorem Workspace.files_recount (settings : Settings) :
    (∀ requests, (FileHistory.start.after requests).allocated < UInt32.size →
      (FileHistory.start.after requests).files.Recounts
        (FileHistory.start.after requests).log) ∧
    ∀ requests, ((WorkspaceHistory.start settings).after requests).allocated < UInt32.size →
      ((WorkspaceHistory.start settings).after requests).workspace.files.Recounts
        ((WorkspaceHistory.start settings).after requests).log := by
  constructor
  · intro requests hleft
    exact (FileHistory.tracks_start.after hleft).recounts
  · intro requests hleft
    have honFiles : ((WorkspaceHistory.start settings).after requests).onFiles =
        FileHistory.start.after (requests.flatMap (·.onFiles)) :=
      WorkspaceHistory.onFiles_after (.start settings) requests
    have htracks : ((WorkspaceHistory.start settings).after requests).onFiles.Tracks := by
      rw [honFiles]
      refine FileHistory.tracks_start.after ?_
      rw [← honFiles]
      exact hleft
    exact Files.Tracks.recounts htracks

/-- A file that is told, unloaded without having a document, and asked for again. -/
def WorkspaceRequest.ofReopened : List WorkspaceRequest :=
  [.number "/a", .tell ⟨0⟩ "module a", .unload ⟨0⟩, .number "/a/"]

theorem Workspace.files_recount_ofReopened :
    let requests := WorkspaceRequest.ofReopened.flatMap (·.onFiles)
    let table := FileHistory.start.after requests
    let history := (WorkspaceHistory.start .default).after WorkspaceRequest.ofReopened
    table.allocated < UInt32.size ∧ history.allocated < UInt32.size ∧
      table.files.Recounts table.log ∧ history.workspace.files.Recounts history.log ∧
      history.workspace.files.find? "/a" = some ⟨1⟩ ∧ history.workspace.lines? ⟨0⟩ = none := by
  intro requests table history
  have htable : table.allocated < UInt32.size := by decide
  have hhistory : history.allocated < UInt32.size := by decide
  exact ⟨htable, hhistory, (Workspace.files_recount .default).1 requests htable,
    (Workspace.files_recount .default).2 WorkspaceRequest.ofReopened hhistory,
    by decide, by decide⟩

end Schemata
