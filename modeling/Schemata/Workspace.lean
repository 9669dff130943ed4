import Schemata.Snapshot
import Schemata.Source.Files

/-!
# Workspaces

A workspace is what an editor session holds: the files it knows, the documents it has loaded, and
the settings of its analysis. Questions are not asked of a workspace but of a `Snapshot` of it.
-/

namespace Schemata

/-- The state of an editor session. -/
structure Workspace where
  files : Files
  catalog : Catalog
  settings : Settings
  deriving Repr

namespace Workspace

/-- A workspace that knows no file. -/
def empty (settings : Settings) : Workspace := ⟨.empty, .empty, settings⟩

/-- The file of a path, which is made known if it is not. -/
def fileId (w : Workspace) (path : String) : FileId × Workspace :=
  let (file, files) := w.files.fileId path
  (file, { w with files })

/-- Records the text of a file in place of an earlier one. -/
def setText (w : Workspace) (file : FileId) (text : String) : Workspace :=
  { w with files := w.files.setText file text }

/-- The lines of the text of a file. -/
def lines? (w : Workspace) (file : FileId) : Option Lines := w.files.lines? file

/-- Loads a document. -/
def setDocument (w : Workspace) (d : Document) : Workspace :=
  { w with catalog := w.catalog.insert d }

/-- Unloads the document of a file, which is a change only if there is one, and forgets the path and
the text of the file. -/
def removeDocument (w : Workspace) (file : FileId) : Workspace :=
  { w with
    files := w.files.remove file
    catalog := if w.catalog.contains file then w.catalog.erase file else w.catalog }

/-- The present moment. -/
def snapshot (w : Workspace) : Snapshot := ⟨w.catalog, w.settings⟩

end Workspace

end Schemata
