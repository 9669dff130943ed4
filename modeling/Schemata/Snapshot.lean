import Schemata.Catalog
import Schemata.Settings

/-!
# Snapshots

A snapshot fixes the documents and the settings of one moment. Questions are asked of a snapshot, so
an answer never changes while documents are loaded and unloaded elsewhere.
-/

namespace Schemata

/-- The loaded documents of one moment, and the settings of the analysis. -/
structure Snapshot where
  catalog : Catalog
  settings : Settings
  deriving Repr

/-- Some documents under the settings of an analysis that is told nothing. -/
def Snapshot.ofDocuments (ds : List Document) : Snapshot := ⟨.ofDocuments ds, .default⟩

end Schemata
