import Schemata.Document.Id
import Schemata.Source.Lines
import Schemata.Source.Path

/-!
# The table of files

`Files` hands out a number for each path and keeps the lines of the texts it is told. A number that
was handed out stays with its path until the file is forgotten, and is not used again: the same path
then gets a new one. Paths and numbers are looked up in a map each, and a change has to keep the two
in step.
-/

namespace Schemata

/-- The paths that are known and the texts that are known. A text can be recorded for a file that
has no path. -/
structure Files where
  /-- The numbers, by the paths as first spelled. -/
  numbers : List (String × FileId)
  /-- The paths as first spelled, by their numbers. -/
  paths : List (FileId × String)
  texts : List (FileId × Lines)
  /-- The number that the next new path gets. It is 32 bits wide, and begins again at zero when they
  are used up. -/
  next : Nat
  deriving Repr

namespace Files

/-- No file. -/
def empty : Files := ⟨[], [], [], 0⟩

/-- The file of a path that is known. -/
def find? (fs : Files) (path : String) : Option FileId :=
  (fs.numbers.find? fun e ↦ Path.same e.1 path).map (·.2)

/-- The next number, for a path that is not known. -/
def allocate (fs : Files) (path : String) : Files :=
  let file : FileId := ⟨fs.next⟩
  { fs with
    numbers := (path, file) :: fs.numbers
    paths := (file, path) :: fs.paths.filter (·.1 != file)
    next := (fs.next + 1) % UInt32.size }

/-- The file of a path, which is made known if it is not. -/
def fileId (fs : Files) (path : String) : FileId × Files :=
  match fs.find? path with
  | some file => (file, fs)
  | none => (⟨fs.next⟩, fs.allocate path)

/-- The path of a file, as first spelled. -/
def path? (fs : Files) (file : FileId) : Option String := fs.paths.lookup file

/-- Records the text of a file in place of an earlier one. -/
def setText (fs : Files) (file : FileId) (text : String) : Files :=
  { fs with texts := (file, Lines.ofText text) :: fs.texts.filter (·.1 != file) }

/-- The lines of the text of a file. -/
def lines? (fs : Files) (file : FileId) : Option Lines := fs.texts.lookup file

/-- Forgets the path and the text of a file. -/
def remove (fs : Files) (file : FileId) : Files :=
  { fs with
    numbers := match fs.path? file with
      | some path => fs.numbers.filter fun e ↦ !Path.same e.1 path
      | none => fs.numbers
    paths := fs.paths.filter (·.1 != file)
    texts := fs.texts.filter (·.1 != file) }

/-- The number of known paths. -/
def size (fs : Files) : Nat := fs.numbers.length

def isEmpty (fs : Files) : Bool := fs.size == 0

end Files

end Schemata
