/-!
# Files and directories

A file tree holds the files and directories that were made in a working directory.  A path is
followed segment by segment, from the working directory or from the root of the system.  The
directories above the working directory exist, but the tree knows nothing else outside of it.
-/

namespace FieldRules

/-- Why a text cannot be read from a file or the standard input. -/
inductive ReadError where
  | notFound
  | notDirectory
  | isDirectory
  | notText
  deriving DecidableEq, Repr

def ReadError.message : ReadError → String
  | .notFound => "No such file or directory (os error 2)"
  | .notDirectory => "Not a directory (os error 20)"
  | .isDirectory => "Is a directory (os error 21)"
  | .notText => "stream did not contain valid UTF-8"

def pathSegments : List Char → List (List Char)
  | [] => [[]]
  | character :: rest =>
      if character = '/' then [] :: pathSegments rest
      else
        match pathSegments rest with
        | [] => [[character]]
        | segment :: later => (character :: segment) :: later

/-- A directory from which names lead to a place. -/
inductive Base where
  /-- The directory so many levels above the working directory. -/
  | above (levels : Nat)
  | root
  deriving DecidableEq, Repr

structure Location where
  base : Base
  names : List (List Char)
  deriving DecidableEq, Repr

namespace Location

def here : Location := ⟨.above 0, []⟩

def root : Location := ⟨.root, []⟩

/-- The directory that holds the place; the root holds itself. -/
def parent (location : Location) : Location :=
  if location.names.isEmpty then
    match location.base with
    | .above levels => ⟨.above (levels + 1), []⟩
    | .root => location
  else { location with names := location.names.dropLast }

def follow (location : Location) (segment : List Char) : Location :=
  if segment = [] ∨ segment = ['.'] then location
  else if segment = ['.', '.'] then location.parent
  else { location with names := location.names ++ [segment] }

def startOf : (path : List Char) → Location
  | '/' :: _ => root
  | _ => here

end Location

inductive Entry where
  | directory
  | file (content : ByteArray)

/-- The files and directories below a working directory, the latest first. -/
structure FileTree where
  entries : List (Location × Entry)

namespace FileTree

def empty : FileTree := ⟨[]⟩

def entry? (tree : FileTree) (location : Location) : Option Entry :=
  if location.names.isEmpty then some .directory
  else tree.entries.lookup location

/-- Follows one segment of a path, which only a directory allows. -/
def follow (tree : FileTree) (location : Location) (segment : List Char) :
    Except ReadError Location :=
  match tree.entry? location with
  | some .directory => .ok (location.follow segment)
  | some (.file _) => .error .notDirectory
  | none => .error .notFound

def read (tree : FileTree) (path : String) : Except ReadError ByteArray :=
  ((pathSegments path.toList).foldlM tree.follow (Location.startOf path.toList)).bind
    fun location =>
      match tree.entry? location with
      | some (.file content) => .ok content
      | some .directory => .error .isDirectory
      | none => .error .notFound

def makeDirectory (tree : FileTree) (location : Location) : FileTree :=
  match tree.entry? location with
  | some _ => tree
  | none => ⟨(location, .directory) :: tree.entries⟩

def makeDirectories (tree : FileTree) (location : Location) :
    (segments : List (List Char)) → FileTree × Location
  | [] => (tree, location)
  | segment :: rest =>
      let next := location.follow segment
      (tree.makeDirectory next).makeDirectories next rest

/-- Writes a file, after making the directories that its path leads through. -/
def write (tree : FileTree) (path : String) (content : ByteArray) : FileTree :=
  let segments := pathSegments path.toList
  let (tree, directory) :=
    tree.makeDirectories (Location.startOf path.toList) segments.dropLast
  ⟨(directory.follow (segments.getLastD []), .file content) :: tree.entries⟩

/-- The tree in which files were written one after the other. -/
def ofFiles (files : List (String × ByteArray)) : FileTree :=
  files.foldl (fun tree (path, content) => tree.write path content) empty

end FileTree
end FieldRules
