import Harvest.FileSystem.Access

/-!
# Walks through directories

A directory lists the names in it in any order. A walk puts the names in each directory in order, and
goes into each entry before it comes to the next one.
-/

namespace Harvest

/-- The names that the system lists for each directory. -/
abbrev Listing := Location → List String

namespace FileSystem

/-- The names in the directory at a location. -/
def names (fs : FileSystem) : Listing := fun location =>
  fs.entries.filterMap fun entry => if entry.1.dropLast = location then entry.1.getLast? else none

/-- Puts a name into an ordered list of names. -/
def insertName (name : String) : List String → List String
  | [] => [name]
  | first :: rest => if name ≤ first then name :: first :: rest else first :: insertName name rest

/-- Names in order. -/
def inOrder : List String → List String
  | [] => []
  | name :: names => insertName name (inOrder names)

/-- What is below a location, down to a depth: the names on the way to each entry, an entry before what
is in it and siblings in the order of their names. -/
def walk (listing : Listing) : Nat → Location → List Location
  | 0, _ => []
  | depth + 1, location =>
    (inOrder (listing location)).flatMap fun name =>
      [name] :: (walk listing depth (location ++ [name])).map (name :: ·)

/-- How deep a file system is. -/
def height (fs : FileSystem) : Nat := fs.entries.foldr (fun entry deepest => max entry.1.length deepest) 0

/-- A file stands at a location. -/
def isFile (fs : FileSystem) (location : Location) : Bool :=
  match fs.entry? location with
  | some (.file _) => true
  | _ => false

/-- The names below a location that lead to files, in the order of a walk. -/
def filesBelow (fs : FileSystem) (listing : Listing) (location : Location) : List (List String) :=
  (walk listing fs.height location).filter fun names => fs.isFile (location ++ names)

/-- The files below the directory that a path leads to, each as the path continued by names. -/
def filesIn (fs : FileSystem) (listing : Listing) (path : Path) : List Path :=
  match fs.locate path with
  | .ok location => (fs.filesBelow listing location).map fun names =>
    names.foldl (fun base name => base.join ⟨name⟩) path
  | .error _ => []

end FileSystem

end Harvest
