import ClassAtlas.Engine

/-!
File trees held in memory, for engines whose snapshots are not on a disk. A path is a list of names
between slashes; a dot stays where it is and two dots go up. Every name but the last must be that of a
directory, and so must the last if a slash follows it. Main statements: what is written at an entry is
read there, and no other entry changes (`FileTree.find?_put`).
-/

namespace ClassAtlas

inductive FileEntry
  | file (content : List UInt8)
  | directory
deriving DecidableEq

/-- The entries below the working directory by their names from there; the first one counts. -/
structure FileTree where
  entries : List (List String × FileEntry) := []

namespace FileTree

/-- Parts of a path between slashes; a slash at the end leaves an empty part. -/
def splitPath : List Char → List (List Char)
  | [] => [[]]
  | c :: rest =>
    if c = '/' then [] :: splitPath rest
    else match splitPath rest with
      | [] => [[c]]
      | part :: parts => (c :: part) :: parts

def parts (path : String) : List String := (splitPath path.toList).map String.ofList

/-- Where a path leads: to an entry of the tree, or to a directory outside of it. -/
inductive Place
  | inside (names : List String)
  | outside
deriving DecidableEq

/-- The entry of a list of names; without names it is the working directory itself. -/
def find? (t : FileTree) (names : List String) : Option FileEntry :=
  if names.isEmpty then some .directory else t.entries.lookup names

def entryAt (t : FileTree) : Place → Except ReadFailure FileEntry
  | .outside => .ok .directory
  | .inside names => match t.find? names with
    | some entry => .ok entry
    | none => .error .notFound

/-- One part further from a place. -/
def Place.next (p : Place) (part : String) : Except ReadFailure Place :=
  if part = "" || part = "." then .ok p
  else match p with
    | .inside names =>
      if part = ".." then .ok (if names.isEmpty then .outside else .inside names.dropLast)
      else .ok (.inside (names ++ [part]))
    | .outside => if part = ".." then .ok .outside else .error .notFound

/-- Follows the parts of a path; each is taken from a directory. -/
def follow (t : FileTree) (p : Place) : List String → Except ReadFailure Place
  | [] => .ok p
  | part :: more => do
    match ← t.entryAt p with
    | .file _ => .error .notDirectory
    | .directory => t.follow (← p.next part) more

/-- Where a path leads. The empty path leads nowhere, and one that starts with a slash outside. -/
def place (t : FileTree) (path : String) : Except ReadFailure Place :=
  if path = "" then .error .notFound
  else if path.toList.head? = some '/' then t.follow .outside (parts path)
  else t.follow (.inside []) (parts path)

/-- The text of the file at a path. -/
def read (t : FileTree) (path : String) : FileText := do
  match ← t.entryAt (← t.place path) with
  | .directory => .error .isDirectory
  | .file content => FileText.ofBytes content

def put (t : FileTree) (names : List String) (entry : FileEntry) : FileTree :=
  ⟨(names, entry) :: t.entries⟩

theorem find?_put (t : FileTree) {names : List String} (h : names ≠ []) (entry : FileEntry)
    (others : List String) :
    (t.put names entry).find? others = if others = names then some entry else t.find? others := by
  unfold put find?
  by_cases e : others = names
  · simp [e, h]
  · simp [e, List.lookup_cons, beq_eq_false_iff_ne.2 e]

/-- The names that a path has besides dots and empty parts. -/
def names (path : String) : List String := (parts path).filter fun part => part ≠ "" && part ≠ "."

/-- Every nonempty beginning of a list of names but the whole. -/
def ancestors (names : List String) : List (List String) :=
  (List.range names.length).tail.map names.take

/-- Makes the directories above a list of names where there is no entry. -/
def reach (t : FileTree) (names : List String) : FileTree :=
  (ancestors names).foldl
    (fun t above => if (t.find? above).isSome then t else t.put above .directory) t

/-- Writes a file, and the directories above it where they are missing. -/
def write (t : FileTree) (path : String) (content : List UInt8) : FileTree :=
  (t.reach (names path)).put (names path) (.file content)

def makeDirectory (t : FileTree) (path : String) : FileTree :=
  (t.reach (names path)).put (names path) .directory

/-- Removes the entry of a path and all that stands below it. -/
def remove (t : FileTree) (path : String) : FileTree :=
  ⟨t.entries.filter fun (found, _) => !(names path).isPrefixOf found⟩

end FileTree

end ClassAtlas
