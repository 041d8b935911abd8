import DesignMarkup.Entries
import DesignMarkup.Files.Path
import DesignMarkup.Text.Utf8

/-!
# `Files.Store` — files and folders

A store holds files and folders at their places, with one folder as the working folder. Operations take
paths, go through them component by component, and fail as a file system does: with the first reason met
on the way. What an operation has changed stays changed if a later one fails.

An operation fails before it opens a file, or not at all. Links, permissions, and devices that fail in the middle
of a write, which leaves a part of the new content, are not described.

## Contents

* `FileFault`, `FileError`: why an operation fails;
* `Store`, `Store.find`, `Store.resolve`: places and the way to them;
* `Store.has`, `Store.read`: what stands at a path;
* `Filing`: computations on a store;
* `makeFolder`, `makeFolders`, `putFile`, `writeFile`: the operations;
* `Store.seed`, `Store.empty`, `Store.remove`: stores from given files;
* `Store.listing`: the files below the working folder.
-/

namespace DesignMarkup

/-! ## Errors -/

/-- Why an operation on files fails: a reason that is met on the way to a place, before anything is opened
there. -/
inductive FileFault where
  | notFound
  | occupied
  | notFolder
  | isFolder
  | nameTooLong
  deriving DecidableEq, Repr

/-- The number and the wording of a fault. -/
def FileFault.message : FileFault → String
  | .notFound => "[Errno 2] No such file or directory"
  | .occupied => "[Errno 17] File exists"
  | .notFolder => "[Errno 20] Not a directory"
  | .isFolder => "[Errno 21] Is a directory"
  | .nameTooLong => "[Errno 36] File name too long"

/-- Why an operation on a path fails. -/
inductive FileError where
  /-- The file system refuses the path. -/
  | fault (fault : FileFault) (path : String)
  /-- The path holds a null character, which no path may. -/
  | nullInPath
  deriving DecidableEq, Repr

/-- The wording of an error. -/
def FileError.message : FileError → String
  | .fault f path => f.message ++ ": " ++ Text.quoted path
  | .nullInPath => "embedded null byte"

/-! ## Stores -/

/-- What stands at a place. -/
inductive Entry where
  | file (content : ByteArray)
  | folder

instance : DecidableEq Entry
  | .file x, .file y =>
    match ByteArray.instDecidableEq x y with
    | .isTrue h => .isTrue (congrArg Entry.file h)
    | .isFalse h => .isFalse fun e => h (Entry.file.inj e)
  | .file _, .folder => .isFalse nofun
  | .folder, .file _ => .isFalse nofun
  | .folder, .folder => .isTrue rfl

/-- Files and folders by their places, and the working folder. -/
structure Store where
  workingFolder : List String
  entries : List (List String × Entry)
  deriving DecidableEq

namespace Store

/-- What stands at a place; at the root there is always a folder. -/
def find (s : Store) (place : List String) : Option Entry :=
  if place = [] then some .folder else Entries.get? place s.entries

/-- An entry put at a place. -/
def put (s : Store) (place : List String) (e : Entry) : Store :=
  { s with entries := Entries.put place e s.entries }

/-- The longest component in bytes. -/
def maxComponent : Nat :=
  255

/-- The longest written path in bytes. -/
def maxPath : Nat :=
  4095

/-- The way from a place along components. Every place that is left behind must be a folder; where the
way ends there may be nothing. -/
def walk (s : Store) (place : List String) : List String → Except FileFault (List String)
  | [] => .ok place
  | c :: rest =>
    match s.find place with
    | none => .error .notFound
    | some (.file _) => .error .notFolder
    | some .folder =>
      if c = ".." then s.walk place.dropLast rest
      else if maxComponent < c.utf8ByteSize then .error .nameTooLong
      else s.walk (place ++ [c]) rest

/-- The place at the end of a path. -/
def resolve (s : Store) (p : Path) : Except FileError (List String) :=
  if p.parts.any fun c => c.toList.contains '\x00' then .error .nullInPath
  else if maxPath < p.text.utf8ByteSize then .error (.fault .nameTooLong p.text)
  else
    let start := if p.root = "" then s.workingFolder else []
    (s.walk start p.parts).mapError (.fault · p.text)

/-- There is a file or a folder at a path. A way that is blocked leads to nothing, but a path or a
component that is too long is an error. -/
def has (s : Store) (p : Path) : Except FileError Bool :=
  match s.resolve p with
  | .ok place => .ok (s.find place).isSome
  | .error (.fault .nameTooLong path) => .error (.fault .nameTooLong path)
  | .error _ => .ok false

/-- There is a folder at a path. -/
def hasFolder (s : Store) (p : Path) : Except FileError Bool :=
  match s.resolve p with
  | .ok place => .ok (s.find place == some .folder)
  | .error (.fault .nameTooLong path) => .error (.fault .nameTooLong path)
  | .error _ => .ok false

/-- The content of the file at a path. -/
def read (s : Store) (p : Path) : Except FileError ByteArray := do
  match s.find (← s.resolve p) with
  | some (.file content) => return content
  | some .folder => throw (.fault .isFolder p.text)
  | none => throw (.fault .notFound p.text)

end Store

/-! ## Operations -/

/-- A computation on a store; its changes outlive a failure. -/
abbrev Filing := ExceptT FileError (StateM Store)

/-- Puts an entry at a place. -/
def putEntry (place : List String) (e : Entry) : Filing Unit :=
  modify fun s => s.put place e

/-- The place of a path in the store as it is. -/
def resolveNow (p : Path) : Filing (List String × Option Entry) := do
  let s ← get
  let place ← s.resolve p
  return (place, s.find place)

/-- Makes a folder; its place must be free and the folder above it must be there. -/
def makeFolder (p : Path) : Filing Unit := do
  let (place, found) ← resolveNow p
  match found with
  | some _ => throw (.fault .occupied p.text)
  | none =>
    match (← get).find place.dropLast with
    | some .folder => putEntry place .folder
    | some (.file _) => throw (.fault .notFolder p.text)
    | none => throw (.fault .notFound p.text)

/-- Passes over a failure at a path where a folder stands already. -/
def unlessFolder (p : Path) (e : FileError) : Filing Unit := do
  match e with
  | .nullInPath => throw e
  | _ => if ← (← get).hasFolder p then return () else throw e

/-- Makes a folder unless it is there, and the folders above it before; `reversed` are the components
of the path from the last to the first. -/
def makeFoldersAt (root : String) : List String → Filing Unit
  | [] => do
    let p : Path := ⟨root, []⟩
    tryCatch (makeFolder p) (unlessFolder p)
  | c :: above => do
    let p : Path := ⟨root, (c :: above).reverse⟩
    tryCatch (makeFolder p) fun e =>
      match e with
      | .fault .notFound _ => do
        makeFoldersAt root above
        tryCatch (makeFolder p) fun e =>
          match e with
          | .fault .notFound _ => throw e
          | e => unlessFolder p e
      | e => unlessFolder p e

/-- **Makes a folder unless it is there**, and the folders above it before. -/
def makeFolders (p : Path) : Filing Unit :=
  makeFoldersAt p.root p.parts.reverse

/-- Writes a file whose folder must be there. -/
def putFile (p : Path) (content : ByteArray) : Filing Unit := do
  let (place, found) ← resolveNow p
  match found with
  | some .folder => throw (.fault .isFolder p.text)
  | some (.file _) => putEntry place (.file content)
  | none =>
    match (← get).find place.dropLast with
    | some .folder => putEntry place (.file content)
    | some (.file _) => throw (.fault .notFolder p.text)
    | none => throw (.fault .notFound p.text)

/-- **Writes a text file** and makes the folders above it. -/
def writeFile (p : Path) (content : String) : Filing Unit := do
  makeFolders p.parent
  putFile p (Text.encodeUtf8 content)

/-- The store after an operation, whether or not it failed. -/
def Store.after {α : Type} (s : Store) (m : Filing α) : Store :=
  (m.run s).2

/-- Files put into the store with the folders above them. -/
def Store.seed (s : Store) (files : List (String × ByteArray)) : Store :=
  files.foldl (fun s (path, content) =>
    let p := Path.read path
    s.after do
      makeFolders p.parent
      putFile p content) s

/-- Folders made in the store. -/
def Store.seedFolders (s : Store) (folders : List String) : Store :=
  folders.foldl (fun s path => s.after (makeFolders (Path.read path))) s

/-- A store in which the working folder and the folders above it are empty. -/
def Store.empty (workingFolder : List String) : Store :=
  (Store.mk [] []).seedFolders ["/" ++ "/".intercalate workingFolder] |> fun s =>
    { s with workingFolder }

/-- Takes away the file at a path, if there is one. -/
def Store.remove (s : Store) (p : Path) : Store :=
  match s.resolve p with
  | .ok place => { s with entries := s.entries.filter fun e => e.1 ≠ place }
  | .error _ => s

/-! ## Listing -/

/-- The components below the working folder, if the place lies there. -/
def Store.below? (s : Store) (place : List String) : Option (List String) :=
  if s.workingFolder.isPrefixOf place then some (place.drop s.workingFolder.length) else none

/-- The files below the working folder by their relative paths. -/
def Store.listing (s : Store) : List (String × ByteArray) :=
  s.entries.filterMap fun (place, e) =>
    match s.below? place, e with
    | some (c :: parts), .file content => some (Path.text ⟨"", c :: parts⟩, content)
    | _, _ => none

/-- The files below the working folder that are new or have other content than in `old`. -/
def Store.changedSince (s old : Store) : List (String × ByteArray) :=
  let before := old.listing
  s.listing.filter fun (path, content) => Entries.get? path before != some content

end DesignMarkup
