import RuleFlow.Storage.Keyed
/-! # Files

Files and directories below a base directory, as far as stores use them: directories are made along a path, files are
written and read whole, and a directory is listed.  A name has at most 255 bytes and a whole path at most 4095, and
neither holds a NUL.  Files that were put there by others need not hold text. -/
namespace RuleFlow

inductive FileError | notADirectory | isADirectory | alreadyExists | nameTooLong | badName
  deriving DecidableEq, Repr

/-- The number, the name and the text of a refusal by the system; a name with NUL does not reach the system. -/
def FileError.cause : FileError → Option Nat × String × String
  | .notADirectory => (some 20, "NotADirectory", "Not a directory")
  | .isADirectory => (some 21, "IsADirectory", "Is a directory")
  | .alreadyExists => (some 17, "AlreadyExists", "File exists")
  | .nameTooLong => (some 36, "InvalidFilename", "File name too long")
  | .badName => (none, "InvalidInput", "file name contained an unexpected NUL byte")

def FileError.text (e : FileError) : String :=
  match e.cause with
  | (some number, _, text) => text ++ " (os error " ++ toString number ++ ")"
  | (none, _, text) => text

/-- What a path names: a file with a text, a file with other bytes, which cannot be read as a text, or a directory. -/
inductive FileEntry
  | file (text : String)
  | binary
  | directory
  deriving DecidableEq, Repr

/-- A path below the base directory, by its names. -/
abbrev FilePath := List String

/-- Joins a name to the text of a path.  An absolute path in place of the name stands for itself. -/
def FilePath.join (path name : String) : String :=
  if name.toList.head? = some '/' then name
  else if path = "" ∨ path.toList.getLast? = some '/' then path ++ name
  else path ++ "/" ++ name

/-- Files and directories by their paths.  The base directory has the empty path; it is made, with those above it, when
something is first made in it. -/
structure FileTree where
  base : String := "."
  entries : List (FilePath × FileEntry) := []

namespace FileTree

def get? (t : FileTree) (path : FilePath) : Option FileEntry := t.entries.lookup path

def set (t : FileTree) (path : FilePath) (entry : FileEntry) : FileTree :=
  { t with entries := Keyed.put Prod.fst (path, entry) t.entries }

def isTooLong (name : String) : Bool := 255 < name.utf8ByteSize

def text (t : FileTree) (path : FilePath) : String := path.foldl FilePath.join t.base

def refusal? (t : FileTree) (path : FilePath) : Option FileError :=
  if '\x00' ∈ (t.text path).toList then some .badName
  else if 4095 < (t.text path).utf8ByteSize then some .nameTooLong
  else none

/-- Follows names from a directory on.  Where there is nothing on the way, no further name is looked at. -/
def follow (t : FileTree) (directory : FilePath) : List String → Except FileError (Option FileEntry)
  | [] => .ok (t.get? directory)
  | name :: rest =>
    match t.get? directory with
    | none => .ok none
    | some (.file _) => .error .notADirectory
    | some .binary => .error .notADirectory
    | some .directory => if isTooLong name then .error .nameTooLong else t.follow (directory ++ [name]) rest

def find (t : FileTree) (path : FilePath) : Except FileError (Option FileEntry) :=
  match t.refusal? path with
  | some e => .error e
  | none => t.follow [] path

def isFile (t : FileTree) (path : FilePath) : Bool :=
  match t.get? path with
  | some (.file _) => true
  | some .binary => true
  | some .directory => false
  | none => false

def ensure (t : FileTree) (path : FilePath) : FileTree :=
  if t.get? path = none then t.set path .directory else t

/-- Makes a directory and those along names below it, as far as they are not there yet. -/
def makeAlong (t : FileTree) (directory : FilePath) : List String → Except FileError Unit × FileTree
  | [] => if t.isFile directory then (.error .alreadyExists, t) else (.ok (), t.ensure directory)
  | name :: rest =>
    if t.isFile directory then (.error .notADirectory, t)
    else if isTooLong name then (.error .nameTooLong, t.ensure directory)
    else (t.ensure directory).makeAlong (directory ++ [name]) rest

/-- Makes a directory and those that it lies in, the base directory first. -/
def makeDirectories (t : FileTree) (path : FilePath) : Except FileError Unit × FileTree :=
  match t.refusal? path with
  | some e => (.error e, t)
  | none => t.makeAlong [] path

def write (t : FileTree) (directory : FilePath) (name text : String) : Except FileError Unit × FileTree :=
  match t.refusal? (directory ++ [name]) with
  | some e => (.error e, t)
  | none =>
    if isTooLong name then (.error .nameTooLong, t)
    else if t.get? (directory ++ [name]) = some .directory then (.error .isADirectory, t)
    else (.ok (), t.set (directory ++ [name]) (.file text))

/-- The name of an entry that lies directly in a directory. -/
def nameIn? (directory path : FilePath) : Option String :=
  match path.getLast? with
  | some name => if path.dropLast = directory then some name else none
  | none => none

def list (t : FileTree) (directory : FilePath) : List (String × FileEntry) :=
  t.entries.filterMap fun (path, entry) => (nameIn? directory path).map (·, entry)

def files (t : FileTree) : List (FilePath × String) :=
  t.entries.filterMap fun
    | (path, .file text) => some (path, text)
    | (_, .binary) => none
    | (_, .directory) => none

end FileTree

end RuleFlow
