import Metamodel.Writer

/-!
# Files

The files that a run can see: a directory with files and directories in it, and the space that is
left for what is written. Paths lead from that directory from place to place, one name after
another. The way up and the root are directories too, in which nothing else is seen but what is
listed: a device that is always full can stand anywhere. The failures have the words and numbers of
the operating system.
-/

namespace Metamodel.Command

/-- Why a file cannot be used. -/
inductive FileError where
  /-- There is nothing of that name. -/
  | notFound
  /-- A file stands where a directory is needed. -/
  | notDirectory
  /-- A directory stands where a file is needed. -/
  | isDirectory
  /-- A name is too long. -/
  | nameTooLong
  /-- A name holds a character that ends names. -/
  | nameInterrupted
  /-- The bytes of a file are not text in UTF-8. -/
  | notText
  /-- Another failure, in the words of the operating system. -/
  | other (words : String)
deriving DecidableEq, Repr

namespace FileError

/-- The failure in words. -/
def message : FileError → String
  | notFound => "No such file or directory (os error 2)"
  | notDirectory => "Not a directory (os error 20)"
  | isDirectory => "Is a directory (os error 21)"
  | nameTooLong => "File name too long (os error 36)"
  | nameInterrupted => "file name contained an unexpected NUL byte"
  | notText => "stream did not contain valid UTF-8"
  | other words => words

end FileError

/-- A place, by the names that lead to it from the directory. Above the directory are the places
whose names are all `..`. -/
abbrev Place := List String

namespace Place

/-- The root, at which paths with a slash in front start. -/
def root : Place := ["/"]

/-- The place is the root, or the directory itself, or lies above it. -/
def isOutward (place : Place) : Bool :=
  place = root || place.all (· = "..")

/-- The place around a place. -/
def parent (place : Place) : Place :=
  if place = root then root
  else if place.isOutward then place ++ [".."]
  else place.dropLast

end Place

/-- What stands at a place. -/
inductive Entry where
  /-- A file with its content. -/
  | file (content : Bytes)
  /-- A directory. -/
  | directory
  /-- A device on which there is never space, and from which zeros can be read without end. -/
  | fullDevice
deriving DecidableEq, Repr

/-- The files that a run can see. -/
structure Files where
  /-- What stands at which place. -/
  entries : List (Place × Entry)
  /-- The number of bytes that can still be written; no bound if there is none. -/
  room : Option Nat
deriving DecidableEq, Repr

namespace Files

/-- What stands at a place. Directories on the way to an entry need not be listed. -/
def entry? (files : Files) (place : Place) : Option Entry :=
  if place.isOutward then some .directory
  else
    match files.entries.lookup place with
    | some entry => some entry
    | none =>
      if files.entries.any (fun e => place.isPrefixOf e.1) then some .directory else none

/-- The number of bytes that a name may have. -/
def nameLimit : Nat := 255

/-- The number of bytes that a path may have. -/
def pathLimit : Nat := 4095

/-- The place that a name leads to from a directory. -/
def enter (files : Files) (place : Place) (name : String) : Except FileError Place :=
  if name = "" ∨ name = "." then .ok place
  else if name = ".." then .ok place.parent
  else if nameLimit < name.utf8ByteSize then .error .nameTooLong
  else
    match files.entry? (place ++ [name]) with
    | some .directory => .ok (place ++ [name])
    | some _ => .error .notDirectory
    | none => .error .notFound

/-- Where a path leads to. -/
structure Goal where
  /-- The place of the directory. -/
  place : Place
  /-- The last name of the path. -/
  name : String
  /-- A slash follows the last name, so that it has to be the name of a directory. -/
  hasSlash : Bool
deriving DecidableEq, Repr

namespace Goal

/-- The last name means a directory, whatever there is. -/
def isDirectory (goal : Goal) : Bool :=
  goal.name = "" || goal.name = "." || goal.name = ".."

/-- The place that the last name leads to. -/
def full (goal : Goal) : Place :=
  goal.place ++ [goal.name]

end Goal

/-- The names of a path: the texts between its slashes, some of which may be empty. -/
def pathNames (path : String) : List String :=
  let names := path.toList.foldr
    (fun c names => if c = '/' then [] :: names else names.modifyHead (c :: ·)) [[]]
  names.map String.ofList

/-- Where a path leads to. -/
def resolve (files : Files) (path : String) : Except FileError Goal :=
  let names := pathNames path
  let trimmed := (names.reverse.dropWhile (· = "")).reverse
  if '\x00' ∈ path.toList then .error .nameInterrupted
  else if pathLimit < path.utf8ByteSize then .error .nameTooLong
  else if path = "" then .error .notFound
  else
    let start : Place := if names.head? = some "" then .root else []
    (trimmed.dropLast.foldlM files.enter start).map fun place =>
      ⟨place, trimmed.getLastD "", trimmed.length < names.length⟩

/-- The failure of a read that does not end. -/
def outOfMemory : String := "out of memory"

/-- The content of the file at a path. -/
def read (files : Files) (path : String) : Except FileError Bytes := do
  let goal ← files.resolve path
  if goal.isDirectory then .error .isDirectory
  else if nameLimit < goal.name.utf8ByteSize then .error .nameTooLong
  else
    match files.entry? goal.full with
    | some (.file content) => if goal.hasSlash then .error .notDirectory else .ok content
    | some .directory => .error .isDirectory
    | some .fullDevice =>
      if goal.hasSlash then .error .notDirectory else .error (.other outOfMemory)
    | none => .error .notFound

/-- The text of the file at a path. -/
def readText (files : Files) (path : String) : Except FileError String := do
  let content ← files.read path
  match bytesText? content with
  | some text => .ok text
  | none => .error .notText

/-- The files with another content at a place. -/
def put (files : Files) (place : Place) (content : Bytes) : Files :=
  if files.entries.any (·.1 = place) then
    { files with
      entries := files.entries.map fun e => if e.1 = place then (place, .file content) else e }
  else { files with entries := files.entries ++ [(place, .file content)] }

/-- The files with an empty file at a path, and its place. A file that is there loses its content;
a missing one is made if its directory is there. A device stays as it is. -/
def create (files : Files) (path : String) : Except FileError (Files × Place) := do
  let goal ← files.resolve path
  if goal.isDirectory || goal.hasSlash then .error .isDirectory
  else if nameLimit < goal.name.utf8ByteSize then .error .nameTooLong
  else
    match files.entry? goal.full with
    | some .directory => .error .isDirectory
    | some .fullDevice => .ok (files, goal.full)
    | _ => .ok (files.put goal.full [], goal.full)

/-- The failure of a write for which there is no space. -/
def noSpace : String := "No space left on device (os error 28)"

/-- The content at a place; empty if there is no file. -/
def contentAt (files : Files) (place : Place) : Bytes :=
  match files.entries.lookup place with
  | some (.file content) => content
  | _ => []

/-- There is no space for the file at a place. -/
def isFull (files : Files) (place : Place) : Bool :=
  files.room = some 0 || files.entry? place = some .fullDevice

/-- The writer that appends to the file at a place as long as there is space. -/
def writer (place : Place) : Writer Files where
  write files bytes :=
    if files.isFull place then (files, .error noSpace)
    else
      match files.room with
      | none => (files.put place (files.contentAt place ++ bytes), .ok bytes.length)
      | some room =>
        let taken := bytes.take room
        let left := some (room - taken.length)
        ({ files.put place (files.contentAt place ++ taken) with room := left }, .ok taken.length)

end Files

end Metamodel.Command
