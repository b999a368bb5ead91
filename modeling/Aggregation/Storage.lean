import Aggregation.Bag
import Aggregation.Text.Split

/-! Storage: the files of one directory, and what can go wrong with them.

Paths name the directory by `Storage.root`, or are relative to it. Outside of it there are the
standard directories of a system and two devices: on one every write fails, the other takes all
that is written and is always empty. The directory holds files only, so a longer path leads
nowhere. -/
namespace Aggregation

/-- What a file holds: text, or bytes that are none. -/
inductive Content where
  | text (cs : List Char)
  | bytes

structure Storage where
  files : Bag Content

namespace Storage

inductive Failure where
  | notFound
  | notDirectory
  | isDirectory
  | noSpace
  | nameTooLong
  | nullInName
  | notText

def Failure.text : Failure → String
  | .notFound => "No such file or directory (os error 2)"
  | .notDirectory => "Not a directory (os error 20)"
  | .isDirectory => "Is a directory (os error 21)"
  | .noSpace => "No space left on device (os error 28)"
  | .nameTooLong => "File name too long (os error 36)"
  | .nullInName => "file name contained an unexpected NUL byte"
  | .notText => "stream did not contain valid UTF-8"

/-- The directory's own path. -/
def root : String := "<dir>"

def empty : Storage := ⟨Bag.empty⟩

/-- A path inside the directory. -/
def path (file : String) : String :=
  if file.toList.head? = some '/' then file else root ++ "/" ++ file

/-! ### Paths -/

/-- The pieces of a path between its slashes. -/
def pieces (cs : List Char) : List String :=
  ((Text.split '/' cs).filter fun piece => piece != []).map String.ofList

/-- What a path is followed for. -/
inductive Access where
  | reading
  /-- What is not there is created. -/
  | appending
  deriving DecidableEq

/-- Where a path leads. -/
inductive Place where
  | file (name : String)
  | fullDevice
  | nullDevice
  | nowhere (failure : Failure)

/-- The bytes of the directory's real path. -/
def rootBytes : Nat := 15

/-- A path takes fewer bytes than this. -/
def pathLimit : Nat := 4096

/-- The greatest number of bytes in a name. -/
def nameLimit : Nat := 255

/-- What a path finds that goes on behind a file, or ends in a slash there. -/
def beyondFile (access : Access) (more closed : Bool) (place : Place) : Place :=
  if more then .nowhere .notDirectory
  else if closed then .nowhere (if access = .appending then .isDirectory else .notDirectory)
  else place

/-- Where the pieces of a path inside the directory lead; `closed` if the path ends in a slash. A
point stands for the directory it is in. -/
def inside (s : Storage) (access : Access) (closed : Bool) : List String → Place
  | [] => .nowhere .isDirectory
  | name :: rest =>
    if name = "." then s.inside access closed rest
    else if nameLimit < name.utf8ByteSize then .nowhere .nameTooLong
    else if name = ".." then .nowhere (if rest.isEmpty then .isDirectory else .notFound)
    else if (s.files.get? name).isSome then beyondFile access (!rest.isEmpty) closed (.file name)
    else if !rest.isEmpty then .nowhere .notFound
    else if closed then .nowhere (if access = .appending then .isDirectory else .notFound)
    else .file name

/-- The standard directories of a system. -/
def directories : List String :=
  ["bin", "boot", "dev", "etc", "home", "lib", "mnt", "opt", "proc", "root", "run", "sbin", "srv",
   "sys", "tmp", "usr", "var"]

/-- Where the pieces of a path outside the directory lead. -/
def outside (access : Access) (closed : Bool) : List String → Place
  | [] => .nowhere .isDirectory
  | name :: rest =>
    if name = "." || name = ".." then outside access closed rest
    else if nameLimit < name.utf8ByteSize then .nowhere .nameTooLong
    else if !directories.contains name then .nowhere .notFound
    else
      match rest.dropWhile (· == ".") with
      | [] => .nowhere .isDirectory
      | entry :: rest =>
        if nameLimit < entry.utf8ByteSize then .nowhere .nameTooLong
        else if name = "dev" && entry = "full" then
          beyondFile access (!rest.isEmpty) closed .fullDevice
        else if name = "dev" && entry = "null" then
          beyondFile access (!rest.isEmpty) closed .nullDevice
        else .nowhere .notFound

def locate (s : Storage) (access : Access) (path : String) : Place :=
  let cs := path.toList
  let closed := cs.getLast? = some '/'
  let base := root.toList
  let rooted := cs.take base.length = base
  let bytes := if rooted then rootBytes + (path.utf8ByteSize - root.utf8ByteSize) else path.utf8ByteSize
  if cs.any fun c => c.toNat == 0 then .nowhere .nullInName
  else if cs.isEmpty then .nowhere .notFound
  else if pathLimit ≤ bytes then .nowhere .nameTooLong
  else if rooted then s.inside access closed (pieces (cs.drop base.length))
  else if cs.head? = some '/' then outside access closed (pieces cs)
  else s.inside access closed (pieces cs)

/-! ### Reading and appending -/

/-- The text of a file. -/
def read (s : Storage) (path : String) : Except Failure (List Char) :=
  match s.locate .reading path with
  | .nowhere failure => .error failure
  | .fullDevice => .error .notText
  | .nullDevice => .ok []
  | .file name =>
    match s.files.get? name with
    | some (.text cs) => .ok cs
    | some .bytes => .error .notText
    | none => .error .notFound

/-- Open a file for appending; it is created if it is not there. -/
def openForAppend (s : Storage) (path : String) : Except Failure Storage :=
  match s.locate .appending path with
  | .nowhere failure => .error failure
  | .fullDevice => .ok s
  | .nullDevice => .ok s
  | .file name =>
    match s.files.get? name with
    | some _ => .ok s
    | none => .ok ⟨s.files.put name (.text [])⟩

/-- Append text to a file. -/
def append (s : Storage) (path : String) (cs : List Char) : Except Failure Storage :=
  match s.locate .appending path with
  | .nowhere failure => .error failure
  | .fullDevice => .error .noSpace
  | .nullDevice => .ok s
  | .file name =>
    match s.files.get? name with
    | some (.text held) => .ok ⟨s.files.put name (.text (held ++ cs))⟩
    | some .bytes => .ok s
    | none => .ok ⟨s.files.put name (.text cs)⟩

end Storage

end Aggregation
