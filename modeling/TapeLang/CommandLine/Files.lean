import TapeLang.CommandLine.Path

/-! # Files

The files of a working directory inside the tree of the system, and what the system says when one
cannot be opened.
-/

namespace TapeLang.CommandLine

inductive SystemError
  | noSuchFile
  | notDirectory
  | isDirectory
  | noSpace
  | nameTooLong
  | notText
  | other (reason : String)
  deriving DecidableEq, Repr

def SystemError.message : SystemError → String
  | .noSuchFile => "No such file or directory (os error 2)"
  | .notDirectory => "Not a directory (os error 20)"
  | .isDirectory => "Is a directory (os error 21)"
  | .noSpace => "No space left on device (os error 28)"
  | .nameTooLong => "File name too long (os error 36)"
  | .notText => "stream did not contain valid UTF-8"
  | .other reason => reason

inductive Device
  /-- Takes everything and keeps nothing; nothing comes from it. -/
  | void
  /-- Takes nothing. -/
  | full
  | standardInput
  | standardOutput
  | standardError
  deriving DecidableEq, Repr

/-- What stands at a place. -/
inductive Node
  | directory
  | file (bytes : ByteArray)
  | device (device : Device)

/-- Where written bytes go. -/
inductive Destination
  | file (name : String)
  | device (device : Device)
  deriving DecidableEq, Repr

/-- What a source is read from. -/
inductive Origin
  | bytes (bytes : ByteArray)
  | standardInput

/-- The names from the root of the tree to a place, the last one first. -/
abbrev Place := List String

/-- The working directory lies two levels below the root, under a name that no path can spell. -/
def workingDirectory : Place := ["", "tmp"]

/-- The way from the working directory to a place inside it. -/
def fromWorkingDirectory? (place : Place) : Option (List String) :=
  match place.reverse with
  | "tmp" :: "" :: parts => some parts
  | _ => none

def systemDirectories : List String :=
  ["bin", "boot", "dev", "etc", "home", "lib", "lib64", "media", "mnt", "opt", "proc", "root",
    "run", "sbin", "srv", "sys", "tmp", "usr", "var"]

def devices : List (String × Device) :=
  [("null", .void), ("full", .full), ("stdin", .standardInput), ("stdout", .standardOutput),
    ("stderr", .standardError)]

/-- Files by their ways from the working directory. -/
structure Files where
  entries : List (String × ByteArray) := []

namespace Files

def get? (files : Files) (name : String) : Option ByteArray := files.entries.lookup name

def set (files : Files) (name : String) (bytes : ByteArray) : Files :=
  ⟨(name, bytes) :: files.entries.filter (·.1 != name)⟩

/-- Whether a way leads to a directory: the working directory, or one on the way to a file. -/
def isDirectory (files : Files) (parts : List String) : Bool :=
  parts.isEmpty || files.entries.any fun e =>
    let own := e.1.splitOn "/"
    parts.length < own.length && own.take parts.length == parts

def node? (files : Files) (place : Place) : Option Node :=
  match fromWorkingDirectory? place with
  | some parts =>
    match files.get? ("/".intercalate parts) with
    | some bytes => some (.file bytes)
    | none => if files.isDirectory parts then some .directory else none
  | none =>
    match place with
    | [] => some .directory
    | [name] => if name ∈ systemDirectories then some .directory else none
    | [name, "dev"] => (devices.lookup name).map .device
    | _ => none

/-- Longest name of a file, in bytes. -/
def maxName : Nat := 255

/-- Longest path, in bytes. -/
def maxPath : Nat := 4095

/-- The place that a name leads to from a directory. The root is its own parent. -/
def enter (directory : Place) (name : String) : Except SystemError Place :=
  if name = "." then .ok directory
  else if name = ".." then .ok directory.tail
  else if name.utf8ByteSize ≤ maxName then .ok (name :: directory)
  else .error .nameTooLong

/-- Go through directories. -/
def walk (files : Files) : List String → Place → Except SystemError Place
  | [], place => .ok place
  | name :: rest, place =>
    match enter place name with
    | .error e => .error e
    | .ok next =>
      match files.node? next with
      | some .directory => files.walk rest next
      | some _ => .error .notDirectory
      | none => .error .noSuchFile

/-- The directory that a path starts from. -/
def startOf (path : String) : Place := if path.startsWith "/" then [] else workingDirectory

/-- The directory that holds the last name of a path, and that name. -/
def locate (files : Files) (path : String) : Except SystemError (Place × String) :=
  if path = "" then .error .noSuchFile
  else if maxPath < path.utf8ByteSize then .error .nameTooLong
  else
    let parts := (path.splitOn "/").filter (· ≠ "")
    match files.walk parts.dropLast (startOf path) with
    | .error e => .error e
    | .ok directory => .ok (directory, parts.getLast?.getD ".")

def read (files : Files) (path : String) : Except SystemError Origin := do
  let (directory, name) ← files.locate path
  match files.node? (← enter directory name) with
  | none => .error .noSuchFile
  | some .directory => .error .isDirectory
  | some node =>
    if path.endsWith "/" then .error .notDirectory
    else
      match node with
      | .file bytes => .ok (.bytes bytes)
      | .device .standardInput => .ok .standardInput
      | _ => .ok (.bytes .empty)

/-- Open a file for writing. Its directory must be there. What is written outside the working
directory is not kept. -/
def create (files : Files) (path : String) : Except SystemError Destination := do
  let (directory, name) ← files.locate path
  if name = "." ∨ name = ".." ∨ path.endsWith "/" then .error .isDirectory
  else
    let place ← enter directory name
    match files.node? place, fromWorkingDirectory? place with
    | some .directory, _ => .error .isDirectory
    | some (.device device), _ => .ok (.device device)
    | _, some parts => .ok (.file ("/".intercalate parts))
    | _, none => .ok (.device .void)

end Files

end TapeLang.CommandLine
