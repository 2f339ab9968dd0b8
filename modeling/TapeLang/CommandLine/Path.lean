/-! # Paths

Paths as texts, and the extension of the name at the end of one.
-/

namespace TapeLang.CommandLine

/-- A path in reverse, without the slashes and single dots behind its file name. -/
def dropDirectoryMarks : List Char → List Char
  | '/' :: rest => dropDirectoryMarks rest
  | '.' :: '/' :: rest => dropDirectoryMarks rest
  | rest => rest

/-- The name at the end of a path and what stands before it. Dots alone are no name. -/
def splitName? (path : List Char) : Option (List Char × List Char) :=
  let reversed := dropDirectoryMarks path.reverse
  let name := (reversed.takeWhile (· != '/')).reverse
  if name = [] ∨ name = ['.'] ∨ name = ['.', '.'] then none
  else some ((reversed.dropWhile (· != '/')).reverse, name)

/-- A file name without its last extension. A dot at its start begins no extension. -/
def fileStem (name : List Char) : List Char :=
  match name.reverse.dropWhile (· != '.') with
  | _ :: stem => if stem = [] then name else stem.reverse
  | [] => name

/-- How many characters stand behind the dot of the last extension. -/
def extensionLength (path : List Char) : Nat :=
  match splitName? path with
  | some (_, name) => name.length - (fileStem name).length - 1
  | none => 0

/-- Give the name at the end of a path another extension. A path without a name stays. -/
def setExtension (extension : String) (path : List Char) : String :=
  match splitName? path with
  | some (before, name) => String.ofList (before ++ fileStem name) ++ "." ++ extension
  | none => String.ofList path

/-- The path with its extension replaced. The old one goes before the new one is set, so a name such
as `..a` is cut to two dots and gets none. -/
def withExtension (path extension : String) : String :=
  let chars := path.toList
  setExtension extension (chars.take (chars.length - extensionLength chars))

end TapeLang.CommandLine
