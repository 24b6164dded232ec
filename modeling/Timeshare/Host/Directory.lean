/-!
# Opening files

A directory is described by the files in it, each under its path, and what opening a path gives
follows from that: there are the directories that the paths of files lead through, and no others.
A path is walked from left to right, name by name; only from a directory can the walk go on.  Of
what surrounds the described directory, nothing is known but that it consists of directories: a
walk may end or turn around there, and finds nothing in it by name.
-/

namespace Timeshare

inductive OpenFailure
  /-- The path holds a NUL, which no name can. -/
  | nulByte
  | missing
  /-- The reader may not look at the file. -/
  | denied
  /-- The path goes on behind a file. -/
  | notDirectory
  | isDirectory
  /-- The path, or a name on it, is longer than it can be. -/
  | nameTooLong
  | other (explanation : String)

namespace OpenFailure

def message : OpenFailure → String
  | nulByte => "file name contained an unexpected NUL byte"
  | missing => "No such file or directory (os error 2)"
  | denied => "Permission denied (os error 13)"
  | notDirectory => "Not a directory (os error 20)"
  | isDirectory => "Is a directory (os error 21)"
  | nameTooLong => "File name too long (os error 36)"
  | other explanation => explanation

end OpenFailure

inductive Place
  /-- In a directory that is not described: one around the described directory. -/
  | outside
  /-- In the described directory, or in the one below it that these names lead to. -/
  | inside (names : List String)
  | file (bytes : List UInt8)

namespace Place

/-- The directory around a place.  Around the described directory is the outside, and around that
is more of it. -/
def parent : Place → Place
  | .inside (name :: names) => .inside (name :: names).dropLast
  | _ => .outside

end Place

/-- A directory with everything below it: the files, each with the names on its path. -/
structure Directory where
  files : List (List String × List UInt8)

namespace Directory

def nameLimit : Nat := 255

def pathLimit : Nat := 4095

/-- Whether a name on a path stays where it is. -/
def isNeutral (name : String) : Bool :=
  name = "" || name = "."

/-- The directory of these files, each given with its path. -/
def ofFiles (files : List (String × List UInt8)) : Directory where
  files := files.map fun file =>
    ((file.1.splitOn "/").filter fun name => !isNeutral name, file.2)

def fileAt? (directory : Directory) (names : List String) : Option (List UInt8) :=
  (directory.files.find? fun file => file.1 = names).map Prod.snd

/-- Whether the path of a file leads through these names. -/
def isDirectoryAt (directory : Directory) (names : List String) : Bool :=
  directory.files.any fun file => names.isPrefixOf file.1 && file.1 != names

def enter (directory : Directory) (place : Place) (name : String) : Except OpenFailure Place :=
  match place with
  | .outside => .error .missing
  | .inside names =>
    match directory.fileAt? (names ++ [name]) with
    | some bytes => .ok (.file bytes)
    | none =>
      if directory.isDirectoryAt (names ++ [name]) then .ok (.inside (names ++ [name]))
      else .error .missing
  | .file _ => .error .notDirectory

/-- Takes one step of a walk.  A file is left by no name, not even by one that is too long. -/
def step (directory : Directory) (place : Place) (name : String) : Except OpenFailure Place :=
  match place with
  | .file _ => .error .notDirectory
  | place =>
    if nameLimit < name.utf8ByteSize then .error .nameTooLong
    else if isNeutral name then .ok place
    else if name = ".." then .ok place.parent
    else directory.enter place name

/-- The place that a path leads to.  A path that starts with a slash starts outside. -/
def walk (directory : Directory) (path : String) : Except OpenFailure Place :=
  (path.splitOn "/").foldlM directory.step (if path.startsWith "/" then .outside else .inside [])

/-- The bytes of the file that a path leads to.  The path itself is looked at before the first
step. -/
def read (directory : Directory) (path : String) : Except OpenFailure (List UInt8) := do
  if path.toList.any fun c => c.toNat = 0 then throw .nulByte
  if path.isEmpty then throw .missing
  if pathLimit < path.utf8ByteSize then throw .nameTooLong
  match ← directory.walk path with
  | .file bytes => return bytes
  | .inside _ | .outside => throw .isDirectory

end Directory

end Timeshare
