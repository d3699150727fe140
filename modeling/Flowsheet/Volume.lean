/-!
# Files

A `Volume` is the tree of directories and files below the directory that a program works in, and
`Volume.readText` reads a file by its path from there, or says why it cannot be read. Paths are read
component by component: single dots and repeated slashes do not count, two dots lead one directory
up, and every directory on the way has to exist.

A volume is one way to have files among others. It does not know what lies above it, so it finds
nothing at paths that lead there, absolute ones among them.
-/

namespace Flowsheet

/-- Why a file cannot be read. -/
inductive FileError where
  /-- The path ends in no name. -/
  | noFileName
  /-- There is no such file or directory. -/
  | notFound
  /-- The file is a directory. -/
  | isDirectory
  /-- A directory on the way is none. -/
  | notDirectory
  /-- The content is no text. -/
  | notText
  deriving DecidableEq, Repr

/-- The wording of a file error. -/
def FileError.message : FileError → String
  | noFileName => "path has no file name"
  | notFound => "No such file or directory (os error 2)"
  | isDirectory => "Is a directory (os error 21)"
  | notDirectory => "Not a directory (os error 20)"
  | notText => "stream did not contain valid UTF-8"

/-- A directory tree, as the paths of its directories and files. -/
structure Volume where
  /-- The directories besides those that hold files. -/
  directories : List (List String)
  /-- The files with their contents. -/
  files : List (List String × ByteArray)

namespace Volume

/-- The parts between slashes: the first, and those after it. -/
def splitSlashes : List Char → List Char × List (List Char)
  | [] => ([], [])
  | c :: rest =>
    let (first, others) := splitSlashes rest
    if c = '/' then ([], first :: others) else (c :: first, others)

/-- The components of a path, without empty ones and single dots. -/
def components (path : String) : List String :=
  let (first, others) := splitSlashes path.toList
  ((first :: others).map fun cs => String.ofList cs).filter fun s => s != "" && s != "."

/-- Whether a path begins at the root of the system. -/
def isAbsolute (path : String) : Bool := path.toList.head? == some '/'

/-- The content of the file at a place. -/
def file? (v : Volume) (place : List String) : Option ByteArray :=
  (v.files.find? fun f => f.1 == place).map (·.2)

/-- Whether there is a directory at a place. -/
def isDirectory (v : Volume) (place : List String) : Bool :=
  place.isEmpty || v.directories.any (fun d => place.isPrefixOf d)
    || v.files.any fun f => place.isPrefixOf f.1 && f.1 != place

/-- One component further from a directory; `none` is a directory outside the volume. -/
def enter (v : Volume) (place : Option (List String)) (name : String) :
    Except FileError (Option (List String)) :=
  match place with
  | none => if name == ".." then .ok none else .error .notFound
  | some p =>
    if name == ".." then .ok (if p.isEmpty then none else some p.dropLast)
    else
      let next := p ++ [name]
      if v.isDirectory next then .ok (some next)
      else if (v.file? next).isSome then .error .notDirectory
      else .error .notFound

/-- The bytes of the file at a path. -/
def readBytes (v : Volume) (path : String) : Except FileError ByteArray := do
  let parts := components path
  match parts.getLast? with
  | none => throw .noFileName
  | some name =>
    if name == ".." then throw .noFileName
    let start := if isAbsolute path then none else some []
    let place ← parts.dropLast.foldlM v.enter start
    match place with
    | none => throw .notFound
    | some p =>
      match v.file? (p ++ [name]) with
      | some bytes => return bytes
      | none => throw (if v.isDirectory (p ++ [name]) then .isDirectory else .notFound)

/-- The text of the file at a path. -/
def readText (v : Volume) (path : String) : Except FileError String := do
  let bytes ← v.readBytes path
  match String.fromUTF8? bytes with
  | some text => return text
  | none => throw .notText

end Volume

end Flowsheet
