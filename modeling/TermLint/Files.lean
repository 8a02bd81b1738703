/-
  TermLint.Files

  Directories and files, as far as opening a log asks about them.  A path is read
  from the root or from the working directory, name by name; opening a file for
  appending makes the directories on the way and the file itself.
-/

import TermLint.Text.Cut

namespace TermLint

/-- The directories and files there are, each as the names that lead to it from the root, which is
always a directory. -/
structure Files where
  directories : List (List String)
  regular : List (List String)
  /-- The directories in which, at any depth, nothing can be made. -/
  closed : List (List String)
  deriving DecidableEq, Repr

namespace Files

/-- Whether there is a directory at a place. -/
def hasDirectory (files : Files) (place : List String) : Bool :=
  place.isEmpty || files.directories.contains place

/-- Whether there is a file at a place. -/
def hasFile (files : Files) (place : List String) : Bool :=
  files.regular.contains place

/-- Whether something can be made in the directory at a place. -/
def isOpen (files : Files) (place : List String) : Bool :=
  !files.closed.any (·.isPrefixOf place)

/-- With a directory at a place. -/
def addDirectory (files : Files) (place : List String) : Files :=
  if files.hasDirectory place then files
  else { files with directories := place :: files.directories }

/-- With a file at a place. -/
def addFile (files : Files) (place : List String) : Files :=
  if files.hasFile place then files else { files with regular := place :: files.regular }

/-! ## Paths -/

/-- What stands between the slashes of a path. -/
def segments (path : String) : List String :=
  (Text.pieces '/' path.toList).map String.ofList

/-- Where a path starts: at the root or in the working directory. -/
def start (working : List String) (path : String) : List String :=
  if path.toList.head? = some '/' then [] else working

/-- A segment that leads nowhere: an empty one or a single point. -/
def isIdle (segment : String) : Bool :=
  segment == "" || segment == "."

/-- The names that a path leads through. -/
def steps (path : String) : List String :=
  (segments path).filter fun name => !isIdle name

/-- The path to the directory in which the last name of a path stands. -/
def directoryOf (path : String) : String :=
  let inner := ((segments path).reverse.dropWhile isIdle).tail.dropWhile isIdle
  String.intercalate "/" inner.reverse

/-- A path that can be followed at all: a longer one is refused before its names are looked at, and
so is one with a zero in it. -/
def isPath (path : String) : Bool :=
  path.utf8ByteSize < 4096 && !path.toList.contains '\x00'

/-- A name that a file or directory can have. -/
def isName (name : String) : Bool :=
  !isIdle name && name != ".." && name.utf8ByteSize ≤ 255

/-- Make the directories that names lead through from a place on, and give the place they lead to;
a file in the way stops it. -/
def makeDirectories (place : List String) : List String → Files → Files × Option (List String)
  | [], files => (files, some place)
  | name :: rest, files =>
    if name = ".." then makeDirectories place.dropLast rest files
    else
      let inner := place ++ [name]
      if files.hasDirectory inner then makeDirectories inner rest files
      else if isName name && !files.hasFile inner && files.isOpen place then
        makeDirectories inner rest (files.addDirectory inner)
      else (files, none)

/-- Make the file at a path in a directory, unless it is there or something else is; the flag says
whether it is there now. -/
def makeFile (directory : List String) (path : String) (files : Files) : Files × Bool :=
  let name := (segments path).getLast?.getD ""
  let place := directory ++ [name]
  if isPath path && isName name && !files.hasDirectory place &&
      (files.hasFile place || files.isOpen directory) then
    (files.addFile place, true)
  else (files, false)

/-- Open the file at a path for appending, making it and its directory where they are missing; the
flag says whether it is open. -/
def openFile (working : List String) (path : String) (files : Files) : Files × Bool :=
  if isPath (directoryOf path) then
    match makeDirectories (start working path) (steps path).dropLast files with
    | (files, none) => (files, false)
    | (files, some directory) => files.makeFile directory path
  else (files, false)

/-- Open the first file of several that can be opened. -/
def openFirst (working : List String) : List String → Files → Files × Option String
  | [], files => (files, none)
  | path :: rest, files =>
    match files.openFile working path with
    | (files, true) => (files, some path)
    | (files, false) => openFirst working rest files

end Files
end TermLint
