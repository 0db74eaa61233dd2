import ScopeLang.Text.Bytes
import ScopeLang.Text.Decimal

/-!
# Reading files

A `Directory` is the tree of directories and files below the working directory.
A path is resolved one component at a time: each step starts at a directory, `.`
stays and `..` goes up.  Storing a file makes every directory that its path
enters, also one that the path leaves again.  What lies above the working
directory is not described: it is a directory in which nothing else is found.
-/

namespace ScopeLang

/-- Why a script cannot be read. -/
inductive ReadError where
  | notFound
  | notDirectory
  | isDirectory
  | nameTooLong
  /-- The path holds a character that no file name can hold. -/
  | nulInPath
  /-- The bytes are not UTF-8. -/
  | notText
  /-- Any other failure, in the system's words. -/
  | other (words : String)
deriving DecidableEq, Repr

namespace ReadError

/-- The system's words and number for a failure. -/
def systemMessage (words : String) (code : Nat) : String :=
  words ++ " (os error " ++ Text.decimal code ++ ")"

/-- The wording of a read error. -/
def message : ReadError → String
  | .notFound => systemMessage "No such file or directory" 2
  | .notDirectory => systemMessage "Not a directory" 20
  | .isDirectory => systemMessage "Is a directory" 21
  | .nameTooLong => systemMessage "File name too long" 36
  | .nulInPath => "file name contained an unexpected NUL byte"
  | .notText => "stream did not contain valid UTF-8"
  | .other words => words

end ReadError

/-- The name of an entry of a directory. -/
abbrev Component := List Char

namespace Component

/-- The component that stays at a directory. -/
def here : Component := ['.']

/-- The component that goes up to the enclosing directory. -/
def up : Component := ['.', '.']

/-- Whether a component names an entry, and neither stays nor goes up. -/
def isName (component : Component) : Bool :=
  component ≠ here && component ≠ up

end Component

/-- The tree below the working directory.  A place in it is the list of names that
leads there. -/
structure Directory where
  /-- The directories below the working directory. -/
  directories : List (List Component)
  /-- The files, the latest first. -/
  files : List (List Component × ByteArray)

namespace Directory

/-- The working directory with nothing in it. -/
def empty : Directory where
  directories := []
  files := []

/-- The components of a path.  A path that ends in a slash names a directory, as
if a `.` followed. -/
def components (path : List Char) : List Component :=
  let parts := (path.splitOn '/').filter (· ≠ [])
  if path.getLast? = some '/' then parts ++ [Component.here] else parts

/-- The contents of the file at a place. -/
def file? (directory : Directory) (place : List Component) : Option ByteArray :=
  directory.files.lookup place

/-- Whether a place is a directory: the working directory, or one that was made. -/
def hasDirectory (directory : Directory) (place : List Component) : Bool :=
  place.isEmpty || directory.directories.contains place

/-- Where the resolution of a path has come to. -/
inductive Place where
  /-- Below the working directory. -/
  | inside (components : List Component)
  /-- Above the working directory. -/
  | outside
deriving DecidableEq, Repr

namespace Place

/-- Where the resolution of a path begins: a leading slash leaves the working
directory. -/
def start (path : List Char) : Place :=
  if path.head? = some '/' then .outside else .inside []

/-- The place to which a component leads, whether or not anything is there. -/
def move : Place → Component → Place
  | .outside, _ => .outside
  | .inside place, component =>
      if component = Component.here then .inside place
      else if component = Component.up then
        if place.isEmpty then .outside else .inside place.dropLast
      else .inside (place ++ [component])

end Place

/-- Make a directory; what lies above the working directory stays as it is. -/
def makeDirectory (directory : Directory) : Place → Directory
  | .inside place => { directory with directories := place :: directory.directories }
  | .outside => directory

/-- Store a file under a path that continues from a place, making each directory
on the way.  A path that does not end in a name stores nothing. -/
def insertFrom (directory : Directory) (contents : ByteArray) (place : Place) :
    List Component → Directory
  | [] => directory
  | [name] =>
      match place.move name with
      | .inside there =>
          if name.isName then { directory with files := (there, contents) :: directory.files }
          else directory
      | .outside => directory
  | component :: rest =>
      let there := place.move component
      (directory.makeDirectory there).insertFrom contents there rest

/-- The directory with one more file. -/
def insert (directory : Directory) (path : String) (contents : ByteArray) : Directory :=
  directory.insertFrom contents (Place.start path.toList) (components path.toList)

/-- The longest name of an entry, in bytes. -/
def maxComponent : Nat := 255

/-- The longest path, in bytes. -/
def maxPath : Nat := 4095

/-- Take one step of a path. -/
def step (directory : Directory) (place : Place) (component : Component) :
    Except ReadError Place :=
  match place with
  | .outside =>
      if !component.isName then .ok .outside
      else if maxComponent < Text.byteSize component then .error .nameTooLong
      else .error .notFound
  | .inside here =>
      if !directory.hasDirectory here then .error .notDirectory
      else if !component.isName then .ok (place.move component)
      else if maxComponent < Text.byteSize component then .error .nameTooLong
      else
        let there := here ++ [component]
        if directory.hasDirectory there || (directory.file? there).isSome then
          .ok (.inside there)
        else .error .notFound

/-- The contents of the file to which a path leads. -/
def read (directory : Directory) (path : String) : Except ReadError ByteArray :=
  let characters := path.toList
  if '\x00' ∈ characters then .error .nulInPath
  else if maxPath < Text.byteSize characters then .error .nameTooLong
  else if characters = [] then .error .notFound
  else do
    match ← (components characters).foldlM directory.step (Place.start characters) with
    | .outside => .error .isDirectory
    | .inside place =>
        match directory.file? place with
        | some contents => .ok contents
        | none => .error .isDirectory

end Directory

end ScopeLang
