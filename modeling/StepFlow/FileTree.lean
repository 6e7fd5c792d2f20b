/-!
# File trees

A file tree is what a working directory holds.  Paths are resolved in it component by component:
every component but the last has to be a directory, and `..` leads out of one.  Nothing is known
about the world outside the working directory, so nothing is found there.
-/

namespace StepFlow

/-- Why a file cannot be read as text. -/
inductive FileFault where
  | notFound
  | isADirectory
  | notADirectory
  /-- The path has a character that no path can have. -/
  | invalidInput
  | invalidFilename
  /-- The content is not text. -/
  | invalidData
  deriving DecidableEq, Repr

def FileFault.title : FileFault → String
  | notFound => "NotFound"
  | isADirectory => "IsADirectory"
  | notADirectory => "NotADirectory"
  | invalidInput => "InvalidInput"
  | invalidFilename => "InvalidFilename"
  | invalidData => "InvalidData"

inductive FileTree where
  | file (content : ByteArray)
  | directory (entries : List (String × FileTree))

namespace FileTree

def empty : FileTree := directory []

/-- The parts of a path between slashes. -/
def components (path : String) : List String := path.splitOn "/"

/-- What a directory holds under a name. -/
def entry? (tree : FileTree) (name : String) : Option FileTree :=
  match tree with
  | file _ => none
  | directory entries => (entries.find? fun entry => entry.1 == name).map Prod.snd

/-- Puts something into a directory under a name. -/
def putEntry (tree : FileTree) (name : String) (content : FileTree) : FileTree :=
  match tree with
  | file _ => directory [(name, content)]
  | directory entries =>
      directory (entries.filter (fun entry => entry.1 != name) ++ [(name, content)])

/-- Changes what stands under a path of plain names, by way of directories that are made if they are
not there. -/
def update (tree : FileTree) (change : FileTree → FileTree) : (path : List String) → FileTree
  | [] => change tree
  | name :: path => tree.putEntry name (update ((tree.entry? name).getD empty) change path)

/-- Makes a directory, unless there is something already. -/
def makeDirectory (tree : FileTree) (path : List String) : FileTree := tree.update id path

/-- The plain names that lead to the same place as the given components, after those in `names`,
which are in reverse. -/
def plainNames (names : List String) : List String → List String
  | [] => names.reverse
  | component :: rest =>
      if component = "" ∨ component = "." then plainNames names rest
      else if component = ".." then plainNames names.tail rest
      else plainNames (component :: names) rest

/-- Writes a file, together with the directories that its path passes. -/
def write (tree : FileTree) (path : String) (content : ByteArray) : FileTree :=
  let parts := components path
  let passed := (List.range parts.length).map fun count => plainNames [] (parts.take count)
  (passed.foldl makeDirectory tree).update (fun _ => file content) (plainNames [] parts)

/-- The longest name that a component can have, in bytes. -/
def longestName : Nat := 255

/-- The longest path that can be followed, in bytes. -/
def longestPath : Nat := 4095

/-- Follows the components of a path.  The directories passed on the way are in `outer`, innermost
first. -/
def follow (outer : List FileTree) (tree : FileTree) : (path : List String) →
    Except FileFault FileTree
  | [] => .ok tree
  | name :: path =>
      match tree with
      | file _ => .error .notADirectory
      | directory _ =>
          if name = "" ∨ name = "." then follow outer tree path
          else if name = ".." then
            match outer with
            | [] => follow [] empty path
            | parent :: outer => follow outer parent path
          else if longestName < name.utf8ByteSize then .error .invalidFilename
          else
            match tree.entry? name with
            | none => .error .notFound
            | some inner => follow (tree :: outer) inner path

/-- What a path names. -/
def resolve (tree : FileTree) (path : String) : Except FileFault FileTree :=
  if path.contains '\x00' then .error .invalidInput
  else if longestPath < path.utf8ByteSize then .error .invalidFilename
  else
    match components path with
    | [""] => .error .notFound
    | "" :: path => follow [] empty path
    | path => follow [] tree path

/-- Whether a path names anything. -/
def has (tree : FileTree) (path : String) : Bool :=
  match tree.resolve path with
  | .ok _ => true
  | .error _ => false

/-- The text of the file that a path names. -/
def readText (tree : FileTree) (path : String) : Except FileFault String :=
  match tree.resolve path with
  | .error fault => .error fault
  | .ok (directory _) => .error .isADirectory
  | .ok (file content) =>
      match String.fromUTF8? content with
      | some text => .ok text
      | none => .error .invalidData

end FileTree

/-! ## File names -/

/-- The name of the file that a path ends in.  A path that ends in `..`, or names no file at all,
has none. -/
def fileName? (path : String) : Option String :=
  match ((FileTree.components path).filter fun name => name ≠ "" ∧ name ≠ ".").getLast? with
  | some ".." => none
  | name => name

/-- A file name up to its last dot.  A dot at the beginning starts no extension. -/
def nameStem (name : String) : String :=
  let reversed := name.toList.reverse
  match reversed.dropWhile (· ≠ '.') with
  | [] | [_] => name
  | _ :: before => String.ofList before.reverse

/-- The stem of the file name in a path. -/
def fileStem? (path : String) : Option String := (fileName? path).map nameStem

end StepFlow
