import Interlinear.Text.Parts
import Interlinear.Text.Quoted

/-!
# Files

To a run of the program the disk is what it answers for each path: what there is, and the bytes of a
file, or why there are none.  A file that can be opened can be read to its end.  A small tree of
files is such a disk.  In it paths go down through directories and up again; above its own directory
and from the root nothing is found.

Texts are stored in UTF-8.  All line ends are read as line feeds.
-/

namespace Interlinear.Project

/-- Why a file cannot be read. -/
inductive FileFault where
  /-- The system refuses, for a cause with a number. -/
  | refused (number : Nat) (cause : String)
  /-- The path has a null character in it, so the system cannot be asked. -/
  | nullInPath
deriving DecidableEq

namespace FileFault

def notFound : FileFault :=
  .refused 2 "No such file or directory"

def accessDenied : FileFault :=
  .refused 13 "Permission denied"

def notDirectory : FileFault :=
  .refused 20 "Not a directory"

def isDirectory : FileFault :=
  .refused 21 "Is a directory"

def nameTooLong : FileFault :=
  .refused 36 "File name too long"

def message (path : String) : FileFault → String
  | refused number cause =>
      "[Errno " ++ toString number ++ "] " ++ cause ++ ": " ++ Text.quoted path
  | nullInPath => "embedded null byte"

end FileFault

/-- What there is at a path. -/
structure Entry where
  isFile : Bool
  isReadable : Bool

structure Disk where
  entry : String → Except FileFault Entry
  read : String → Except FileFault ByteArray

/-- The disk on which there is what reading tells. -/
def Disk.ofRead (read : String → Except FileFault ByteArray) : Disk where
  entry path :=
    match read path with
    | .ok _ => .ok ⟨true, true⟩
    | .error fault =>
        if fault = .isDirectory then .ok ⟨false, true⟩
        else if fault = .accessDenied then .ok ⟨false, false⟩
        else .error fault
  read := read

/-- Files by their names from the directory of the tree. -/
structure FileTree where
  files : List (List String × ByteArray)

namespace FileTree

/-- The tree of files with the names given; of two with one name the last counts. -/
def ofList (files : List (String × ByteArray)) : FileTree :=
  ⟨(files.map fun (name, content) =>
    ((Text.parts '/' name.toList).map String.ofList, content)).reverse⟩

def isDirectory (tree : FileTree) (names : List String) : Bool :=
  tree.files.any fun (other, _) => names.length < other.length && other.take names.length == names

/-- The longest name in a path, in bytes. -/
def longestName : Nat := 255

/-- The longest path, in bytes. -/
def longestPath : Nat := 4095

/-- Follows the names of a path from a directory, whose own names are given innermost first. -/
def follow (tree : FileTree) : (directory : List String) → List String →
    Except FileFault ByteArray
  | _, [] => .error .isDirectory
  | directory, name :: names =>
      if name = "" ∨ name = "." then tree.follow directory names
      else if name = ".." then
        match directory with
        | [] => .error .notFound
        | _ :: outer => tree.follow outer names
      else if longestName < name.utf8ByteSize then .error .nameTooLong
      else
        let place := (name :: directory).reverse
        match tree.files.lookup place with
        | some content => if names.isEmpty then .ok content else .error .notDirectory
        | none =>
            if tree.isDirectory place then tree.follow (name :: directory) names
            else .error .notFound

def read (tree : FileTree) (path : String) : Except FileFault ByteArray :=
  if path.toList.contains '\x00' then .error .nullInPath
  else if longestPath < path.utf8ByteSize then .error .nameTooLong
  else
    match path.toList with
    | [] | '/' :: _ => .error .notFound
    | cs => tree.follow [] ((Text.parts '/' cs).map String.ofList)

def disk (tree : FileTree) : Disk :=
  .ofRead tree.read

end FileTree

/-- Reads all line ends as line feeds, after what has been read already, which is kept in reverse.
-/
def uniformLinesAfter (read : List Char) : List Char → List Char
  | [] => read.reverse
  | '\r' :: '\n' :: cs => uniformLinesAfter ('\n' :: read) cs
  | c :: cs => uniformLinesAfter ((if c = '\r' then '\n' else c) :: read) cs

def uniformLines (cs : List Char) : List Char :=
  uniformLinesAfter [] cs

/-- The text in some bytes, if they are in UTF-8. -/
def decodeText? (bytes : ByteArray) : Option String :=
  (String.fromUTF8? bytes).map fun text => String.ofList (uniformLines text.toList)

end Interlinear.Project
