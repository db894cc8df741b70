import CodeHighlight.Text.File
import CodeHighlight.Text.Path

/-!
# Disks

What a command sees of a file system: the folder it works in, and what lies at some paths. Paths are
resolved against that folder, without dots. A file can be written when its folder is there or can be
made.
-/

namespace CodeHighlight.CommandLine
open Text.Utf8 (Bytes)

/-- What lies at a path. -/
inductive Item where
  | file (bytes : Bytes)
  | folder

/-- A disk: the components of the path of the working folder, and what lies at resolved paths. -/
structure Disk where
  home : List String
  items : List (String × Item) := []

namespace Disk

/-- Follow components from a folder; two dots lead back by one. -/
def follow (start : List String) (components : List String) : List String :=
  components.foldl (fun path c => if c = ".." then path.dropLast else path ++ [c]) start

/-- Components as a path. -/
def joined (components : List String) : String := "/".intercalate components

/-- A path from the root or from the working folder, resolved. -/
def resolve (d : Disk) (path : String) : String :=
  if path.startsWith "/" then "/" ++ joined (follow [] (Text.Path.components path))
  else joined (follow d.home (Text.Path.components path))

/-- What lies at a resolved path. -/
def item? (d : Disk) (path : String) : Option Item := d.items.lookup path

/-- A file lies at a path. -/
def hasFile (d : Disk) (path : String) : Bool :=
  match d.item? path with
  | some (.file _) => true
  | _ => false

/-- A folder lies at a path. -/
def hasFolder (d : Disk) (path : String) : Bool :=
  match d.item? path with
  | some .folder => true
  | _ => false

/-- The text of a file. -/
def readText (d : Disk) (path : String) : Except Trace String :=
  match d.item? path with
  | some (.file bytes) => Text.ofFile bytes
  | some .folder =>
    .error (.plain (.system "IsADirectoryError")
      ("[Errno 21] Is a directory: " ++ Text.Quoted.quote path))
  | none =>
    .error (.plain (.system "FileNotFoundError")
      ("[Errno 2] No such file or directory: " ++ Text.Quoted.quote path))

/-- The folders around a resolved path, outermost first. -/
def foldersAround (path : String) : List String :=
  let parts := Text.cutAt '/' path.toList
  (List.range (parts.length - 1)).map fun i =>
    String.ofList (Text.joinWith ['/'] (parts.take (i + 1)))

/-- Why the folder of a file cannot be made: a file lies in its place or above it. -/
def obstacle? (d : Disk) (path : String) : Option Trace :=
  (foldersAround path).getLast?.bind fun parent =>
    if d.hasFile parent then
      some (.plain (.system "FileExistsError")
        ("[Errno 17] File exists: " ++ Text.Quoted.quote parent))
    else if (foldersAround parent).any d.hasFile then
      some (.plain (.system "NotADirectoryError")
        ("[Errno 20] Not a directory: " ++ Text.Quoted.quote parent))
    else none

end Disk

end CodeHighlight.CommandLine
