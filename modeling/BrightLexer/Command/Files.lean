/-!
# Files

What a command may see of the files around it: for each path whether there is a file, with what bytes,
or a directory. `Files` is that view. A `FileTree` is a directory held in memory with all that lies
below it, and a `Location` is a tree together with the directories it lies in, so that a path can also
lead out of it. `Location.files` is the view from there: a path is walked part by part, where an empty
part and `.` stay in place, `..` goes up, and nothing lies below a file.
-/

namespace BrightLexer

/-- What there is at a path. -/
inductive Entry where
  | missing
  | directory
  /-- A regular file with its content. -/
  | file (content : ByteArray)
  /-- What is no regular file but can be read like one, such as a device, with what is read from it. -/
  | special (content : ByteArray)

/-- What there is at each path. -/
abbrev Files := String → Entry

/-- Why a file cannot be read as text. -/
inductive ReadError where
  /-- There is no such file. -/
  | notFound
  /-- The path leads to a directory. -/
  | isDirectory
  /-- The bytes are not UTF-8. -/
  | notUtf8
deriving DecidableEq

/-- The wording of a failure to read a file. -/
def ReadError.message : ReadError → String
  | .notFound => "No such file or directory (os error 2)"
  | .isDirectory => "Is a directory (os error 21)"
  | .notUtf8 => "stream did not contain valid UTF-8"

/-- The content of what there is at a path, as text. -/
def Entry.text? : Entry → Except ReadError String
  | .missing => .error .notFound
  | .directory => .error .isDirectory
  | .file content | .special content =>
    match String.fromUTF8? content with
    | some s => .ok s
    | none => .error .notUtf8

/-- Whether there is anything at a path. -/
def Entry.isPresent : Entry → Bool
  | .missing => false
  | _ => true

/-- The parts of a path between its slashes. -/
def pathParts : List Char → List (List Char)
  | [] => [[]]
  | c :: cs =>
    if c = '/' then [] :: pathParts cs
    else match pathParts cs with
      | [] => [[c]]
      | part :: parts => (c :: part) :: parts

/-- A file, or a directory of named files and directories. -/
inductive FileTree where
  | file (content : ByteArray)
  | special (content : ByteArray)
  | directory (entries : List (String × FileTree))

namespace FileTree

/-- The directory that holds nothing. -/
def empty : FileTree := .directory []

/-- What a tree is seen as at its own path. -/
def entry : FileTree → Entry
  | .file content => .file content
  | .special content => .special content
  | .directory _ => .directory

/-- The entries of a directory; a file has none. -/
def entries : FileTree → List (String × FileTree)
  | .directory entries => entries
  | _ => []

/-- Puts a tree at the end of a path of names, making directories on the way. To put the empty
directory where there is a directory changes nothing. -/
def insert (new : FileTree) : List String → FileTree → FileTree
  | [], tree =>
    match new, tree with
    | .directory [], .directory entries => .directory entries
    | _, _ => new
  | name :: names, tree =>
    let child := (tree.entries.lookup name).getD empty
    .directory ((name, insert new names child) :: tree.entries.filter fun e => e.1 != name)

/-- Puts a tree at a path, which may not go up. -/
def insertAt (new : FileTree) (path : String) (tree : FileTree) : FileTree :=
  let parts := (pathParts path.toList).map String.ofList
  insert new (parts.filter fun part => part != "" && part != ".") tree

end FileTree

/-- A tree with the directories that it lies in. -/
structure Location where
  /-- The tree. -/
  tree : FileTree
  /-- The directories above it, from the inside out. -/
  above : List FileTree

namespace Location

/-- The directory that a tree lies in. The outermost directory is taken to lie in itself. -/
def parent (l : Location) : Location :=
  match l.above with
  | [] => l
  | tree :: above => ⟨tree, above⟩

/-- The outermost directory. -/
def outermost (l : Location) : Location := ⟨(l.tree :: l.above).getLastD l.tree, []⟩

/-- Goes from a directory along one part of a path. -/
def step? (l : Location) (part : String) : Option Location :=
  match l.tree with
  | .directory entries =>
    if part = "" ∨ part = "." then some l
    else if part = ".." then some l.parent
    else (entries.lookup part).map fun child => ⟨child, l.tree :: l.above⟩
  | _ => none

/-- Goes from a directory along the parts of a path. -/
def walk? (l : Location) (parts : List (List Char)) : Option Location :=
  parts.foldlM (fun l part => l.step? (String.ofList part)) l

/-- Where a path leads from a directory. A path with a slash at its front starts in the outermost
directory, and the empty path leads nowhere. -/
def at? (l : Location) (path : List Char) : Option Location :=
  match path with
  | [] => none
  | '/' :: cs => l.outermost.walk? (pathParts cs)
  | cs => l.walk? (pathParts cs)

/-- The view of the files from a directory. -/
def files (l : Location) : Files := fun path =>
  ((l.at? path.toList).map fun l => l.tree.entry).getD .missing

/-- The root of a file system of which nothing is known but what each of them has: its usual
directories, and the device that is always empty. -/
def bareRoot : FileTree :=
  let names := ["bin", "boot", "etc", "home", "lib", "media", "mnt", "opt", "proc", "root", "run",
    "sbin", "srv", "sys", "tmp", "usr", "var"]
  .directory (("dev", .directory [("null", .special .empty)]) ::
    names.map fun name => (name, .empty))

/-- A tree as a temporary directory of a bare file system. What it is called there is not known. -/
def temporary (tree : FileTree) : Location := ⟨tree, [.empty, bareRoot]⟩

end Location

end BrightLexer
