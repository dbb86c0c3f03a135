/-!
# Files

What a path leads to. A path is followed name by name, from a directory or from the root. What a
path that leads nowhere is refused for depends on the name that fails: one that nothing bears, one
that is too long, or any name at all after that of a file.
-/
namespace Fluent
namespace Files

/-- Why a path leads to nothing. -/
inductive PathError where
  /-- There is nothing of that name. -/
  | missing
  /-- A name follows that of a file. -/
  | throughFile
  | tooLong
  /-- The path holds the character zero. -/
  | zero
deriving DecidableEq, Repr

/-- The wording of a cause. -/
def PathError.message : PathError → String
  | missing => "No such file or directory (os error 2)"
  | throughFile => "Not a directory (os error 20)"
  | tooLong => "File name too long (os error 36)"
  | zero => "file name contained an unexpected NUL byte"

/-- What a path leads to. -/
inductive Entry where
  | file (content : String)
  | directory
  /-- Something that cannot be read, and why. -/
  | unreadable (reason : String)
  | nothing (e : PathError)
deriving DecidableEq, Repr

/-- The path leads to something. -/
def Entry.isPresent : Entry → Bool
  | nothing _ => false
  | _ => true

/-- The text that is found, or why there is none. -/
def Entry.read : Entry → Except String String
  | file content => .ok content
  | directory => .error "Is a directory (os error 21)"
  | unreadable reason => .error reason
  | nothing e => .error e.message

/-- Files, and directories that hold files and directories under their names. -/
inductive Tree where
  | file (content : String)
  | directory (entries : List (String × Tree))

/-- What stands at the top of a tree. -/
def Tree.entry : Tree → Entry
  | file content => .file content
  | directory _ => .directory

/-- A place in a tree: what is there, and the directories around it, the nearest first. -/
structure Position where
  here : Tree
  around : List Tree := []

namespace Position

/-- The most bytes in a name. -/
def maxName : Nat := 255

/-- The most bytes in a path. -/
def maxPath : Nat := 4095

/-- The directory that holds this place. The root holds itself. -/
def outward (p : Position) : Position :=
  match p.around with
  | [] => p
  | near :: far => ⟨near, far⟩

/-- The directory around all others. -/
def root (p : Position) : Position := ⟨p.around.getLastD p.here, []⟩

/-- Follows one name of a path. No name, or one dot, stays in a directory, and two dots leave it. -/
def step (p : Position) (name : String) : Except PathError Position :=
  match p.here with
  | .file _ => .error .throughFile
  | .directory entries =>
    if name = "" || name = "." then .ok p
    else if name = ".." then .ok p.outward
    else if maxName < name.utf8ByteSize then .error .tooLong
    else
      match entries.lookup name with
      | some inner => .ok ⟨inner, p.here :: p.around⟩
      | none => .error .missing

/-- Follows the names of a path, which slashes part. One that starts with a slash is followed from
the root. -/
def follow (p : Position) (path : String) : Except PathError Position :=
  if path.contains '\x00' then .error .zero
  else if path.isEmpty then .error .missing
  else if maxPath < path.utf8ByteSize then .error .tooLong
  else (path.splitOn "/").foldlM step (if path.startsWith "/" then p.root else p)

end Position
end Files

/-- What each path leads to. -/
abbrev Files := String → Files.Entry

/-- The files seen from a place in a tree. -/
def Files.Position.files (p : Files.Position) : Files := fun path =>
  match p.follow path with
  | .ok found => found.here.entry
  | .error e => .nothing e

end Fluent
