import Horchestra.Foundations.Paths

/-!
# A file system with symbolic and hard links

A file system maps every path free of symbolic links to an inode, and every inode to what it is;
several paths may lead to one inode.  The kernel finds what an arbitrary path means by walking it
part by part from the root, going on from the text of every symbolic link it meets, and gives up
after a fixed number of links.  A walk that follows the last part too ends at what the path means;
one that does not ends at the link itself.
-/

namespace Foundations.FileSystem

open Foundations.Paths

abbrev Path := List String

inductive Errno where
  | noent | exist | notdir | loop | perm | acces | opnotsupp | io | rofs | inval
  deriving DecidableEq

inductive Kind where
  | dir
  | link (text : String)
  | regular
  | char (major minor : Nat)
  | block (major minor : Nat)
  | fifo
  deriving DecidableEq

structure Inode where
  kind : Kind
  mode : Nat := 0
  owner : Option (Int × Int) := none
  accessTime : Option Int := none
  modTime : Option Int := none
  xattrs : List (String × String) := []
  content : String := ""

/-- The names, what they lead to, and the first inode that was never used. -/
structure FS where
  names : Path → Option Nat
  inodes : Nat → Inode
  next : Nat

def FS.kindAt (fs : FS) (path : Path) : Option Kind :=
  (fs.names path).map fun i => (fs.inodes i).kind

def FS.isDir (fs : FS) (path : Path) : Bool := fs.kindAt path == some .dir

/-! ## Walking a path -/

def components (text : String) : List String := parts text.toList

/-- Where a walk goes on from the text of a link found in a directory. -/
def linkStart (text : String) (cur : Path) : Path := if isRooted text then [] else cur

/-- Walks the parts from a directory; `jump` goes on from the text of a link. -/
def walkWith (fs : FS) (follow : Bool) (budget : Nat)
    (jump : List String → Path → Except Errno (Path × Nat)) :
    List String → Path → Except Errno (Path × Nat)
  | [], cur => .ok (cur, budget)
  | part :: rest, cur =>
    if fs.isDir cur = false then .error .notdir
    else if part = "" ∨ part = "." then walkWith fs follow budget jump rest cur
    else if part = ".." then walkWith fs follow budget jump rest cur.dropLast
    else
      match fs.kindAt (cur ++ [part]) with
      | none => .error .noent
      | some (.link text) =>
        if rest = [] ∧ follow = false then .ok (cur ++ [part], budget)
        else jump (components text ++ rest) (linkStart text cur)
      | some _ => walkWith fs follow budget jump rest (cur ++ [part])

/-- Walks the parts with a number of links to spend, and returns where it ends and how many are
left. -/
def walk (fs : FS) (follow : Bool) : Nat → List String → Path → Except Errno (Path × Nat)
  | 0 => walkWith fs follow 0 fun _ _ => .error .loop
  | n + 1 => walkWith fs follow (n + 1) (walk fs follow n)

/-! ## Finding what a path means -/

/-- How the kernel finds a path; it follows at most forty links. -/
def FS.lookup (fs : FS) (follow : Bool) (path : Path) : Except Errno Path :=
  (walk fs follow 40 path []).map (·.1)

/-- How the language's library resolves a path; it follows at most 255 links. -/
def FS.evalSymlinks (fs : FS) (path : Path) : Except Errno Path :=
  (walk fs true 255 path []).map (·.1)

/-! ## Changing it -/

/-- A new inode under a new name. -/
def FS.create (fs : FS) (path : Path) (inode : Inode) : FS where
  names p := if p = path then some fs.next else fs.names p
  inodes i := if i = fs.next then inode else fs.inodes i
  next := fs.next + 1

def FS.bind (fs : FS) (path : Path) (inode : Nat) : FS where
  names p := if p = path then some inode else fs.names p
  inodes := fs.inodes
  next := fs.next

/-- A change of an inode that leaves it the kind of thing it is. -/
def FS.modify (fs : FS) (inode : Nat) (change : Inode → Inode) : FS where
  names := fs.names
  inodes i := if i = inode then { change (fs.inodes i) with kind := (fs.inodes i).kind }
    else fs.inodes i
  next := fs.next

end Foundations.FileSystem
