import Horchestra.Foundations.FileSystem

/-!
# Calls that change a file system

Every call that changes the file system is recorded with what it did, where, and to which inode; a
kernel may refuse any of them for reasons of its own.
-/

namespace Foundations.FileSystem

/-! ## Calls -/

/-- What a call does to an inode. -/
inductive Action where
  | entry | create | link | content | mode | owner | times | xattr

structure Effect where
  action : Action
  path : Path
  inode : Nat

/-- A file system, and what was done to it. -/
structure World where
  fs : FS
  log : List Effect := []

/-- How a call ends. -/
abbrev Done := World × Except Errno Unit

/-- The directory and the name under which a path would be made. -/
def FS.place (fs : FS) (path : Path) : Except Errno (Path × String) :=
  match path.getLast? with
  | none => .error .exist
  | some name =>
    match fs.lookup true path.dropLast with
    | .error e => .error e
    | .ok dir =>
      if fs.isDir dir = false then .error .notdir
      else if (fs.names (dir ++ [name])).isSome then .error .exist
      else .ok (dir, name)

def entryEffect (fs : FS) (dir : Path) : List Effect :=
  (fs.names dir).toList.map fun i => ⟨.entry, dir, i⟩

variable (refused : Path → Option Errno)

/-- Makes a new inode at a path; nothing is followed or replaced. -/
def World.make (w : World) (path : Path) (inode : Inode) : Done :=
  match w.fs.place path with
  | .error e => (w, .error e)
  | .ok (dir, name) =>
    match refused (dir ++ [name]) with
    | some e => (w, .error e)
    | none =>
      ({ fs := w.fs.create (dir ++ [name]) inode
         log := w.log ++ entryEffect w.fs dir ++ [⟨.create, dir ++ [name], w.fs.next⟩] }, .ok ())

/-- Gives the inode at one path a second name; a link is not followed, and a directory has only
one name. -/
def World.link (w : World) (source target : Path) : Done :=
  match w.fs.lookup false source with
  | .error e => (w, .error e)
  | .ok p =>
    match w.fs.names p with
    | none => (w, .error .noent)
    | some i =>
      match w.fs.place target with
      | .error e => (w, .error e)
      | .ok (dir, name) =>
        if w.fs.isDir p then (w, .error .perm)
        else
          match refused p with
          | some e => (w, .error e)
          | none =>
            ({ fs := w.fs.bind (dir ++ [name]) i
               log := w.log ++ entryEffect w.fs dir ++ [⟨.link, p, i⟩] ++
                 [⟨.create, dir ++ [name], i⟩] }, .ok ())

def World.change (w : World) (follow : Bool) (path : Path) (action : Action)
    (change : Inode → Inode) : Done :=
  match w.fs.lookup follow path with
  | .error e => (w, .error e)
  | .ok q =>
    match w.fs.names q with
    | none => (w, .error .noent)
    | some i =>
      match refused q with
      | some e => (w, .error e)
      | none => ({ fs := w.fs.modify i change, log := w.log ++ [⟨action, q, i⟩] }, .ok ())

/-- Makes a directory and the ones it is in, as the language's library does: what is there and is
a directory is left alone, also behind a link.  The path is given from its end. -/
def World.mkdirAllRev (w : World) : List String → Done
  | [] => (w, .ok ())
  | name :: above =>
    match w.fs.lookup true (name :: above).reverse with
    | .ok q => (w, if w.fs.isDir q then .ok () else .error .notdir)
    | .error _ =>
      match w.mkdirAllRev above with
      | (w, .error e) => (w, .error e)
      | (w, .ok ()) =>
        match w.make refused (name :: above).reverse { kind := .dir, mode := 0o755 } with
        | (w, .ok ()) => (w, .ok ())
        | (w, .error e) =>
          match w.fs.lookup false (name :: above).reverse with
          | .ok q => (w, if w.fs.isDir q then .ok () else .error e)
          | .error _ => (w, .error e)

def World.mkdirAll (w : World) (path : Path) : Done := w.mkdirAllRev refused path.reverse

end Foundations.FileSystem
