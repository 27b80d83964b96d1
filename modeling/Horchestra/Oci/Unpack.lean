import Mathlib.Data.List.Sort
import Horchestra.Foundations.SystemCalls

/-!
# Unpacking a layer

One layer of an image is a tar stream, unpacked into a directory of its own.  The extractor checks
where each entry would land and then makes it, with the system calls in the order the agent issues
them and with what each of them does behind a symbolic link: directories are adopted through one,
the opaque marker, the mode and the timestamps are set through one, ownership and the other extended
attributes are not.

The kernel may refuse any call for reasons of its own (`Kernel`).  A failed entry ends the unpack
with everything before it in place.
-/

namespace Horchestra.Oci

open Foundations FileSystem Paths

/-! ## The archive -/

inductive TypeFlag where
  | dir | reg | symlink | link | char | block | fifo | xGlobalHeader
  | other (flag : Char)
  deriving DecidableEq

/-- An archive entry with its content.  A time is absent where it is the zero time. -/
structure Header where
  name : String
  typeflag : TypeFlag
  linkname : String := ""
  mode : Int := 0
  devmajor : Nat := 0
  devminor : Nat := 0
  accessTime : Option Int := none
  modTime : Option Int := none
  paxRecords : List (String × String) := []
  content : String := ""

def Header.perm (hdr : Header) : Nat := (hdr.mode % 0o1000).toNat

inductive Failure where
  | call (errno : Errno)
  | stream (message : String)
  | unsupportedMediaType (mediaType : String)
  | unsupportedType (flag : TypeFlag)
  | escapes (name : Path)
  | outside (dir real : Path)
  | unresolvable (dir : Path)
  | mknod (errno : Errno)
  | whiteout (name : Path) (errno : Errno)
  | opaqueMarker (dir : Path) (errno : Errno)
  | hardLinkTarget (cause : Failure)
  | entry (name : String) (cause : Failure)

/-- Fetching the layer again does not help. -/
def Failure.isPermanent : Failure → Bool
  | .unsupportedMediaType _ | .unsupportedType _ | .escapes _ | .outside .. => true
  | .mknod errno | .whiteout _ errno => errno == .perm
  | .opaqueMarker _ errno => errno == .perm || errno == .acces || errno == .opnotsupp
  | .hardLinkTarget cause | .entry _ cause => cause.isPermanent
  | .call _ | .stream _ | .unresolvable _ => false

/-- What the archive reader yields: entries, and then the end or an error. -/
structure Stream where
  entries : List Header
  ending : Except Failure Unit := .ok ()

/-! ## Names -/

def whiteoutStart : String := ".wh."
def whiteoutMeta : String := ".wh..wh."
def whiteoutOpaque : String := ".wh..wh..opq"

def xattrRecord : String := "SCHILY.xattr."

def cutStart (start text : String) : Option String :=
  if start.toList.isPrefixOf text.toList then
    some (String.ofList (text.toList.drop start.toList.length))
  else none

/-- An archive name read as an absolute path, cleaned. -/
def cleanName (name : String) : Path :=
  ((parts ("/" ++ name).toList).foldl (cleanStep true) []).reverse

def joinName (dir : Path) (name : String) : Path := (cleanStep true dir.reverse name).reverse

/-! ## The extractor -/

inductive Call where
  | mkdir | openFile | write | close | chmod | symlink | link | mknod | setxattr
  | lsetxattr (attr : String)
  | lchown | utimens

/-- What the kernel refuses, by the number of the turn. -/
structure Kernel where
  refuses : Nat → Call → Path → Option Errno

structure Stats where
  entries : Nat := 0
  whiteouts : Nat := 0
  opaqueDirs : Nat := 0
  xattrsLost : Nat := 0

structure DirMeta where
  path : Path
  mode : Nat
  hdr : Header

structure Extractor where
  dest : Path
  owner : Option (Int × Int)
  dirs : List DirMeta := []
  checked : List Path
  stats : Stats := {}
  world : World

abbrev Outcome := Extractor × Except Failure Unit

/-- The next step, unless the one before failed. -/
def Outcome.andThen (first : Outcome) (next : Extractor → Outcome) : Outcome :=
  match first.2 with
  | .ok () => next first.1
  | .error failure => (first.1, .error failure)

/-- Says where a failure was. -/
def Outcome.wrap (outcome : Outcome) (describe : Failure → Failure) : Outcome :=
  (outcome.1, outcome.2.mapError describe)

def Extractor.count (e : Extractor) (more : Stats) : Extractor where
  dest := e.dest
  owner := e.owner
  dirs := e.dirs
  checked := e.checked
  stats :=
    { entries := e.stats.entries + more.entries
      whiteouts := e.stats.whiteouts + more.whiteouts
      opaqueDirs := e.stats.opaqueDirs + more.opaqueDirs
      xattrsLost := e.stats.xattrsLost + more.xattrsLost }
  world := e.world

/-- The extractor after a system call. -/
def Extractor.perform (e : Extractor) (fail : Errno → Failure) (done : Done) : Outcome :=
  ({ e with world := done.1 }, done.2.mapError fail)

/-- The directory, with every link resolved, is inside the layer; of one that is not there yet, its
parent is asked.  The path is given from its end. -/
def Extractor.safeParentRev (e : Extractor) (rev : List String) : Outcome :=
  if rev.reverse ∈ e.checked then (e, .ok ())
  else
    match e.world.fs.evalSymlinks rev.reverse with
    | .error .noent =>
      match rev with
      | [] => (e, .error (.unresolvable []))
      | _ :: above => e.safeParentRev above
    | .error errno => (e, .error (.call errno))
    | .ok real =>
      if e.dest.isPrefixOf real then
        ({ e with checked := rev.reverse :: e.checked }, .ok ())
      else (e, .error (.outside rev.reverse real))

def Extractor.safeParent (e : Extractor) (dir : Path) : Outcome := e.safeParentRev dir.reverse

/-- Whether an archive path has its place under the layer's directory, which is `e.dest ++ name`. -/
def Extractor.target (e : Extractor) (name : Path) : Outcome :=
  let p := e.dest ++ name
  if p = e.dest then (e, .ok ())
  else if e.dest.isPrefixOf p = false then (e, .error (.escapes name))
  else e.safeParent p.dropLast

variable (k : Kernel) (n : Nat)

/-- The fixed ownership, where one was asked for. -/
def Extractor.chown (e : Extractor) (target : Path) : Outcome :=
  match e.owner with
  | none => (e, .ok ())
  | some owner =>
    e.perform .call <| e.world.change (k.refuses n .lchown) false target .owner
      fun inode => { inode with owner := some owner }

/-- Sets both times; the kernel does not look at the path when neither is given. -/
def Extractor.chtimes (e : Extractor) (target : Path) (hdr : Header) : Outcome :=
  if hdr.accessTime = none ∧ hdr.modTime = none then (e, .ok ())
  else
    e.perform .call <| e.world.change (k.refuses n .utimens) true target .times fun inode =>
      { inode with
        accessTime := hdr.accessTime <|> inode.accessTime
        modTime := hdr.modTime <|> inode.modTime }

def Extractor.chmod (e : Extractor) (target : Path) (mode : Nat) : Outcome :=
  e.perform .call <| e.world.change (k.refuses n .chmod) true target .mode
    fun inode => { inode with mode := mode }

/-- One extended attribute; a failure is counted. -/
def Extractor.xattr (e : Extractor) (target : Path) (record : String × String) : Extractor :=
  match cutStart xattrRecord record.1 with
  | none => e
  | some attr =>
    let set := e.perform .call <|
      e.world.change (k.refuses n (.lsetxattr attr)) false target .xattr
        fun inode => { inode with xattrs := (attr, record.2) :: inode.xattrs }
    match set.2 with
    | .ok () => set.1
    | .error _ => set.1.count { xattrsLost := 1 }

def Extractor.xattrs (e : Extractor) (target : Path) (hdr : Header) : Extractor :=
  hdr.paxRecords.foldl (fun e record => e.xattr k n target record) e

/-- The entry's content through the descriptor of the new file. -/
def Extractor.copy (e : Extractor) (target : Path) (hdr : Header) : Outcome :=
  let written := e.world.change (fun _ => none) false target .content
    fun inode => { inode with content := hdr.content }
  e.perform .call
    (written.1,
      match k.refuses n .write target <|> k.refuses n .close target with
      | some errno => .error errno
      | none => written.2)

def Extractor.regular (e : Extractor) (target : Path) (hdr : Header) : Outcome :=
  Outcome.andThen
    (e.perform .call <| e.world.make (k.refuses n .openFile) target
      { kind := .regular, mode := hdr.perm })
    fun e => (e.copy k n target hdr).andThen fun e => e.chmod k n target hdr.perm

def Header.device (hdr : Header) : Kind :=
  match hdr.typeflag with
  | .char => .char hdr.devmajor hdr.devminor
  | .block => .block hdr.devmajor hdr.devminor
  | _ => .fifo

def Extractor.device (e : Extractor) (target : Path) (hdr : Header) : Outcome :=
  e.perform (fun errno => if errno = .perm then .mknod errno else .call errno) <|
    e.world.make (k.refuses n .mknod) target
      { kind := hdr.device, mode := (hdr.mode % 0o10000).toNat }

/-- A lower layer's path is deleted: a character device 0:0. -/
def Extractor.whiteout (e : Extractor) (name : Path) : Outcome :=
  (e.target name).andThen fun e =>
    Outcome.andThen
      (e.perform (.whiteout name) <| e.world.make (k.refuses n .mknod) (e.dest ++ name)
        { kind := .char 0 0 })
      fun e => (e.count { whiteouts := 1 }).chown k n (e.dest ++ name)

def Extractor.setOpaque (e : Extractor) (dir : Path) : Outcome :=
  Outcome.andThen
    (e.perform (.opaqueMarker dir) <|
      e.world.change (k.refuses n .setxattr) true (e.dest ++ dir) .xattr
        fun inode => { inode with xattrs := ("trusted.overlay.opaque", "y") :: inode.xattrs })
    fun e => (e.count { opaqueDirs := 1 }, .ok ())

/-- A directory hides the lower layers' version of itself. -/
def Extractor.opaqueDir (e : Extractor) (dir : Path) : Outcome :=
  (e.target dir).andThen fun e =>
    Outcome.andThen (e.perform .call <| e.world.mkdirAll (k.refuses n .mkdir) (e.dest ++ dir))
      fun e => e.setOpaque k n dir

/-- A directory's own path is vetted too; its mode and times wait until the end. -/
def Extractor.directory (e : Extractor) (target : Path) (hdr : Header) : Outcome :=
  (e.safeParent target).andThen fun e =>
    Outcome.andThen (e.perform .call <| e.world.mkdirAll (k.refuses n .mkdir) target)
      fun e => ({ e with dirs := e.dirs ++ [⟨target, hdr.perm, hdr⟩] }, .ok ())

def Extractor.hardLink (e : Extractor) (target : Path) (hdr : Header) : Outcome :=
  ((e.target (cleanName hdr.linkname)).wrap .hardLinkTarget).andThen fun e =>
    e.perform .call <|
      e.world.link (k.refuses n .link) (e.dest ++ cleanName hdr.linkname) target

/-- What an entry makes, by its type. -/
def Extractor.create (e : Extractor) (target : Path) (hdr : Header) : Outcome :=
  match hdr.typeflag with
  | .dir => e.directory k n target hdr
  | .reg => e.regular k n target hdr
  | .symlink =>
    e.perform .call <| e.world.make (k.refuses n .symlink) target { kind := .link hdr.linkname }
  | .link => e.hardLink k n target hdr
  | .char | .block | .fifo => e.device k n target hdr
  | .xGlobalHeader | .other _ => (e, .error (.unsupportedType hdr.typeflag))

/-- What is set on every entry once it is made. -/
def Extractor.settle (e : Extractor) (target : Path) (hdr : Header) : Outcome :=
  ((e.xattrs k n target hdr).chown k n target).andThen fun e =>
    if hdr.typeflag = .symlink ∨ hdr.typeflag = .dir then (e, .ok ())
    else e.chtimes k n target hdr

/-- An entry that is not a marker. -/
def Extractor.extract (e : Extractor) (name : Path) (hdr : Header) : Outcome :=
  (e.target name).andThen fun e =>
    (e.create k n (e.dest ++ name) hdr).andThen fun e => e.settle k n (e.dest ++ name) hdr

/-- What an archive name asks for. -/
inductive Marker where
  | hide (dir : Path)
  | ignore
  | delete (name : Path)
  | plain (name : Path)

def marker (name : Path) : Marker :=
  let base := name.getLastD "/"
  if base = whiteoutOpaque then .hide name.dropLast
  else if (cutStart whiteoutMeta base).isSome then .ignore
  else
    match cutStart whiteoutStart base with
    | some rest => .delete (joinName name.dropLast rest)
    | none => .plain name

def Extractor.entry (e : Extractor) (hdr : Header) : Outcome :=
  match marker (cleanName hdr.name) with
  | .hide dir => e.opaqueDir k n dir
  | .ignore => (e, .ok ())
  | .delete name => e.whiteout k n name
  | .plain name => e.extract k n name hdr

/-- One turn of the loop over the archive. -/
def Extractor.turn (e : Extractor) (hdr : Header) : Outcome :=
  if hdr.typeflag = .xGlobalHeader then (e, .ok ())
  else
    ((e.entry k n hdr).wrap (.entry hdr.name)).andThen fun e =>
      (e.count { entries := 1 }, .ok ())

def Extractor.run (e : Extractor) (n : Nat) (ending : Except Failure Unit) : List Header → Outcome
  | [] => (e, ending)
  | hdr :: rest => (e.turn k n hdr).andThen fun e => e.run (n + 1) ending rest

def deepestFirst (dirs : List DirMeta) : List DirMeta :=
  dirs.insertionSort fun a b => a.path.length ≥ b.path.length

/-- The modes and times of the directories, once nothing more is written into them. -/
def Extractor.finishDirs (e : Extractor) (n : Nat) : List DirMeta → Outcome
  | [] => (e, .ok ())
  | d :: rest =>
    (e.chtimes k n d.path d.hdr).andThen fun e =>
      (e.chmod k n d.path d.mode).andThen fun e => e.finishDirs (n + 1) rest

def Extractor.finish (e : Extractor) (n : Nat) : Outcome :=
  Extractor.finishDirs k { e with dirs := deepestFirst e.dirs } n (deepestFirst e.dirs)

inductive Compression where
  | gzip | tar | zstd

def layerCompression : String → Option Compression
  | "application/vnd.oci.image.layer.v1.tar+gzip" => some .gzip
  | "application/vnd.docker.image.rootfs.diff.tar.gzip" => some .gzip
  | "application/vnd.oci.image.layer.v1.tar" => some .tar
  | "application/vnd.docker.image.rootfs.diff.tar" => some .tar
  | "application/vnd.oci.image.layer.v1.tar+zstd" => some .zstd
  | "application/vnd.docker.image.rootfs.diff.tar.zstd" => some .zstd
  | _ => none

def newExtractor (fs : FS) (dest : Path) (owner : Option (Int × Int)) : Extractor where
  dest := dest
  owner := owner
  checked := [dest]
  world := { fs := fs }

/-- Unpacks a layer blob into a directory; `archive` is what its bytes read as when they are opened
one way or another. -/
def unpackLayer (fs : FS) (mediaType : String) (archive : Compression → Except Failure Stream)
    (dest : Path) (owner : Option (Int × Int)) : Outcome :=
  let e := newExtractor fs dest owner
  match layerCompression mediaType with
  | none => (e, .error (.unsupportedMediaType mediaType))
  | some compression =>
    match archive compression with
    | .error failure => (e, .error failure)
    | .ok stream =>
      (e.run k 0 stream.ending stream.entries).andThen fun e =>
        e.finish k stream.entries.length

end Horchestra.Oci
