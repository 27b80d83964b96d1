import Horchestra.Foundations.KernelMaps
import Horchestra.Foundations.Transitions
import Horchestra.Oci.Pull

/-!
# The shared layout of a node

The images of a node are kept in one layout: blobs under their digests (manifests and configurations
as files, layers as unpacked directories), an index of the manifests, each under the name of its
digest, and for every pair of a namespace and a source a file that binds it to a digest.

Pulling, removing and purging images change the three one after the other, under a lock.  Here each
call is taken apart into the file operations it consists of, any of which may fail, and between any
two of which the process may be stopped.  A call that fails ends where it failed, except for the
steps a purge takes as far as it can.
-/

namespace Horchestra.Oci

open Foundations Text KeepFirst
open Foundations.KernelMaps (Shuffle)

/-! ## What is on disk -/

/-- The files of an unpacked layer. -/
abbrev Tree := List (String × String)

inductive LayoutBlob where
  | file (content : Bytes)
  | dir (tree : Tree)

/-- A stored binding. -/
structure ImageRef where
  ns : String
  source : String
  digest : String
  deriving DecidableEq

/-- A file of the bindings; one that was not written to its end does not parse. -/
inductive RefFile where
  | torn
  | ref (binding : ImageRef)
  deriving DecidableEq

structure IndexEntry where
  name : String
  descriptor : Descriptor

/-- What a binding shows: the configuration, and the directories of the layers with their files. -/
structure Shown where
  config : ImageConfig
  layers : List (String × Option LayoutBlob)

/-! ## Calls -/

/-- The name of the file of a binding: a digest over the namespace and the source. -/
def storeKey (sum : String → String) (ns source : String) : String := sum (ns ++ "\x00" ++ source)

/-- A pull whose documents have been fetched and accepted.  The separator of a key is not in the
name of a namespace. -/
structure PullJob where
  ns : String
  named : '\x00' ∉ ns.toList
  source : String
  mediaType : String
  raw : Bytes
  manifest : Manifest
  config : Bytes
  /-- The layers are fetched side by side. -/
  order : Shuffle String

inductive CallPhase where
  | idle
  | config (p : PullJob)
  | layers (p : PullJob) (left : List String)
  | manifest (p : PullJob)
  | index (p : PullJob)
  | reading (p : PullJob)
  | staging (p : PullJob)
  | filling (p : PullJob) (file : String)
  | binding (p : PullJob) (file : String)
  | removing (ns source : String)
  | dropping (digest : String)
  | purging (keep : List String) (left : List (String × ImageRef))
  | surveying
  | unindexing (left : List String) (dropped : Bool)
  | collecting
  | erasing (left : List String)

structure Layout where
  refs : Std.ExtTreeMap String RefFile := ∅
  index : List IndexEntry := []
  blobs : Std.ExtTreeMap String LayoutBlob := ∅
  phase : CallPhase := .idle
  /-- What each binding showed when it was written. -/
  written : String → String → Option Shown := fun _ _ => none

/-- How the next file operation goes: whether it succeeds, the files a layer unpacks to, the end of
the name of a temporary file, and what is left of a directory that could not be removed. -/
structure Choice where
  ok : Bool := true
  tree : Tree := []
  file : String := ""
  left : String × String → Bool := fun _ => true

inductive LayoutEvent where
  | pull (p : PullJob)
  | remove (ns source : String)
  | purge (keep : List String)
  | go (choice : Choice)
  | stop

/-! ## Reading -/

def Layout.readBlob (s : Layout) (digest : String) : Except String Bytes :=
  match s.blobs[digest]? with
  | some (.file content) => .ok content
  | some (.dir _) => .error "is a directory"
  | none => .error "no such file or directory"

def Layout.image (s : Layout) (h : Codec) (digest : String) : Option (Manifest × ImageConfig) :=
  (documents h s.readBlob digest).toOption

def Layout.imageSpec (s : Layout) (h : Codec) (name : String) : Option Shown := do
  let entry ← s.index.find? (·.name == name)
  let (manifest, config) ← s.image h entry.descriptor.digest
  return ⟨config, (layerDigests manifest).map fun d => (d, s.blobs[d]?)⟩

/-- Every binding, with its file; a file that does not parse fails the listing. -/
def Layout.listRefs (s : Layout) : Option (List (String × ImageRef)) :=
  s.refs.toList.mapM fun entry =>
    match entry.2 with
    | .torn => none
    | .ref binding => some (entry.1, binding)

/-- The part of a digest that names its blob. -/
def digestHex (digest : String) : String :=
  match cut ':' digest.toList with
  | some (_, hex) => String.ofList hex
  | none => ""

def isSha256 (digest : String) : Bool := "sha256:".toList.isPrefixOf digest.toList

/-- What the index reaches, by the names of the blobs; there is no answer where an image does not
read. -/
def Layout.reachable (s : Layout) (h : Codec) : Option (List String) :=
  (s.index.mapM fun entry => (s.image h entry.descriptor.digest).map fun found =>
    digestHex entry.descriptor.digest :: digestHex found.1.config.digest ::
      found.1.layers.map fun l => digestHex l.digest).map List.flatten

/-! ## Writing -/

/-- A blob that is already there is taken to be the same bytes. -/
def Layout.putFile (s : Layout) (digest : String) (content : Bytes) : Layout :=
  if s.blobs.contains digest then s else { s with blobs := s.blobs.insert digest (.file content) }

/-- An entry takes the place of the one of the same name. -/
def publish (entry : IndexEntry) : List IndexEntry → List IndexEntry
  | [] => [entry]
  | first :: rest => if first.name = entry.name then entry :: rest else first :: publish entry rest

def PullJob.digest (p : PullJob) (h : Codec) : String := h.fromBytes p.raw

def PullJob.entry (p : PullJob) (h : Codec) : IndexEntry where
  name := p.digest h
  descriptor := { mediaType := p.mediaType, digest := p.digest h, size := p.raw.length }

/-- The documents of a pull are what the registry was asked for. -/
def PullJob.Accepted (p : PullJob) (h : Codec) : Prop :=
  h.manifest p.raw = .ok p.manifest ∧ h.fromBytes p.config = p.manifest.config.digest

instance PullJob.decidableAccepted (p : PullJob) (h : Codec) : Decidable (p.Accepted h) :=
  inferInstanceAs (Decidable (_ ∧ _))

/-- What is left of a blob whose removal failed. -/
def LayoutBlob.partly (left : String × String → Bool) : LayoutBlob → LayoutBlob
  | .file content => .file content
  | .dir tree => .dir (tree.filter left)

section

variable (h : Codec) (sum : String → String)

/-- The binding takes the place of the one of the same namespace and source. -/
def Layout.bind (s : Layout) (p : PullJob) (file : String) : Layout :=
  { s with
    refs := (s.refs.erase file).insert (storeKey sum p.ns p.source)
      (.ref ⟨p.ns, p.source, p.digest h⟩)
    phase := .idle
    written := fun ns source =>
      if ns = p.ns ∧ source = p.source then s.imageSpec h (p.digest h) else s.written ns source }

/-- The next operation of the call that is going on. -/
def Layout.go (s : Layout) (c : Choice) : Layout :=
  let done := { s with phase := .idle }
  match s.phase with
  | .idle => s
  | .config p =>
    if c.ok then
      { s.putFile p.manifest.config.digest p.config with
        phase := .layers p (p.order.arrange (layerDigests p.manifest)) }
    else done
  | .layers p [] => { s with phase := .manifest p }
  | .layers p (d :: rest) =>
    match s.blobs[d]? with
    | some (.file _) => done
    | some (.dir _) => { s with phase := .layers p rest }
    | none =>
      if c.ok then { s with blobs := s.blobs.insert d (.dir c.tree), phase := .layers p rest }
      else done
  | .manifest p => if c.ok then { s.putFile (p.digest h) p.raw with phase := .index p } else done
  | .index p =>
      if c.ok then { s with index := publish (p.entry h) s.index, phase := .reading p } else done
  | .reading p => if (s.image h (p.digest h)).isSome then { s with phase := .staging p } else done
  | .staging p =>
    -- A temporary file has a name of its own.
    if c.ok && !s.refs.contains ("ref-" ++ c.file) then
      { s with
        refs := s.refs.insert ("ref-" ++ c.file) .torn
        phase := .filling p ("ref-" ++ c.file) }
    else done
  | .filling p file =>
    if c.ok then
      { s with
        refs := s.refs.insert file (.ref ⟨p.ns, p.source, p.digest h⟩)
        phase := .binding p file }
    else { done with refs := s.refs.erase file }
  | .binding p file => if c.ok then s.bind h sum p file else done
  | .removing ns source =>
    match s.refs[storeKey sum ns source]? with
    | some (.ref binding) =>
      if c.ok then
        { s with refs := s.refs.erase (storeKey sum ns source), phase := .dropping binding.digest }
      else done
    | _ => done
  | .dropping digest =>
    match s.listRefs with
    | none => done
    | some refs =>
      if refs.any fun r => r.2.digest == digest then done
      else if c.ok then
        { s with index := s.index.filter (·.name ≠ digest), phase := .collecting }
      else done
  | .purging _ [] => { s with phase := .surveying }
  | .purging keep ((file, binding) :: rest) =>
    if keep.contains binding.source && file == storeKey sum binding.ns binding.source then
      { s with phase := .purging keep rest }
    else
      { s with
        refs := if c.ok then s.refs.erase file else s.refs
        phase := .purging keep rest }
  | .surveying =>
    match s.listRefs, s.index.mapM fun entry => s.image h entry.descriptor.digest with
    | some survivors, some _ =>
      { s with
        phase := .unindexing (s.index.filterMap fun entry =>
          if entry.name = "" ∨ (survivors.any fun r => r.2.digest == entry.name) then none
          else some entry.name) false }
    | _, _ => done
  | .unindexing [] dropped => { s with phase := if dropped then .collecting else .idle }
  | .unindexing (name :: rest) dropped =>
    if c.ok then
      { s with index := s.index.filter (·.name ≠ name), phase := .unindexing rest true }
    else { s with phase := .unindexing rest dropped }
  | .collecting =>
    match s.reachable h with
    | none => done
    | some reached =>
      { s with
        phase := .erasing (s.blobs.keys.filter fun d => isSha256 d && digestHex d ∉ reached) }
  | .erasing [] => done
  | .erasing (d :: rest) =>
    if c.ok then { s with blobs := s.blobs.erase d, phase := .erasing rest }
    else { done with blobs := s.blobs.alter d (Option.map (LayoutBlob.partly c.left)) }

def Layout.step (s : Layout) : LayoutEvent → Option Layout
  | .pull p =>
    match s.phase with
    | .idle => if p.Accepted h then some { s with phase := .config p } else none
    | _ => none
  | .remove ns source =>
    match s.phase with
    | .idle => some { s with phase := .removing ns source }
    | _ => none
  | .purge keep =>
    match s.phase with
    | .idle => s.listRefs.map fun refs => { s with phase := .purging keep refs }
    | _ => none
  | .go choice => some (s.go h sum choice)
  | .stop => some { s with phase := .idle }

end

end Horchestra.Oci
