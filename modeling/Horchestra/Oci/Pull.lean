import Horchestra.Api.Validation
import Horchestra.Foundations.Checks
import Horchestra.Foundations.KeepFirst
import Horchestra.Oci.Unpack

/-!
# Pulling an image into a layout

A pull resolves a reference to a manifest, through an index where the registry says that it served
one, fetches the image's configuration and unpacks its layers, and reads back what it stored.  The
registry answers every request as it likes: body, content type or failure, each time anew.

Digests are the ones of the digest library, and documents are decoded into the types of the image
format; neither is modelled.  `Codec` says what the digest of a body is, which digest texts are well
formed, which bodies a digest verifies, and what a body decodes to, as what kind of document.
-/

namespace Horchestra.Oci

open Foundations Text KeepFirst FileSystem

/-! ## Documents -/

structure Platform where
  os : String := ""
  architecture : String := ""
  variant : String := ""
  deriving DecidableEq

structure Descriptor where
  mediaType : String := ""
  digest : String := ""
  size : Int := 0
  platform : Option Platform := none
  deriving DecidableEq

structure Index where
  manifests : List Descriptor := []

structure Manifest where
  config : Descriptor := {}
  layers : List Descriptor := []
  deriving DecidableEq

/-- What an image's configuration says about launching it. -/
structure ImageConfig where
  user : String := ""
  env : List String := []
  entrypoint : List String := []
  cmd : List String := []
  workingDir : String := ""

abbrev Bytes := List UInt8

/-- The digest library, and the decoding of documents. -/
structure Codec where
  fromBytes : Bytes → String
  valid : String → Bool
  verifies : String → Bytes → Bool
  index : Bytes → Except String Index
  manifest : Bytes → Except String Manifest
  config : Bytes → Except String ImageConfig

/-- What is assumed of it: a digest it makes is well formed, and no two bodies have the same one. -/
structure Codec.Lawful (h : Codec) : Prop where
  valid_fromBytes : ∀ body, h.valid (h.fromBytes body) = true
  injective : Function.Injective h.fromBytes

/-- A body of plain letters. -/
def bytesOf (text : String) : Bytes := text.toList.map fun c => UInt8.ofNat c.toNat

/-- A body as the text of its characters, each of one byte. -/
def latin (body : Bytes) : String := String.ofList (body.map fun b => Char.ofNat b.toNat)

theorem latin_injective : Function.Injective latin := by
  have back : Function.LeftInverse (fun c : Char => UInt8.ofNat c.toNat)
      fun b : UInt8 => Char.ofNat b.toNat := by
    intro b
    have valid : b.toNat.isValidChar := .inl (b.toNat_lt.trans (by decide))
    simp [Char.toNat_ofNat, valid]
  intro body body' eq
  exact List.map_injective_iff.2 back.injective (String.ofList_injective eq)

/-! ## References -/

structure Reference where
  host : String
  repo : String
  tag : String := ""
  dgst : String := ""
  name : String

/-- The manifest path element: a tag or a digest, whichever was given. -/
def Reference.target (r : Reference) : String := if r.dgst ≠ "" then r.dgst else r.tag

/-- The part of a text before its last separator, and the part after it. -/
def cutLast (separator : Char) (text : List Char) : Option (List Char × List Char) :=
  (cut separator text.reverse).map fun found => (found.2.reverse, found.1.reverse)

/-- A tag is what follows the last colon, unless that is before the last slash. -/
def splitTag (rest : List Char) : List Char × List Char :=
  match cutLast ':' rest with
  | some (before, after) => if '/' ∈ after then (rest, []) else (before, after)
  | none => (rest, [])

/-- The first path element is a registry only when it looks like a host. -/
def splitHost (rest : List Char) : Option (List Char × List Char) :=
  match cut '/' rest with
  | some (first, remainder) =>
    if '.' ∈ first ∨ ':' ∈ first ∨ first = "localhost".toList then some (first, remainder) else none
  | none => none

def parseReference (h : Codec) (s : String) : Except String Reference :=
  match cut '@' s.toList with
  | some (repo, d) =>
    if h.valid (String.ofList d) then finish repo (String.ofList d)
    else .error ("reference " ++ quote s ++ ": invalid digest")
  | none => finish s.toList ""
where
  finish (rest : List Char) (dgst : String) : Except String Reference :=
    let (rest, tag) := splitTag rest
    if rest = [] then .error ("reference " ++ quote s ++ ": no repository")
    else
      let hub := (splitHost rest).isNone
      let (host, rest) := (splitHost rest).getD ("registry-1.docker.io".toList, rest)
      let tag := if tag = [] ∧ dgst = "" then "latest".toList else tag
      let suffix := if dgst ≠ "" then "@" ++ dgst else ":" ++ String.ofList tag
      let repo := if hub ∧ '/' ∉ rest then "library/".toList ++ rest else rest
      .ok { host := String.ofList host, repo := String.ofList repo, tag := String.ofList tag
            dgst := dgst, name := String.ofList rest ++ suffix }

def pinnedDigest (h : Codec) (source : String) : String :=
  match cut '@' source.toList with
  | some (_, d) => if h.valid (String.ofList d) then String.ofList d else ""
  | none => ""

/-! ## The registry -/

inductive Request where
  | manifest (repo target : String)
  | blob (repo digest : String)

structure Response where
  body : Bytes
  contentType : String := ""

/-- What a request ends in, by the number of the request. -/
abbrev Registry := Nat → Request → Except String Response

def maxManifestBytes : Nat := 4 * 2 ^ 20

def defaultRetries : Nat := 3

/-- A body read whole, unless it is larger than it may be. -/
def readAll (body : Bytes) (what : String) : Except String Bytes :=
  if body.length ≤ maxManifestBytes then .ok body else .error ("stream exceeds " ++ what)

def mediaTypeOf (contentType : String) : String :=
  match cut ';' contentType.toList with
  | some (before, _) => Api.trimSpace (String.ofList before)
  | none => contentType

structure Fetched where
  raw : Bytes
  mediaType : String
  dgst : String

/-- A manifest with its media type; a target that is a digest is checked. -/
def fetchManifest (h : Codec) (registry : Registry) (n : Nat) (repo target : String) :
    Except String Fetched := do
  let response ← registry n (.manifest repo target)
  let raw ← readAll response.body "the manifest size ceiling"
  let d := h.fromBytes raw
  if h.valid target ∧ target ≠ d then
    .error ("manifest " ++ target ++ ": registry served " ++ d)
  else .ok { raw := raw, mediaType := mediaTypeOf response.contentType, dgst := d }

def checkPin (pin resolved : String) : Except String Unit :=
  if pin = "" ∨ resolved = pin then .ok ()
  else
    .error ("image is pinned to " ++ pin ++ " but the registry resolved it to " ++ resolved ++
      ": refusing the substituted image")

def isIndexType (mediaType : String) : Bool :=
  mediaType == "application/vnd.oci.image.index.v1+json" ||
    mediaType == "application/vnd.docker.distribution.manifest.list.v2+json"

/-- The entry of an index for a platform: an exact variant, or else the first for the system and
the architecture. -/
def selectPlatform (h : Codec) (raw : Bytes) (platform : String) : Except String Descriptor := do
  let index ← h.index raw
  let (wantOS, rest) := (cut '/' platform.toList).getD (platform.toList, [])
  let (wantArch, wantVariant) := (cut '/' rest).getD (rest, [])
  let fits (m : Descriptor) : Bool := m.platform.any fun p =>
    p.os.toList == wantOS && p.architecture.toList == wantArch
  let exact_ := index.manifests.find? fun m =>
    fits m && m.platform.any fun p => p.variant.toList == wantVariant
  match exact_ <|> index.manifests.find? fits with
  | some m => .ok m
  | none =>
    .error ("no manifest for " ++ platform ++ "; the index has " ++
      ", ".intercalate ((index.manifests.filterMap (·.platform)).filterMap fun p =>
        if p.os ≠ "unknown" then some (p.os ++ "/" ++ p.architecture) else none))

/-! ## What an image may be -/

/-- Zero is unbounded. -/
structure Bounds where
  maxLayers : Nat := 0
  maxImageBytes : Int := 0

/-- The declared sizes of the blobs, each well formed, added up. -/
def declaredSize (h : Codec) (declared : Int) : List Descriptor → Except String Int
  | [] => .ok declared
  | d :: rest =>
    if h.valid d.digest = false then
      .error ("blob with malformed digest " ++ quote d.digest)
    else if d.size < 0 then .error ("blob " ++ d.digest ++ " declares a negative size")
    else if wrap64 (declared + d.size) < 0 then .error "image's declared blob sizes overflow"
    else declaredSize h (wrap64 (declared + d.size)) rest

def checkManifest (h : Codec) (manifest : Manifest) (b : Bounds) : Except String Int :=
  if b.maxLayers > 0 ∧ manifest.layers.length > b.maxLayers then
    .error ("image declares " ++ toString manifest.layers.length ++ " layers, above the " ++
      toString b.maxLayers ++ "-layer cap")
  else do
    let declared ← declaredSize h 0 (manifest.config :: manifest.layers)
    if b.maxImageBytes > 0 ∧ declared > b.maxImageBytes then
      .error ("image declares " ++ toString declared ++ " bytes of blobs, above the " ++
        toString b.maxImageBytes ++ "-byte cap")
    else .ok declared

/-- A node that pulls: its digest library, its limits, and how its kernel and its archive readers
treat a layer. -/
structure Node where
  codec : Codec
  bounds : Bounds
  approve : Manifest → Int → Except String Unit
  kernel : Kernel
  fs : FS
  scratch : Path
  archive : Bytes → Compression → Except Failure Stream

def acceptManifest (node : Node) (raw : Bytes) : Except String Manifest := do
  let manifest ← node.codec.manifest raw
  if manifest.layers = [] then .error ("manifest " ++ node.codec.fromBytes raw ++ " has no layers")
  else do
    let declared ← checkManifest node.codec manifest node.bounds
    node.approve manifest declared
    .ok manifest

/-! ## The layout -/

inductive Blob where
  | file (content : Bytes)
  | dir

abbrev Blobs := String → Option Blob

def Blobs.put (blobs : Blobs) (d : String) (blob : Blob) : Blobs :=
  fun d' => if d' = d then some blob else blobs d'

/-- A blob already there is by definition the same bytes. -/
def writeBlob (blobs : Blobs) (d : String) (data : Bytes) : Blobs :=
  if (blobs d).isSome then blobs else blobs.put d (.file data)

def readBlob (blobs : Blobs) (d : String) : Except String Bytes :=
  match blobs d with
  | some (.file content) => .ok content
  | some .dir => .error "is a directory"
  | none => .error "no such file or directory"

/-- A small blob read whole and verified. -/
def fetchBlob (h : Codec) (registry : Registry) (n : Nat) (repo d : String) :
    Except String Bytes := do
  let response ← registry n (.blob repo d)
  let raw ← readAll response.body "the metadata size ceiling"
  if h.fromBytes raw = d then .ok raw
  else .error ("digest mismatch: asked for " ++ d ++ ", got " ++ h.fromBytes raw)

/-- What unpacking a body as a layer ends in. -/
def extract (node : Node) (layer : Descriptor) (body : Bytes) : Except Failure Unit :=
  if 0 < layer.size ∧ layer.size < body.length then .error (.stream "stream exceeds its declared size")
  else
    match (unpackLayer node.kernel node.fs layer.mediaType (node.archive body) node.scratch none).2 with
    | .error failure => .error failure
    | .ok () =>
      if node.codec.verifies layer.digest body then .ok ()
      else .error (.stream "digest mismatch: the registry served different bytes")

/-- One attempt at a layer. -/
def fetchAndUnpack (node : Node) (layer : Descriptor) (answer : Except String Response) :
    Except Failure Unit :=
  match answer with
  | .error message => .error (.stream message)
  | .ok response => extract node layer response.body

/-- A layer is tried again unless it failed for good. -/
def attemptLayer (node : Node) (registry : Registry) (repo : String) (layer : Descriptor) :
    Nat → Nat → Except Failure Unit
  | retries, n =>
    match fetchAndUnpack node layer (registry n (.blob repo layer.digest)) with
    | .ok () => .ok ()
    | .error failure =>
      if failure.isPermanent then .error failure
      else
        match retries with
        | 0 => .error failure
        | retries + 1 => attemptLayer node registry repo layer retries (n + 1)

def unpackOne (node : Node) (registry : Registry) (repo : String) (n : Nat) (blobs : Blobs)
    (layer : Descriptor) : Except String Blobs :=
  match blobs layer.digest with
  | some (.file _) => .error "already present as a file; the layout stores tars, not unpacked layers"
  | some .dir => .ok blobs
  | none =>
    match attemptLayer node registry repo layer defaultRetries n with
    | .ok () => .ok (blobs.put layer.digest .dir)
    | .error _ => .error ("layer " ++ layer.digest)

/-- The layers, each once.  They are independent of one another, so the order in which they are
fetched does not matter. -/
def unpackLayers (node : Node) (registry : Registry) (repo : String) :
    Nat → Blobs → List Descriptor → Except String Blobs
  | _, blobs, [] => .ok blobs
  | n, blobs, layer :: rest => do
    let blobs ← unpackOne node registry repo n blobs layer
    unpackLayers node registry repo (n + defaultRetries + 1) blobs rest

/-! ## A pull -/

structure Image where
  descriptor : Descriptor
  manifest : Manifest
  config : ImageConfig
  layerDirs : List String

/-- The document the registry resolves a reference to, through an index where it says that it
served one. -/
def resolve (node : Node) (registry : Registry) (ref : Reference) (platform pin : String) :
    Except String Fetched := do
  let root ← fetchManifest node.codec registry 0 ref.repo ref.target
  checkPin pin root.dgst
  if isIndexType root.mediaType then do
    let desc ← selectPlatform node.codec root.raw platform
    fetchManifest node.codec registry 1 ref.repo desc.digest
  else .ok root

/-- The documents of an image, by how a blob is read. -/
def documents (h : Codec) (read : String → Except String Bytes) (digest : String) :
    Except String (Manifest × ImageConfig) := do
  let manifest ← h.manifest (← read digest)
  let config ← h.config (← read manifest.config.digest)
  .ok (manifest, config)

/-- The directories of the layers, each once. -/
def layerDigests (manifest : Manifest) : List String :=
  (keepFirst Descriptor.digest [] manifest.layers).map Descriptor.digest

theorem documents_eq_ok_iff {h : Codec} {read : String → Except String Bytes} {digest : String}
    {manifest : Manifest} {config : ImageConfig} :
    documents h read digest = .ok (manifest, config) ↔
      ∃ raw text, read digest = .ok raw ∧ h.manifest raw = .ok manifest ∧
        read manifest.config.digest = .ok text ∧ h.config text = .ok config := by
  simp only [documents, Checks.bind_eq_ok_iff, Except.ok.injEq, Prod.mk.injEq]
  constructor
  · rintro ⟨raw, found, m, dec, text, foundConfig, c, decodedConfig, rfl, rfl⟩
    exact ⟨raw, text, found, dec, foundConfig, decodedConfig⟩
  rintro ⟨raw, text, found, dec, foundConfig, decodedConfig⟩
  exact ⟨raw, found, manifest, dec, text, foundConfig, config, decodedConfig, rfl, rfl⟩

def image (h : Codec) (blobs : Blobs) (desc : Descriptor) : Except String Image := do
  let (manifest, config) ← documents h (readBlob blobs) desc.digest
  .ok { descriptor := desc, manifest, config, layerDirs := layerDigests manifest }

def store (node : Node) (registry : Registry) (ref : Reference) (fetched : Fetched) :
    Except String Blobs := do
  let manifest ← acceptManifest node fetched.raw
  let config ← fetchBlob node.codec registry 2 ref.repo manifest.config.digest
  let blobs := writeBlob (fun _ => none) manifest.config.digest config
  let blobs ← unpackLayers node registry ref.repo 3 blobs
    (keepFirst Descriptor.digest [] manifest.layers)
  .ok (writeBlob blobs fetched.dgst fetched.raw)

def indexEntry (fetched : Fetched) (platform : String) : Descriptor :=
  let (os, architecture) := (cut '/' platform.toList).getD (platform.toList, [])
  { mediaType := fetched.mediaType, digest := fetched.dgst, size := fetched.raw.length
    platform := some { os := String.ofList os, architecture := String.ofList architecture } }

def pull (node : Node) (registry : Registry) (source platform : String) : Except String Image := do
  let ref ← parseReference node.codec source
  let fetched ← resolve node registry ref platform (pinnedDigest node.codec source)
  let blobs ← store node registry ref fetched
  image node.codec blobs (indexEntry fetched platform)

end Horchestra.Oci
