import Horchestra.Foundations.Checks
import Horchestra.Oci.Pull

/-!
# What a digest pin determines

A source pinned to a digest should name one image, whatever the registry answers.  The document of
that digest is one, as far as no two bodies have the same digest; what the pull reads it as is for
the registry to say.  With the content type of an index it reads an entry's digest from the
document, and with any other it reads the manifest itself.  The document that the entry names is
checked only where the entry's digest is well formed.

`Candidate` collects the documents a registry can present under a pin, and `Deliverable` says of a
document that some registry can have it pulled.  The pin determines the image exactly when there is
at most one that is both (`pin_determines_iff`).
-/

namespace Horchestra.Oci

open Foundations Text KeepFirst FileSystem
open Foundations.Checks (bind_eq_ok_iff)

/-! ## What a registry can present -/

/-- A document that the registry can present as the manifest of a pinned image. -/
inductive Candidate (h : Codec) (d platform : String) : Bytes → Prop where
  | pinned {raw : Bytes} (digest : h.fromBytes raw = d) : Candidate h d platform raw
  | selected {root raw : Bytes} {entry : Descriptor} (digest : h.fromBytes root = d)
      (small : root.length ≤ maxManifestBytes) (selects : selectPlatform h root platform =
        .ok entry)
      (named : h.valid entry.digest = true → h.fromBytes raw = entry.digest) :
      Candidate h d platform raw

/-- A document that is accepted as a manifest, with a configuration and layers that can be
served. -/
def Deliverable (node : Node) (raw : Bytes) : Prop :=
  raw.length ≤ maxManifestBytes ∧ ∃ manifest config imageConfig,
    acceptManifest node raw = .ok manifest ∧ config.length ≤ maxManifestBytes ∧
      node.codec.fromBytes config = manifest.config.digest ∧
      node.codec.config config = .ok imageConfig ∧
      ∀ layer ∈ keepFirst Descriptor.digest [] manifest.layers,
        layer.digest ≠ manifest.config.digest ∧ layer.digest ≠ node.codec.fromBytes raw ∧
          ∃ body, extract node layer body = .ok ()

structure SameImage (image image' : Image) : Prop where
  digest : image.descriptor.digest = image'.descriptor.digest
  manifest : image.manifest = image'.manifest
  config : image.config = image'.config
  layers : image.manifest.layers.map Descriptor.digest =
    image'.manifest.layers.map Descriptor.digest
  layerDirs : image.layerDirs = image'.layerDirs

/-- **Any two pulls of the source that succeed end in the same image.** -/
def PinDetermines (node : Node) (source platform : String) : Prop :=
  ∀ (registry registry' : Registry) (image image' : Image),
    pull node registry source platform = .ok image →
    pull node registry' source platform = .ok image' → SameImage image image'

/-! ## Fetching -/

section

variable {h : Codec} {registry : Registry} {n : Nat} {repo target d : String}

variable {raw : Bytes}

theorem readAll_eq_ok_iff {body : Bytes} {what : String} :
    readAll body what = .ok raw ↔ raw = body ∧ body.length ≤ maxManifestBytes := by
  rw [readAll]
  split
  next small =>
    constructor
    · intro eq
      exact ⟨(Except.ok.inj eq).symm, small⟩
    rintro ⟨rfl, -⟩
    rfl
  rename_i large
  constructor
  · exact nofun
  rintro ⟨-, small⟩
  contradiction

theorem fetchManifest_eq_ok_iff {got : Fetched} :
    fetchManifest h registry n repo target = .ok got ↔
      ∃ resp, registry n (.manifest repo target) = .ok resp ∧ resp.body.length ≤ maxManifestBytes ∧
        (h.valid target = true → target = h.fromBytes resp.body) ∧
        got = ⟨resp.body, mediaTypeOf resp.contentType, h.fromBytes resp.body⟩ := by
  simp only [fetchManifest, bind_eq_ok_iff, readAll_eq_ok_iff]
  constructor
  · rintro ⟨resp, answered, raw, ⟨rfl, small⟩, checked⟩
    split at checked
    · cases checked
    rename_i agreed
    refine ⟨resp, answered, small, ?_, (Except.ok.inj checked).symm⟩
    intro valid
    by_contra other
    exact agreed ⟨valid, other⟩
  rintro ⟨resp, answered, small, agreed, rfl⟩
  refine ⟨resp, answered, _, ⟨rfl, small⟩, if_neg ?_⟩
  rintro ⟨valid, other⟩
  exact other (agreed valid)

theorem fetchBlob_eq_ok_iff :
    fetchBlob h registry n repo d = .ok raw ↔
      ∃ resp, registry n (.blob repo d) = .ok resp ∧ raw = resp.body ∧
        raw.length ≤ maxManifestBytes ∧ h.fromBytes raw = d := by
  simp only [fetchBlob, bind_eq_ok_iff, readAll_eq_ok_iff]
  constructor
  · rintro ⟨resp, answered, body, ⟨rfl, small⟩, checked⟩
    split at checked
    next agreed =>
      cases checked
      exact ⟨resp, answered, rfl, small, agreed⟩
    · cases checked
  rintro ⟨resp, answered, rfl, small, agreed⟩
  exact ⟨resp, answered, _, ⟨rfl, small⟩, if_pos agreed⟩

end

/-! ## References -/

section

variable {h : Codec} {source : String} {ref : Reference}

theorem dgst_of_finish {s dgst : String} {rest : List Char}
    (parsed : parseReference.finish s rest dgst = .ok ref) : ref.dgst = dgst := by
  rw [parseReference.finish] at parsed
  dsimp only at parsed
  split at parsed
  · cases parsed
  cases parsed
  rfl

theorem dgst_of_parseReference (parsed : parseReference h source = .ok ref) :
    ref.dgst = pinnedDigest h source := by
  rw [parseReference] at parsed
  rw [pinnedDigest]
  split at parsed
  · split at parsed
    next valid => rw [dgst_of_finish parsed, if_pos valid]
    · cases parsed
  · exact dgst_of_finish parsed

theorem valid_of_pinned (pinned : pinnedDigest h source ≠ "") :
    h.valid (pinnedDigest h source) = true := by
  rw [pinnedDigest] at pinned ⊢
  split at pinned
  · split at pinned
    next valid =>
      rw [if_pos valid]
      exact valid
    · contradiction
  · contradiction

end

/-! ## Resolving -/

section

variable {node : Node} {ref : Reference} {platform d : String}

theorem candidate_of_resolve {registry : Registry} {got : Fetched} (isPinned : ref.dgst = d)
    (proper : d ≠ "") (valid : node.codec.valid d = true)
    (resolved : resolve node registry ref platform d = .ok got) :
    Candidate node.codec d platform got.raw ∧ got.raw.length ≤ maxManifestBytes ∧
      got.dgst = node.codec.fromBytes got.raw := by
  have target : ref.target = d := by rw [Reference.target, isPinned, if_pos proper]
  simp only [resolve, bind_eq_ok_iff, target] at resolved
  obtain ⟨root, isRoot, _, -, onward⟩ := resolved
  obtain ⟨resp, -, small, agreed, rfl⟩ := fetchManifest_eq_ok_iff.1 isRoot
  have digest := (agreed valid).symm
  split at onward
  · simp only [bind_eq_ok_iff] at onward
    obtain ⟨e, selects, isNext⟩ := onward
    obtain ⟨resp', -, small', agreed', rfl⟩ := fetchManifest_eq_ok_iff.1 isNext
    exact ⟨.selected digest small selects fun named => (agreed' named).symm, small', rfl⟩
  cases onward
  exact ⟨.pinned digest, small, rfl⟩

theorem resolve_of_candidate {raw : Bytes} (isPinned : ref.dgst = d) (proper : d ≠ "")
    (candidate : Candidate node.codec d platform raw) (small : raw.length ≤ maxManifestBytes)
    (later : Registry) :
    ∃ registry : Registry, (∀ n req, registry (n + 2) req = later n req) ∧
      ∃ got, resolve node registry ref platform d = .ok got ∧ got.raw = raw ∧
        got.dgst = node.codec.fromBytes raw := by
  have target : ref.target = d := by rw [Reference.target, isPinned, if_pos proper]
  cases candidate with
  | pinned digest =>
    let registry : Registry
      | 0, _ => .ok { body := raw }
      | 1, _ => .error ""
      | n + 2, req => later n req
    refine ⟨registry, fun _ _ => rfl, ⟨raw, mediaTypeOf "", node.codec.fromBytes raw⟩, ?_, rfl, rfl⟩
    have root : fetchManifest node.codec registry 0 ref.repo d =
        .ok ⟨raw, mediaTypeOf "", node.codec.fromBytes raw⟩ :=
      fetchManifest_eq_ok_iff.2 ⟨{ body := raw }, rfl, small, fun _ => digest.symm, rfl⟩
    simp only [resolve, bind_eq_ok_iff, target]
    refine ⟨_, root, (), ?_, rfl⟩
    rw [checkPin, if_pos (.inr digest)]
  | @selected root _ entry digest rootSmall selects named =>
    let indexType := "application/vnd.oci.image.index.v1+json"
    let registry : Registry
      | 0, _ => .ok { body := root, contentType := indexType }
      | 1, _ => .ok { body := raw }
      | n + 2, req => later n req
    refine ⟨registry, fun _ _ => rfl, ⟨raw, mediaTypeOf "", node.codec.fromBytes raw⟩, ?_, rfl, rfl⟩
    have first : fetchManifest node.codec registry 0 ref.repo d =
        .ok ⟨root, mediaTypeOf indexType, node.codec.fromBytes root⟩ :=
      fetchManifest_eq_ok_iff.2
        ⟨{ body := root, contentType := indexType }, rfl, rootSmall, fun _ => digest.symm, rfl⟩
    have second : fetchManifest node.codec registry 1 ref.repo entry.digest =
        .ok ⟨raw, mediaTypeOf "", node.codec.fromBytes raw⟩ :=
      fetchManifest_eq_ok_iff.2
        ⟨{ body := raw }, rfl, small, fun valid => (named valid).symm, rfl⟩
    simp only [resolve, bind_eq_ok_iff, target]
    refine ⟨_, first, (), ?_, ?_⟩
    · rw [checkPin, if_pos (.inr digest)]
    have isIndex : isIndexType (mediaTypeOf indexType) = true := by decide
    rw [if_pos isIndex]
    exact bind_eq_ok_iff.2 ⟨entry, selects, second⟩

end

/-! ## Layers -/

section

variable {node : Node} {registry : Registry} {repo : String} {n : Nat}

variable {layer : Descriptor}

theorem extract_of_fetchAndUnpack {answer : Except String Response}
    (unpacked : fetchAndUnpack node layer answer = .ok ()) :
    ∃ body, extract node layer body = .ok () := by
  cases answer with
  | error message => cases unpacked
  | ok resp => exact ⟨resp.body, unpacked⟩

/-- A layer that was fetched was served in a form that unpacks and verifies. -/
theorem extract_of_attemptLayer {retries : Nat}
    (unpacked : attemptLayer node registry repo layer retries n = .ok ()) :
    ∃ body, extract node layer body = .ok () := by
  induction retries generalizing n with
  | zero =>
    rw [attemptLayer] at unpacked
    split at unpacked
    next done => exact extract_of_fetchAndUnpack done
    · split at unpacked <;> cases unpacked
  | succ retries ih =>
    rw [attemptLayer] at unpacked
    split at unpacked
    next done => exact extract_of_fetchAndUnpack done
    split at unpacked
    · cases unpacked
    · exact ih unpacked

variable {blobs blobs' : Blobs}

theorem unpackOne_eq_ok (unpacked : unpackOne node registry repo n blobs layer = .ok blobs') :
    (blobs layer.digest = some .dir ∧ blobs' = blobs) ∨
      (blobs layer.digest = none ∧ blobs' = blobs.put layer.digest .dir ∧
        ∃ body, extract node layer body = .ok ()) := by
  rw [unpackOne] at unpacked
  split at unpacked
  · cases unpacked
  next hit => exact .inl ⟨hit, (Except.ok.inj unpacked).symm⟩
  next gone =>
    split at unpacked
    next done => exact .inr ⟨gone, (Except.ok.inj unpacked).symm, extract_of_attemptLayer done⟩
    · cases unpacked

theorem Blobs.put_self (blobs : Blobs) (d : String) (blob : Blob) :
    blobs.put d blob d = some blob := if_pos rfl

theorem Blobs.put_of_ne (blobs : Blobs) {d d' : String} (blob : Blob) (other : d' ≠ d) :
    blobs.put d blob d' = blobs d' := if_neg other

variable {layers : List Descriptor}

/-- Layers of different digests that were unpacked: each is a directory now, was served where it
was not there, and nothing else changed. -/
theorem unpackLayers_eq_ok (nodup : (layers.map Descriptor.digest).Nodup)
    (unpacked : unpackLayers node registry repo n blobs layers = .ok blobs') :
    (∀ layer ∈ layers, blobs' layer.digest = some .dir ∧
      (blobs layer.digest = some .dir ∨
        blobs layer.digest = none ∧ ∃ body, extract node layer body = .ok ())) ∧
      ∀ d, d ∉ layers.map Descriptor.digest → blobs' d = blobs d := by
  induction layers generalizing blobs n with
  | nil =>
    cases unpacked
    exact ⟨nofun, fun _ _ => rfl⟩
  | cons layer rest ih =>
    rw [unpackLayers, bind_eq_ok_iff] at unpacked
    obtain ⟨between, first, later⟩ := unpacked
    obtain ⟨notAgain, restDistinct⟩ := List.nodup_cons.1 nodup
    obtain ⟨hit, unchanged⟩ := ih restDistinct later
    have eq : between layer.digest = some .dir ∧
        (blobs layer.digest = some .dir ∨
          blobs layer.digest = none ∧ ∃ body, extract node layer body = .ok ()) := by
      obtain ⟨present, rfl⟩ | ⟨gone, rfl, served⟩ := unpackOne_eq_ok first
      · exact ⟨present, .inl present⟩
      · exact ⟨blobs.put_self .., .inr ⟨gone, served⟩⟩
    have ne : ∀ d, d ≠ layer.digest → between d = blobs d := by
      intro d other
      obtain ⟨-, rfl⟩ | ⟨-, rfl, -⟩ := unpackOne_eq_ok first
      · rfl
      · exact blobs.put_of_ne .dir other
    constructor
    · intro found mem
      rcases List.mem_cons.1 mem with rfl | mem
      · exact ⟨(unchanged _ notAgain).trans eq.1, eq.2⟩
      have other : found.digest ≠ layer.digest := by
        intro same
        exact notAgain (same ▸ List.mem_map_of_mem mem)
      obtain ⟨isDir, served⟩ := hit found mem
      rw [ne _ other] at served
      exact ⟨isDir, served⟩
    intro d gone
    simp only [List.map_cons, List.mem_cons, not_or] at gone
    exact (unchanged d gone.2).trans (ne d gone.1)

theorem unpackLayers_of_served {body : String → Bytes}
    (nodup : (layers.map Descriptor.digest).Nodup)
    (served : ∀ m, n ≤ m → ∀ d, registry m (.blob repo d) = .ok { body := body d })
    (unpacks : ∀ layer ∈ layers, extract node layer (body layer.digest) = .ok ())
    (gone : ∀ layer ∈ layers, blobs layer.digest = none) :
    ∃ blobs', unpackLayers node registry repo n blobs layers = .ok blobs' := by
  induction layers generalizing blobs n with
  | nil => exact ⟨blobs, rfl⟩
  | cons layer rest ih =>
    obtain ⟨notAgain, restDistinct⟩ := List.nodup_cons.1 nodup
    have attempt : attemptLayer node registry repo layer defaultRetries n = .ok () := by
      rw [attemptLayer, served n (Nat.le_refl n), fetchAndUnpack, unpacks layer List.mem_cons_self]
    have first : unpackOne node registry repo n blobs layer =
        .ok (blobs.put layer.digest .dir) := by
      rw [unpackOne, gone layer (.head _), attempt]
    have restAbsent : ∀ found ∈ rest, (blobs.put layer.digest .dir) found.digest = none := by
      intro found mem
      have other : found.digest ≠ layer.digest := by
        intro eq
        exact notAgain (eq ▸ List.mem_map_of_mem mem)
      rw [blobs.put_of_ne _ other]
      exact gone found (.tail _ mem)
    obtain ⟨blobs', later⟩ := ih (n := n + defaultRetries + 1) restDistinct
      (fun m after => served m (by omega))
      (fun found mem => unpacks found (.tail _ mem)) restAbsent
    exact ⟨blobs', bind_eq_ok_iff.2 ⟨_, first, later⟩⟩

end

/-! ## The layout -/

section

variable {node : Node} {registry : Registry} {ref : Reference}

variable {raw : Bytes} {d : String}

theorem manifest_of_acceptManifest {manifest : Manifest}
    (ok : acceptManifest node raw = .ok manifest) :
    node.codec.manifest raw = .ok manifest := by
  simp only [acceptManifest, bind_eq_ok_iff] at ok
  obtain ⟨dec, isDecoded, checked⟩ := ok
  split at checked
  · cases checked
  simp only [bind_eq_ok_iff] at checked
  obtain ⟨_, -, _, -, eq⟩ := checked
  cases eq
  exact isDecoded

variable {blobs : Blobs}

theorem readBlob_eq_ok_iff {content : Bytes} :
    readBlob blobs d = .ok content ↔ blobs d = some (.file content) := by
  rw [readBlob]
  split
  next found => simp [found]
  next found => simp [found]
  next found => simp [found]

variable {desc : Descriptor} {img : Image}

theorem image_eq_ok_iff :
    image node.codec blobs desc = .ok img ↔
      ∃ raw m cfg imageConfig, blobs desc.digest = some (.file raw) ∧
        node.codec.manifest raw = .ok m ∧
        blobs m.config.digest = some (.file cfg) ∧
        node.codec.config cfg = .ok imageConfig ∧
        img = ⟨desc, m, imageConfig,
          layerDigests m⟩ := by
  simp only [image, bind_eq_ok_iff, Prod.exists, documents_eq_ok_iff, readBlob_eq_ok_iff]
  constructor
  · rintro ⟨m, imageConfig, ⟨raw, cfg, found, dec, configFound, parsed⟩, eq⟩
    exact ⟨raw, m, cfg, imageConfig, found, dec, configFound, parsed, (Except.ok.inj eq).symm⟩
  rintro ⟨raw, m, cfg, imageConfig, found, dec, configFound, parsed, rfl⟩
  exact ⟨m, imageConfig, ⟨raw, cfg, found, dec, configFound, parsed⟩, rfl⟩

variable {got : Fetched}

theorem store_eq_ok_iff :
    store node registry ref got = .ok blobs ↔
      ∃ m cfg between, acceptManifest node got.raw = .ok m ∧
        fetchBlob node.codec registry 2 ref.repo m.config.digest = .ok cfg ∧
        unpackLayers node registry ref.repo 3
          (writeBlob (fun _ => none) m.config.digest cfg)
          (keepFirst Descriptor.digest [] m.layers) = .ok between ∧
        blobs = writeBlob between got.dgst got.raw := by
  simp only [store, bind_eq_ok_iff]
  constructor
  · rintro ⟨m, ok, cfg, isConfig, between, unpacked, eq⟩
    exact ⟨m, cfg, between, ok, isConfig, unpacked, (Except.ok.inj eq).symm⟩
  rintro ⟨m, cfg, between, ok, isConfig, unpacked, rfl⟩
  exact ⟨m, ok, cfg, isConfig, between, unpacked, rfl⟩

theorem writeBlob_empty_self (d : String) (data : Bytes) :
    writeBlob (fun _ => none) d data d = some (.file data) := by
  simp [writeBlob, Blobs.put]

theorem writeBlob_empty_of_ne {d' : String} {data : Bytes} (other : d' ≠ d) :
    writeBlob (fun _ => none) d data d' = none := by
  simp [writeBlob, Blobs.put, other]

theorem writeBlob_empty_ne_dir (d d' : String) (data : Bytes) :
    writeBlob (fun _ => none) d data d' ≠ some .dir := by
  by_cases same : d' = d
  · rw [same, writeBlob_empty_self]
    simp
  rw [writeBlob_empty_of_ne same]
  simp

theorem writeBlob_of_present {blob : Blob} (d' : String) (data : Bytes)
    (hit : blobs d = some blob) :
    writeBlob blobs d' data d = some blob := by
  rw [writeBlob]
  split
  · exact hit
  rename_i gone
  rw [blobs.put_of_ne]
  · exact hit
  rintro rfl
  exact gone (Option.isSome_of_eq_some hit)

theorem image_of_store (lawful : node.codec.Lawful)
    (small : got.raw.length ≤ maxManifestBytes)
    (digest : got.dgst = node.codec.fromBytes got.raw)
    (stored : store node registry ref got = .ok blobs) (named : desc.digest = got.dgst)
    (isImage : image node.codec blobs desc = .ok img) :
    Deliverable node got.raw ∧
      ∃ cfg, node.codec.manifest got.raw = .ok img.manifest ∧
        node.codec.fromBytes cfg = img.manifest.config.digest ∧
        node.codec.config cfg = .ok img.config ∧
        img.layerDirs = layerDigests img.manifest := by
  obtain ⟨m, cfg, between, ok, isConfig, unpacked, rfl⟩ := store_eq_ok_iff.1 stored
  obtain ⟨raw, manifest', config', imageConfig, found, dec, configFound, parsed, rfl⟩ :=
    image_eq_ok_iff.1 isImage
  obtain ⟨-, -, -, configSmall, configDigest⟩ := fetchBlob_eq_ok_iff.1 isConfig
  obtain ⟨served, unchanged⟩ := unpackLayers_eq_ok (nodup_keepFirst _ _) unpacked
  rw [named] at found
  -- no layer has the digest of the configuration, which is a file
  have layers : ∀ layer ∈ keepFirst Descriptor.digest [] m.layers,
      layer.digest ≠ m.config.digest ∧ ∃ body, extract node layer body = .ok () := by
    intro layer mem
    obtain ⟨-, hit | ⟨gone, body⟩⟩ := served layer mem
    · exact absurd hit (writeBlob_empty_ne_dir _ _ _)
    refine ⟨?_, body⟩
    rintro eq
    rw [eq, writeBlob_empty_self] at gone
    cases gone
  have configKept : between m.config.digest = some (.file cfg) := by
    rw [unchanged, writeBlob_empty_self]
    intro mem
    obtain ⟨layer, isLayer, eq⟩ := List.mem_map.1 mem
    exact (layers layer isLayer).1 eq
  -- nor that of the manifest, which is read back
  have notLayer : ∀ layer ∈ keepFirst Descriptor.digest [] m.layers,
      layer.digest ≠ got.dgst := by
    intro layer mem eq
    have isDir := (served layer mem).1
    rw [eq] at isDir
    rw [writeBlob, isDir] at found
    simp [isDir] at found
  obtain rfl : raw = got.raw := by
    by_cases eq : got.dgst = m.config.digest
    · -- one text of that digest
      rw [writeBlob, eq, configKept] at found
      simp only [Option.isSome_some, if_true, configKept, Option.some.injEq,
        Blob.file.injEq] at found
      obtain rfl := found
      exact lawful.injective ((configDigest.trans eq.symm).trans digest)
    have gone : between got.dgst = none := by
      rw [unchanged]
      · exact writeBlob_empty_of_ne eq
      intro mem
      obtain ⟨layer, isLayer, eq⟩ := List.mem_map.1 mem
      exact notLayer layer isLayer eq
    rw [writeBlob, gone] at found
    simpa [Blobs.put] using found.symm
  obtain rfl : m = manifest' :=
    Except.ok.inj ((manifest_of_acceptManifest ok).symm.trans dec)
  obtain rfl : cfg = config' := by
    have kept := writeBlob_of_present got.dgst got.raw configKept
    rw [kept] at configFound
    simpa using configFound
  refine ⟨⟨small, m, cfg, imageConfig, ok, configSmall, configDigest, parsed,
    fun layer mem => ⟨(layers layer mem).1, ?_, (layers layer mem).2⟩⟩,
    cfg, dec, configDigest, parsed, rfl⟩
  rw [← digest]
  exact notLayer layer mem

theorem exists_bodies {layers : List Descriptor} (nodup : (layers.map Descriptor.digest).Nodup)
    (unpacks : ∀ layer ∈ layers, ∃ body, extract node layer body = .ok ()) :
    ∃ body : String → Bytes, ∀ layer ∈ layers, extract node layer (body layer.digest) = .ok () := by
  have byDigest : ∀ d, ∃ body, ∀ layer ∈ layers, layer.digest = d →
    extract node layer body = .ok () := by
    intro d
    by_cases named : ∃ layer ∈ layers, layer.digest = d
    · obtain ⟨layer, mem, rfl⟩ := named
      obtain ⟨body, unpacked⟩ := unpacks layer mem
      refine ⟨body, fun other isLayer eq => ?_⟩
      rw [List.inj_on_of_nodup_map nodup isLayer mem eq]
      exact unpacked
    · exact ⟨[], fun layer mem eq => absurd ⟨layer, mem, eq⟩ named⟩
  choose body unpacked using byDigest
  exact ⟨body, fun layer mem => unpacked _ layer mem rfl⟩

/-- A document that can be delivered is stored and read back, from a registry that serves its
parts. -/
theorem store_of_deliverable (lawful : node.codec.Lawful) (ref : Reference)
    (deliverable : Deliverable node raw) :
    ∃ later : Registry, ∀ registry : Registry, (∀ n req, registry (n + 2) req = later n req) →
      ∀ got : Fetched, got.raw = raw → got.dgst = node.codec.fromBytes raw →
      ∃ blobs, store node registry ref got = .ok blobs ∧
        ∀ desc : Descriptor, desc.digest = node.codec.fromBytes raw →
          ∃ img, image node.codec blobs desc = .ok img := by
  obtain ⟨-, manifest, config, imageConfig, ok, configSmall, configDigest, parsed, layers⟩ :=
    deliverable
  have nodup : ((keepFirst Descriptor.digest [] manifest.layers).map Descriptor.digest).Nodup :=
    nodup_keepFirst [] manifest.layers
  obtain ⟨body, unpacks⟩ := exists_bodies nodup fun layer mem => (layers layer mem).2.2
  let served (d : String) : Bytes := if d = manifest.config.digest then config else body d
  refine ⟨fun _ req => match req with
    | .blob _ d => .ok { body := served d }
    | .manifest .. => .error "", fun registry ans got sameRaw digest => ?_⟩
  have answered (m : Nat) (after : 2 ≤ m) (repo d : String) :
      registry m (.blob repo d) = .ok { body := served d } := by
    obtain ⟨k, rfl⟩ := Nat.exists_eq_add_of_le after
    rw [Nat.add_comm, ans]
  have isConfig : fetchBlob node.codec registry 2 ref.repo manifest.config.digest = .ok config :=
    fetchBlob_eq_ok_iff.2 ⟨_, answered 2 (Nat.le_refl 2) _ _, (if_pos rfl).symm, configSmall,
      configDigest⟩
  have gone : ∀ layer ∈ keepFirst Descriptor.digest [] manifest.layers,
      writeBlob (fun _ => none) manifest.config.digest config layer.digest = none :=
    fun layer mem => writeBlob_empty_of_ne (layers layer mem).1
  have unpacksServed : ∀ layer ∈ keepFirst Descriptor.digest [] manifest.layers,
      extract node layer (served layer.digest) = .ok () := by
    intro layer mem
    rw [show served layer.digest = body layer.digest from if_neg (layers layer mem).1]
    exact unpacks layer mem
  obtain ⟨between, unpacked⟩ := unpackLayers_of_served (n := 3) nodup
    (fun m after => answered m (by omega) ref.repo) unpacksServed gone
  obtain ⟨-, unchanged⟩ := unpackLayers_eq_ok nodup unpacked
  refine ⟨_, store_eq_ok_iff.2 ⟨manifest, config, between, sameRaw ▸ ok, isConfig, unpacked, rfl⟩,
    fun desc named => ?_⟩
  have configKept : between manifest.config.digest = some (.file config) := by
    rw [unchanged, writeBlob_empty_self]
    intro mem
    obtain ⟨layer, isLayer, eq⟩ := List.mem_map.1 mem
    exact (layers layer isLayer).1 eq
  have found : writeBlob between got.dgst got.raw desc.digest = some (.file raw) := by
    rw [digest, sameRaw, named]
    by_cases eq : node.codec.fromBytes raw = manifest.config.digest
    · obtain rfl : config = raw := lawful.injective (configDigest.trans eq.symm)
      rw [eq]
      exact writeBlob_of_present _ _ configKept
    have free : between (node.codec.fromBytes raw) = none := by
      rw [unchanged]
      · exact writeBlob_empty_of_ne eq
      intro mem
      obtain ⟨layer, isLayer, isDigest⟩ := List.mem_map.1 mem
      exact (layers layer isLayer).2.1 isDigest
    simp [writeBlob, free, Blobs.put]
  exact ⟨_, image_eq_ok_iff.2 ⟨raw, manifest, config, imageConfig, found,
    manifest_of_acceptManifest ok, writeBlob_of_present _ _ configKept, parsed, rfl⟩⟩

end

section

variable {node : Node} {source platform : String}

/-- **What a pull ends in**: a candidate that can be delivered, with a configuration of its
digest. -/
theorem pull_spec (lawful : node.codec.Lawful) {registry : Registry}
    (pinned : pinnedDigest node.codec source ≠ "") {img : Image}
    (pulled : pull node registry source platform = .ok img) :
    ∃ raw cfg, Candidate node.codec (pinnedDigest node.codec source) platform raw ∧
      Deliverable node raw ∧ img.descriptor.digest = node.codec.fromBytes raw ∧
      node.codec.manifest raw = .ok img.manifest ∧
      node.codec.fromBytes cfg = img.manifest.config.digest ∧
      node.codec.config cfg = .ok img.config ∧
      img.layerDirs = layerDigests img.manifest := by
  simp only [pull, bind_eq_ok_iff] at pulled
  obtain ⟨ref, parsed, got, resolved, blobs, stored, isImage⟩ := pulled
  obtain ⟨candidate, small, digest⟩ := candidate_of_resolve (dgst_of_parseReference parsed) pinned
    (valid_of_pinned pinned) resolved
  obtain ⟨deliverable, cfg, dec, configDigest, configDecoded, dirs⟩ :=
    image_of_store lawful small digest stored rfl isImage
  have named : img.descriptor.digest = got.dgst := by
    obtain ⟨_, _, _, _, -, -, -, -, rfl⟩ := image_eq_ok_iff.1 isImage
    rfl
  exact ⟨got.raw, cfg, candidate, deliverable, named.trans digest, dec, configDigest,
    configDecoded, dirs⟩

theorem exists_pull (lawful : node.codec.Lawful) {ref : Reference}
    (parsed : parseReference node.codec source = .ok ref)
    (pinned : pinnedDigest node.codec source ≠ "") {raw : Bytes}
    (candidate : Candidate node.codec (pinnedDigest node.codec source) platform raw)
    (deliverable : Deliverable node raw) :
    ∃ registry img, pull node registry source platform = .ok img ∧
      img.descriptor.digest = node.codec.fromBytes raw := by
  obtain ⟨later, stores⟩ := store_of_deliverable lawful ref deliverable
  obtain ⟨registry, ans, got, resolved, sameRaw, digest⟩ :=
    resolve_of_candidate (dgst_of_parseReference parsed) pinned candidate deliverable.1 later
  obtain ⟨blobs, stored, images⟩ := stores registry ans got sameRaw digest
  obtain ⟨img, isImage⟩ := images (indexEntry got platform) digest
  refine ⟨registry, img, ?_, ?_⟩
  · simp only [pull, bind_eq_ok_iff]
    exact ⟨ref, parsed, got, resolved, blobs, stored, isImage⟩
  obtain ⟨_, _, _, _, -, -, -, -, rfl⟩ := image_eq_ok_iff.1 isImage
  exact digest

end

/-- **A pin determines the image exactly when at most one document is a candidate under it and can
be delivered.** -/
theorem pin_determines_iff {node : Node} (lawful : node.codec.Lawful) {source : String}
    {ref : Reference} (parsed : parseReference node.codec source = .ok ref)
    (pinned : pinnedDigest node.codec source ≠ "") (platform : String) :
    PinDetermines node source platform ↔
      ∀ raw raw', Candidate node.codec (pinnedDigest node.codec source) platform raw →
        Deliverable node raw →
        Candidate node.codec (pinnedDigest node.codec source) platform raw' →
        Deliverable node raw' → raw = raw' := by
  have isPinned := dgst_of_parseReference parsed
  have valid := valid_of_pinned pinned
  constructor
  · intro determines raw raw' candidate deliverable candidate' deliverable'
    obtain ⟨registry, img, pulled, digest⟩ := exists_pull lawful parsed pinned candidate deliverable
    obtain ⟨registry', img', pulled', digest'⟩ :=
      exists_pull lawful parsed pinned candidate' deliverable'
    have same := (determines registry registry' img img' pulled pulled').digest
    exact lawful.injective (digest.symm.trans (same.trans digest'))
  intro unique registry registry' img img' pulled pulled'
  obtain ⟨raw, config, candidate, deliverable, digest, decoded, configDigest,
    configDecoded, dirs⟩ :=
    pull_spec lawful pinned pulled
  obtain ⟨raw', config', candidate', deliverable', digest', decoded', configDigest', configDecoded',
    dirs'⟩ := pull_spec lawful pinned pulled'
  obtain rfl := unique raw raw' candidate deliverable candidate' deliverable'
  have manifest : img.manifest = img'.manifest := Except.ok.inj (decoded.symm.trans decoded')
  rw [← manifest] at configDigest' dirs'
  obtain rfl := lawful.injective (configDigest.trans configDigest'.symm)
  exact ⟨digest.trans digest'.symm, manifest,
    Except.ok.inj (configDecoded.symm.trans configDecoded'),
    by rw [manifest], dirs.trans dirs'.symm⟩

/-! ## A registry that chooses -/

/-- A manifest of one layer. -/
def manifestOf (layer : String) : Bytes :=
  bytesOf ("\x7b\"config\":\x7b\"digest\":\"sha256:\x7b\x7d\"\x7d,\"layers\":[\x7b\"mediaType\":" ++
    "\"application/vnd.oci.image.layer.v1.tar\",\"digest\":\"sha256:" ++ layer ++ "\"\x7d]\x7d")

/-- An index whose entry has no digest but a tag. -/
def taggedIndex : Bytes :=
  bytesOf ("\x7b\"manifests\":[\x7b\"digest\":\"latest\",\"platform\":\x7b\"os\":\"linux\"," ++
    "\"architecture\":\"amd64\"\x7d\x7d]\x7d")

/-- What the manifest of a layer decodes to. -/
def layerManifest (layer : String) : Manifest where
  config := { digest := "sha256:\x7b\x7d" }
  layers := [{ mediaType := "application/vnd.oci.image.layer.v1.tar", digest := "sha256:" ++
    layer }]

/-- A digest library in which a body is its own digest, beside what these documents decode to. -/
def plainCodec : Codec where
  fromBytes body := "sha256:" ++ latin body
  valid d := "sha256:".toList.isPrefixOf d.toList
  verifies d body := d == "sha256:" ++ latin body
  index raw := .ok ⟨if raw = taggedIndex then
    [{ digest := "latest", platform := some { os := "linux", architecture := "amd64" } }] else []⟩
  manifest raw := .ok (if raw = manifestOf "a" then layerManifest "a"
    else if raw = manifestOf "b" then layerManifest "b" else {})
  config _ := .ok {}

theorem plainCodec_lawful : plainCodec.Lawful where
  valid_fromBytes body := by simp [plainCodec, String.toList_append]
  injective := by
    intro body body' eq
    have lists := congrArg String.toList eq
    simp only [plainCodec, String.toList_append] at lists
    exact latin_injective (String.toList_inj.1 (List.append_cancel_left lists))

/-- A node that accepts everything and whose layers are all empty archives. -/
def plainNode : Node where
  codec := plainCodec
  bounds := {}
  approve _ _ := .ok ()
  kernel := ⟨fun _ _ _ => none⟩
  fs := ⟨fun _ => none, fun _ => { kind := .dir }, 0⟩
  scratch := []
  archive _ _ := .ok { entries := [] }

/-- A source pinned to the digest of a document. -/
def pinnedTo (raw : Bytes) : String := "app@" ++ plainCodec.fromBytes raw

theorem pin_determines_manifest :
    plainNode.codec.Lawful ∧ pinnedDigest plainNode.codec (pinnedTo (manifestOf "a")) ≠ "" ∧
      PinDetermines plainNode (pinnedTo (manifestOf "a")) "linux/amd64" := by
  have pinned : pinnedDigest plainNode.codec (pinnedTo (manifestOf "a")) =
      plainCodec.fromBytes (manifestOf "a") := by decide +kernel
  have noIndex : ∀ entry, selectPlatform plainCodec (manifestOf "a") "linux/amd64" ≠ .ok entry := by
    have failed : (selectPlatform plainCodec (manifestOf "a") "linux/amd64").toOption = none := by
      decide +kernel
    intro entry selected
    rw [selected] at failed
    cases failed
  have proper : pinnedDigest plainNode.codec (pinnedTo (manifestOf "a")) ≠ "" := by
    rw [pinned]
    decide +kernel
  refine ⟨plainCodec_lawful, proper, ?_⟩
  cases parsed : parseReference plainNode.codec (pinnedTo (manifestOf "a")) with
  | error message =>
    have parses : (parseReference plainNode.codec (pinnedTo (manifestOf "a"))).isOk = true := by
      decide +kernel
    rw [parsed] at parses
    cases parses
  | ok ref =>
    refine (pin_determines_iff plainCodec_lawful parsed proper "linux/amd64").2 ?_
    have only (raw : Bytes) (candidate : Candidate plainNode.codec
        (pinnedDigest plainNode.codec (pinnedTo (manifestOf "a"))) "linux/amd64" raw) :
        raw = manifestOf "a" := by
      rw [pinned] at candidate
      cases candidate with
      | pinned digest => exact plainCodec_lawful.injective digest
      | selected digest _ selects _ =>
        rw [plainCodec_lawful.injective digest] at selects
        exact absurd selects (noIndex _)
    intro raw raw' candidate _ candidate' _
    rw [only raw candidate, only raw' candidate']

/-- A registry that serves the index under the pin, and one of the manifests for its entry. -/
def registryOf (layer : String) : Registry
  | 0, .manifest .. =>
    .ok { body := taggedIndex, contentType := "application/vnd.oci.image.index.v1+json" }
  | _, .manifest .. =>
    .ok { body := manifestOf layer, contentType := "application/vnd.oci.image.manifest.v1+json" }
  | _, .blob _ d => .ok { body := bytesOf (String.ofList (d.toList.drop 7)) }

theorem pin_pulled_as_two_images :
    plainNode.codec.Lawful ∧ pinnedDigest plainNode.codec (pinnedTo taggedIndex) ≠ "" ∧
      ¬ PinDetermines plainNode (pinnedTo taggedIndex) "linux/amd64" := by
  have served (layer : String) (pulled : (pull plainNode (registryOf layer) (pinnedTo taggedIndex)
      "linux/amd64").toOption.map Image.layerDirs = some ["sha256:" ++ layer]) :
      ∃ img, pull plainNode (registryOf layer) (pinnedTo taggedIndex) "linux/amd64" = .ok img ∧
        img.layerDirs = ["sha256:" ++ layer] := by
    cases outcome : pull plainNode (registryOf layer) (pinnedTo taggedIndex) "linux/amd64" with
    | error message =>
      rw [outcome] at pulled
      cases pulled
    | ok img =>
      rw [outcome] at pulled
      exact ⟨img, rfl, Option.some.inj pulled⟩
  refine ⟨plainCodec_lawful, by decide +kernel, fun determines => ?_⟩
  obtain ⟨img, pulled, dirs⟩ := served "a" (by decide +kernel)
  obtain ⟨img', pulled', dirs'⟩ := served "b" (by decide +kernel)
  have same := (determines _ _ img img' pulled pulled').layerDirs
  rw [dirs, dirs'] at same
  cases same

end Horchestra.Oci
