import Horchestra.Foundations.Checks
import Horchestra.Oci.Layout

/-!
# Removing an image does not break another

A binding leads through the index to a manifest, and from there to a configuration and to the
directories of the layers.  Every call changes bindings, index and blobs in an order that keeps what
a binding leads to (`Layout.Sound`): a pull makes the blobs, then the entry, then the binding; a
removal takes the binding away, then the entry if no binding has it, then the blobs no entry
reaches.  So a call that ends anywhere leaves nothing that a binding needs behind or away.

`binding_shows_what_was_written` says so of every run of calls, each of which may fail or be stopped
at any of its file operations.
-/

namespace Horchestra.Oci

open Std Foundations Text KeepFirst Transitions Collecting
open Foundations.KernelMaps (Shuffle)

/-! ## What an image needs -/

/-- The blobs an image leads to. -/
def Layout.Needs (s : Layout) (h : Codec) (digest d : String) : Prop :=
  d = digest ∨ ∃ manifest config, s.image h digest = some (manifest, config) ∧
    (d = manifest.config.digest ∨ d ∈ layerDigests manifest)

/-- The index names the image, its documents read, and its layers are there. -/
structure Layout.Intact (s : Layout) (h : Codec) (digest : String) : Prop where
  entry : ∃ entry, s.index.find? (·.name == digest) = some entry ∧ entry.descriptor.digest = digest
  image : ∃ manifest config, s.image h digest = some (manifest, config) ∧
    ∀ d ∈ layerDigests manifest, ∃ tree, s.blobs[d]? = some (.dir tree)

/-- A change of the layout that leaves an image alone. -/
structure Unharmed (h : Codec) (s s' : Layout) (digest : String) : Prop where
  entry : ∀ entry, s.index.find? (·.name == digest) = some entry →
    entry.descriptor.digest = digest →
    ∃ entry', s'.index.find? (·.name == digest) = some entry' ∧ entry'.descriptor.digest = digest
  blobs : ∀ d, s.Needs h digest d → s'.blobs[d]? = s.blobs[d]?

section

variable {h : Codec} {s s' : Layout} {digest : String}

theorem readBlob_congr {d : String} (eq : s'.blobs[d]? = s.blobs[d]?) :
    s'.readBlob d = s.readBlob d := by
  rw [Layout.readBlob, Layout.readBlob, eq]

theorem readBlob_eq_iff {d : String} {content : Bytes} :
    s.readBlob d = .ok content ↔ s.blobs[d]? = some (.file content) := by
  rw [Layout.readBlob]
  split <;> simp_all

variable {manifest : Manifest} {config : ImageConfig}

theorem image_eq_some_iff :
    s.image h digest = some (manifest, config) ↔
      ∃ raw text, s.readBlob digest = .ok raw ∧ h.manifest raw = .ok manifest ∧
        s.readBlob manifest.config.digest = .ok text ∧ h.config text = .ok config := by
  have read : (documents h s.readBlob digest).toOption = some (manifest, config) ↔
      documents h s.readBlob digest = .ok (manifest, config) := by
    cases documents h s.readBlob digest <;> simp [Except.toOption]
  rw [Layout.image, read, documents_eq_ok_iff]

theorem Unharmed.image (unharmed : Unharmed h s s' digest)
    (image : s.image h digest = some (manifest, config)) :
    s'.image h digest = some (manifest, config) := by
  obtain ⟨raw, text, found, dec, foundConfig, decodedConfig⟩ := image_eq_some_iff.1 image
  refine image_eq_some_iff.2 ⟨raw, text, ?_, dec, ?_, decodedConfig⟩
  · rw [readBlob_congr (unharmed.blobs digest (.inl rfl)), found]
  · rw [readBlob_congr (unharmed.blobs _ (.inr ⟨manifest, config, image, .inl rfl⟩)), foundConfig]

theorem Unharmed.intact (unharmed : Unharmed h s s' digest) (intact : s.Intact h digest) :
    s'.Intact h digest := by
  obtain ⟨⟨entry, found, eq⟩, manifest, config, image, layers⟩ := intact
  refine ⟨unharmed.entry entry found eq, manifest, config, unharmed.image image, ?_⟩
  intro d mem
  rw [unharmed.blobs d (.inr ⟨manifest, config, image, .inr mem⟩)]
  exact layers d mem

theorem Layout.Intact.imageSpec (intact : s.Intact h digest)
    (image : s.image h digest = some (manifest, config)) :
    s.imageSpec h digest = some ⟨config,
    (layerDigests manifest).map fun d => (d, s.blobs[d]?)⟩ := by
  obtain ⟨entry, found, eq⟩ := intact.entry
  simp [Layout.imageSpec, found, eq, image]

theorem Unharmed.imageSpec (unharmed : Unharmed h s s' digest) (intact : s.Intact h digest) :
    s'.imageSpec h digest = s.imageSpec h digest := by
  obtain ⟨manifest, config, image, -⟩ := intact.image
  rw [intact.imageSpec image, (unharmed.intact intact).imageSpec (unharmed.image image)]
  congr 2
  refine List.map_congr_left fun d mem => ?_
  rw [unharmed.blobs d (.inr ⟨manifest, config, image, .inr mem⟩)]

theorem unharmed_of_grows (index : s'.index = s.index) (intact : s.Intact h digest)
    (grows : ∀ (d : String) (blob : LayoutBlob), s.blobs[d]? = some blob →
    s'.blobs[d]? = some blob) :
    Unharmed h s s' digest where
  entry := by
    intro entry found eq
    rw [index]
    exact ⟨entry, found, eq⟩
  blobs := by
    intro d needed
    have present : ∃ blob, s.blobs[d]? = some blob := by
      obtain ⟨manifest, config, image, layers⟩ := intact.image
      obtain ⟨raw, text, found, -, foundConfig, -⟩ := image_eq_some_iff.1 image
      have isThere {digest : String} {content : Bytes} (found : s.readBlob digest = .ok content) :
          ∃ blob, s.blobs[digest]? = some blob := ⟨_, readBlob_eq_iff.1 found⟩
      rcases needed with rfl | ⟨m', config', image', which⟩
      · exact isThere found
      obtain ⟨rfl, rfl⟩ : manifest = m' ∧ config = config' := by
        simpa using image.symm.trans image'
      rcases which with rfl | l
      · exact isThere foundConfig
      obtain ⟨tree, hit⟩ := layers d l
      exact ⟨_, hit⟩
    obtain ⟨blob, hit⟩ := present
    rw [hit, grows d blob hit]

variable {name : String}

theorem unharmed_of_filter (other : digest ≠ name) (blobs : s'.blobs = s.blobs)
    (index : s'.index = s.index.filter (·.name ≠ name)) : Unharmed h s s' digest where
  entry := by
    intro entry found eq
    refine ⟨entry, ?_, eq⟩
    rw [index, List.find?_filter, ← found]
    congr 1
    funext candidate
    by_cases named : candidate.name = digest
    · simp [named, other]
    · simp [named]
  blobs := fun d _ => by rw [blobs]

variable {entry found : IndexEntry}

theorem find?_publish (index : List IndexEntry)
    (hit : index.find? (·.name == name) = some found) :
    (publish entry index).find? (·.name == name) = some
    (if entry.name = name then entry else found) := by
  induction index with
  | nil => cases hit
  | cons first rest ih =>
    rw [publish]
    by_cases same : first.name = entry.name
    · rw [if_pos same]
      by_cases eq : entry.name = name
      · simp [eq]
      have ne : first.name ≠ name := fun equal => eq (same ▸ equal)
      rw [List.find?_cons_of_neg (by simpa using ne)] at hit
      rw [List.find?_cons_of_neg (by simpa using eq), hit, if_neg eq]
    rw [if_neg same]
    by_cases eq : first.name = name
    · rw [List.find?_cons_of_pos (by simpa using eq)] at hit ⊢
      rw [if_neg (fun equal => same (eq.trans equal.symm)), Option.some.inj hit]
    rw [List.find?_cons_of_neg (by simpa using eq)] at hit ⊢
    exact ih hit

theorem exists_find?_publish (entry : IndexEntry) (index : List IndexEntry) :
    (publish entry index).find? (·.name == entry.name) = some entry := by
  induction index with
  | nil => simp [publish]
  | cons first rest ih =>
    rw [publish]
    by_cases same : first.name = entry.name
    · simp [same]
    · rw [if_neg same, List.find?_cons_of_neg (by simpa using same), ih]

theorem mem_publish {index : List IndexEntry} (mem : found ∈ publish entry index) :
    found = entry ∨ found ∈ index := by
  induction index with
  | nil => exact .inl (by simpa [publish] using mem)
  | cons first rest ih =>
    rw [publish] at mem
    split at mem
    · exact (List.mem_cons.1 mem).imp_right (List.mem_cons_of_mem _)
    rcases List.mem_cons.1 mem with rfl | later
    · exact .inr (.head _)
    · exact (ih later).imp_right (List.mem_cons_of_mem _)

/-- An entry that is published takes the place of one of the same image only. -/
theorem unharmed_of_publish (own : entry.descriptor.digest = entry.name)
    (blobs : s'.blobs = s.blobs) (index : s'.index = publish entry s.index) :
    Unharmed h s s' digest where
  entry := by
    intro found hit same
    rw [index]
    refine ⟨_, find?_publish s.index hit, ?_⟩
    split
    next eq => rw [own, eq]
    · exact same
  blobs := fun d _ => by rw [blobs]

theorem unharmed_refl (index : s'.index = s.index) (blobs : s'.blobs = s.blobs) :
    Unharmed h s s' digest where
  entry := by
    intro entry found eq
    exact ⟨entry, index ▸ found, eq⟩
  blobs := fun d _ => by rw [blobs]

theorem Layout.Intact.congr (intact : s.Intact h digest) (index : s'.index = s.index)
    (blobs : s'.blobs = s.blobs) : s'.Intact h digest := (unharmed_refl index blobs).intact intact

end

/-! ## What holds between any two operations -/

section

variable (h : Codec) (sum : String → String)

def Layout.HasLayers (s : Layout) (p : PullJob) : Prop :=
  ∀ d ∈ layerDigests p.manifest, ∃ tree, s.blobs[d]? = some (.dir tree)

/-- What holds where a call stands. -/
def Layout.PhaseFacts (s : Layout) : Prop :=
  match s.phase with
  | .config p => p.Accepted h
  | .layers p left => p.Accepted h ∧
      ∀ d ∈ layerDigests p.manifest, d ∈ left ∨ ∃ tree, s.blobs[d]? = some (.dir tree)
  | .manifest p | .index p => p.Accepted h ∧ s.HasLayers p
  | .reading p => p.Accepted h ∧ s.HasLayers p ∧
      ∃ entry, s.index.find? (·.name == p.digest h) = some entry ∧
        entry.descriptor.digest = p.digest h
  | .staging p => s.Intact h (p.digest h)
  | .filling p file | .binding p file => s.Intact h (p.digest h) ∧ ∃ random, file = "ref-" ++ random
  | .unindexing left _ => ∀ name ∈ left, ∀ (file : String) (binding : ImageRef),
      s.refs[file]? = some (.ref binding) → binding.digest ≠ name
  | .erasing left => ∀ d ∈ left, ∀ entry ∈ s.index, ¬ s.Needs h entry.descriptor.digest d
  | _ => True

structure Layout.Sound (s : Layout) : Prop where
  named : ∀ entry ∈ s.index, entry.descriptor.digest = entry.name
  verified : ∀ d content, s.blobs[d]? = some (.file content) → h.fromBytes content = d
  intact : ∀ (file : String) (binding : ImageRef), s.refs[file]? = some (.ref binding) →
    s.Intact h binding.digest
  shown : ∀ (ns source : String) (binding : ImageRef), '\x00' ∉ ns.toList →
    s.refs[storeKey sum ns source]? = some (.ref binding) →
      s.written ns source = s.imageSpec h binding.digest
  phase : s.PhaseFacts h

/-- What is assumed of the digest a key is: no two texts have the same one, and it does not look
like the name of a temporary file. -/
structure KeysApart : Prop where
  injective : Function.Injective sum
  notTemporary : ∀ text random, sum text ≠ "ref-" ++ random

variable {h sum}

theorem storeKey_injective (apart : KeysApart sum) {ns ns' src source' : String}
    (named : '\x00' ∉ ns.toList) (named' : '\x00' ∉ ns'.toList)
    (eq : storeKey sum ns src = storeKey sum ns' source') : ns = ns' ∧ src = source' := by
  have texts := congrArg String.toList (apart.injective eq)
  have sep : "\x00".toList = ['\x00'] := rfl
  simp only [String.toList_append, sep, List.append_assoc, List.singleton_append] at texts
  have pre : ns.toList = ns'.toList := by
    have split (left right : List Char) (gone : '\x00' ∉ left) :
        (left ++ '\x00' :: right).takeWhile (· ≠ '\x00') = left := by
      rw [List.takeWhile_append_of_pos (by simpa using fun c mem => ne_of_mem_of_not_mem mem gone)]
      simp
    rw [← split _ src.toList named, texts, split _ _ named']
  rw [pre, List.append_cancel_left_eq, List.cons.injEq] at texts
  exact ⟨String.toList_injective pre, String.toList_injective texts.2⟩

variable {s s' : Layout}

theorem Layout.Sound.advance (sound : s.Sound h sum)
    (named : ∀ entry ∈ s'.index, entry.descriptor.digest = entry.name)
    (verified : ∀ d content, s'.blobs[d]? = some (.file content) → h.fromBytes content = d)
    (refs : ∀ (file : String) (binding : ImageRef), s'.refs[file]? = some (.ref binding) →
      s.refs[file]? = some (.ref binding))
    (wrote : s'.written = s.written)
    (unharmed : ∀ (file : String) (binding : ImageRef), s'.refs[file]? = some (.ref binding) →
      Unharmed h s s' binding.digest)
    (phase : s'.PhaseFacts h) : s'.Sound h sum where
  named := named
  verified := verified
  intact := by
    intro file binding held
    exact (unharmed file binding held).intact (sound.intact file binding (refs file binding held))
  shown := by
    intro ns src binding plain held
    have pre := refs _ binding held
    rw [wrote, (unharmed _ binding held).imageSpec (sound.intact _ binding pre)]
    exact sound.shown ns src binding plain pre
  phase := phase

theorem Layout.Sound.move (sound : s.Sound h sum) (index : s'.index = s.index)
    (blobs : s'.blobs = s.blobs)
    (refs : ∀ (file : String) (binding : ImageRef), s'.refs[file]? = some (.ref binding) →
      s.refs[file]? = some (.ref binding))
    (wrote : s'.written = s.written) (phase : s'.PhaseFacts h) : s'.Sound h sum :=
  sound.advance (index ▸ sound.named) (blobs ▸ sound.verified) refs wrote
    (fun _ _ _ => unharmed_refl index blobs) phase

theorem Layout.Sound.idle (sound : s.Sound h sum) : Layout.Sound h sum { s with phase := .idle } :=
  sound.move rfl rfl (fun _ _ held => held) rfl trivial

/-! ## Pulling -/

section

variable {p : PullJob}

theorem blobs_putFile (s : Layout) (digest : String) (content : Bytes) :
    (s.putFile digest content).index = s.index ∧ (s.putFile digest content).refs = s.refs ∧
      (s.putFile digest content).written = s.written := by
  rw [Layout.putFile]
  split <;> exact ⟨rfl, rfl, rfl⟩

variable {digest d file : String} {content : Bytes}

/-- A blob that is there stays as it is, and what is written is what was verified. -/
theorem getElem?_putFile {blob : LayoutBlob}
    (held : (s.putFile digest content).blobs[d]? = some blob) :
    s.blobs[d]? = some blob ∨ (d = digest ∧ blob = .file content) := by
  rw [Layout.putFile] at held
  split at held
  · exact .inl held
  simp only [ExtTreeMap.getElem?_insert] at held
  split at held
  next eq => exact .inr ⟨(Std.LawfulEqCmp.eq_of_compare eq).symm, (Option.some.inj held).symm⟩
  · exact .inl held

theorem grows_putFile (digest : String) (content : Bytes) (d : String) (blob : LayoutBlob)
    (held : s.blobs[d]? = some blob) : (s.putFile digest content).blobs[d]? = some blob := by
  rw [Layout.putFile]
  split
  · exact held
  rename_i gone
  have ne : digest ≠ d := by
    rintro rfl
    rw [ExtTreeMap.contains_eq_isSome_getElem?, held] at gone
    exact gone rfl
  simp [ExtTreeMap.getElem?_insert, ne, held]

theorem Layout.Sound.putFile (sound : s.Sound h sum) (verified : h.fromBytes content = digest)
    {phase : CallPhase} (facts : Layout.PhaseFacts h { s.putFile digest content with phase }) :
    Layout.Sound h sum { s.putFile digest content with phase } := by
  obtain ⟨index, refs, wrote⟩ := blobs_putFile s digest content
  have held (file : String) (binding : ImageRef)
      (found : (s.putFile digest content).refs[file]? = some (.ref binding)) :
      s.refs[file]? = some (.ref binding) := refs ▸ found
  refine sound.advance (index ▸ sound.named) ?_ held wrote ?_ facts
  · intro d found hit
    rcases getElem?_putFile hit with pre | ⟨rfl, eq⟩
    · exact sound.verified d found pre
    cases eq
    exact verified
  intro file binding found
  exact unharmed_of_grows index (sound.intact file binding (held file binding found))
    (grows_putFile digest content)

theorem Layout.Sound.putLayer (sound : s.Sound h sum) {d : String} {left : List String}
    (tree : Tree)
    (ok : p.Accepted h)
    (layers : ∀ other ∈ layerDigests p.manifest, other ∈ d :: left ∨
      ∃ tree, s.blobs[other]? = some (.dir tree))
    (gone : s.blobs[d]? = none) :
    Layout.Sound h sum
    { s with blobs := s.blobs.insert d (.dir tree), phase := .layers p left } := by
  have grows (other : String) (blob : LayoutBlob) (held : s.blobs[other]? = some blob) :
      (s.blobs.insert d (.dir tree))[other]? = some blob := by
    have ne : d ≠ other := by
      rintro rfl
      rw [gone] at held
      cases held
    simp [ExtTreeMap.getElem?_insert, ne, held]
  refine sound.advance sound.named ?_ (fun _ _ held => held) rfl ?_ ⟨ok, ?_⟩
  · intro other content hit
    simp only [ExtTreeMap.getElem?_insert] at hit
    split at hit
    · cases hit
    · exact sound.verified other content hit
  · intro file binding held
    exact unharmed_of_grows rfl (sound.intact file binding held) grows
  · intro other mem
    rcases layers other mem with pending | ⟨found, hit⟩
    · rcases List.mem_cons.1 pending with rfl | later
      · exact .inr ⟨tree, by simp⟩
      · exact .inl later
    · exact .inr ⟨found, grows other _ hit⟩

/-- What reads as the manifest of a pull is the one it fetched, and its layers are there. -/
theorem intact_of_reading (lawful : h.Lawful) (sound : s.Sound h sum) (ok : p.Accepted h)
    (layers : s.HasLayers p)
    (entry : ∃ entry, s.index.find? (·.name == p.digest h) = some entry ∧
      entry.descriptor.digest = p.digest h)
    (reads : (s.image h (p.digest h)).isSome = true) : s.Intact h (p.digest h) := by
  obtain ⟨⟨manifest, config⟩, image⟩ := Option.isSome_iff_exists.1 reads
  refine ⟨entry, manifest, config, image, ?_⟩
  obtain ⟨raw, text, found, dec, -, -⟩ := image_eq_some_iff.1 image
  have eq : raw = p.raw := lawful.injective (sound.verified _ _ (readBlob_eq_iff.1 found))
  obtain rfl : p.manifest = manifest := by
    rw [eq, ok.1] at dec
    exact Except.ok.inj dec
  exact layers

theorem Layout.Sound.fill (apart : KeysApart sum) (sound : s.Sound h sum) {random : String}
    (intact : s.Intact h (p.digest h)) (temporary : file = "ref-" ++ random) :
    Layout.Sound h sum
      { s with
        refs := s.refs.insert file (.ref ⟨p.ns, p.source, p.digest h⟩), phase :=
          .binding p file } := by
  have same (digest : String) : Unharmed h s
      { s with
        refs := s.refs.insert file (.ref ⟨p.ns, p.source, p.digest h⟩), phase := .binding p file }
      digest := unharmed_refl rfl rfl
  refine ⟨sound.named, sound.verified, ?_, ?_, (same _).intact intact, random, temporary⟩
  · intro name binding held
    simp only [ExtTreeMap.getElem?_insert] at held
    split at held
    · obtain rfl : ImageRef.mk p.ns p.source (p.digest h) = binding := by simpa using held
      exact (same _).intact intact
    · exact (same _).intact (sound.intact name binding held)
  intro ns src binding plain held
  simp only [ExtTreeMap.getElem?_insert] at held
  split at held
  next eq =>
    have equal := Std.LawfulEqCmp.eq_of_compare eq
    exact absurd (equal.symm.trans temporary) (apart.notTemporary _ random)
  rw [(same _).imageSpec (sound.intact _ binding held)]
  exact sound.shown ns src binding plain held

/-- The new binding shows what it shows when it is written, and the others what they showed. -/
theorem Layout.Sound.bind (apart : KeysApart sum) (sound : s.Sound h sum)
    (intact : s.Intact h (p.digest h)) : (s.bind h sum p file).Sound h sum := by
  have same (digest : String) : Unharmed h s (s.bind h sum p file) digest := unharmed_refl rfl rfl
  have cases_ (name : String) (binding : ImageRef)
      (held : (s.bind h sum p file).refs[name]? = some (.ref binding)) :
      (name = storeKey sum p.ns p.source ∧ binding.digest = p.digest h) ∨
        (name ≠ storeKey sum p.ns p.source ∧ s.refs[name]? = some (.ref binding)) := by
    simp only [Layout.bind, ExtTreeMap.getElem?_insert, ExtTreeMap.getElem?_erase] at held
    split at held
    next eq =>
      obtain rfl : ImageRef.mk p.ns p.source (p.digest h) = binding := by simpa using held
      exact .inl ⟨(Std.LawfulEqCmp.eq_of_compare eq).symm, rfl⟩
    rename_i elsewhere
    split at held
    · cases held
    refine .inr ⟨fun equal => elsewhere ?_, held⟩
    rw [equal]
    exact Std.ReflCmp.compare_self
  refine ⟨sound.named, sound.verified, ?_, ?_, trivial⟩
  · intro name binding held
    rcases cases_ name binding held with ⟨-, digest⟩ | ⟨-, pre⟩
    · exact digest ▸ (same _).intact intact
    · exact (same _).intact (sound.intact name binding pre)
  intro ns src binding plain held
  rcases cases_ _ binding held with ⟨eq, digest⟩ | ⟨elsewhere, pre⟩
  · obtain ⟨rfl, rfl⟩ := storeKey_injective apart plain p.named eq
    rw [digest, (same _).imageSpec intact]
    simp [Layout.bind]
  have other : ¬ (ns = p.ns ∧ src = p.source) := by
    rintro ⟨rfl, rfl⟩
    exact elsewhere rfl
  rw [(same _).imageSpec (sound.intact _ binding pre)]
  simpa [Layout.bind, other] using sound.shown ns src binding plain pre

end

/-! ## Removing -/

variable {refs : List (String × ImageRef)} {file : String} {binding : ImageRef}

theorem mem_listRefs (listed : s.listRefs = some refs)
    (held : s.refs[file]? = some (.ref binding)) : (file, binding) ∈ refs := by
  have hit : (file, RefFile.ref binding) ∈ s.refs.toList :=
    ExtTreeMap.mem_toList_iff_getElem?_eq_some.2 held
  obtain ⟨found, mem, gives⟩ := exists_mem_of_mapM listed hit
  obtain rfl : (file, binding) = found := by simpa using gives
  exact mem

theorem unbound_of_listRefs (listed : s.listRefs = some refs) {digest : String}
    (unbound : ¬ (refs.any fun r => r.2.digest == digest) = true)
    (held : s.refs[file]? = some (.ref binding)) : binding.digest ≠ digest := by
  intro eq
  refine unbound (List.any_eq_true.2 ⟨(file, binding), mem_listRefs listed held, ?_⟩)
  simpa using eq

variable {phase : CallPhase}

theorem Layout.Sound.unindex (sound : s.Sound h sum) {name : String}
    (unbound : ∀ (file : String) (binding : ImageRef), s.refs[file]? = some (.ref binding) →
      binding.digest ≠ name) {phase : CallPhase}
    (facts : Layout.PhaseFacts h { s with index := s.index.filter (·.name ≠ name), phase }) :
    Layout.Sound h sum { s with index := s.index.filter (·.name ≠ name), phase } :=
  sound.advance (fun entry mem => sound.named entry (List.mem_filter.1 mem).1) sound.verified
    (fun _ _ held => held) rfl
    (fun file binding held => unharmed_of_filter (unbound file binding held) rfl rfl) facts

theorem Layout.Sound.unbind (sound : s.Sound h sum) (file : String)
    (facts : Layout.PhaseFacts h { s with refs := s.refs.erase file, phase }) :
    Layout.Sound h sum { s with refs := s.refs.erase file, phase } := by
  refine sound.move rfl rfl ?_ rfl facts
  intro other binding held
  simp only [ExtTreeMap.getElem?_erase] at held
  split at held
  · cases held
  · exact held

/-! ## Collecting -/

section

variable {d : String}

theorem not_needs_of_reachable {reached : List String} (all : s.reachable h = some reached)
    (unreached : digestHex d ∉ reached) {entry : IndexEntry} (mem : entry ∈ s.index) :
    ¬ s.Needs h entry.descriptor.digest d := by
  obtain ⟨lists, read, rfl⟩ := Option.map_eq_some_iff.1 all
  have own : ∃ manifest config, s.image h entry.descriptor.digest = some (manifest, config) ∧
      (digestHex entry.descriptor.digest :: digestHex manifest.config.digest ::
        manifest.layers.map fun l => digestHex l.digest) ∈ lists := by
    obtain ⟨list, listed, found⟩ := exists_mem_of_mapM read mem
    obtain ⟨⟨manifest, config⟩, image, rfl⟩ := Option.map_eq_some_iff.1 found
    exact ⟨manifest, config, image, listed⟩
  obtain ⟨manifest, config, image, listed⟩ := own
  have ne (other : String) (inList : digestHex other ∈ (digestHex entry.descriptor.digest ::
      digestHex manifest.config.digest :: manifest.layers.map fun l =>
        digestHex l.digest)) : d ≠ other := by
    rintro rfl
    exact unreached (List.mem_flatten.2 ⟨_, listed, inList⟩)
  rintro (rfl | ⟨m', config', image', which⟩)
  · exact ne _ (.head _) rfl
  · obtain ⟨rfl, rfl⟩ : manifest = m' ∧ config = config' := by
      simpa using image.symm.trans image'
    rcases which with rfl | layer
    · exact ne _ (by simp) rfl
    obtain ⟨l, kept, rfl⟩ := List.mem_map.1 layer
    refine ne _ ?_ rfl
    simpa using .inr (.inr ⟨l, (mem_keepFirst kept).1, rfl⟩)

theorem needs_of_shrunk {digest d : String}
    (shrunk : ∀ (d : String) (content : Bytes), s'.blobs[d]? = some (.file content) →
      s.blobs[d]? = some (.file content)) (needed : s'.Needs h digest d) : s.Needs h digest d := by
  refine needed.imp_right ?_
  rintro ⟨manifest, config, image, which⟩
  have back {d : String} {content : Bytes} (found : s'.readBlob d = .ok content) :
      s.readBlob d = .ok content :=
    readBlob_eq_iff.2 (shrunk _ _ (readBlob_eq_iff.1 found))
  obtain ⟨raw, text, found, dec, foundConfig, decodedConfig⟩ := image_eq_some_iff.1 image
  exact ⟨manifest, config,
    image_eq_some_iff.2 ⟨raw, text, back found, dec, back foundConfig, decodedConfig⟩, which⟩

theorem Layout.Sound.shrink (sound : s.Sound h sum) {d : String}
    (blobs' : ExtTreeMap String LayoutBlob)
    (elsewhere : ∀ other : String, other ≠ d → blobs'[other]? = s.blobs[other]?)
    (shrunk : ∀ (d : String) (content : Bytes), blobs'[d]? = some (LayoutBlob.file content) →
      s.blobs[d]? = some (.file content))
    (unneeded : ∀ entry ∈ s.index, ¬ s.Needs h entry.descriptor.digest d) {phase : CallPhase}
    (facts : Layout.PhaseFacts h { s with blobs := blobs', phase }) :
    Layout.Sound h sum { s with blobs := blobs', phase } := by
  refine sound.advance sound.named ?_ (fun _ _ held => held) rfl ?_ facts
  · intro other content hit
    exact sound.verified other content (shrunk other content hit)
  intro file binding held
  obtain ⟨entry, found, eq⟩ := (sound.intact file binding held).entry
  refine ⟨fun entry found eq => ⟨entry, found, eq⟩, fun other needed => elsewhere other ?_⟩
  rintro rfl
  exact unneeded entry (List.mem_of_find?_eq_some found) (eq.symm ▸ needed)

theorem Layout.Sound.erase (sound : s.Sound h sum) {rest : List String}
    (unneeded : ∀ entry ∈ s.index, ¬ s.Needs h entry.descriptor.digest d)
    (others : ∀ d ∈ rest, ∀ entry ∈ s.index, ¬ s.Needs h entry.descriptor.digest d) :
    Layout.Sound h sum { s with blobs := s.blobs.erase d, phase := .erasing rest } := by
  have shrunk (other : String) (content : Bytes)
      (hit : (s.blobs.erase d)[other]? = some (LayoutBlob.file content)) :
      s.blobs[other]? = some (.file content) := by
    rw [ExtTreeMap.getElem?_erase] at hit
    split at hit
    · cases hit
    · exact hit
  refine sound.shrink (s.blobs.erase d) ?_ shrunk unneeded ?_
  · intro other ne
    rw [ExtTreeMap.getElem?_erase, if_neg (by simpa using ne.symm)]
  intro other mem entry listed needed
  exact others other mem entry listed (needs_of_shrunk shrunk needed)

/-- A removal that fails may leave part of a directory; no binding leads there. -/
theorem Layout.Sound.spoil (sound : s.Sound h sum)
    (unneeded : ∀ entry ∈ s.index, ¬ s.Needs h entry.descriptor.digest d)
    (left : String × String → Bool) :
    Layout.Sound h sum
      { s with phase := .idle, blobs := s.blobs.alter d (Option.map (LayoutBlob.partly left)) } := by
  refine sound.shrink (s.blobs.alter d (Option.map (LayoutBlob.partly left))) ?_ ?_ unneeded trivial
  · intro other ne
    rw [ExtTreeMap.getElem?_alter, if_neg (by simpa using ne.symm)]
  intro other content hit
  rw [ExtTreeMap.getElem?_alter] at hit
  split at hit
  next eq =>
    obtain rfl := Std.LawfulEqCmp.eq_of_compare eq
    obtain ⟨blob, found, partly⟩ := Option.map_eq_some_iff.1 hit
    cases blob with
    | file pre =>
      obtain rfl : pre = content := by simpa [LayoutBlob.partly] using partly
      exact found
    | dir tree => cases partly
  · exact hit

end

/-! ## Runs -/

/-- **Every operation of every call keeps what the bindings lead to**, whether it succeeds or not.
-/
theorem Layout.Sound.go (lawful : h.Lawful) (apart : KeysApart sum) (sound : s.Sound h sum)
    (c : Choice) :
    (s.go h sum c).Sound h sum := by
  have facts := sound.phase
  cases phase : s.phase with
  | idle =>
    simp only [Layout.go, phase]
    exact sound
  | config p =>
    simp only [Layout.PhaseFacts, phase] at facts
    simp only [Layout.go, phase]
    split
    · refine sound.putFile facts.2 ⟨facts, ?_⟩
      intro d mem
      exact .inl (p.order.mem_arrange.2 mem)
    · exact sound.idle
  | layers p left =>
    simp only [Layout.PhaseFacts, phase] at facts
    obtain ⟨ok, layers⟩ := facts
    cases left with
    | nil =>
      simp only [Layout.go, phase]
      refine sound.move rfl rfl (fun _ _ held => held) rfl ⟨ok, ?_⟩
      intro d mem
      exact (layers d mem).resolve_left (by simp)
    | cons d rest =>
      simp only [Layout.go, phase]
      split
      · exact sound.idle
      next tree hit =>
        refine sound.move rfl rfl (fun _ _ held => held) rfl ⟨ok, ?_⟩
        intro other mem
        rcases layers other mem with pending | present
        · rcases List.mem_cons.1 pending with rfl | later
          · exact .inr ⟨tree, hit⟩
          · exact .inl later
        · exact .inr present
      next gone =>
        split
        · exact sound.putLayer c.tree ok layers gone
        · exact sound.idle
  | manifest p =>
    simp only [Layout.PhaseFacts, phase] at facts
    obtain ⟨ok, layers⟩ := facts
    simp only [Layout.go, phase]
    split
    · refine sound.putFile rfl ⟨ok, ?_⟩
      intro d mem
      obtain ⟨tree, hit⟩ := layers d mem
      exact ⟨tree, grows_putFile _ _ d _ hit⟩
    · exact sound.idle
  | index p =>
    simp only [Layout.PhaseFacts, phase] at facts
    obtain ⟨ok, layers⟩ := facts
    simp only [Layout.go, phase]
    split
    · refine sound.advance ?_ sound.verified (fun _ _ held => held) rfl
        (fun _ _ _ => unharmed_of_publish rfl rfl rfl)
        ⟨ok, layers, p.entry h, exists_find?_publish (p.entry h) s.index, rfl⟩
      intro entry mem
      rcases mem_publish mem with rfl | pre
      · rfl
      · exact sound.named entry pre
    · exact sound.idle
  | reading p =>
    simp only [Layout.PhaseFacts, phase] at facts
    obtain ⟨ok, layers, entry⟩ := facts
    simp only [Layout.go, phase]
    split
    next reads =>
      have intact := intact_of_reading lawful sound ok layers entry reads
      exact sound.move rfl rfl (fun _ _ held => held) rfl (intact.congr rfl rfl)
    · exact sound.idle
  | staging p =>
    simp only [Layout.PhaseFacts, phase] at facts
    simp only [Layout.go, phase]
    split
    · refine sound.move rfl rfl ?_ rfl ⟨facts.congr rfl rfl, c.file, rfl⟩
      intro file binding held
      simp only [ExtTreeMap.getElem?_insert] at held
      split at held
      · cases held
      · exact held
    · exact sound.idle
  | filling p file =>
    simp only [Layout.PhaseFacts, phase] at facts
    obtain ⟨intact, random, temporary⟩ := facts
    simp only [Layout.go, phase]
    split
    · exact sound.fill apart intact temporary
    · exact sound.unbind file trivial
  | binding p file =>
    simp only [Layout.PhaseFacts, phase] at facts
    simp only [Layout.go, phase]
    split
    · exact sound.bind apart facts.1
    · exact sound.idle
  | removing ns source =>
    simp only [Layout.go, phase]
    split
    · split
      · exact sound.unbind _ trivial
      · exact sound.idle
    · exact sound.idle
  | dropping digest =>
    simp only [Layout.go, phase]
    split
    · exact sound.idle
    rename_i refs listed
    split
    · exact sound.idle
    rename_i unbound
    split
    · exact sound.unindex (fun _ _ held => unbound_of_listRefs listed unbound held) trivial
    · exact sound.idle
  | purging keep left =>
    cases left with
    | nil =>
      simp only [Layout.go, phase]
      exact sound.move rfl rfl (fun _ _ held => held) rfl trivial
    | cons first rest =>
      obtain ⟨file, binding⟩ := first
      simp only [Layout.go, phase]
      split
      · exact sound.move rfl rfl (fun _ _ held => held) rfl trivial
      cases c.ok with
      | true => exact sound.unbind file trivial
      | false => exact sound.move rfl rfl (fun _ _ held => held) rfl trivial
  | surveying =>
    simp only [Layout.go, phase]
    split
    next survivors images listed read =>
      refine sound.move rfl rfl (fun _ _ held => held) rfl ?_
      intro name mem file binding held
      obtain ⟨entry, -, dropped⟩ := List.mem_filterMap.1 mem
      split at dropped
      · cases dropped
      rename_i unbound
      cases dropped
      exact unbound_of_listRefs listed (not_or.1 unbound).2 held
    · exact sound.idle
  | unindexing left dropped =>
    simp only [Layout.PhaseFacts, phase] at facts
    cases left with
    | nil =>
      simp only [Layout.go, phase]
      refine sound.move rfl rfl (fun _ _ held => held) rfl ?_
      cases dropped <;> trivial
    | cons name rest =>
      rw [List.forall_mem_cons] at facts
      simp only [Layout.go, phase]
      split
      · exact sound.unindex facts.1 facts.2
      · exact sound.move rfl rfl (fun _ _ held => held) rfl facts.2
  | collecting =>
    simp only [Layout.go, phase]
    split
    · exact sound.idle
    rename_i reached all
    refine sound.move rfl rfl (fun _ _ held => held) rfl ?_
    intro d mem entry listed needed
    have unreached := (List.mem_filter.1 mem).2
    rw [Bool.and_eq_true, decide_eq_true_eq] at unreached
    exact not_needs_of_reachable all unreached.2 listed
      (needs_of_shrunk (fun _ _ hit => hit) needed)
  | erasing left =>
    simp only [Layout.PhaseFacts, phase] at facts
    cases left with
    | nil =>
      simp only [Layout.go, phase]
      exact sound.idle
    | cons d rest =>
      rw [List.forall_mem_cons] at facts
      simp only [Layout.go, phase]
      split
      · exact sound.erase facts.1 facts.2
      · exact sound.spoil facts.1 c.left

theorem Layout.Sound.step (lawful : h.Lawful) (apart : KeysApart sum) (sound : s.Sound h sum)
    {ev : LayoutEvent} (moved : s.step h sum ev = some s') : s'.Sound h sum := by
  cases ev with
  | pull p =>
    simp only [Layout.step] at moved
    split at moved
    · simp only [Option.ite_none_right_eq_some, Option.some.injEq] at moved
      obtain ⟨ok, rfl⟩ := moved
      exact sound.move rfl rfl (fun _ _ held => held) rfl ok
    · cases moved
  | remove ns source =>
    simp only [Layout.step] at moved
    split at moved
    · cases moved
      exact sound.move rfl rfl (fun _ _ held => held) rfl trivial
    · cases moved
  | purge keep =>
    simp only [Layout.step] at moved
    split at moved
    · obtain ⟨refs, -, rfl⟩ := Option.map_eq_some_iff.1 moved
      exact sound.move rfl rfl (fun _ _ held => held) rfl trivial
    · cases moved
  | go choice =>
    cases moved
    exact sound.go lawful apart choice
  | stop =>
    cases moved
    exact sound.idle

theorem Layout.sound_empty : Layout.Sound h sum {} := by refine ⟨?_, ?_, ?_, ?_, trivial⟩ <;> simp

end

/-- The manifest of an image of one layer. -/
def sharedManifest : Bytes :=
  bytesOf "\x7b\"config\":\x7b\"digest\":\"\x7b\x7d\"\x7d,\"layers\":[\x7b\"digest\":\"l\"\x7d]\x7d"

/-- A digest library in which every body is its own digest, beside what the manifest decodes to. -/
def textCodec : Codec where
  fromBytes := latin
  valid _ := true
  verifies dgst body := dgst == latin body
  index _ := .error ""
  manifest raw :=
    if raw = sharedManifest then
      .ok { config := { digest := "\x7b\x7d" }, layers := [{ digest := "l" }] }
    else .error ""
  config _ := .ok {}

theorem textCodec_lawful : textCodec.Lawful := ⟨fun _ => rfl, latin_injective⟩

def markedKey (text : String) : String := "k" ++ text

theorem markedKey_apart : KeysApart markedKey where
  injective := by
    intro first second eq
    simpa [markedKey] using eq
  notTemporary := by
    intro text random eq
    have heads := congrArg (fun text => text.toList.head?) eq
    simp [markedKey] at heads

/-- An image of one layer, pulled for a namespace. -/
def sharedJob (ns : String) (named : '\x00' ∉ ns.toList) : PullJob where
  ns := ns
  named := named
  source := "app"
  mediaType := "application/vnd.oci.image.manifest.v1+json"
  raw := sharedManifest
  manifest := { config := { digest := "\x7b\x7d" }, layers := [{ digest := "l" }] }
  config := bytesOf "\x7b\x7d"
  order := Shuffle.inOrder

/-- Two namespaces pull one image, and one of them removes it. -/
def sharedRun : List LayoutEvent :=
  [.pull (sharedJob "a" (by decide))] ++
    List.replicate 9 (.go { tree := [("bin", "x")], file := "1" }) ++
    [.pull (sharedJob "b" (by decide))] ++ List.replicate 9 (.go { file := "2" }) ++
    [.remove "a" "app"] ++ List.replicate 2 (.go {})

end Horchestra.Oci
