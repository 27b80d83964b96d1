import Horchestra.Foundations.Checks
import Horchestra.Foundations.Readers
import Horchestra.Foundations.Transitions
import Horchestra.Oci.Pull
import Mathlib.Algebra.Ring.Int.Defs
import Mathlib.Algebra.GroupWithZero.Nat

/-!
# What a pull may read and write

Three limits stand at three places of a transfer: the manifest's declared sizes are added up before
anything is fetched, each layer is held to the size it declares while it is read from the registry,
and what it unpacks to is held to a size of its own while it is read by the archive reader.

An attempt at an image is any interleaving of reads: of the configuration, and of each layer, where
the reader of the compressed layer and the archive reader behind it go at their own pace.  What the
archive reader takes for the content of a file is written out; for a hole in a sparse file it takes
nothing and writes zeroes.

In every attempt in which a layer that is read declares a size and gives nothing more once it was
found to be longer, the configuration is no longer than it declares, and no file is sparse, all
three limits are kept (`attempt_keeps_bounds`).  Each of the conditions is needed:
`attempt_breaks_bounds` has a run without each of them.
-/

namespace Horchestra.Oci

open Foundations Text KeepFirst Readers Transitions

/-! ## An attempt -/

/-- The bounds of a pull, with the one on what a single layer unpacks to. -/
structure PullBounds extends Bounds where
  maxLayerBytes : Int := 0

/-- One attempt at a layer: its stream from the registry, what it unpacks to, and the bytes of file
contents written so far. -/
structure LayerAttempt where
  layer : Descriptor
  wire : Meter
  plain : Meter
  written : Nat := 0

inductive LayerRead where
  /-- A read from the registry, by what decompresses the layer or to drain what follows the archive. -/
  | fetch (room : Nat) (answer : Answer)
  /-- The archive reader reads a header or padding. -/
  | header (room : Nat) (answer : Answer)
  /-- The archive reader reads content of a regular file, which is written out. -/
  | data (room : Nat) (answer : Answer)
  /-- The archive reader fills a hole of a sparse regular file. -/
  | hole (bytes : Nat)

-- what drains the stream reads on after a read that failed, as a reader that drops the error may
def LayerAttempt.step (a : LayerAttempt) : LayerRead → LayerAttempt
  | .fetch room answer => { a with wire := a.wire.read room answer }
  | .header room answer => { a with plain := a.plain.read room answer }
  | .data room answer =>
    { a with
      plain := a.plain.read room answer
      written := a.written + a.plain.passes room answer }
  | .hole bytes => { a with written := a.written + bytes }

structure Attempt where
  config : Meter
  layers : List LayerAttempt

inductive AttemptEvent where
  | config (room : Nat) (answer : Answer)
  | layer (i : Nat) (read : LayerRead)

def Attempt.step (a : Attempt) : AttemptEvent → Option Attempt
  | .config room answer => some { a with config := a.config.read room answer }
  | .layer i read => a.layers[i]?.map fun layer =>
    { a with layers := a.layers.set i (layer.step read) }

def LayerAttempt.start (bounds : PullBounds) (layer : Descriptor) : LayerAttempt where
  layer := layer
  wire := { limit := bound layer.size "its declared size" }
  plain :=
    { limit := bound bounds.maxLayerBytes
        ("the " ++ toString bounds.maxLayerBytes ++ "-byte decompressed layer cap") }

/-- The configuration is read whole, under the limit of all metadata; every distinct layer is
fetched once. -/
def Attempt.start (bounds : PullBounds) (manifest : Manifest) : Attempt where
  config := { limit := bound maxManifestBytes "the metadata size ceiling" }
  layers := (keepFirst Descriptor.digest [] manifest.layers).map (LayerAttempt.start bounds)

/-- What was read from the registry in this attempt. -/
def Attempt.total (a : Attempt) : Int :=
  a.config.taken + (a.layers.map fun l => (l.wire.taken : Int)).sum

/-- The layers that were found to be longer than they declare, one byte each. -/
def Attempt.probes (a : Attempt) : Int := (a.layers.map fun l => (l.wire.probes : Int)).sum

/-- What an attempt has to keep to: a layer that is read declares a size, and gives nothing more
once it was found to be longer; the configuration is no longer than it declares; and no file is
sparse. -/
def honest (manifest : Manifest) (a : Attempt) : AttemptEvent → Bool
  | .config _ answer => decide ((a.config.taken + answer.bytes : Int) ≤ manifest.config.size)
  | .layer i (.fetch _ answer) =>
    a.layers[i]?.all fun l => decide (0 < l.layer.size) && (l.wire.probes == 0 || answer.bytes == 0)
  | .layer _ (.hole bytes) => bytes == 0
  | _ => true

/-! ## Declared sizes -/

theorem wrap64_neg {n : Int} (low : 2 ^ 63 ≤ n) (high : n < 2 ^ 64) : wrap64 n < 0 := by
  have whole : n % ((2 ^ 64 : Nat) : Int) = n := Int.emod_eq_of_lt (by omega) (by simpa using high)
  rw [wrap64, Int.bmod_def, whole]
  split <;> omega

theorem declaredSize_eq_ok {h : Codec} {declared total : Int} {blobs : List Descriptor}
    (sizes : ∀ d ∈ blobs, d.size < 2 ^ 63) (low : 0 ≤ declared) (high : declared < 2 ^ 63)
    (done : declaredSize h declared blobs = .ok total) :
    (∀ d ∈ blobs, 0 ≤ d.size) ∧ total = declared + (blobs.map Descriptor.size).sum := by
  induction blobs generalizing declared with
  | nil =>
    obtain rfl : declared = total := by simpa [declaredSize] using done
    simp
  | cons d rest ih =>
    rw [List.forall_mem_cons] at sizes
    rw [declaredSize] at done
    split at done
    · cases done
    split at done
    · cases done
    rename_i notNegative
    have bounded := sizes.1
    split at done
    · cases done
    rename_i noOverflow
    -- A sum that does not fit wraps to a negative one, which was refused.
    have fits : declared + d.size < 2 ^ 63 := by
      by_contra tooLarge
      exact noOverflow (wrap64_neg (by omega) (by omega))
    rw [wrap64_of_mem (by omega) fits] at done
    obtain ⟨others, sum⟩ := ih sizes.2 (by omega) fits done
    refine ⟨List.forall_mem_cons.2 ⟨by omega, others⟩, ?_⟩
    rw [sum, List.map_cons, List.sum_cons, Int.add_assoc]

theorem sum_keepFirst_le {layers : List Descriptor} (seen : List String)
    (sizes : ∀ d ∈ layers, 0 ≤ d.size) :
    ((keepFirst Descriptor.digest seen layers).map Descriptor.size).sum ≤
      (layers.map Descriptor.size).sum := by
  induction layers generalizing seen with
  | nil => simp [keepFirst]
  | cons d rest ih =>
    rw [List.forall_mem_cons] at sizes
    rw [keepFirst, List.map_cons, List.sum_cons]
    split
    · have later := ih seen sizes.2
      omega
    have later := ih (d.digest :: seen) sizes.2
    rw [List.map_cons, List.sum_cons]
    omega

theorem distinct_le_of_checkManifest {h : Codec} {manifest : Manifest} {b : Bounds} {declared : Int}
    (sizes : ∀ d ∈ manifest.config :: manifest.layers, d.size < 2 ^ 63)
    (ok : checkManifest h manifest b = .ok declared) (bounded : 0 < b.maxImageBytes) :
    (∀ d ∈ manifest.config :: manifest.layers, 0 ≤ d.size) ∧
      manifest.config.size +
        ((keepFirst Descriptor.digest [] manifest.layers).map Descriptor.size).sum ≤
          b.maxImageBytes := by
  rw [checkManifest] at ok
  split at ok
  · cases ok
  obtain ⟨total, added, within⟩ := Foundations.Checks.bind_eq_ok_iff.1 ok
  obtain ⟨nonneg, sum⟩ := declaredSize_eq_ok sizes (by decide) (by decide) added
  split at within
  · cases within
  rename_i fits
  have capped : total ≤ b.maxImageBytes := by
    by_contra tooLarge
    exact fits ⟨bounded, by omega⟩
  have nodup := sum_keepFirst_le [] fun d mem => nonneg d (.tail _ mem)
  rw [List.map_cons, List.sum_cons] at sum
  exact ⟨nonneg, by omega⟩

/-! ## Steps -/

/-- A layer keeps to its limits: it is read within its declared size, or not at all; what it unpacks
to is within the bound on a layer, and no more of it was written out. -/
structure LayerAttempt.Kept (bounds : PullBounds) (l : LayerAttempt) : Prop where
  nonnegative : 0 ≤ l.layer.size
  wire : l.wire.Within l.layer.size.toNat ∨ (l.wire.taken = 0 ∧ l.layer.size = 0)
  probes : l.wire.probes ≤ 1
  plain : l.plain.Within bounds.maxLayerBytes.toNat
  written : l.written ≤ l.plain.passed

theorem LayerAttempt.Kept.taken_le {bounds : PullBounds} {l : LayerAttempt} (kept : l.Kept bounds) :
    (l.wire.taken : Int) ≤ l.layer.size + l.wire.probes := by
  have nonnegative := kept.nonnegative
  rcases kept.wire with within | ⟨nothing, -⟩
  · have passed := within.passed_le
    have taken := within.taken
    omega
  · omega

/-- The three limits are kept, for the layers of the manifest. -/
structure Attempt.Kept (bounds : PullBounds) (manifest : Manifest) (a : Attempt) : Prop where
  config : (a.config.taken : Int) ≤ manifest.config.size
  layers : ∀ l ∈ a.layers, l.Kept bounds
  same : a.layers.map LayerAttempt.layer = keepFirst Descriptor.digest [] manifest.layers

section

variable {bounds : PullBounds} {manifest : Manifest} {a : Attempt}

theorem LayerAttempt.kept_start (pos : 0 < bounds.maxLayerBytes) {d : Descriptor}
    (nonnegative : 0 ≤ d.size) : (LayerAttempt.start bounds d).Kept bounds where
  nonnegative := nonnegative
  wire := by
    rcases Int.lt_or_eq_of_le nonnegative with declared | nothing
    · exact .inl (Meter.within_bound declared _)
    · exact .inr ⟨rfl, nothing.symm⟩
  probes := Nat.zero_le _
  plain := Meter.within_bound pos _
  written := Nat.le_refl _

/-- Every step of a layer keeps it within its limits, but a read of a layer that declares no size or
was found to be longer, and the filling of a hole. -/
theorem LayerAttempt.Kept.step {l : LayerAttempt} (kept : l.Kept bounds) {read : LayerRead}
    (declared : ∀ room answer, read = .fetch room answer →
      0 < l.layer.size ∧ (l.wire.probes = 0 ∨ answer.bytes = 0))
    (dense : ∀ bytes, read = .hole bytes → bytes = 0) : (l.step read).Kept bounds := by
  cases read with
  | fetch room answer =>
    obtain ⟨pos, fresh⟩ := declared room answer rfl
    have within : l.wire.Within l.layer.size.toNat :=
      kept.wire.resolve_right fun nothing => absurd nothing.2 (by omega)
    refine ⟨kept.nonnegative, .inl (within.read room answer), ?_, kept.plain, kept.written⟩
    have le := l.wire.limit.read_le room answer
    have once := kept.probes
    simp only [LayerAttempt.step, Meter.read]
    omega
  | header room answer =>
    refine ⟨kept.nonnegative, kept.wire, kept.probes, kept.plain.read room answer, ?_⟩
    exact kept.written.trans (by simp [LayerAttempt.step, Meter.passed_read])
  | data room answer =>
    refine ⟨kept.nonnegative, kept.wire, kept.probes, kept.plain.read room answer, ?_⟩
    simpa [LayerAttempt.step, Meter.passed_read] using kept.written
  | hole bytes =>
    obtain rfl := dense bytes rfl
    exact ⟨kept.nonnegative, kept.wire, kept.probes, kept.plain, kept.written⟩

theorem LayerAttempt.layer_step (l : LayerAttempt) (read : LayerRead) :
    (l.step read).layer = l.layer := by
  cases read <;> rfl

theorem Attempt.Kept.step (kept : a.Kept bounds manifest) {a' : Attempt} {ev : AttemptEvent}
    (may : honest manifest a ev = true) (happened : a.step ev = some a') :
    a'.Kept bounds manifest := by
  cases ev with
  | config room answer =>
    cases happened
    have sent := of_decide_eq_true may
    have le := a.config.limit.read_le room answer
    refine ⟨?_, kept.layers, kept.same⟩
    simp only [Meter.read]
    omega
  | layer i read =>
    obtain ⟨l, found, rfl⟩ := Option.map_eq_some_iff.1 happened
    have after : (l.step read).Kept bounds := by
      refine (kept.layers l (List.mem_of_getElem? found)).step ?_ ?_
      · rintro room answer rfl
        simpa [honest, found] using may
      rintro bytes rfl
      simpa [honest] using may
    refine ⟨kept.config, ?_, ?_⟩
    · intro other mem
      rcases List.mem_or_eq_of_mem_set mem with eq | rfl
      · exact kept.layers other eq
      · exact after
    obtain ⟨inRange, rfl⟩ := List.getElem?_eq_some_iff.1 found
    rw [← kept.same, List.map_set, LayerAttempt.layer_step, ← List.map_set, List.set_getElem_self]

end

/-! ## Attempts -/

theorem sum_taken_le {bounds : PullBounds} {layers : List LayerAttempt}
    (kept : ∀ l ∈ layers, l.Kept bounds) :
    (layers.map fun l => (l.wire.taken : Int)).sum ≤
      ((layers.map LayerAttempt.layer).map Descriptor.size).sum +
        (layers.map fun l => (l.wire.probes : Int)).sum := by
  induction layers with
  | nil => simp
  | cons l rest ih =>
    rw [List.forall_mem_cons] at kept
    have later := ih kept.2
    have eq := kept.1.taken_le
    simp only [List.map_cons, List.sum_cons]
    omega

/-- **A pull stays within its bounds**, but for the one byte that tells a layer to be longer than it
declares. -/
theorem attempt_keeps_bounds {h : Codec} {manifest : Manifest} {bounds : PullBounds}
    {declared : Int}
    (sizes : ∀ d ∈ manifest.config :: manifest.layers, d.size < 2 ^ 63)
    (accepted : checkManifest h manifest bounds.toBounds = .ok declared)
    (imageBounded : 0 < bounds.maxImageBytes) (layerBounded : 0 < bounds.maxLayerBytes)
    {a : Attempt}
    (reached : Reachable Attempt.step (honest manifest) (Attempt.start bounds manifest) a) :
    (∀ l ∈ a.layers, (l.wire.taken : Int) ≤ l.layer.size + l.wire.probes ∧ l.wire.probes ≤ 1) ∧
      a.total ≤ bounds.maxImageBytes + a.probes ∧
      ∀ l ∈ a.layers, (l.written : Int) ≤ bounds.maxLayerBytes := by
  obtain ⟨nonnegative, fits⟩ := distinct_le_of_checkManifest sizes accepted imageBounded
  have initially : (Attempt.start bounds manifest).Kept bounds manifest := by
    refine ⟨nonnegative _ (.head _), ?_, ?_⟩
    · intro l member
      obtain ⟨d, kept, rfl⟩ := List.mem_map.1 member
      exact LayerAttempt.kept_start layerBounded
        (nonnegative d (.tail _ (mem_keepFirst kept).1))
    rw [Attempt.start, List.map_map]
    exact List.map_id _
  have kept := reached.invariant (Attempt.Kept bounds manifest) initially
    fun kept permitted happened => kept.step permitted happened
  refine ⟨fun l member => ⟨(kept.layers l member).taken_le, (kept.layers l member).probes⟩, ?_, ?_⟩
  · have layers := sum_taken_le kept.layers
    have config := kept.config
    rw [kept.same] at layers
    rw [Attempt.total, Attempt.probes]
    omega
  · intro l member
    have layer := kept.layers l member
    have plain := layer.plain.passed_le
    have written := layer.written
    omega

/-! ## Attempts at small images -/

/-- A digest library that takes everything. -/
def anyCodec : Codec where
  fromBytes _ := ""
  valid _ := true
  verifies _ _ := true
  index _ := .ok {}
  manifest _ := .ok {}
  config _ := .ok {}

def smallImage (config layer : Int) : Manifest where
  config := { digest := "c", size := config }
  layers := [{ digest := "l", size := layer, mediaType := "application/vnd.oci.image.layer.v1.tar" }]

def smallBounds : PullBounds where
  maxLayers := 8
  maxImageBytes := 4096
  maxLayerBytes := 4096

-- the layer goes on behind its size, which is noticed with one byte
theorem attempt_keeps_bounds_longer :
    ∃ a, Reachable Attempt.step (honest (smallImage 100 2000))
        (Attempt.start smallBounds (smallImage 100 2000)) a ∧
      a.total = 2101 ∧ a.probes = 1 ∧ (∃ l ∈ a.layers, 1000 ≤ l.written) ∧
      (∀ l ∈ a.layers, (l.wire.taken : Int) ≤ l.layer.size + l.wire.probes ∧ l.wire.probes ≤ 1) ∧
      a.total ≤ smallBounds.maxImageBytes + a.probes ∧
      ∀ l ∈ a.layers, (l.written : Int) ≤ smallBounds.maxLayerBytes := by
  obtain ⟨a, reached, total, probes, written⟩ : ∃ a, Reachable Attempt.step
      (honest (smallImage 100 2000)) (Attempt.start smallBounds (smallImage 100 2000)) a ∧
      a.total = 2101 ∧ a.probes = 1 ∧ ∃ l ∈ a.layers, 1000 ≤ l.written :=
    exists_of_run [.config 512 ⟨100, .eof⟩, .layer 0 (.fetch 4096 ⟨2000, .more⟩),
      .layer 0 (.header 512 ⟨512, .more⟩), .layer 0 (.data 1024 ⟨1000, .more⟩),
      .layer 0 (.fetch 4096 ⟨512, .more⟩), .layer 0 (.fetch 4096 ⟨0, .eof⟩)] (by decide +kernel)
  have accepted : checkManifest anyCodec (smallImage 100 2000) smallBounds.toBounds = .ok 2100 := by
    decide +kernel
  exact ⟨a, reached, total, probes, written,
    attempt_keeps_bounds (by decide) accepted (by decide) (by decide) reached⟩

/-- Manifests that are accepted, and attempts that go beyond their bounds: a layer that declares no
size is read without end; one that was found to be longer is read again, for what follows the
archive; a configuration is longer than it declares, in an image that declares as much as it may;
and a sparse file of a layer of two blocks is written out to a million bytes. -/
theorem attempt_breaks_bounds :
    let unrestricted := fun (_ : Attempt) (_ : AttemptEvent) => true
    checkManifest anyCodec (smallImage 100 0) smallBounds.toBounds = .ok 100 ∧
    checkManifest anyCodec (smallImage 96 4000) smallBounds.toBounds = .ok 4096 ∧
    (∃ a, Reachable Attempt.step unrestricted (Attempt.start smallBounds (smallImage 100 0)) a ∧
      ∃ l ∈ a.layers, ¬ (l.wire.taken : Int) ≤ l.layer.size + 1) ∧
    (∃ a, Reachable Attempt.step unrestricted (Attempt.start smallBounds (smallImage 96 4000)) a ∧
      ∃ l ∈ a.layers, ¬ (l.wire.taken : Int) ≤ l.layer.size + 1) ∧
    (∃ a, Reachable Attempt.step unrestricted (Attempt.start smallBounds (smallImage 96 4000)) a ∧
      ¬ a.total ≤ smallBounds.maxImageBytes + a.probes) ∧
    ∃ a, Reachable Attempt.step unrestricted (Attempt.start smallBounds (smallImage 96 4000)) a ∧
      ∃ l ∈ a.layers, ¬ (l.written : Int) ≤ smallBounds.maxLayerBytes := by
  refine ⟨by decide +kernel, by decide +kernel, ?_, ?_, ?_, ?_⟩
  · exact exists_of_run [.layer 0 (.fetch 1000000 ⟨1000000, .more⟩)] (by decide +kernel)
  · exact exists_of_run [.layer 0 (.fetch 4096 ⟨4000, .more⟩), .layer 0 (.fetch 4096 ⟨512, .more⟩),
      .layer 0 (.fetch 4096 ⟨512, .more⟩)] (by decide +kernel)
  · exact exists_of_run [.config 100000 ⟨100000, .eof⟩] (by decide +kernel)
  · exact exists_of_run [.layer 0 (.fetch 4096 ⟨1024, .eof⟩), .layer 0 (.header 1024 ⟨1024, .more⟩),
      .layer 0 (.hole 1000000)] (by decide +kernel)

end Horchestra.Oci
