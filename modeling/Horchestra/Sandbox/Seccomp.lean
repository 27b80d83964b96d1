import Horchestra.Api.Validation
import Horchestra.Sandbox.Syscalls

/-!
# The syscall filter of a workload

The filter is a small compiler: a table of syscall numbers and a policy go in, a classic-BPF
program with patched jumps comes out.  `verdict` says what a policy means for one system call;
`seccompProgram_implements_verdict` says that the program means the same.

The proof has three parts.  `backpatch_spec` follows the patching of the jumps.  `Listing` is the
patched program read position by position, from which a run is derived rule by rule
(`Listing.returns`).  `applyPolicy_spec` says which numbers the denylist holds and that it is short
enough for every displacement to fit in eight bits.  Which entries of a policy the program obeys is
`policy_is_obeyed_iff`: those an earlier branch does not answer for.
-/

namespace Horchestra.Sandbox

open Api (trimSpace)
open Foundations Text Checks ClassicBpf

/-! ## Constants -/

def bpfLdWAbs : BitVec 16 := 0x20
def bpfJeqK : BitVec 16 := 0x15
def bpfJgeK : BitVec 16 := 0x35
def bpfJsetK : BitVec 16 := 0x45
def bpfRetK : BitVec 16 := 0x06

def offNr : Word := 0
def offArch : Word := 4
def offArgs0 : Word := 16

def seccompRetAllow : Word := 0x7fff0000
def seccompRetErrno : Word := 0x00050000
def errnoEPERM : Word := 1
def errnoENOSYS : Word := 38

def cloneNewNamespaces : Word :=
  0x00020000 ||| 0x02000000 ||| 0x04000000 ||| 0x08000000 ||| 0x10000000 ||| 0x20000000 |||
    0x40000000

def maxDenied : Nat := 250

/-! ## Tables -/

structure ArchFilter where
  auditArch : Word
  clone : Word
  clone3 : Word
  denied : List Word
  names : List (String × Word)
  maxNr : Word

def amd64 : ArchFilter where
  auditArch := 0xC000003E
  clone := 56
  clone3 := 435
  names := syscallsAMD64
  maxNr := syscallsAMD64Max
  denied :=
    [101, 103, 135, 153, 155, 161, 163, 164, 165, 166, 167, 168, 169, 170, 171, 172, 173, 175,
     176, 179, 212, 227, 237, 238, 239, 246, 248, 249, 250, 272, 279, 298, 300, 304, 308, 310,
     311, 312, 313, 320, 321, 323, 425, 426, 427, 428, 429, 430, 431, 432, 433, 438, 440, 442,
     443, 450]

def arm64 : ArchFilter where
  auditArch := 0xC00000B7
  clone := 220
  clone3 := 435
  names := syscallsARM64
  maxNr := syscallsARM64Max
  denied :=
    [18, 39, 40, 41, 51, 58, 60, 89, 92, 97, 104, 105, 106, 112, 116, 117, 142, 161, 162, 170,
     217, 218, 219, 224, 225, 235, 236, 237, 239, 241, 262, 265, 268, 270, 271, 272, 273, 280,
     282, 294, 425, 426, 427, 428, 429, 430, 431, 432, 433, 438, 440, 442, 443, 450]

/-- The table of an architecture, by its Go name. -/
def archFilters (goarch : String) : Option ArchFilter :=
  if goarch = "amd64" then some amd64
  else if goarch = "arm64" then some arm64
  else none

/-- What the assembler relies on in a table: its denylist fits, and the ceiling does not wrap. -/
structure ArchFilter.Fits (a : ArchFilter) : Prop where
  denied : a.denied.length ≤ maxDenied
  ceiling : a.maxNr.toNat + 1 < 2 ^ 32

variable {a : ArchFilter}

theorem archFilters_eq {goarch : String} (supported : archFilters goarch = some a) :
    a = amd64 ∨ a = arm64 := by
  unfold archFilters at supported
  split_ifs at supported
  · exact .inl (Option.some.inj supported).symm
  · exact .inr (Option.some.inj supported).symm

theorem fits_of_archFilters {goarch : String} (supported : archFilters goarch = some a) :
    a.Fits := by
  rcases archFilters_eq supported with rfl | rfl <;> exact ⟨by decide, by decide⟩

/-! ## Policies -/

structure SeccompPolicy where
  deny : List String := []
  allow : List String := []

def parseUint32 (text : String) : Option Word :=
  match parseUint64 text.toList with
  | .ok n => if n < 2 ^ 32 then some (BitVec.ofNat 32 n) else none
  | .error _ => none

/-- The syscall number a policy entry stands for: a number, or a name of the table. -/
def ArchFilter.syscallNumber (a : ArchFilter) (entry : String) : Except String Word :=
  let name := trimSpace entry
  if name = "" then .error "seccomp: empty syscall name in policy"
  else if name = "clone" ∨ name = "clone3" then
    .error ("seccomp: " ++ name ++
      " is filtered by its flags, not by name; it cannot appear in a policy")
  else
    match parseUint32 name with
    | some nr => .ok nr
    | none =>
      match a.names.lookup name with
      | some nr => .ok nr
      | none =>
        .error ("seccomp: unknown syscall " ++ quote name ++ " (not in this architecture's table)")

/-- Resolve the entries one after another and apply each to the set of denied numbers. -/
def ArchFilter.applyEntries (a : ArchFilter) (change : Word → List Word → List Word)
    (entries : List String) (denied : List Word) : Except String (List Word) :=
  entries.foldlM (fun held entry => do
    let nr ← a.syscallNumber entry
    pure (change nr held)) denied

/-- The denylist under a policy.  The map of the source is a list without repetitions here. -/
def applyPolicy (p : Option SeccompPolicy) (a : ArchFilter) : Except String (List Word) :=
  match p with
  | none => .ok a.denied
  | some p =>
    if p.deny = [] ∧ p.allow = [] then .ok a.denied
    else do
      let added ← a.applyEntries List.insert p.deny a.denied.dedup
      -- What is allowed is taken out last, so an entry in both lists is allowed.
      let denied ← a.applyEntries (fun nr held => held.filter (· ≠ nr)) p.allow added
      if maxDenied < denied.length then
        .error ("seccomp: " ++ String.ofList (itoa denied.length) ++
          " denied syscalls exceeds the " ++ String.ofList (itoa maxDenied) ++
          " a classic-BPF jump can reach")
      else .ok (denied.insertionSort (fun x y => x.toNat ≤ y.toNat))

/-! ## The assembler -/

/-- The displacement of a jump; an error is a panic of the source. -/
def jumpTo (source target : Nat) : Except String (BitVec 8) :=
  let d : Int := target - source - 1
  if d < 0 ∨ 255 < d then
    .error ("seccomp: jump from " ++ String.ofList (itoa source) ++ " to " ++
      String.ofList (itoa target) ++ " is out of range")
  else .ok (BitVec.ofInt 8 d)

/-- A statement or a jump that is still to be patched. -/
def stmt (code : BitVec 16) (k : Word) : Instruction := { code, k }

/-- The displacement to be filled in at a position: that of the taken branch, or of the other. -/
structure Patch where
  source : Nat
  taken : Bool := true
  target : Nat

def Patch.write (p : Patch) (d : BitVec 8) (ins : Instruction) : Instruction :=
  if p.taken then { ins with jt := d } else { ins with jf := d }

def Patch.apply (f : List Instruction) (p : Patch) : Except String (List Instruction) := do
  let d ← jumpTo p.source p.target
  pure (f.modify p.source (p.write d))

def backpatch (f : List Instruction) (patches : List Patch) : Except String (List Instruction) :=
  patches.foldlM Patch.apply f

/-- The checks on the architecture, the ceiling and the two ways to clone. -/
def prologue (a : ArchFilter) : List Instruction :=
  [stmt bpfLdWAbs offArch, stmt bpfJeqK a.auditArch, stmt bpfLdWAbs offNr,
   stmt bpfJgeK (a.maxNr + 1),
   stmt bpfJeqK a.clone,
   stmt bpfJeqK a.clone3]

/-- The returns, and the flags check of `clone` behind them. -/
def epilogue : List Instruction :=
  [stmt bpfRetK seccompRetAllow, stmt bpfRetK (seccompRetErrno ||| errnoEPERM),
   stmt bpfRetK (seccompRetErrno ||| errnoENOSYS),
   stmt bpfLdWAbs offArgs0,
   stmt bpfJsetK cloneNewNamespaces,
   stmt bpfRetK seccompRetAllow,
   stmt bpfRetK (seccompRetErrno ||| errnoEPERM)]

/-- The program before its jumps are patched. -/
def unpatched (a : ArchFilter) (denied : List Word) : List Instruction :=
  prologue a ++ denied.map (stmt bpfJeqK) ++ epilogue

/-- The jumps of a program that denies `n` numbers, in the order they are patched. -/
def patches (n : Nat) : List Patch :=
  let archIdx := 1
  let ceilIdx := 3
  let cloneIdx := 4
  let clone3Idx := 5
  let deniedIdx := (List.range n).map (6 + ·)
  let denyIdx := n + 7
  let enosysIdx := n + 8
  let cloneCheckIdx := n + 9
  let cloneFlagIdx := n + 10
  let cloneDenyIdx := n + 12
  [{ source := archIdx, taken := false, target := denyIdx },
   { source := ceilIdx, target := denyIdx },
   { source := cloneIdx, target := cloneCheckIdx },
   { source := clone3Idx, target := enosysIdx }] ++
  deniedIdx.map (fun i => { source := i, target := denyIdx }) ++
  [{ source := cloneFlagIdx, target := cloneDenyIdx }]

inductive Assembled where
  | program (f : List Instruction)
  | refused (error : String)
  | panicked (message : String)

/-- The filter of an architecture under a policy. -/
def seccompProgram (goarch : String) (policy : Option SeccompPolicy) : Assembled :=
  match archFilters goarch with
  | none => .refused ("seccomp: no syscall filter for GOARCH " ++ quote goarch)
  | some a =>
    match applyPolicy policy a with
    | .error error => .refused error
    | .ok denied =>
      match backpatch (unpatched a denied) (patches denied.length) with
      | .error message => .panicked message
      | .ok f => .program f

/-! ## What a policy means -/

/-- What the kernel shows a filter of a system call. -/
structure SeccompData where
  nr : Word
  arch : Word
  instructionPointer : BitVec 64
  args : Fin 6 → BitVec 64

/-- The low and the high half of a 64-bit field, as they lie in memory. -/
def halves (field : BitVec 64) : List Word := [field.setWidth 32, (field >>> 32).setWidth 32]

/-- The record as words, little-endian. -/
def SeccompData.words (data : SeccompData) : List Word :=
  [data.nr, data.arch] ++ halves data.instructionPointer ++ (List.ofFn data.args).flatMap halves

def SeccompData.load (data : SeccompData) (offset : Word) : Option Word :=
  if offset.toNat % 4 = 0 then data.words[offset.toNat / 4]? else none

/-- The numbers the entries of a policy stand for. -/
def ArchFilter.numbers (a : ArchFilter) (entries : List String) : List Word :=
  entries.filterMap fun entry => (a.syscallNumber entry).toOption

/-- The built-in denylist with `Deny` added and `Allow` taken away. -/
def ArchFilter.Denies (a : ArchFilter) (policy : SeccompPolicy) (nr : Word) : Prop :=
  (nr ∈ a.denied ∨ nr ∈ a.numbers policy.deny) ∧ nr ∉ a.numbers policy.allow

instance (a : ArchFilter) (policy : SeccompPolicy) (nr : Word) : Decidable (a.Denies policy nr) :=
  inferInstanceAs (Decidable (_ ∧ _))

def allow : Word := seccompRetAllow
def eperm : Word := seccompRetErrno ||| errnoEPERM
def enosys : Word := seccompRetErrno ||| errnoENOSYS

/-- What the filter should answer to a system call under a policy. -/
def verdict (a : ArchFilter) (policy : SeccompPolicy) (data : SeccompData) : Word :=
  if data.arch ≠ a.auditArch ∨ a.maxNr.toNat < data.nr.toNat then eperm
  else if data.nr = a.clone then
    if (data.args 0).setWidth 32 &&& cloneNewNamespaces ≠ 0 then eperm else allow
  else if data.nr = a.clone3 then enosys
  else if a.Denies policy data.nr then eperm
  else allow

/-- A native call inside the table that does not clone is decided by the denylist alone. -/
theorem verdict_of_listed {policy : SeccompPolicy} {nr : Word}
    (inTable : nr.toNat ≤ a.maxNr.toNat) (notClone : nr ≠ a.clone) (notClone3 : nr ≠ a.clone3)
    (ip : BitVec 64) (args : Fin 6 → BitVec 64) :
    verdict a policy ⟨nr, a.auditArch, ip, args⟩ = if a.Denies policy nr then eperm else allow := by
  simp [verdict, notClone, notClone3, Nat.not_lt.mpr inTable]

theorem verdict_allows_iff {policy : SeccompPolicy} {nr : Word} (spared : ¬ a.Denies policy nr) :
    (∀ ip args, verdict a policy ⟨nr, a.auditArch, ip, args⟩ = allow) ↔
      nr.toNat ≤ a.maxNr.toNat ∧ nr ≠ a.clone ∧ nr ≠ a.clone3 := by
  constructor
  · intro may
    -- all flags set, so that a clone is refused
    have flagged := may 0 fun _ => -1
    have set : (-1 : BitVec 64).setWidth 32 &&& cloneNewNamespaces ≠ 0 := by decide
    simp only [verdict, if_neg spared, if_pos set] at flagged
    split_ifs at flagged with outside cloning cloning3
    · exact absurd flagged (by decide)
    · exact absurd flagged (by decide)
    · exact absurd flagged (by decide)
    · exact ⟨by simpa using outside, cloning, cloning3⟩
  rintro ⟨inTable, notClone, notClone3⟩ ip args
  rw [verdict_of_listed inTable notClone notClone3, if_neg spared]

/-- A number that is denied is never allowed unless it is the clone's. -/
theorem verdict_denies_iff {policy : SeccompPolicy} {nr : Word} (denied : a.Denies policy nr)
    (inTable : a.clone.toNat ≤ a.maxNr.toNat) :
    (∀ arch ip args, verdict a policy ⟨nr, arch, ip, args⟩ ≠ allow) ↔ nr ≠ a.clone := by
  constructor
  · rintro refused rfl
    apply refused a.auditArch 0 fun _ => 0
    simp [verdict, inTable]
  intro notClone arch ip args
  simp only [verdict, if_neg notClone, if_pos denied]
  split_ifs <;> decide

/-! ## The denylist -/

theorem applyEntries_spec (a : ArchFilter) (change : Word → List Word → List Word)
    (es : List String) (start final : List Word)
    (applied : a.applyEntries change es start = .ok final) :
    final = (a.numbers es).foldl (fun held nr => change nr held) start := by
  induction es generalizing start with
  | nil =>
    cases applied
    rfl
  | cons entry rest ih =>
    rw [ArchFilter.applyEntries, List.foldlM_cons] at applied
    obtain ⟨next, resolved, applied⟩ := bind_eq_ok_iff.mp applied
    obtain ⟨nr, number, changed⟩ := bind_eq_ok_iff.mp resolved
    cases changed
    rw [ih (change nr start) applied, ArchFilter.numbers, ArchFilter.numbers,
      List.filterMap_cons, number]
    rfl

theorem mem_foldl_insert (numbers start : List Word) (nr : Word) :
    nr ∈ numbers.foldl (fun held n => held.insert n) start ↔ nr ∈ start ∨ nr ∈ numbers := by
  induction numbers generalizing start with
  | nil => simp
  | cons n rest ih =>
    rw [List.foldl_cons, ih, List.mem_insert_iff, List.mem_cons]
    tauto

theorem mem_foldl_filter (numbers start : List Word) (nr : Word) :
    nr ∈ numbers.foldl (fun held n => held.filter (· ≠ n)) start ↔ nr ∈ start ∧ nr ∉ numbers := by
  induction numbers generalizing start with
  | nil => simp
  | cons n rest ih =>
    rw [List.foldl_cons, ih, List.mem_filter, List.mem_cons, decide_eq_true_iff]
    tauto

/-- A missing policy changes nothing. -/
def policyOf (policy : Option SeccompPolicy) : SeccompPolicy := policy.getD {}

variable {denied : List Word}

/-- **The denylist under a policy holds what the policy denies, and fits.** -/
theorem applyPolicy_spec {policy : Option SeccompPolicy} (fits : a.Fits)
    (applied : applyPolicy policy a = .ok denied) :
    (∀ nr, nr ∈ denied ↔ a.Denies (policyOf policy) nr) ∧ denied.length ≤ maxDenied := by
  cases policy with
  | none =>
    cases applied
    exact ⟨fun nr => by simp [ArchFilter.Denies, policyOf, ArchFilter.numbers], fits.denied⟩
  | some p =>
    simp only [applyPolicy] at applied
    split at applied
    case isTrue empty =>
      cases applied
      refine ⟨fun nr => ?_, fits.denied⟩
      simp [ArchFilter.Denies, policyOf, ArchFilter.numbers, empty.1, empty.2]
    case isFalse =>
      obtain ⟨added, addition, applied⟩ := bind_eq_ok_iff.mp applied
      obtain ⟨left, removal, applied⟩ := bind_eq_ok_iff.mp applied
      split at applied
      case isTrue => cases applied
      case isFalse short =>
        cases applied
        refine ⟨fun nr => ?_, ?_⟩
        · rw [List.mem_insertionSort, applyEntries_spec _ _ _ _ _ removal, mem_foldl_filter,
            applyEntries_spec _ _ _ _ _ addition, mem_foldl_insert, List.mem_dedup]
          rfl
        rw [List.length_insertionSort]
        omega

/-! ## Patching -/

variable {source target i : Nat} {d : BitVec 8}

/-- **A displacement that is given out is exact**: none is cut down to eight bits. -/
theorem add_toNat_of_jumpTo (given : jumpTo source target = .ok d) :
    source + 1 + d.toNat = target := by
  simp only [jumpTo] at given
  split at given
  case isTrue => cases given
  case isFalse inRange =>
    cases given
    rw [BitVec.toNat_ofInt]
    omega

theorem exists_jumpTo (ahead : source < target) (near : target ≤ source + 256) :
    ∃ d, jumpTo source target = .ok d :=
  ⟨BitVec.ofInt 8 (target - source - 1), if_neg (by omega)⟩

/-- **What patching does.**  When no position is patched twice and every target is near, nothing
panics; a patched jump leads to its target, and the rest of the program stays as it is. -/
theorem backpatch_spec (patches : List Patch)
    (near : ∀ p ∈ patches, p.source < p.target ∧ p.target ≤ p.source + 256)
    (once : (patches.map Patch.source).Nodup) (f : List Instruction) :
    ∃ patched, backpatch f patches = .ok patched ∧ patched.length = f.length ∧
      (∀ p ∈ patches, ∃ d : BitVec 8, p.source + 1 + d.toNat = p.target ∧
        patched[p.source]? = f[p.source]?.map (p.write d)) ∧
      ∀ i, i ∉ patches.map Patch.source → patched[i]? = f[i]? := by
  induction patches generalizing f with
  | nil => exact ⟨f, rfl, rfl, fun p mem => absurd mem List.not_mem_nil, fun _ _ => rfl⟩
  | cons p rest ih =>
    rw [List.map_cons, List.nodup_cons] at once
    obtain ⟨ahead, reach⟩ := near p (.head _)
    obtain ⟨d, displacement⟩ := exists_jumpTo ahead reach
    obtain ⟨patched, res, length, jumps, others⟩ :=
      ih (fun q mem => near q (List.mem_cons_of_mem p mem)) once.2
        (f.modify p.source (p.write d))
    refine ⟨patched, ?_, by rw [length, List.length_modify], ?_, ?_⟩
    · rw [backpatch, List.foldlM_cons, Patch.apply, displacement]
      exact res
    · intro q mem
      rcases List.mem_cons.mp mem with rfl | later
      · refine ⟨d, add_toNat_of_jumpTo displacement, ?_⟩
        rw [others q.source once.1, List.getElem?_modify_eq, Option.map_eq_map]
      obtain ⟨d', exact', jump⟩ := jumps q later
      have ne : p.source ≠ q.source := fun eq =>
        once.1 (eq ▸ List.mem_map_of_mem later)
      refine ⟨d', exact', ?_⟩
      rw [jump, List.getElem?_modify_ne _ _ ne]
    · intro i free
      rw [List.map_cons, List.mem_cons, not_or] at free
      rw [others i free.2, List.getElem?_modify_ne _ _ (Ne.symm free.1)]

theorem near_patches {n : Nat} (fits : n ≤ maxDenied) :
    ∀ p ∈ patches n, p.source < p.target ∧ p.target ≤ p.source + 256 := by
  unfold maxDenied at fits
  intro p mem
  simp only [patches, List.mem_append, List.mem_cons, List.not_mem_nil, or_false, List.mem_map,
    List.mem_range] at mem
  rcases mem with ((rfl | rfl | rfl | rfl) | ⟨_, ⟨i, inside, rfl⟩, rfl⟩) | rfl <;>
    constructor <;> dsimp only <;> omega

theorem sources_patches (n : Nat) :
    (patches n).map Patch.source = [1, 3, 4, 5] ++ (List.range n).map (6 + ·) ++ [n + 10] := by
  simp [patches, List.map_map, Function.comp_def]

theorem nodup_sources_patches (n : Nat) : ((patches n).map Patch.source).Nodup := by
  rw [sources_patches]
  have inner : ((List.range n).map (6 + ·)).Nodup :=
    List.nodup_range.map (fun i j eq => Nat.add_left_cancel eq)
  rw [List.nodup_append, List.nodup_append]
  refine ⟨⟨by decide, inner, ?_⟩, by simp, ?_⟩
  · intro i early j late eq
    obtain ⟨k, -, rfl⟩ := List.mem_map.mp late
    simp only [List.mem_cons, List.not_mem_nil, or_false] at early
    omega
  intro i early j late eq
  obtain rfl := List.mem_singleton.mp late
  simp only [List.mem_append, List.mem_cons, List.not_mem_nil, or_false, List.mem_map,
    List.mem_range] at early
  rcases early with early | ⟨k, inside, rfl⟩ <;> omega

/-! ## The patched program, position by position -/

/-- The layout of the filter: what stands where, with every jump given by its targets. -/
structure Listing (a : ArchFilter) (denied : List Word) (f : List Instruction) : Prop where
  length : f.length = denied.length + 13
  loadArch : LoadsAt f 0 offArch
  arch : JumpsAt f 1 .eq a.auditArch 2 (denied.length + 7)
  loadNr : LoadsAt f 2 offNr
  ceiling : JumpsAt f 3 .ge (a.maxNr + 1) (denied.length + 7) 4
  clone : JumpsAt f 4 .eq a.clone (denied.length + 9) 5
  clone3 : JumpsAt f 5 .eq a.clone3 (denied.length + 8) 6
  compare : ∀ i (inside : i < denied.length),
    JumpsAt f (6 + i) .eq denied[i] (denied.length + 7) (6 + i + 1)
  permit : ReturnsAt f (denied.length + 6) allow
  refuse : ReturnsAt f (denied.length + 7) eperm
  missing : ReturnsAt f (denied.length + 8) enosys
  loadFlags : LoadsAt f (denied.length + 9) offArgs0
  flags : JumpsAt f (denied.length + 10) .set cloneNewNamespaces (denied.length + 12)
    (denied.length + 11)
  permitClone : ReturnsAt f (denied.length + 11) allow
  refuseClone : ReturnsAt f (denied.length + 12) eperm

theorem unpatched_prologue (a : ArchFilter) (denied : List Word) (early : i < 6) :
    (unpatched a denied)[i]? = (prologue a)[i]? := by
  rw [unpatched, List.append_assoc, List.getElem?_append_left early]

theorem unpatched_comparison (a : ArchFilter) (denied : List Word) (inside : i < denied.length) :
    (unpatched a denied)[6 + i]? = some (stmt bpfJeqK denied[i]) := by
  have skip : (prologue a).length ≤ 6 + i := Nat.le_add_right 6 i
  have at_ : 6 + i - (prologue a).length = i := Nat.add_sub_cancel_left 6 i
  rw [unpatched, List.append_assoc, List.getElem?_append_right skip, at_,
    List.getElem?_append_left (by rwa [List.length_map]), List.getElem?_map,
    List.getElem?_eq_getElem inside]
  rfl

theorem unpatched_epilogue (a : ArchFilter) (denied : List Word) (i : Nat) :
    (unpatched a denied)[denied.length + 6 + i]? = epilogue[i]? := by
  have length : (prologue a ++ denied.map (stmt bpfJeqK)).length = denied.length + 6 := by
    rw [List.length_append, List.length_map]
    exact Nat.add_comm 6 denied.length
  rw [unpatched, List.getElem?_append_right (by omega), length, Nat.add_sub_cancel_left]

/-- A patched jump goes to its target on the patched side and falls through on the other. -/
theorem jumpsAt_of_patch {f patched : List Instruction} {p : Patch} {code : BitVec 16}
    {test : Test} {k : Word} (reach : p.source + 1 + d.toNat = p.target)
    (jump : patched[p.source]? = f[p.source]?.map (p.write d))
    (pre : f[p.source]? = some (stmt code k)) (dec : decode code = some (.jump test)) :
    JumpsAt patched p.source test k (if p.taken then p.target else p.source + 1)
      (if p.taken then p.source + 1 else p.target) := by
  rw [pre, Option.map_some] at jump
  refine ⟨_, jump, ?_⟩
  unfold Patch.write
  split
  · exact ⟨dec, rfl, reach, rfl⟩
  · exact ⟨dec, rfl, rfl, reach⟩

/-- **A short denylist is assembled without a panic, into the layout above.** -/
theorem exists_listing (a : ArchFilter) (short : denied.length ≤ maxDenied) :
    ∃ f, backpatch (unpatched a denied) (patches denied.length) = .ok f ∧ Listing a denied f := by
  obtain ⟨f, res, length, jumps, others⟩ :=
    backpatch_spec (patches denied.length) (near_patches short)
      (nodup_sources_patches denied.length) (unpatched a denied)
  rw [sources_patches] at others
  have early (i : Nat) (pre : i < 6) (free : i ∉ [1, 3, 4, 5]) : f[i]? = (prologue a)[i]? := by
    rw [others i ?_, unpatched_prologue a denied pre]
    simp only [List.mem_append, List.mem_map, List.mem_range, List.mem_singleton, not_or]
    exact ⟨⟨free, by rintro ⟨j, -, eq⟩; omega⟩, by omega⟩
  have late (i : Nat) (free : i ≠ 4) : f[denied.length + 6 + i]? = epilogue[i]? := by
    rw [others _ ?_, unpatched_epilogue]
    simp only [List.mem_append, List.mem_map, List.mem_range, List.mem_cons, List.not_mem_nil,
      or_false, not_or]
    exact ⟨⟨by omega, by rintro ⟨j, inside, eq⟩; omega⟩, by omega⟩
  have jump (p : Patch) (mem : p ∈ patches denied.length) {code : BitVec 16} {test : Test}
      {k : Word} (pre : (unpatched a denied)[p.source]? = some (stmt code k))
      (dec : decode code = some (.jump test)) :
      JumpsAt f p.source test k (if p.taken then p.target else p.source + 1)
        (if p.taken then p.source + 1 else p.target) := by
    obtain ⟨d, reach, wrote⟩ := jumps p mem
    exact jumpsAt_of_patch reach wrote pre dec
  refine ⟨f, res, ?_⟩
  constructor
  case length =>
    rw [length, unpatched, List.length_append, List.length_append, List.length_map]
    simp only [prologue, epilogue, List.length_cons, List.length_nil]
    omega
  case loadArch => exact ⟨_, early 0 (by decide) (by decide), rfl, rfl⟩
  case loadNr => exact ⟨_, early 2 (by decide) (by decide), rfl, rfl⟩
  case arch =>
    exact jump ⟨1, false, denied.length + 7⟩ (by simp [patches])
      (unpatched_prologue a denied (show 1 < 6 by decide)) rfl
  case ceiling =>
    exact jump ⟨3, true, denied.length + 7⟩ (by simp [patches])
      (unpatched_prologue a denied (show 3 < 6 by decide)) rfl
  case clone =>
    exact jump ⟨4, true, denied.length + 9⟩ (by simp [patches])
      (unpatched_prologue a denied (show 4 < 6 by decide)) rfl
  case clone3 =>
    exact jump ⟨5, true, denied.length + 8⟩ (by simp [patches])
      (unpatched_prologue a denied (show 5 < 6 by decide)) rfl
  case compare =>
    intro i inside
    exact jump ⟨6 + i, true, denied.length + 7⟩ (by simp [patches, inside])
      (unpatched_comparison a denied inside) rfl
  case permit => exact ⟨_, late 0 (by decide), rfl, rfl⟩
  case refuse => exact ⟨_, late 1 (by decide), rfl, rfl⟩
  case missing => exact ⟨_, late 2 (by decide), rfl, rfl⟩
  case loadFlags => exact ⟨_, late 3 (by decide), rfl, rfl⟩
  case flags =>
    exact jump ⟨denied.length + 10, true, denied.length + 12⟩ (by simp [patches])
      (unpatched_epilogue a denied 4) rfl
  case permitClone => exact ⟨_, late 5 (by decide), rfl, rfl⟩
  case refuseClone => exact ⟨_, late 6 (by decide), rfl, rfl⟩

section

variable {a : ArchFilter} {denied : List Word} {f : List Instruction}

/-! ## No path leaves the program -/

/-- Every position holds a load, a jump or a return, and passes control on inside the program. -/
theorem Listing.cases (listing : Listing a denied f) {pc : Nat} (inside : pc < f.length) :
    (∃ k, LoadsAt f pc k ∧ pc + 1 < f.length) ∨
      (∃ test k onTrue onFalse, JumpsAt f pc test k onTrue onFalse ∧ onTrue < f.length ∧
        onFalse < f.length) ∨
      ∃ k, ReturnsAt f pc k := by
  have length := listing.length
  have position : pc = 0 ∨ pc = 1 ∨ pc = 2 ∨ pc = 3 ∨ pc = 4 ∨ pc = 5 ∨
      (∃ i, i < denied.length ∧ pc = 6 + i) ∨ pc = denied.length + 6 ∨ pc = denied.length + 7 ∨
      pc = denied.length + 8 ∨ pc = denied.length + 9 ∨ pc = denied.length + 10 ∨
      pc = denied.length + 11 ∨ pc = denied.length + 12 := by
    by_cases comparison : 6 ≤ pc ∧ pc < denied.length + 6
    · have : ∃ i, i < denied.length ∧ pc = 6 + i := ⟨pc - 6, by omega, by omega⟩
      simp only [this, true_or, or_true]
    · omega
  rcases position with rfl | rfl | rfl | rfl | rfl | rfl | ⟨i, compared, rfl⟩ | rfl | rfl | rfl |
    rfl | rfl | rfl | rfl
  · exact .inl ⟨_, listing.loadArch, by omega⟩
  · exact .inr (.inl ⟨_, _, _, _, listing.arch, by omega, by omega⟩)
  · exact .inl ⟨_, listing.loadNr, by omega⟩
  · exact .inr (.inl ⟨_, _, _, _, listing.ceiling, by omega, by omega⟩)
  · exact .inr (.inl ⟨_, _, _, _, listing.clone, by omega, by omega⟩)
  · exact .inr (.inl ⟨_, _, _, _, listing.clone3, by omega, by omega⟩)
  · exact .inr (.inl ⟨_, _, _, _, listing.compare i compared, by omega, by omega⟩)
  · exact .inr (.inr ⟨_, listing.permit⟩)
  · exact .inr (.inr ⟨_, listing.refuse⟩)
  · exact .inr (.inr ⟨_, listing.missing⟩)
  · exact .inl ⟨_, listing.loadFlags, by omega⟩
  · exact .inr (.inl ⟨_, _, _, _, listing.flags, by omega, by omega⟩)
  · exact .inr (.inr ⟨_, listing.permitClone⟩)
  · exact .inr (.inr ⟨_, listing.refuseClone⟩)

theorem Listing.wellFormed (listing : Listing a denied f) : WellFormed f where
  nonempty := by
    have length := listing.length
    omega
  known := by
    intro pc ins got unknown
    obtain ⟨inside, -⟩ := List.getElem?_eq_some_iff.mp got
    have known {op : Op} (stands : ∃ other, f[pc]? = some other ∧ decode other.code = some op) :
        False := by
      obtain ⟨other, again, dec⟩ := stands
      obtain rfl : ins = other := Option.mem_unique got again
      cases unknown.symm.trans dec
    rcases listing.cases inside with ⟨_, ⟨other, again, dec, _⟩, _⟩ |
      ⟨_, _, _, _, ⟨other, again, dec, _⟩, _⟩ | ⟨_, ⟨other, again, dec, _⟩⟩
    all_goals exact known ⟨other, again, dec⟩
  inside := by
    intro pc pc' leads
    obtain ⟨ins, got, passes⟩ := id leads
    obtain ⟨inside, -⟩ := List.getElem?_eq_some_iff.mp got
    rcases listing.cases inside with ⟨_, stands, next⟩ | ⟨_, _, _, _, stands, onTrue, onFalse⟩ |
      ⟨_, stands⟩
    · rw [stands.leads leads]
      exact next
    · rcases stands.leads leads with rfl | rfl
      · exact onTrue
      · exact onFalse
    · exact absurd leads stands.not_leads

/-! ## What the program returns -/

/-- The comparisons from the `i`th on: a number among them is refused, any other permitted. -/
theorem Listing.returns_comparisons (listing : Listing a denied f) (input : Word → Option Word)
    (nr : Word) (left i : Nat) (remaining : i + left = denied.length) :
    Returns f input (6 + i) nr (if nr ∈ denied.drop i then eperm else allow) := by
  induction left generalizing i with
  | zero =>
    obtain rfl : i = denied.length := remaining
    rw [List.drop_length, if_neg List.not_mem_nil, Nat.add_comm]
    exact listing.permit.returns nr
  | succ left ih =>
    have inside : i < denied.length := by omega
    rw [List.drop_eq_getElem_cons inside]
    apply (listing.compare i inside).returns
    · intro eq
      rw [if_pos (List.mem_cons.mpr (.inl (eq_of_beq eq)))]
      exact listing.refuse.returns nr
    · intro other
      have ne : nr ≠ denied[i] := ne_of_beq_false other
      have rest := ih (i + 1) (by omega)
      simpa only [List.mem_cons, ne, false_or, Nat.add_assoc] using rest

theorem load_nr (data : SeccompData) : data.load offNr = some data.nr := rfl

theorem load_arch (data : SeccompData) : data.load offArch = some data.arch := rfl

theorem load_flags (data : SeccompData) :
    data.load offArgs0 = some ((data.args 0).setWidth 32) := by
  simp [SeccompData.load, SeccompData.words, offArgs0, halves, List.ofFn_succ]

/-- The ceiling is passed exactly by the numbers above the highest one of the table. -/
theorem ceiling_holds_iff (fits : a.Fits) (nr : Word) :
    Test.ge.holds nr (a.maxNr + 1) = true ↔ a.maxNr.toNat < nr.toNat := by
  have noWrap : (a.maxNr + 1).toNat = a.maxNr.toNat + 1 := by
    rw [BitVec.toNat_add]
    exact Nat.mod_eq_of_lt fits.ceiling
  rw [Test.holds, noWrap, decide_eq_true_iff]
  exact Nat.succ_le_iff

/-- **The listed program answers with the verdict**, when its denylist is the policy's. -/
theorem Listing.returns (listing : Listing a denied f) (fits : a.Fits) {policy : SeccompPolicy}
    (denies : ∀ nr, nr ∈ denied ↔ a.Denies policy nr) (data : SeccompData) (acc : Word) :
    Returns f data.load 0 acc (verdict a policy data) := by
  unfold verdict
  apply listing.loadArch.returns (load_arch data)
  apply listing.arch.returns
  case passed =>
    intro foreign
    rw [if_pos (.inl (ne_of_beq_false foreign))]
    exact listing.refuse.returns _
  intro native
  apply listing.loadNr.returns (load_nr data)
  apply listing.ceiling.returns
  case taken =>
    intro above
    rw [if_pos (.inr ((ceiling_holds_iff fits _).mp above))]
    exact listing.refuse.returns _
  intro below
  have inTable : ¬ (data.arch ≠ a.auditArch ∨ a.maxNr.toNat < data.nr.toNat) := by
    rw [← ceiling_holds_iff fits, below, not_or, not_not]
    exact ⟨eq_of_beq native, Bool.false_ne_true⟩
  rw [if_neg inTable]
  apply listing.clone.returns
  case taken =>
    intro cloning
    rw [if_pos (eq_of_beq cloning)]
    apply listing.loadFlags.returns (load_flags data)
    apply listing.flags.returns
    case taken =>
      intro flagged
      rw [if_pos (bne_iff_ne.mp flagged)]
      exact listing.refuseClone.returns _
    case passed =>
      intro plain
      rw [if_neg (by simpa [Test.holds] using plain)]
      exact listing.permitClone.returns _
  intro notClone
  rw [if_neg (ne_of_beq_false notClone)]
  apply listing.clone3.returns
  case taken =>
    intro cloning
    rw [if_pos (eq_of_beq cloning)]
    exact listing.missing.returns _
  intro notClone3
  rw [if_neg (ne_of_beq_false notClone3)]
  have scanned := listing.returns_comparisons data.load data.nr denied.length 0 (Nat.zero_add _)
  simpa only [List.drop_zero, denies] using scanned

end

/-! ## The compiler -/

variable {goarch : String} {policy : Option SeccompPolicy} {f : List Instruction}

theorem program_of_applied (supported : archFilters goarch = some a)
    (applied : applyPolicy policy a = .ok denied) :
    ∃ f, seccompProgram goarch policy = .program f ∧ Listing a denied f := by
  obtain ⟨f, assembled, listing⟩ :=
    exists_listing a (applyPolicy_spec (fits_of_archFilters supported) applied).2
  exact ⟨f, by simp only [seccompProgram, supported, applied, assembled], listing⟩

theorem program_spec (accepted : seccompProgram goarch policy = .program f) :
    WellFormed f ∧ ∃ a, archFilters goarch = some a ∧
      ∀ data : SeccompData, eval f data.load = some (verdict a (policyOf policy) data) := by
  cases supported : archFilters goarch with
  | none => simp [seccompProgram, supported] at accepted
  | some a =>
    cases applied : applyPolicy policy a with
    | error message => simp [seccompProgram, supported, applied] at accepted
    | ok denied =>
      have fits := fits_of_archFilters supported
      obtain ⟨g, res, listing⟩ := program_of_applied supported applied
      cases accepted.symm.trans res
      refine ⟨listing.wellFormed, a, rfl, fun data => ?_⟩
      exact eval_of_returns (listing.returns fits (applyPolicy_spec fits applied).1 data 0)

/-- **The filter implements the policy.**  Assembling never panics and every displacement given
out is exact.  The program that comes out has forward jumps inside the program only, every path
through it ends in a return, and for every system call it returns the verdict of the policy. -/
theorem seccompProgram_implements_verdict (goarch : String) (policy : Option SeccompPolicy) :
    (∀ message, seccompProgram goarch policy ≠ .panicked message) ∧
    (∀ source target d, jumpTo source target = .ok d → source + 1 + d.toNat = target) ∧
    ∀ f, seccompProgram goarch policy = .program f →
      (∀ pc pc', Leads f pc pc' → pc < pc' ∧ pc' < f.length) ∧
      (∀ pc, Relation.ReflTransGen (Leads f) 0 pc → (∀ pc', ¬ Leads f pc pc') →
        ∃ k, ReturnsAt f pc k) ∧
      ∃ a, archFilters goarch = some a ∧
        ∀ data : SeccompData, eval f data.load = some (verdict a (policyOf policy) data) := by
  refine ⟨fun message => ?_, fun source target d => add_toNat_of_jumpTo, fun f accepted => ?_⟩
  · cases supported : archFilters goarch with
    | none => simp [seccompProgram, supported]
    | some a =>
      cases applied : applyPolicy policy a with
      | error message => simp [seccompProgram, supported, applied]
      | ok denied =>
        obtain ⟨f, result, -⟩ := program_of_applied supported applied
        simp [result]
  obtain ⟨wellFormed, a, supported, evaluated⟩ := program_spec accepted
  exact ⟨fun pc pc' leads => ⟨lt_of_leads leads, wellFormed.inside leads⟩,
    fun pc path stuck => wellFormed.returns_of_stuck path stuck, a, supported, evaluated⟩

theorem exists_program (supported : archFilters goarch = some a)
    (accepted : (applyPolicy policy a).isOk = true) :
    ∃ f, seccompProgram goarch policy = .program f := by
  cases applied : applyPolicy policy a with
  | error _ => simp [applied, Except.isOk, Except.toBool] at accepted
  | ok denied => exact (program_of_applied supported applied).imp fun _ => And.left

/-- **A policy is obeyed but where an earlier branch answers.**  The number of an `Allow` entry is
allowed for all arguments exactly when it is in the table and not one of the two that clone; the
number of a `Deny` entry that is not allowed is never allowed exactly when it is not the clone's. -/
theorem policy_is_obeyed_iff {policy : SeccompPolicy}
    (accepted : seccompProgram goarch (some policy) = .program f) :
    ∃ a, archFilters goarch = some a ∧
      (∀ nr ∈ a.numbers policy.allow,
        (∀ ip args, eval f (SeccompData.load ⟨nr, a.auditArch, ip, args⟩) = some allow) ↔
          nr.toNat ≤ a.maxNr.toNat ∧ nr ≠ a.clone ∧ nr ≠ a.clone3) ∧
      ∀ nr ∈ a.numbers policy.deny, nr ∉ a.numbers policy.allow →
        ((∀ arch ip args, eval f (SeccompData.load ⟨nr, arch, ip, args⟩) ≠ some allow) ↔
          nr ≠ a.clone) := by
  obtain ⟨-, a, supported, evaluated⟩ := program_spec accepted
  simp only [evaluated, policyOf, Option.getD_some, Option.some.injEq, ne_eq]
  refine ⟨a, supported, fun nr listed => ?_, fun nr listed spared => ?_⟩
  · exact verdict_allows_iff fun denied => denied.2 listed
  apply verdict_denies_iff ⟨.inr listed, spared⟩
  rcases archFilters_eq supported with rfl | rfl <;> decide

/-- A policy that takes away `socket` and gives back `ptrace`. -/
def debuggerPolicy : SeccompPolicy where
  deny := ["socket"]
  allow := ["ptrace"]

/-- Under the debugger's policy a socket is refused and tracing permitted, for all arguments. -/
theorem seccompProgram_implements_verdict_debugger :
    ∃ f, seccompProgram "amd64" (some debuggerPolicy) = .program f ∧
      ∀ ip args, eval f (SeccompData.load ⟨41, amd64.auditArch, ip, args⟩) = some eperm ∧
        eval f (SeccompData.load ⟨101, amd64.auditArch, ip, args⟩) = some allow := by
  obtain ⟨-, -, meaning⟩ := seccompProgram_implements_verdict "amd64" (some debuggerPolicy)
  have refuses : amd64.Denies debuggerPolicy 41 := by decide +kernel
  have permits : ¬ amd64.Denies debuggerPolicy 101 := by decide +kernel
  obtain ⟨f, result⟩ : ∃ f, seccompProgram "amd64" (some debuggerPolicy) = .program f :=
    exists_program rfl (by decide +kernel)
  obtain ⟨-, -, a, supported, evaluated⟩ := meaning f result
  cases supported
  refine ⟨f, result, fun ip args => ⟨?_, ?_⟩⟩
  · rw [evaluated, verdict_of_listed (by decide) (by decide) (by decide) ip args]
    exact congrArg some (if_pos refuses)
  rw [evaluated, verdict_of_listed (by decide) (by decide) (by decide) ip args]
  exact congrArg some (if_neg permits)

/-- A policy that names the clone's number, which its name is refused for. -/
def numberedPolicy : SeccompPolicy where
  deny := ["56"]

theorem policy_is_obeyed_iff_debugger :
    ∃ f, seccompProgram "amd64" (some debuggerPolicy) = .program f ∧
      ∀ ip args, eval f (SeccompData.load ⟨101, amd64.auditArch, ip, args⟩) = some allow := by
  obtain ⟨f, result⟩ : ∃ f, seccompProgram "amd64" (some debuggerPolicy) = .program f :=
    exists_program rfl (by decide +kernel)
  obtain ⟨a, supported, allows, -⟩ := policy_is_obeyed_iff result
  cases supported
  exact ⟨f, result, (allows 101 (by decide +kernel)).2 (by decide)⟩

/-- The entry is accepted, and a clone that sets no flags is allowed. -/
theorem denied_clone_is_allowed :
    ∃ f, seccompProgram "amd64" (some numberedPolicy) = .program f ∧
      56 ∈ amd64.numbers numberedPolicy.deny ∧ numberedPolicy.allow = [] ∧
      eval f (SeccompData.load ⟨56, amd64.auditArch, 0, fun _ => 0⟩) = some allow := by
  obtain ⟨f, result⟩ : ∃ f, seccompProgram "amd64" (some numberedPolicy) = .program f :=
    exists_program rfl (by decide +kernel)
  obtain ⟨-, a, supported, evaluated⟩ := program_spec result
  cases supported
  refine ⟨f, result, by decide +kernel, rfl, ?_⟩
  rw [evaluated]
  decide +kernel

end Horchestra.Sandbox
