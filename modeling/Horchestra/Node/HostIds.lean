import Horchestra.Admission.UidAllocation
import Horchestra.Foundations.IdMap

/-!
# The host ids of workloads

A node owns one subordinate range of host ids and gives workloads the slots at its top.
`hostID` reduces an allocated id modulo the number of slots, and `agentID` is the same
identity as the agent addresses it from inside its own user namespace.

Two questions about tenants are settled here.

* Do two tenants get different host ids?  Blocks are a whole number of slot runs apart, so
  the reduction forgets which block an id came from: the ids differ exactly when their
  offsets inside their blocks do, modulo the slots (`tenants_separated_iff`).
* Does a file the agent gives to a workload belong to the process that runs?  The agent
  chowns into the subordinate range, while the sandbox maps the workload onto the agent's
  own id, so it never does (`chown_misses_process`).
-/

namespace Horchestra.Node

open Api Storage Admission Admission.UidAllocation
open Foundations.Search Foundations Text UserNamespace

/-! ## The slot arithmetic -/

/-- How many ids at the top of the subordinate range carry workload identities. -/
def slots : Int := 4096

/-- The remainder with a non-negative result, from the language's truncated one. -/
def floorMod (n m : Int) : Int :=
  if m ≤ 0 then 0
  else
    let r := Int.tmod n m
    if r < 0 then r + m else r

/-- The slots a range offers: never more than half of it. -/
def slotsOf (sub : IDRange) : Int := min slots (Int.tdiv sub.size 2)

/-- The node-visible id a workload's in-namespace id maps to. -/
def hostID (sub : IDRange) (id : Int) : Int :=
  sub.min + (sub.size - slotsOf sub) + floorMod id (slotsOf sub)

/-- The same identity as the agent addresses it from its own user namespace. -/
def agentID (sub : IDRange) (id : Int) : Int := hostID sub id - sub.min + 1

theorem floorMod_eq_emod {n m : Int} (pos : 0 < m) : floorMod n m = n % m := by
  unfold floorMod
  rw [if_neg (by omega)]
  have truncated := Int.tmod_eq_emod (a := n) (b := m)
  have low := Int.emod_nonneg n (show m ≠ 0 by omega)
  have high := Int.emod_lt_of_pos n pos
  simp only [truncated]
  split_ifs <;> omega

variable {sub block : IDRange}

theorem slotsOf_eq (wide : 2 * slots ≤ sub.size) : slotsOf sub = slots := by
  unfold slotsOf slots at *
  rw [Int.tdiv_eq_ediv_of_nonneg (by omega)]
  omega

theorem slotsOf_pos (wide : 2 ≤ sub.size) : 0 < slotsOf sub ∧ slotsOf sub ≤ sub.size := by
  unfold slotsOf slots
  rw [Int.tdiv_eq_ediv_of_nonneg (by omega)]
  omega

theorem hostID_mem (wide : 2 ≤ sub.size) (id : Int) :
    sub.min ≤ hostID sub id ∧ hostID sub id < sub.min + sub.size := by
  obtain ⟨pos, fits⟩ := slotsOf_pos wide
  have low := Int.emod_nonneg id (show slotsOf sub ≠ 0 by omega)
  have high := Int.emod_lt_of_pos id pos
  unfold hostID
  rw [floorMod_eq_emod pos]
  omega

theorem hostID_eq_iff (wide : 2 * slots ≤ sub.size) (a b : Int) :
    hostID sub a = hostID sub b ↔ a % slots = b % slots := by
  have pos : (0 : Int) < slots := by decide
  unfold hostID
  rw [slotsOf_eq wide, floorMod_eq_emod pos, floorMod_eq_emod pos]
  omega

/-- The stride between blocks is a multiple of the slots, so the reduction does not see
which block an id came from. -/
theorem nthBlock_offset_emod (i j : Nat) :
    ((nthBlock i).min + j) % slots = (workloadUIDBase + j) % slots := by
  simp only [nthBlock, workloadUIDBlock, slots]
  omega

/-! ## Separation of tenants -/

/-- A block the allocator itself reserved for a namespace that had none. -/
def HandedOut (block : IDRange) : Prop :=
  ∃ (db : DB) (ns ns' : Namespace),
    ns.metadata.annValue annUIDRange = "" ∧ assignBlock db ns = .ok ns' ∧
      parseIDRange (ns'.metadata.annValue annUIDRange) = .ok block

theorem HandedOut.exists_nthBlock (handed : HandedOut block) : ∃ i, block = nthBlock i := by
  obtain ⟨db, ns, ns', unset, done, read⟩ := handed
  obtain ⟨i, -, parsed, -⟩ := assignBlock_spec unset done
  rw [parsed] at read
  exact ⟨i, by simpa using read.symm⟩

/-- An application whose user id the allocator assigned: its namespace holds a block the
allocator handed out, the application asked for no id, and `offset` is the lowest offset
of the block that no other application of the namespace occupies. -/
structure Assigned (db : DB) (app app' : Application) (block : IDRange) (offset : Nat) :
    Prop where
  handedOut : HandedOut block
  held : blockOf db app.metadata.ns = .ok block
  unset : runAsUser app = none
  done : assignWorkloadID db app = .ok app'
  lowest : IsFirstFree (idTaken db app) 1 block.min offset

variable {db : DB} {app' : Application}

theorem Assigned.runAsUser_eq {app : Application} {offset : Nat}
    (assigned : Assigned db app app' block offset) :
    runAsUser app' = some (block.min + offset) := by
  obtain ⟨i, rfl⟩ := assigned.handedOut.exists_nthBlock
  have allocated : (nthBlock i).isZero = false := by
    simp [IDRange.isZero, nthBlock, workloadUIDBlock]
  obtain ⟨j, -, user, first⟩ :=
    assignWorkloadID_spec assigned.held allocated assigned.unset assigned.done
  rw [user, first.unique assigned.lowest]

/-- **Tenants share host ids offset by offset.** -/
theorem tenants_separated_iff {sub : IDRange} {db db' : DB} {appA appA' appB appB' : Application}
    {blockA blockB : IDRange} {a b : Int} {j k : Nat} (wide : 2 * slots ≤ sub.size)
    (assignedA : Assigned db appA appA' blockA j) (assignedB : Assigned db' appB appB' blockB k)
    (userA : runAsUser appA' = some a) (userB : runAsUser appB' = some b) :
    hostID sub a ≠ hostID sub b ↔ (j : Int) % slots ≠ (k : Int) % slots := by
  obtain ⟨m, rfl⟩ := assignedA.handedOut.exists_nthBlock
  obtain ⟨n, rfl⟩ := assignedB.handedOut.exists_nthBlock
  have valueA : a = (nthBlock m).min + j := by simpa [userA] using assignedA.runAsUser_eq
  have valueB : b = (nthBlock n).min + k := by simpa [userB] using assignedB.runAsUser_eq
  rw [ne_eq, ne_eq, hostID_eq_iff wide, valueA, valueB, nthBlock_offset_emod, nthBlock_offset_emod]
  unfold slots
  omega

/-! ### The first workload of every namespace

Two namespaces created one after the other, and the first application of each. -/

def tenant (name : String) (annotations : StringMap) : Namespace :=
  { metadata := { name := name, annotations := annotations } }

def recordedBlock (block : String) : StringMap := (∅ : StringMap).insert annUIDRange block

def oneTenantDB : DB :=
  ({} : DB).putHead (k := .ns) "/a" (tenant "a" (recordedBlock "1000000000/65536"))

def twoTenantsDB : DB :=
  oneTenantDB.putHead (k := .ns) "/b" (tenant "b" (recordedBlock "1000065536/65536"))

def firstWorkload (ns : String) : Application := { metadata := { ns := ns, name := "web" } }

def identified (ns : String) (user : Int) : Application :=
  withSecurityContext (firstWorkload ns) { runAsUser := some user, runAsGroup := some user }

theorem firstWorkload_assigned (ns : String) (handedOut : HandedOut block)
    (held : blockOf db ns = .ok block) (done : assignWorkloadID db (firstWorkload ns) = .ok app')
    (alone : idTaken db (firstWorkload ns) block.min = false) :
    Assigned db (firstWorkload ns) app' block 0 :=
  ⟨handedOut, held, rfl, done, by simpa using alone, fun i pre => absurd pre (by omega)⟩

theorem assigned_in_a :
    Assigned twoTenantsDB (firstWorkload "a") (identified "a" 1000000000) ⟨1000000000, 65536⟩ 0 :=
  firstWorkload_assigned "a"
    ⟨{}, tenant "a" ∅, tenant "a" (recordedBlock "1000000000/65536"), rfl, rfl, rfl⟩
    rfl rfl rfl

theorem assigned_in_b :
    Assigned twoTenantsDB (firstWorkload "b") (identified "b" 1000065536) ⟨1000065536, 65536⟩ 0 :=
  firstWorkload_assigned "b"
    ⟨oneTenantDB, tenant "b" ∅, tenant "b" (recordedBlock "1000065536/65536"), rfl, rfl, rfl⟩
    rfl rfl rfl

/-- The first workloads of two namespaces run as one host id, on a node with the usual
range and nothing else on it. -/
theorem first_workloads_share_host_id :
    Assigned twoTenantsDB (firstWorkload "a") (identified "a" 1000000000) ⟨1000000000, 65536⟩ 0 ∧
    Assigned twoTenantsDB (firstWorkload "b") (identified "b" 1000065536) ⟨1000065536, 65536⟩ 0 ∧
    2 * slots ≤ 65536 ∧
    (([identified "a" 1000000000, identified "b" 1000065536].length : Nat) : Int) < slots ∧
    hostID ⟨524288, 65536⟩ 1000000000 = hostID ⟨524288, 65536⟩ 1000065536 :=
  ⟨assigned_in_a, assigned_in_b, by decide, by decide, by decide⟩

theorem tenants_separated_iff_first_workloads :
    hostID ⟨524288, 65536⟩ 1000000000 ≠ hostID ⟨524288, 65536⟩ 1000065536 ↔
      ((0 : Nat) : Int) % slots ≠ ((0 : Nat) : Int) % slots :=
  tenants_separated_iff (by decide) assigned_in_a assigned_in_b rfl rfl

/-! ## Files the agent gives to a workload -/

/-- The ids inside a workload's sandbox, with the floor standing in for an id that is
missing or not usable. -/
def workloadRunAs (sc : Option SecurityContext) : Int × Int :=
  let usable (what : String) (id : Option Int) : Int :=
    match id with
    | some id => if validRunAsID what id = .ok () then id else defaultRunAsID
    | none => defaultRunAsID
  match sc with
  | none => (defaultRunAsID, defaultRunAsID)
  | some sc => (usable "runAsUser" sc.runAsUser, usable "runAsGroup" sc.runAsGroup)

/-- The ids a node has to work with: the agent's own, and its subordinate ranges. -/
structure NodeIDs where
  uid : Int
  gid : Int
  subUID : IDRange
  subGID : IDRange

/-- The identity a workload's files must have, as the agent addresses it. -/
def workloadIDs (node : NodeIDs) (sc : Option SecurityContext) : Int × Int :=
  (agentID node.subUID (workloadRunAs sc).1, agentID node.subGID (workloadRunAs sc).2)

/-- The map installed on a user namespace: its root is `hostID`, the ids from one up are
the subordinate range, and a namespace made for one workload gives up the slots for a
segment carrying that workload's id. -/
def writeMap (agent : Int) (sub : IDRange) (workloadID : Int) : IdMap :=
  if 0 < workloadID then
    [⟨0, agent, 1⟩, ⟨workloadID, hostID sub workloadID, 1⟩, ⟨1, sub.min, sub.size - slotsOf sub⟩]
  else [⟨0, agent, 1⟩, ⟨1, sub.min, sub.size⟩]

/-- The agent's own namespace is entered with no workload id. -/
def agentMap (agent : Int) (sub : IDRange) : IdMap := writeMap agent sub 0

/-- The map stage one puts on the sandbox: one id inside, the invoking user outside. -/
def reexecMap (inside invoking : Int) : IdMap := [⟨inside, invoking, 1⟩]

theorem toHost_agentMap_agentID (wide : 2 ≤ sub.size) (agent id : Int) :
    toHost (agentMap agent sub) (agentID sub id) = some (hostID sub id) := by
  obtain ⟨low, high⟩ := hostID_mem wide id
  have notRoot : ¬ Extent.covers ⟨0, agent, 1⟩ (agentID sub id) := by
    simp only [Extent.covers_iff, agentID]
    omega
  have inRange : Extent.covers ⟨1, sub.min, sub.size⟩ (agentID sub id) := by
    simp only [Extent.covers_iff, agentID]
    omega
  simp only [agentMap, writeMap, lt_irrefl, if_false]
  rw [toHost_cons_of_not_covers notRoot, toHost_cons_of_covers inRange]
  simp only [agentID, Option.some.injEq]
  omega

@[simp] theorem toHost_reexecMap (inside invoking : Int) :
    toHost (reexecMap inside invoking) inside = some invoking := by
  simp [toHost, reexecMap, Extent.covers]

/-- One id of a workload: the host id its files get is not the host id it runs as. -/
theorem chown_ne_process {agent : Int} (wide : 2 ≤ sub.size)
    (outside : agent < sub.min ∨ sub.min + sub.size ≤ agent) (id : Int) :
    toHost (agentMap agent sub) (agentID sub id) ≠ toHost (reexecMap id agent) id := by
  obtain ⟨low, high⟩ := hostID_mem wide id
  rw [toHost_agentMap_agentID wide, toHost_reexecMap]
  simp only [ne_eq, Option.some.injEq]
  omega

/-- **A file the agent gives to a workload never belongs to the process that runs.** -/
theorem chown_misses_process (node : NodeIDs) (sc : Option SecurityContext)
    (wideUID : 2 ≤ node.subUID.size) (wideGID : 2 ≤ node.subGID.size)
    (outsideUID : node.uid < node.subUID.min ∨ node.subUID.min + node.subUID.size ≤ node.uid)
    (outsideGID : node.gid < node.subGID.min ∨ node.subGID.min + node.subGID.size ≤ node.gid) :
    toHost (agentMap node.uid node.subUID) (workloadIDs node sc).1 ≠
        toHost (reexecMap (workloadRunAs sc).1 node.uid) (workloadRunAs sc).1 ∧
      toHost (agentMap node.gid node.subGID) (workloadIDs node sc).2 ≠
        toHost (reexecMap (workloadRunAs sc).2 node.gid) (workloadRunAs sc).2 :=
  ⟨chown_ne_process wideUID outsideUID _, chown_ne_process wideGID outsideGID _⟩

/-- An ordinary node and the first workload of the first namespace: its files get host
uid 588288 while it runs as the agent's uid 1000. -/
theorem chown_misses_process_first_workload :
    toHost (agentMap 1000 ⟨524288, 65536⟩) (agentID ⟨524288, 65536⟩ 1000000000) = some 588288 ∧
      toHost (reexecMap 1000000000 1000) 1000000000 = some 1000 := by
  decide

theorem chown_misses_process_usual_node :
    let node : NodeIDs := ⟨1000, 1000, ⟨524288, 65536⟩, ⟨524288, 65536⟩⟩
    let sc : Option SecurityContext := some ⟨some 1000000000, some 1000000000⟩
    toHost (agentMap node.uid node.subUID) (workloadIDs node sc).1 ≠
        toHost (reexecMap (workloadRunAs sc).1 node.uid) (workloadRunAs sc).1 ∧
      toHost (agentMap node.gid node.subGID) (workloadIDs node sc).2 ≠
        toHost (reexecMap (workloadRunAs sc).2 node.gid) (workloadRunAs sc).2 :=
  chown_misses_process _ _ (by decide) (by decide) (by decide) (by decide)

end Horchestra.Node
