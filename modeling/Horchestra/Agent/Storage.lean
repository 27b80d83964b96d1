import Horchestra.Agent.Volumes
import Horchestra.Foundations.KernelMaps
import Horchestra.Foundations.Transitions

/-!
# The volumes a node provisions and reclaims

A pass of the agent provisions the volumes a push assigns to the node, converges the applications,
and reclaims the volumes that are gone from the cluster.  What it has provisioned it remembers in a
ledger, which is kept in memory and written to a file whenever it has changed; a failed write is
reported and forgotten, and an agent that starts again goes on from what the file says, or from
nothing.

A pass is taken apart into the steps between which an agent can be stopped: one volume provisioned,
the ledger written, one workload started, one volume settled.  Beside what the node has, a state
keeps what has happened to it: the last object assigned to the node under each name, the objects a
directory has backed, the directories that were removed and the workloads that were started.
-/

namespace Horchestra.Agent.Storage

open Api
open Foundations.KernelMaps (Shuffle)
open Foundations.NameMap

/-! ## Pushes -/

/-- The part of a push that storage reads. -/
structure Push where
  applications : List Application := []
  pvList : List PersistentVolume := []

def volumeID (pv : PersistentVolume) : String := workloadID pv.metadata.ns pv.metadata.name

def Push.allPVs (p : Push) : List String := p.pvList.map volumeID

def Push.myPVs (p : Push) (node : String) : Provisioned :=
  indexBy volumeID id (p.pvList.filter (·.spec.node = node))

def Push.want (p : Push) (node : String) : Std.ExtTreeMap String App :=
  appsForNode (p.applications.map fromApplication) node

def inUse (want : Std.ExtTreeMap String App) : List String :=
  want.toList.flatMap fun entry => (entry.2.volumes.filter (·.isPV)).map (pvID entry.2)

/-! ## The ledger -/

def reclaimRetain : String := "Retain"
def reclaimDelete : String := "Delete"

def reclaimPolicyOf (pv : PersistentVolume) : String :=
  if pv.spec.reclaimPolicy = reclaimRetain then reclaimRetain else reclaimDelete

structure PvRecord where
  reclaimPolicy : String
  deriving DecidableEq

abbrev Ledger := Std.ExtTreeMap String PvRecord

/-! ## Directories -/

/-- The object a directory backs, as far as its data is concerned. -/
structure Mark where
  uid : String
  policy : String
  deriving DecidableEq

def markOf (pv : PersistentVolume) : Mark := ⟨pv.metadata.uid, reclaimPolicyOf pv⟩

/-- A directory and its files, each with the object it was written for.  A directory that is removed
and made again is another one: what is still bound to the first does not see the second. -/
structure Directory where
  inode : Nat
  files : List Mark := []

/-- A directory bound into a workload. -/
structure Mount where
  id : String
  volume : PersistentVolume
  inode : Nat
  deriving DecidableEq

/-- A workload that was started with a volume, and what it found there. -/
structure Start where
  volume : PersistentVolume
  files : List Mark

/-- A directory that was removed, or that it was tried to remove: in the pass over which push, and
the object last assigned to the node under its name. -/
structure Removal where
  id : String
  push : Push
  last : Option PersistentVolume

/-! ## A node -/

inductive Phase where
  | idle
  | provisioning (left : List (String × PersistentVolume))
  | applying
  | reclaiming (left : List String)
  deriving DecidableEq

structure State where
  /-- `provisioned.json`; there is none where it is missing. -/
  file : Option Ledger := none
  provisioned : Ledger := ∅
  changed : Bool := false
  phase : Phase := .idle
  /-- The push the pass is about. -/
  push : Push := {}
  dirs : Std.ExtTreeMap String Directory := ∅
  inodes : Nat := 0
  mounts : List Mount := []
  last : String → Option PersistentVolume := fun _ => none
  backed : String → List Mark := fun _ => []
  removals : List Removal := []
  starts : List Start := []

/-- How the removal of a directory ends: it is gone, or some of its files are left. -/
inductive Removed where
  | all
  | failed (left : Mark → Bool)

inductive Event where
  | push (p : Push) (order : Shuffle (String × PersistentVolume))
  | provision (made : Bool)
  | save (written : Bool)
  | start (id : String)
  | reclaim (order : Shuffle String)
  | settle (outcome : Removed)
  | write (mount : Mount)
  | restart (readable : Bool)

/-- A push arrives while no pass is going on. -/
def State.receive (s : State) (node : String) (p : Push)
    (order : Shuffle (String × PersistentVolume)) : State :=
  { s with
    push := p
    changed := false
    phase := .provisioning (order.arrange (p.myPVs node).toList)
    last := fun id => ((p.myPVs node)[id]?).or (s.last id)
    backed := fun id =>
      match (p.myPVs node)[id]? with
      | some pv => markOf pv :: if s.dirs.contains id then s.backed id else []
      | none => s.backed id }

/-- The ledger after a volume has been provisioned. -/
def State.record (s : State) (id : String) (pv : PersistentVolume) : State :=
  if s.provisioned[id]? = some ⟨reclaimPolicyOf pv⟩ then s
  else { s with provisioned := s.provisioned.insert id ⟨reclaimPolicyOf pv⟩, changed := true }

/-- The directory of a volume; one that exists is left as it is. -/
def State.mkdir (s : State) (id : String) (made : Bool) : State :=
  if s.dirs.contains id || !made then s
  else { s with dirs := s.dirs.insert id { inode := s.inodes }, inodes := s.inodes + 1 }

def State.provision (s : State) (id : String) (pv : PersistentVolume)
    (left : List (String × PersistentVolume)) (made : Bool) : State :=
  { (s.record id pv).mkdir id made with phase := .provisioning left }

/-- The ledger is written only when it has changed; whether that worked is not looked at. -/
def State.save (s : State) (written : Bool) (next : Phase) : State :=
  { s with
    file := if s.changed && written then some s.provisioned else s.file
    changed := false
    phase := next }

/-- The directories a workload mounts, each with its object; there are none to mount where a volume
is not the node's or its directory is missing. -/
def State.resolve (s : State) (node : String) (app : App) : Option (List (Mount × List Mark)) :=
  (app.volumes.filter fun m => !m.isTmpfs && !m.isSecret).mapM fun m =>
    (s.push.myPVs node)[pvID app m]?.bind fun pv =>
      s.dirs[pvID app m]?.map fun dir => (⟨pvID app m, pv, dir.inode⟩, dir.files)

def State.start (s : State) (found : List (Mount × List Mark)) : State :=
  { s with
    mounts := found.map Prod.fst ++ s.mounts
    starts := found.map (fun entry => ⟨entry.1.volume, entry.2⟩) ++ s.starts }

/-- One volume of the ledger: it stays where its object still exists or an application mounts it,
and is forgotten where its data is to be retained. -/
def State.settle (s : State) (node : String) (id : String) (rec : PvRecord) (left : List String)
    (outcome : Removed) : State :=
  if id ∈ s.push.allPVs ∨ id ∈ inUse (s.push.want node) then { s with phase := .reclaiming left }
  else if rec.reclaimPolicy = reclaimRetain then
    { s with provisioned := s.provisioned.erase id, changed := true, phase := .reclaiming left }
  else
    let removals := ⟨id, s.push, s.last id⟩ :: s.removals
    match outcome with
    | .all =>
      { s with
        provisioned := s.provisioned.erase id
        changed := true
        phase := .reclaiming left
        dirs := s.dirs.erase id
        removals }
    | .failed kept =>
      { s with
        phase := .reclaiming left
        dirs := s.dirs.alter id (Option.map fun dir => { dir with files := dir.files.filter kept })
        removals }

/-- A workload writes a file into a directory that is bound into it.  The file is one of the object
the directory backs at that time. -/
def State.write (s : State) (mount : Mount) (dir : Directory) (pv : PersistentVolume) : State :=
  { s with dirs := s.dirs.insert mount.id { dir with files := markOf pv :: dir.files } }

/-- An agent starts again: a pass that was going on is over, and the ledger is what the file says.
-/
def State.restart (s : State) (readable : Bool) : State :=
  { s with
    provisioned := if readable then s.file.getD ∅ else ∅
    changed := false
    phase := .idle
    push := {} }

def step (node : String) (s : State) : Event → Option State
  | .push p order => if s.phase = .idle then some (s.receive node p order) else none
  | .provision made =>
    match s.phase with
    | .provisioning ((id, pv) :: left) => some (s.provision id pv left made)
    | _ => none
  | .save written =>
    match s.phase with
    | .provisioning [] => some (s.save written .applying)
    | .reclaiming [] => some (s.save written .idle)
    | _ => none
  | .start id =>
    if s.phase = .applying then
      ((s.push.want node)[id]?.filter (!·.deleting)).bind fun app =>
        (s.resolve node app).map s.start
    else none
  | .reclaim order =>
    if s.phase = .applying then
      -- An empty list is taken for a controller that lost its state.
      if s.push.allPVs = [] then some { s with phase := .idle }
      else some { s with changed := false, phase := .reclaiming (order.arrange s.provisioned.keys) }
    else none
  | .settle outcome =>
    match s.phase with
    | .reclaiming (id :: left) =>
      s.provisioned[id]?.map fun rec => s.settle node id rec left outcome
    | _ => none
  | .write mount =>
    if mount ∈ s.mounts then
      (s.dirs[mount.id]?.filter (·.inode = mount.inode)).bind fun dir =>
        (s.last mount.id).map (s.write mount dir)
    else none
  | .restart readable => some (s.restart readable)

/-- A node on which the agent has not run yet. -/
def State.fresh : State := {}

/-! ## The steps -/

/-- Everything a step can be, with what it needs. -/
inductive Moves (node : String) (s : State) : Event → State → Prop
  | push {p : Push} {order : Shuffle (String × PersistentVolume)} (idle : s.phase = .idle) :
      Moves node s (.push p order) (s.receive node p order)
  | provision {made : Bool} {id : String} {pv : PersistentVolume}
      {left : List (String × PersistentVolume)}
        (next : s.phase = .provisioning ((id, pv) :: left)) :
      Moves node s (.provision made) (s.provision id pv left made)
  | saveProvisioned {written : Bool} (done : s.phase = .provisioning []) :
      Moves node s (.save written) (s.save written .applying)
  | saveReclaimed {written : Bool} (done : s.phase = .reclaiming []) :
      Moves node s (.save written) (s.save written .idle)
  | start {id : String} {app : App} {found : List (Mount × List Mark)}
      (applying : s.phase = .applying)
      (wanted : (s.push.want node)[id]? = some app) (resolved : s.resolve node app = some found) :
      Moves node s (.start id) (s.start found)
  | suspicious {order : Shuffle String} (applying : s.phase = .applying) :
      Moves node s (.reclaim order) { s with phase := .idle }
  | reclaim {order : Shuffle String} (applying : s.phase = .applying)
      (listed : s.push.allPVs ≠ []) :
      Moves node s (.reclaim order)
        { s with changed := false, phase := .reclaiming (order.arrange s.provisioned.keys) }
  | settle {outcome : Removed} {id : String} {rec : PvRecord} {left : List String}
      (next : s.phase = .reclaiming (id :: left)) (held : s.provisioned[id]? = some rec) :
      Moves node s (.settle outcome) (s.settle node id rec left outcome)
  | write {mount : Mount} {dir : Directory} {pv : PersistentVolume}
      (found : s.dirs[mount.id]? = some dir) (backs : s.last mount.id = some pv) :
      Moves node s (.write mount) (s.write mount dir pv)
  | restart {readable : Bool} : Moves node s (.restart readable) (s.restart readable)

theorem moves_of_step {node : String} {s s' : State} {event : Event}
    (moved : step node s event = some s') : Moves node s event s' := by
  cases event with
  | push p order =>
    obtain ⟨idle, rfl⟩ : s.phase = .idle ∧ s.receive node p order = s' := by
      simpa [step] using moved
    exact .push idle
  | provision made =>
    simp only [step] at moved
    split at moved
    case h_1 id pv left next =>
      cases moved
      exact .provision next
    case h_2 => cases moved
  | save written =>
    simp only [step] at moved
    split at moved
    case h_1 done =>
      cases moved
      exact .saveProvisioned done
    case h_2 done =>
      cases moved
      exact .saveReclaimed done
    case h_3 => cases moved
  | start id =>
    simp only [step] at moved
    split at moved
    case isTrue applying =>
      obtain ⟨app, wanted, up⟩ := Option.bind_eq_some_iff.1 moved
      obtain ⟨found, resolved, rfl⟩ := Option.map_eq_some_iff.1 up
      exact .start applying (Option.filter_eq_some_iff.1 wanted).1 resolved
    case isFalse => cases moved
  | reclaim order =>
    simp only [step] at moved
    split at moved
    case isTrue applying =>
      split at moved
      · cases moved
        exact .suspicious applying
      rename_i listed
      cases moved
      exact .reclaim applying listed
    case isFalse => cases moved
  | settle res =>
    simp only [step] at moved
    split at moved
    case h_1 id left next =>
      obtain ⟨rec, held, rfl⟩ := Option.map_eq_some_iff.1 moved
      exact .settle next held
    case h_2 => cases moved
  | write mount =>
    simp only [step] at moved
    split at moved
    case isTrue =>
      obtain ⟨dir, found, written⟩ := Option.bind_eq_some_iff.1 moved
      obtain ⟨pv, backs, rfl⟩ := Option.map_eq_some_iff.1 written
      exact .write (Option.filter_eq_some_iff.1 found).1 backs
    case isFalse => cases moved
  | restart readable =>
    cases moved
    exact .restart

end Horchestra.Agent.Storage
