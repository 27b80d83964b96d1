import Horchestra.Agent.Runtime
import Horchestra.Agent.Secrets

/-!
# The volumes of a workload on its node

The storage of a node turns the mounts an application declares into volumes: a file system in memory
passes through, a secret is left to the secrets of the workload, and everything else has to be a
volume that is provisioned.  What the file system of the node answers is a parameter of the storage.
-/

namespace Horchestra.Agent

open Api Foundations Text Checks Paths

/-! ## Joined paths -/

variable {base : String}

theorem joinPath_cons (ne : base ≠ "") (others : List String) :
    joinPath (base :: others) = clean ("/".intercalate (base :: others.filter (· ≠ ""))) := by
  rw [joinPath, List.filter_cons_of_pos (by simpa using ne), List.isEmpty_cons]
  rfl

theorem ne_empty_of_isRooted {path : String} (rooted : isRooted path = true) : path ≠ "" := by
  rintro rfl
  simp [isRooted] at rooted

variable {others : List String}

theorem straight_intercalate (straight : Straight base)
    (noUp : ∀ text ∈ others, ".." ∉ parts text.toList) :
    Straight ("/".intercalate (base :: others)) := by
  constructor
  · have rooted := straight.1
    rw [isRooted, beq_iff_eq] at rooted ⊢
    cases others with
    | nil => simpa using rooted
    | cons second rest =>
      rw [String.intercalate_cons_cons, String.toList_append, String.toList_append,
        List.append_assoc,
        List.head?_append, rooted, Option.some_or]
  rw [parts_intercalate, List.flatMap_cons, List.mem_append, not_or]
  refine ⟨straight.2, fun mem => ?_⟩
  obtain ⟨text, listed, up⟩ := List.mem_flatMap.1 mem
  exact noUp text listed up

theorem straight_joinPath (straight : Straight base)
    (noUp : ∀ text ∈ others, ".." ∉ parts text.toList) : Straight (joinPath (base :: others)) := by
  rw [joinPath_cons (ne_empty_of_isRooted straight.1)]
  exact (straight_intercalate straight fun text listed => noUp text (List.mem_of_mem_filter listed)).clean

/-- What an absent element has none of, the elements that are there have all of. -/
theorem flatMap_present {α : Type} {f : String → List α} (nothing : f "" = [])
    (texts : List String) :
    (texts.filter (· ≠ "")).flatMap f = texts.flatMap f := by
  induction texts with
  | nil => rfl
  | cons text rest ih =>
    rw [List.filter_cons, List.flatMap_cons]
    split
    · rw [List.flatMap_cons, ih]
    rename_i gone
    obtain rfl : text = "" := by simpa using gone
    rw [nothing, List.nil_append, ih]

/-- A joined path has the characters of its elements, but for separators and dots. -/
theorem letters_joinPath (straight : Straight base)
    (noUp : ∀ text ∈ others, ".." ∉ parts text.toList) :
    letters (joinPath (base :: others)).toList =
      letters base.toList ++ others.flatMap fun text => letters text.toList := by
  have hit : ∀ text ∈ others.filter (· ≠ ""), ".." ∉ parts text.toList :=
    fun text listed => noUp text (List.mem_of_mem_filter listed)
  have slash : "/".toList = ['/'] := rfl
  rw [joinPath_cons (ne_empty_of_isRooted straight.1),
    (straight_intercalate straight hit).letters_clean,
    String.toList_intercalate, slash, letters_intercalate, List.flatMap_map, List.flatMap_cons,
    flatMap_present rfl]

/-! ## The storage of a node -/

/-- What becomes of the attempt to make a directory. -/
inductive Mkdir where
  | made | present
  | failed (e : String)

/-- The storage of a node: where it keeps volumes, the groups it may use, and what its file system
answers when a volume is taken over by the agent, when a part of one is made, looked at and opened
to the workload, and when a directory is given to a group. -/
structure Local where
  stateDir : String
  subGID : IDRange
  ensureAgentOwned : String → Except String Unit := fun _ => .ok ()
  mkdir : String → Mkdir := fun _ => .made
  agentOwnedDir : String → Except String Unit := fun _ => .ok ()
  chmod : String → Except String Unit := fun _ => .ok ()
  chgrp : String → Int → Except String Unit := fun _ _ => .ok ()

abbrev Provisioned := Std.ExtTreeMap String PersistentVolume

def Local.pvDir (l : Local) (name : String) : String := joinPath [l.stateDir, "volumes", name]

/-- One part of the way into a volume. -/
def Local.descend (l : Local) (cur part : String) : Except String String :=
  let next := joinPath [cur, part]
  match l.mkdir next with
  | .made => .ok next
  | .failed e => .error ("create subPath: " ++ e)
  | .present => (located "subPath" (l.agentOwnedDir next)).map fun _ => next

/-- The directory a mount of a persistent volume shows: the volume itself or a part of it. -/
def Local.subPathRef (l : Local) (name subPath : String) : Except String String :=
  if subPath = "" then .ok (l.pvDir name)
  else do
    located "subPath" (validRelPath subPath)
    located "subPath" (l.ensureAgentOwned (l.pvDir name))
    let leaf ← (parts subPath.toList).foldlM l.descend (l.pvDir name)
    located "subPath" (l.chmod leaf)
    return leaf

/-- The group the data of a workload belongs to, as the agent addresses it. -/
def Local.volumeGroupOf (l : Local) (app : App) : Int :=
  match app.securityContext.bind (·.runAsGroup) with
  | some group => Node.agentID l.subGID group
  | none => 0

def Local.applyVolumeGroup (l : Local) (path : String) (gid : Int) : Except String Unit :=
  if gid ≤ 0 then .ok () else l.chgrp path gid

def pvID (app : App) (m : VolumeMount) : String := workloadID app.ns (m.pvName app.name)

/-- One mount; a secret is not the storage's to resolve. -/
def Local.resolveMount (l : Local) (app : App) (pvs : Provisioned) (m : VolumeMount) :
    Except String (Option Volume) :=
  if m.isTmpfs then .ok (some { kind := .tmpfs, mountPath := m.mountPath })
  else if m.isSecret then .ok none
  else
    if !pvs.contains (pvID app m) then
      .error ("volume " ++ quote m.mountPath ++ ": PersistentVolume " ++
        quote (m.pvName app.name) ++
        " is not provisioned on this node")
    else do
      let ref ← located ("volume " ++ quote m.mountPath) (l.subPathRef (pvID app m) m.subPath)
      located ("volume " ++ quote m.mountPath) (l.applyVolumeGroup ref (l.volumeGroupOf app))
      return some { kind := .hostPath, ref, mountPath := m.mountPath, readOnly := m.readOnly }

def Local.resolve (l : Local) (app : App) (pvs : Provisioned) : Except String (List Volume) :=
  (app.volumes.mapM (l.resolveMount app pvs)).map List.reduceOption

section

variable {l : Local}

/-- The directory a mount shows. -/
def Local.backing (l : Local) (id subPath : String) : String :=
  if subPath = "" then l.pvDir id
  else (parts subPath.toList).foldl (fun cur part => joinPath [cur, part]) (l.pvDir id)

def IsPart (name : String) : Prop := '/' ∉ name.toList ∧ name ≠ ".."

theorem IsPart.noUp {name : String} (part : IsPart name) : ".." ∉ parts name.toList := by
  rw [parts, List.splitOn_eq_singleton part.1]
  simpa using Ne.symm part.2

theorem straight_pvDir (straight : Straight l.stateDir) {id : String} (part : IsPart id) :
    Straight (l.pvDir id) ∧
      letters (l.pvDir id).toList =
        letters l.stateDir.toList ++ letters "volumes".toList ++ letters id.toList := by
  have noUp : ∀ text ∈ ["volumes", id], ".." ∉ parts text.toList := by
    simp only [List.forall_mem_cons, List.not_mem_nil, false_implies, implies_true, and_true]
    exact ⟨by decide, part.noUp⟩
  refine ⟨straight_joinPath straight noUp, ?_⟩
  rw [Local.pvDir, letters_joinPath straight noUp, List.flatMap_cons, List.flatMap_cons,
    List.flatMap_nil,
    List.append_nil, List.append_assoc]

theorem noUp_of_validRelPath {path : String} (valid : validRelPath path = .ok ()) :
    ".." ∉ parts path.toList := by
  simp only [validRelPath, cleanContainerPath, andThen_eq_ok_iff, require_eq_ok_iff] at valid
  simpa using valid.2.2.2.2

end

end Horchestra.Agent
