import Horchestra.Admission.Chain
import Horchestra.Foundations.Search

/-!
# Host id allocation

The plugin that gives every namespace a block of host ids and every application an id out
of its namespace's block.  A block is the lowest one no other namespace holds; an id is
the lowest one in the block no other application of the namespace holds.  What is already
set is left alone, and an id an author chose is accepted only inside the block.

The results say what an allocation hands out:

* `assignBlock_spec`: a namespace without a block leaves with one that starts a whole
  number of strides above the base and that no other stored namespace starts;
* `assignWorkloadID_spec`: an application without an id leaves with the lowest free id of
  its namespace's block.
-/

namespace Horchestra.Admission.UidAllocation

open Api Storage Foundations.Text Foundations.Search

/-! ## Blocks -/

/-- A namespace's block; a namespace that is absent or carries none yields the zero
range. -/
def blockOf (db : DB) (name : String) : Except AdmissionError IDRange :=
  match (db.list .ns).find? fun ns => ns.metadata.name == name with
  | none => .ok ⟨0, 0⟩
  | some ns =>
    let raw := ns.metadata.annValue annUIDRange
    if raw = "" then .ok ⟨0, 0⟩
    else
      match parseIDRange raw with
      | .ok range => .ok range
      | .error e => .error (.forbidden ("namespace " ++ quote name ++ ": " ++ e))

/-- Whether some namespace other than `name` holds a block that starts at `low`. -/
def blockTaken (db : DB) (name : String) (low : Int) : Bool :=
  (db.list .ns).any fun other =>
    other.metadata.name ≠ name &&
      match parseIDRange (other.metadata.annValue annUIDRange) with
      | .ok range => range.min == low
      | .error _ => false

/-- How many whole blocks lie between the base and the last usable id. -/
def blockCount : Nat := ((maxRunAsID + 1 - workloadUIDBase) / workloadUIDBlock).toNat

/-- Reserves a block for a namespace that has none. -/
def assignBlock (db : DB) (ns : Namespace) : Except AdmissionError Namespace :=
  let current := ns.metadata.annValue annUIDRange
  if current ≠ "" then
    match parseIDRange current with
    | .ok _ => .ok ns
    | .error e => .error (.forbidden (annUIDRange ++ ": " ++ e))
  else
    match firstFree (blockTaken db ns.metadata.name) workloadUIDBlock blockCount
        workloadUIDBase with
    | some low =>
      let block : IDRange := ⟨low, workloadUIDBlock⟩
      .ok { ns with metadata := { ns.metadata with
        annotations := ns.metadata.annotations.insert annUIDRange block.toString } }
    | none =>
      .error (.forbidden ("no free uid block left below 4294967294 for namespace " ++
        quote ns.metadata.name))

/-! ## Ids -/

def runAsUser (app : Application) : Option Int := app.spec.securityContext.bind (·.runAsUser)

/-- Whether another application of the namespace runs as `id`. -/
def idTaken (db : DB) (app : Application) (id : Int) : Bool :=
  (db.list .application).any fun other =>
    other.metadata.ns == app.metadata.ns && other.metadata.name ≠ app.metadata.name &&
      runAsUser other == some id

def withSecurityContext (app : Application) (sc : SecurityContext) : Application :=
  { app with spec := { app.spec with securityContext := some sc } }

/-- How many ids a block's own loop visits: its upper end is a 64-bit sum. -/
def visited (block : IDRange) : Nat := (wrap64 (block.min + block.size) - block.min).toNat

/-- Stamps an application's ids: the namespace's group, and the lowest free user id. -/
def assignWorkloadID (db : DB) (app : Application) : Except AdmissionError Application :=
  match blockOf db app.metadata.ns with
  | .error e => .error e
  | .ok block =>
    if block.isZero then .ok app
    else
      let sc := app.spec.securityContext.getD {}
      let sc := { sc with runAsGroup := sc.runAsGroup.or (some block.min) }
      match sc.runAsUser with
      | some _ => .ok (withSecurityContext app sc)
      | none =>
        match firstFree (idTaken db app) 1 (visited block) block.min with
        | some id => .ok (withSecurityContext app { sc with runAsUser := some id })
        | none =>
          .error (.forbidden ("namespace " ++ quote app.metadata.ns ++
            " has no free id left in its block " ++ block.toString))

/-! ## What is handed out -/

def nthBlock (i : Nat) : IDRange := ⟨workloadUIDBase + i * workloadUIDBlock, workloadUIDBlock⟩

theorem nthBlock_usable {i : Nat} (bound : i < blockCount) : (nthBlock i).Usable := by
  have count : (i : Int) < (maxRunAsID + 1 - workloadUIDBase) / workloadUIDBlock := by
    unfold blockCount at bound
    omega
  unfold maxRunAsID workloadUIDBase workloadUIDBlock at count
  constructor
  · simp [nthBlock, workloadUIDBlock]
  · simp only [nthBlock, minRunAsID, workloadUIDBase, workloadUIDBlock]
    omega
  · simp only [nthBlock, maxRunAsID, workloadUIDBase, workloadUIDBlock]
    omega

theorem assignBlock_spec {db : DB} {ns ns' : Namespace}
    (unset : ns.metadata.annValue annUIDRange = "")
    (done : assignBlock db ns = .ok ns') :
    ∃ i < blockCount, parseIDRange (ns'.metadata.annValue annUIDRange) = .ok (nthBlock i) ∧
      blockTaken db ns.metadata.name (nthBlock i).min = false := by
  simp only [assignBlock, unset, ne_eq, not_true_eq_false, if_false] at done
  split at done
  next low found =>
    obtain ⟨i, bound, rfl, first⟩ := firstFree_eq_some_iff.1 found
    cases done
    refine ⟨i, bound, ?_, first.free⟩
    have recorded : (ns.metadata.annotations.insert annUIDRange
        (nthBlock i).toString).getD annUIDRange "" = (nthBlock i).toString := by
      simp
    simp only [ObjectMeta.annValue]
    exact (congrArg parseIDRange recorded).trans (parseIDRange_toString (nthBlock_usable bound))
  · cases done

/-- The block just handed out is no other stored namespace's. -/
theorem blockTaken_of_mem {db : DB} {name : String} {other : Namespace} {range : IDRange}
    (mem : other ∈ db.list .ns) (ne : other.metadata.name ≠ name)
    (holds : parseIDRange (other.metadata.annValue annUIDRange) = .ok range) :
    blockTaken db name range.min = true := by
  refine List.any_eq_true.2 ⟨other, mem, ?_⟩
  simp [ne, holds]

theorem assignWorkloadID_spec {db : DB} {app app' : Application} {block : IDRange}
    (held : blockOf db app.metadata.ns = .ok block) (allocated : block.isZero = false)
    (unset : runAsUser app = none) (done : assignWorkloadID db app = .ok app') :
    ∃ j < visited block,
      runAsUser app' = some (block.min + j) ∧ IsFirstFree (idTaken db app) 1 block.min j := by
  have noUser : (app.spec.securityContext.getD {}).runAsUser = none := by
    unfold runAsUser at unset
    cases context : app.spec.securityContext with
    | none => rfl
    | some sc => simpa [context] using unset
  simp only [assignWorkloadID, held, allocated, Bool.false_eq_true, if_false, noUser] at done
  split at done
  next id found =>
    obtain ⟨j, bound, rfl, first⟩ := firstFree_eq_some_iff.1 found
    cases done
    exact ⟨j, bound, by simp [runAsUser, withSecurityContext], first⟩
  · cases done

/-! ## The plugin -/

def admitPass : (k : Kind) → Context → Attributes k → Except AdmissionError (Obj k)
  | .ns, ctx, a =>
    if a.operation = .delete || a.isSubresource then .ok a.object
    else assignBlock ctx.db a.object
  | .application, ctx, a =>
    if a.operation = .delete || a.isSubresource then .ok a.object
    else assignWorkloadID ctx.db a.object
  | _, _, a => .ok a.object

/-- One id of an application against its namespace's block. -/
def checkInside (what ns : String) (block : IDRange) : Option Int → Except AdmissionError Unit
  | none => .ok ()
  | some id =>
    if block.contains id then .ok ()
    else .error (.forbidden (what ++ " " ++ String.ofList (itoa id) ++ " is outside namespace " ++
      quote ns ++ "'s id block " ++ block.toString ++
      " — a workload may only run as an id reserved for its own namespace, " ++
      "because that id is what separates its data from every other tenant's"))

/-- Keeps a workload inside its namespace's block. -/
def checkBlock (db : DB) (app : Application) : Except AdmissionError Unit :=
  match blockOf db app.metadata.ns with
  | .error e => .error e
  | .ok block =>
    if block.isZero then .ok ()
    else
      match app.spec.securityContext with
      | none => .ok ()
      | some sc => do
        checkInside "spec.securityContext.runAsUser" app.metadata.ns block sc.runAsUser
        checkInside "spec.securityContext.runAsGroup" app.metadata.ns block sc.runAsGroup

def validate : (k : Kind) → Context → Attributes k → Except AdmissionError Unit
  | .application, ctx, a =>
    if a.operation = .delete || a.isSubresource then .ok () else checkBlock ctx.db a.object
  | _, _, _ => .ok ()

def plugin : Plugin := ⟨admitPass, validate⟩

end Horchestra.Admission.UidAllocation
