import Horchestra.Admission.Chain

/-!
# Admission of metadata that belongs to the control plane

Some metadata is proof: the reference to the set that controls an application is an authority
to delete it, the recorded spec hash says a child is converged, and a finalizer is a veto on
deletion.  Two plugins keep it out of the hands of identified callers.  What a caller sends is
refused or replaced by what is stored; the control plane's own loops, which carry no identity,
pass through.

The second plugin also puts the holds on: an application that has a node waits for that node
to confirm its teardown, and an application set waits for its children.  Once a deletion is
under way the list is left alone.
-/

namespace Horchestra.Admission

open Api Foundations.Text

/-! ## Children of a set -/

/-- Restores one reserved key from the stored map, dropping what the caller sent. -/
def carryOver (sent stored : StringMap) (key : String) : StringMap :=
  match stored[key]? with
  | some value => sent.insert key value
  | none => sent.erase key

/-- The reserved metadata of a child as stored, over what the caller sent. -/
def carryOwnership (sent stored : ObjectMeta) : ObjectMeta :=
  { sent with
    ownerReferences := stored.ownerReferences
    annotations := carryOver sent.annotations stored.annotations annAppsetSpecHash
    labels := reservedChildLabels.foldl (fun labels key => carryOver labels stored.labels key)
      sent.labels }

/-- Refuses reserved metadata on a new application. -/
def checkUnowned (m : ObjectMeta) : Except AdmissionError Unit :=
  match appsetOwnerOf m.ownerReferences with
  | some ref =>
    .error (.forbidden ("metadata.ownerReferences: the controller reference to applicationset " ++
      quote ref.name ++ " is set by the ApplicationSet controller, not by a client"))
  | none =>
    if m.annotations.contains annAppsetSpecHash then
      .error (.forbidden ("metadata.annotations[" ++ quote annAppsetSpecHash ++
        "] is reserved to the ApplicationSet controller"))
    else
      match reservedChildLabels.find? fun key => m.labels.contains key with
      | some key =>
        .error (.forbidden ("metadata.labels[" ++ quote key ++
          "] is reserved to the ApplicationSet controller"))
      | none => .ok ()

def clientWrite {k : Kind} (ctx : Context) (a : Attributes k) : Bool :=
  !(a.operation = .delete || a.isSubresource || ctx.identity.isNone)

def childOwnership : Plugin where
  admitPass
    | .application, ctx, a =>
      let app : Application := a.object
      if !clientWrite ctx a then .ok a.object
      else
        match a.operation, a.oldObject with
        | .create, _ =>
          match checkUnowned app.metadata with
          | .error e => .error e
          | .ok () => .ok a.object
        | _, some stored =>
          .ok { app with metadata := carryOwnership app.metadata (Application.metadata stored) }
        | _, none => .ok a.object
    | _, _, a => .ok a.object
  validate
    | .application, ctx, a =>
      let app : Application := a.object
      if !clientWrite ctx a || a.operation ≠ .update then .ok ()
      else
        match a.oldObject with
        | none => .ok ()
        | some stored =>
          match appsetOwnerOf (Application.metadata stored).ownerReferences with
          | none => .ok ()
          | some ref =>
            if app.spec = Application.spec stored then .ok ()
            else
              .error (.forbidden ("spec: application " ++ quote app.metadata.name ++
                " is a child of applicationset " ++ quote ref.name ++
                " and its spec is owned by that set; edit the set instead"))
    | _, _, _ => .ok ()

/-! ## Finalizers and deletion -/

/-- The hold on an application follows its placement, until a deletion is under way. -/
def holdPlacedWorkload (app : Application) : Application :=
  if app.deleting then app
  else
    let held := app.metadata.finalizers.contains finalizerNodeTeardown
    let placed := app.spec.placement.nodeName ≠ ""
    if placed && !held then
      { app with metadata := { app.metadata with
          finalizers := app.metadata.finalizers ++ [finalizerNodeTeardown] } }
    else if !placed && held then
      { app with metadata := { app.metadata with
          finalizers := app.metadata.finalizers.filter (· ≠ finalizerNodeTeardown) } }
    else app

/-- Every application set is held, until a deletion is under way. -/
def holdSetCascade (set : ApplicationSet) : ApplicationSet :=
  if set.deleting || set.metadata.finalizers.contains finalizerChildTeardown then set
  else
    { set with metadata := { set.metadata with
        finalizers := set.metadata.finalizers ++ [finalizerChildTeardown] } }

/-- The hold of an object of any kind. -/
def hold : {k : Kind} → Obj k → Obj k
  | .application, o => holdPlacedWorkload o
  | .applicationSet, o => holdSetCascade o
  | .persistentVolume, o | .secret, o | .service, o | .ns, o | .node, o | .role, o
  | .roleBinding, o | .clusterRole, o | .clusterRoleBinding, o | .certificateSigningRequest, o
  | .secretStore, o => o

/-- The finalizers of a caller's write are those that are stored. -/
def revertFinalizers {k : Kind} (o : Obj k) (stored : Option (Obj k)) : Obj k :=
  withMeta o { metaOf o with
    finalizers := (stored.map fun old => (metaOf old).finalizers).getD [] }

def finalizerOwnership : Plugin where
  admitPass _ ctx a :=
    if a.operation = .delete || a.isSubresource then .ok a.object
    else if ctx.identity.isSome then .ok (hold (revertFinalizers a.object a.oldObject))
    else .ok (hold a.object)
  validate _ ctx a :=
    if a.operation = .delete || a.isSubresource || ctx.identity.isNone then .ok ()
    else if (metaOf a.object).deletionTimestamp.isNone then .ok ()
    else if a.oldObject.any fun old => (metaOf old).deletionTimestamp.isSome then .ok ()
    else
      .error (.forbidden ("metadata.deletionTimestamp: the control plane stamps this when a " ++
        "deletion is requested — delete the object instead of marking it deleted"))

/-! ## What the holds leave alone -/

def SameButFinalizers {k : Kind} (o o' : Obj k) : Prop :=
  ∃ finalizers, o' = withMeta o { metaOf o with finalizers := finalizers }

theorem sameButFinalizers_self {k : Kind} (o : Obj k) : SameButFinalizers o o :=
  ⟨(metaOf o).finalizers, (withMeta_metaOf o).symm⟩

theorem holdPlacedWorkload_same (app : Application) :
    SameButFinalizers (k := .application) app (holdPlacedWorkload app) := by
  unfold holdPlacedWorkload
  split
  · exact sameButFinalizers_self (k := .application) app
  simp only
  split
  · exact ⟨_, rfl⟩
  split
  · exact ⟨_, rfl⟩
  · exact sameButFinalizers_self (k := .application) app

theorem holdSetCascade_same (set : ApplicationSet) :
    SameButFinalizers (k := .applicationSet) set (holdSetCascade set) := by
  unfold holdSetCascade
  split
  · exact sameButFinalizers_self (k := .applicationSet) set
  · exact ⟨_, rfl⟩

theorem hold_same {k : Kind} (o : Obj k) : SameButFinalizers o (hold o) := by
  cases k with
  | application => exact holdPlacedWorkload_same o
  | applicationSet => exact holdSetCascade_same o
  | _ => exact sameButFinalizers_self o

theorem hold_deleting {app : Application} (deleting : app.deleting = true) :
    hold (k := .application) app = app := by
  simp [hold, holdPlacedWorkload, deleting]

end Horchestra.Admission
