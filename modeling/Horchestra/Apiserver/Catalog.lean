import Horchestra.Storage.History

/-!
# The index of the service catalog

A client of the catalog waits for an index that moves: the highest version among the services,
applications and nodes that are stored.  Each kind has a counter of its own, a status write keeps
the version, and a deletion takes one away, so the index follows the catalog only where every write
overtakes it or leaves the catalog alone (`index_tracks_catalog`); `deletion_lowers_index` is a run
in which it falls.
-/

namespace Horchestra.Apiserver

open Api Storage Foundations Text Transitions

def catalogKinds : List Kind := [.service, .application, .node]

/-- The index with one more version seen; a version that is no number is passed over. -/
def newest (idx : Int) (resourceVersion : String) : Int :=
  match parseInt64 resourceVersion.toList with
  | .ok rv => if idx < rv then rv else idx
  | .error _ => idx

def catalogVersions (db : DB) : List String :=
  catalogKinds.flatMap fun k => (db.list k).map fun o => (metaOf o).resourceVersion

def catalogIndex (db : DB) : Int := (catalogVersions db).foldl newest 0

theorem le_foldl_newest (versions : List String) (idx : Int) :
    idx ≤ versions.foldl newest idx ∧ ∀ ver ∈ versions, ∀ rv,
      parseInt64 ver.toList = .ok rv → rv ≤ versions.foldl newest idx := by
  induction versions generalizing idx with
  | nil => simp
  | cons first rest ih =>
    obtain ⟨grows, above⟩ := ih (newest idx first)
    have step : idx ≤ newest idx first ∧
        ∀ rv, parseInt64 first.toList = .ok rv → rv ≤ newest idx first := by
      unfold newest
      grind
    refine ⟨step.1.trans grows, fun ver mem rv read => ?_⟩
    rcases List.mem_cons.1 mem with rfl | later
    · exact (step.2 rv read).trans grows
    · exact above ver later rv read

/-- A write that keeps the version of the record it finds keeps the index. -/
theorem index_of_version_kept {db db' : DB} {k : Kind} {key : String} {stored out : Obj k}
    (filed : DB.Filed db db' k key (some out)) (hit : db.find k key = some stored)
    (kept : (metaOf out).resourceVersion = (metaOf stored).resourceVersion) :
    catalogIndex db' = catalogIndex db := by
  refine congrArg (List.foldl newest 0) (List.flatMap_congr fun k' _ => ?_)
  by_cases same : k' = k
  · subst same
    have versions : (db'.heads k').map (fun _ o => (metaOf o).resourceVersion) =
        (db.heads k').map (fun _ o => (metaOf o).resourceVersion) := by
      refine Std.ExtTreeMap.ext_getElem? fun key' => ?_
      rw [Std.ExtTreeMap.getElem?_map, Std.ExtTreeMap.getElem?_map]
      change (db'.find k' key').map _ = (db.find k' key').map _
      by_cases eq : key' = key
      · rw [eq, filed.here, hit, Option.map_some, Option.map_some, kept]
      · rw [filed.elsewhere _ eq]
    have listed := congrArg (fun m => m.toList.map Prod.snd) versions
    simpa [DB.list, Std.ExtTreeMap.toList_map, Function.comp_def] using listed
  · rw [filed.list_otherKinds same]

variable {α : Type} (entries : List Service → List Application → List Node → α)

/-- What is made of the three listings. -/
def catalogOf (db : DB) : α := entries (db.list .service) (db.list .application) (db.list .node)

/-- The index moves up, or it stays and the catalog does. -/
def Tracks (db db' : DB) : Prop :=
  (catalogOf entries db' = catalogOf entries db ∧ catalogIndex db' = catalogIndex db) ∨
    catalogIndex db < catalogIndex db'

/-- The version a core write of the kind gets is above the index. -/
def overtakes (s : Store) (k : Kind) : Bool :=
  match parseInt64 (DB.formatVersion (s.db.versions k + 1)).toList with
  | .ok rv => catalogIndex s.db < rv
  | .error _ => false

/-- An operation on a kind of the catalog is a core write with a version above the index, or a
status write that leaves the catalog as it is. -/
def movesIndex [DecidableEq α] (s : Store) (operation : Operation) : Bool :=
  let k := (operation.target s).1
  !catalogKinds.contains k ||
    match operation with
    | .updateStatus _ _ => (s.step operation).all fun s' =>
      catalogOf entries s'.db = catalogOf entries s.db
    | .create _ _ _ => overtakes s k
    | _ => operation.replaces && overtakes s k

variable {entries} {s s' : Store} {operation : Operation}

theorem Tracks.trans {db db' db'' : DB} (first : Tracks entries db db')
    (second : Tracks entries db' db'') : Tracks entries db db'' := by
  rcases first, second with ⟨⟨same, still⟩ | below, ⟨same', still'⟩ | below'⟩
  · exact .inl ⟨same'.trans same, still'.trans still⟩
  · exact .inr (still ▸ below')
  · exact .inr (still' ▸ below)
  · exact .inr (below.trans below')

theorem tracks_of_outside {db db' : DB} {k : Kind} {key : String} {out : Option (Obj k)}
    (write : DB.Write db db' k key out) (outside : k ∉ catalogKinds) : Tracks entries db db' := by
  have same : ∀ k' ∈ catalogKinds, db'.list k' = db.list k' :=
    fun _ mem => write.filed.list_otherKinds fun eq => outside (eq ▸ mem)
  refine .inl ⟨?_, ?_⟩
  · rw [catalogOf, same .service (by decide), same .application (by decide), same .node (by decide)]
    rfl
  · exact congrArg (List.foldl newest 0) (List.flatMap_congr fun k' mem => by rw [same k' mem])

theorem tracks_of_core_write {db' : DB} {k : Kind} {key : String} {out : Obj k}
    (write : DB.Write s.db db' k key (some out))
    (ver : (metaOf out).resourceVersion = DB.formatVersion (s.db.versions k + 1))
    (may : k ∉ catalogKinds ∨ overtakes s k = true) : Tracks entries s.db db' := by
  by_cases outside : k ∉ catalogKinds
  · exact tracks_of_outside write outside
  have above := may.resolve_left outside
  rw [overtakes] at above
  split at above
  next rv read =>
    refine .inr ((of_decide_eq_true above).trans_le ((le_foldl_newest _ 0).2 _ ?_ rv read))
    rw [← ver]
    exact List.mem_flatMap.2 ⟨k, not_not.1 outside,
      List.mem_map.2 ⟨out, DB.mem_list.2 ⟨key, write.filed.here⟩, rfl⟩⟩
  · cases above

variable [DecidableEq α]

theorem tracks_of_change (change : Change s operation s') (happened : s.step operation = some s')
    (may : movesIndex entries s operation = true) : Tracks entries s.db s'.db := by
  cases change with
  | created target write gone advanced ver gen =>
    exact tracks_of_core_write write ver (by simpa [movesIndex, Operation.target] using may)
  | replaced replaces target write hit advanced ver =>
    refine tracks_of_core_write write ver ?_
    cases operation with
    | update _ _ | rollback _ _ _ =>
      simp only [movesIndex, target, replaces, Bool.true_and, Bool.or_eq_true] at may
      exact may.imp_left (by simp)
    | _ => cases replaces
  | status write hit =>
    rcases Bool.or_eq_true_iff.1 may with outside | kept
    · exact tracks_of_outside write (by simpa [Operation.target] using outside)
    rw [happened] at kept
    exact .inl ⟨of_decide_eq_true kept, index_of_version_kept write.filed hit (by simp)⟩
  | erased write hit =>
    exact tracks_of_outside write
      (by simpa [movesIndex, Operation.target, Operation.replaces] using may)

theorem index_tracks_catalog (reached : Reachable Store.step anyOperation {} s)
    (later : Reachable Store.step (movesIndex entries) s s') :
    catalogIndex s.db ≤ catalogIndex s'.db ∧
      (entries (s'.db.list .service) (s'.db.list .application) (s'.db.list .node) ≠
          entries (s.db.list .service) (s.db.list .application) (s.db.list .node) →
        catalogIndex s.db < catalogIndex s'.db) := by
  have tracked : Represented s' ∧ Tracks entries s.db s'.db := by
    refine later.invariant (fun t => Represented t ∧ Tracks entries s.db t.db)
      ⟨represented_of_run reached, .inl ⟨rfl, rfl⟩⟩ ?_
    rintro t operation t' ⟨represented, before⟩ permitted happened
    have change := change_of_perform represented (perform_of_step happened)
    exact ⟨represented.of_change change, before.trans (tracks_of_change change happened permitted)⟩
  rcases tracked.2 with ⟨same, still⟩ | below
  · exact ⟨still.ge, fun differs => absurd same differs⟩
  · exact ⟨below.le, fun _ => below⟩

-- a node reports, which is no part of a catalog of names, and a service is created
theorem index_tracks_catalog_two : ∃ s s', Reachable Store.step anyOperation {} s ∧
    Reachable Store.step (movesIndex fun services _ _ => services.map (·.metadata.name)) s s' ∧
    s'.db.list .service ≠ [] ∧ catalogIndex s.db < catalogIndex s'.db := by
  obtain ⟨s, reached, one, ahead⟩ : ∃ s, Reachable Store.step anyOperation {} s ∧
      (s.db.list .service).map (·.metadata.name) = ["web"] ∧
      (run Store.step (movesIndex fun services _ _ => services.map (·.metadata.name)) s
        [.updateStatus .node { metadata := { name := "n1" }, status := { ready := true } },
          .create .service 0 (serviceNamed "api" 80 "")]).any
          (fun s' => (s'.db.list .service).map (·.metadata.name) = ["api", "web"]) = true :=
    exists_of_run [.create .service 0 (serviceNamed "web" 80 ""),
      .create .node 0 { metadata := { name := "n1" } }] (by decide +kernel)
  obtain ⟨s', later, two⟩ := exists_of_run _ ahead
  refine ⟨s, s', reached, later, ?_, (index_tracks_catalog reached later).2 ?_⟩
  · intro empty
    simp [empty] at two
  · rw [two, one]
    decide

/-- **A deletion lowers the index.**  The service with the highest version goes. -/
theorem deletion_lowers_index : ∃ s s', Reachable Store.step anyOperation {} s ∧
    Reachable Store.step anyOperation s s' ∧ catalogIndex s.db = 2 ∧ catalogIndex s'.db = 1 := by
  obtain ⟨s, ran, two, ahead⟩ : ∃ s, Reachable Store.step anyOperation {} s ∧
      catalogIndex s.db = 2 ∧ (run Store.step anyOperation s [.delete .service "team" "api"]).any
        (fun s' => catalogIndex s'.db = 1) = true :=
    exists_of_run [.create .service 0 (serviceNamed "web" 80 ""),
      .create .service 0 (serviceNamed "api" 80 "")] (by decide +kernel)
  obtain ⟨s', later, one⟩ := exists_of_run _ ahead
  exact ⟨s, s', ran, later, two, one⟩

end Horchestra.Apiserver
