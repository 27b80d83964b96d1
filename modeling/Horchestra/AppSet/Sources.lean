import Horchestra.AppSet.Uses

/-!
# Where the calls of a pass come from

A pass over a set writes objects of three sources: children and services rendered from the set,
objects it has read and changes in the metadata or the ports only, and the set itself with fewer
finalizers.  `Sourced` lists them, and `sourced_of_mem_reconcileSet` says that there is no other.
-/

namespace Horchestra.AppSet

open Api Requests Foundations.NameMap

/-- Where the object of a call comes from: rendered from the set, read from a store, or, for the
set itself, the set with other finalizers. -/
inductive Sourced (digests : Digests) (answers : Answers) (set : ApplicationSet)
    (apps : List Application) : Call → Prop where
  | createApplication {want : Application} (live : set.deleting = false)
      (child : ChildOf digests set want) :
      Sourced digests answers set apps (.createApplication want)
  | mergeApplication {cur want : Application} (live : set.deleting = false) (listed : cur ∈ apps)
      (owned : ownedBySet cur set = true) (child : ChildOf digests set want) :
      Sourced digests answers set apps (.updateApplication (mergeManaged cur want))
  | releaseApplication {child : Application} (deleting : set.deleting = true) (listed : child ∈ apps) :
      Sourced digests answers set apps
        (.updateApplication { child with metadata := releaseAppsetMeta child.metadata })
  | deleteApplication (ns name : String) :
      Sourced digests answers set apps (.deleteApplication ns name)
  | createService {svc : Service} (rendered : svc ∈ expandServices digests set) :
      Sourced digests answers set apps (.createService svc)
  | updateService {all : List Service} {cur svc : Service} (read : answers.services = some all)
      (listed : cur ∈ all)
      (same : svc.metadata = cur.metadata ∨ svc.metadata = releaseAppsetMeta cur.metadata) :
      Sourced digests answers set apps (.updateService svc)
  | deleteService (ns name : String) : Sourced digests answers set apps (.deleteService ns name)
  | updateSetStatus (reported : ApplicationSet) :
      Sourced digests answers set apps (.updateSetStatus reported)
  | updateSet (finalizers : List String) : Sourced digests answers set apps
      (.updateSet { set with metadata := { set.metadata with finalizers := finalizers } })
  | deleteSet (ns name : String) : Sourced digests answers set apps (.deleteSet ns name)

section

variable {digests : Digests} {answers : Answers} {set : ApplicationSet} {apps : List Application}
  {call : Call}

theorem mem_ownedChildren {name : String} {c : Application}
    (hit : (ownedChildren set apps)[name]? = some c) :
    c ∈ apps ∧ ownedBySet c set = true := by
  obtain ⟨e, mem, -, rfl⟩ := exists_of_indexBy hit
  exact List.mem_filter.1 mem

theorem sourced_writeStatus {status : ApplicationSetStatus} (issued : call ∈ writeStatus set status) :
    Sourced digests answers set apps call := by
  unfold writeStatus at issued
  split at issued
  · cases issued
  obtain rfl := List.mem_singleton.1 issued
  exact .updateSetStatus _

theorem sourced_release (deleting : set.deleting = true)
    (issued : call ∈ (release answers (ownedChildren set apps)).1) :
    Sourced digests answers set apps call := by
  obtain ⟨⟨name, c⟩, mem, rfl⟩ := List.mem_map.1 issued
  have hit := Std.ExtTreeMap.mem_toList_iff_getElem?_eq_some.1 mem
  exact .releaseApplication deleting (mem_ownedChildren hit).1

theorem sourced_releaseServices (issued : call ∈ (releaseServices answers set).1) :
    Sourced digests answers set apps call := by
  unfold releaseServices at issued
  split at issued
  · cases issued
  rename_i all read
  obtain ⟨svc, mem, rfl⟩ := List.mem_map.1 issued
  exact .updateService read (List.mem_filter.1 mem).1 (.inr rfl)

theorem sourced_releaseHold (issued : call ∈ releaseHold answers set) :
    Sourced digests answers set apps call := by
  have erases : ∀ {kept : List String},
      call ∈ (if kept.isEmpty then [Call.deleteSet set.metadata.ns set.metadata.name] else []) →
        Sourced digests answers set apps call := by
    intro kept mem
    split at mem
    · obtain rfl := List.mem_singleton.1 mem
      exact .deleteSet _ _
    · cases mem
  simp only [releaseHold] at issued
  split at issued
  · split at issued
    · rcases List.mem_cons.1 issued with rfl | erase
      · exact .updateSet _
      · exact erases erase
    · obtain rfl := List.mem_singleton.1 issued
      exact .updateSet _
  · exact erases issued

theorem sourced_finishCascade (issued : call ∈ finishCascade answers set) :
    Sourced digests answers set apps call := by
  simp only [finishCascade] at issued
  split at issued
  · exact sourced_releaseHold issued
  split at issued
  · cases issued
  rename_i all read
  have deleted : ∀ {owned : List Service}, call ∈ (untilRefused answers (owned.map fun svc =>
      .deleteService svc.metadata.ns svc.metadata.name)).1 →
        Sourced digests answers set apps call := by
    intro owned mem
    obtain ⟨svc, -, rfl⟩ := List.mem_map.1 (mem_of_mem_untilRefused mem)
    exact .deleteService _ _
  split at issued
  · rcases List.mem_append.1 issued with delete | hold
    · exact deleted delete
    · exact sourced_releaseHold hold
  · exact deleted issued

theorem sourced_cascade (deleting : set.deleting = true)
    (issued : call ∈ cascade answers set (ownedChildren set apps)) :
    Sourced digests answers set apps call := by
  have held : call ∈ holdTerminating set (ownedChildren set apps) →
      Sourced digests answers set apps call := sourced_writeStatus
  have deletes : ∀ {kids : List (String × Application)}, call ∈ (kids.filterMap
      fun e => if e.2.deleting then none
        else some (Call.deleteApplication e.2.metadata.ns e.2.metadata.name)) →
        Sourced digests answers set apps call := by
    intro kids mem
    obtain ⟨e, -, isCall⟩ := List.mem_filterMap.1 mem
    split at isCall
    · cases isCall
    cases isCall
    exact .deleteApplication _ _
  simp only [cascade] at issued
  split at issued
  · split at issued
    · rcases List.mem_append.1 issued with services | hold
      · exact sourced_releaseServices services
      · exact held hold
    · split at issued
      all_goals
        rcases List.mem_append.1 issued with writes | rest
        · rcases List.mem_append.1 writes with services | kids
          · exact sourced_releaseServices services
          · exact sourced_release deleting kids
        · first | exact held rest | exact sourced_finishCascade rest
  split at issued
  all_goals
    rcases List.mem_append.1 issued with delete | rest
    · exact deletes delete
    · first | exact held rest | exact sourced_finishCascade rest

theorem sourced_convergeServices (issued : call ∈ convergeServices digests answers set apps) :
    Sourced digests answers set apps call := by
  rcases mem_convergeServices issued with
    ⟨svc, made, rfl⟩ | ⟨all, cur, svc, read, listed, eq, rfl⟩ | ⟨ns, name, rfl⟩
  · exact .createService made
  · exact .updateService read listed (.inl eq)
  · exact .deleteService ns name

theorem sourced_childWrites {nodes : List Node} {kids : List Application}
    (live : set.deleting = false) (done : expand digests set nodes = .ok kids)
    (issued : call ∈ childWrites answers set nodes apps kids) :
    Sourced digests answers set apps call := by
  obtain ⟨name, want, hit, due⟩ := childWrites_due issued
  have c := childOf_of_wanted done hit
  cases due with
  | create gone => exact .createApplication live c
  | update stored differs =>
    obtain ⟨listed, owned⟩ := mem_ownedChildren stored
    exact .mergeApplication live listed owned c

/-- **Every call of a pass over a set has a source.** -/
theorem sourced_of_mem_reconcileSet {nodes : List Node}
    (issued : call ∈ reconcileSet digests answers set nodes apps) :
    Sourced digests answers set apps call := by
  unfold reconcileSet at issued
  split at issued
  next deleting => exact sourced_cascade deleting issued
  rename_i live
  simp only [Bool.not_eq_true] at live
  split at issued
  · exact sourced_writeStatus issued
  rename_i kids done
  simp only [converge, List.mem_append] at issued
  rcases issued with ((services | writes) | prunes) | status
  · exact sourced_convergeServices services
  · exact sourced_childWrites live done writes
  · obtain ⟨-, name, c, -, -, rfl⟩ := mem_prune_iff.1 prunes
    exact .deleteApplication _ _
  · exact sourced_writeStatus status

end

end Horchestra.AppSet
