import Horchestra.Foundations.NameMap
import Horchestra.Foundations.Transitions

/-!
# The routed addresses of workloads

Every workload that is not on its host's network is told an address out of one range of the cluster.
The control plane reads which addresses are taken from what nodes have reported, and keeps what it
has chosen and no node has reported yet in memory alone.  The desired states of several nodes are
built beside each other: a build lists the applications once, asks for one address after the other,
and is then sent.

`addresses_are_apart`: no address is in force for two applications, in every run in which the
control plane restarts only after every address it told was reported, a workload that goes down
keeps an address chosen since the last restart, and a report is about the object that is stored.
`restart_tells_address_twice` is a run with a restart too early.
-/

namespace Horchestra.Nodeserver.Addresses

open Std Function Foundations NameMap Transitions

/-! ## The control plane -/

section

variable {Address : Type} [DecidableEq Address]

/-- An application as far as addresses go. -/
structure App (Address : Type) where
  uid : Nat
  hostNetwork : Bool
  nodeName : String := ""
  finished : Bool := false
  deleting : Bool := false
  address : Option Address := none

structure WorkloadNetwork (Address : Type) where
  workload : String
  uid : Nat
  address : Address
  deriving DecidableEq

/-- A workload a build has yet to give an address, with the one it has reported. -/
structure RoutedApp (Address : Type) where
  workload : String
  uid : Nat
  reported : Option Address

/-- A desired state in the making: the addresses the fleet reported when it began, and the workloads
without an address yet, in the order of their identities. -/
structure Build (Address : Type) where
  node : String
  reported : List Address
  todo : List (RoutedApp Address)
  networks : List (WorkloadNetwork Address) := []

structure Controller (Address : Type) where
  apps : ExtTreeMap String (App Address) := ∅
  created : Nat := 0
  addrChoice : ExtTreeMap String Address := ∅
  builds : Nat → Option (Build Address) := fun _ => none
  sent : ExtTreeMap String (List (WorkloadNetwork Address)) := ∅

/-- The address a workload is told and the choices after it: the one reported, else the one chosen
before, else the first of the range that nothing holds. -/
def workloadAddress (range : List Address) (choice : ExtTreeMap String Address)
    (inUse : List Address) (app : RoutedApp Address) :
    Option (Address × ExtTreeMap String Address) :=
  match app.reported, choice[app.workload]? with
  | some reported, _ => some (reported, choice)
  | none, some chosen => some (chosen, choice)
  | none, none =>
    let taken := inUse ++ choice.toList.map Prod.snd
    (range.find? fun host => !taken.contains host).map fun host =>
      (host, choice.insert app.workload host)

/-- What a build for a node reads of the applications. -/
def listApps (apps : ExtTreeMap String (App Address)) (node : String) : Build Address where
  node
  reported := apps.toList.filterMap fun entry => entry.2.address
  todo := (apps.toList.filter fun entry =>
    entry.2.nodeName == node && !(entry.2.finished && !entry.2.deleting) && !entry.2.hostNetwork).map
      fun entry => ⟨entry.1, entry.2.uid, entry.2.address⟩

inductive Event (Address : Type) where
  | create (id : String) (hostNetwork : Bool)
  | place (id node : String)
  | finish (id : String)
  | mark (id : String)
  | remove (id : String)
  | list (build : Nat) (node : String)
  | choose (build : Nat)
  | push (build : Nat)
  | abandon (build : Nat)
  | report (node : String) (network : WorkloadNetwork Address) (up : Bool)
  | restart

/-- An application changes and keeps its identity and its address. -/
def Controller.edit (s : Controller Address) (id : String) (change : App Address → App Address) :
    Option (Controller Address) :=
  s.apps[id]?.map fun app =>
    { s with apps := s.apps.insert id { change app with uid := app.uid, address := app.address } }

/-- A node reports the address it was last told, or none while the workload is down.  A report about
an application of another node, or one that is gone, changes nothing. -/
def Controller.applyAppStatus (s : Controller Address) (node : String)
    (network : WorkloadNetwork Address) (up : Bool) : Controller Address :=
  match s.apps[network.workload]? with
  | none => s
  | some app =>
    if app.nodeName = node then
      let app := { app with address := if up then some network.address else none }
      { s with apps := s.apps.insert network.workload app }
    else s

def Controller.step (range : List Address) (s : Controller Address) :
    Event Address → Option (Controller Address)
  | .create id hostNetwork =>
    if s.apps[id]? = none then
      some { s with
        apps := s.apps.insert id { uid := s.created, hostNetwork }
        created := s.created + 1 }
    else none
  | .place id node => s.edit id fun app => { app with nodeName := node }
  | .finish id => s.edit id fun app => { app with finished := true }
  | .mark id => s.edit id fun app => { app with deleting := true }
  | .remove id => some { s with apps := s.apps.erase id }
  | .list build node =>
    if (s.builds build).isNone then
      some { s with builds := update s.builds build (some (listApps s.apps node)) }
    else none
  | .choose build =>
    match s.builds build with
    | none => none
    | some b =>
      match b.todo with
      | [] => none
      | app :: rest =>
        match workloadAddress range s.addrChoice b.reported app with
        -- the range is exhausted: the workload is passed over
        | none => some { s with
            builds := update s.builds build (some { b with todo := rest }) }
        | some (address, choice) => some { s with
            addrChoice := choice
            builds := update s.builds build (some { b with
              todo := rest
              networks := b.networks ++ [⟨app.workload, app.uid, address⟩] }) }
  | .push build =>
    match s.builds build with
    | none => none
    | some b =>
      if b.todo.isEmpty then
        some { s with
          builds := update s.builds build none
          sent := s.sent.insert b.node b.networks }
      else none
  | .abandon build => some { s with builds := update s.builds build none }
  | .report node network up =>
    if (s.sent[node]?.getD []).contains network then some (s.applyAppStatus node network up)
    else none
  -- the memory of the process is gone, what nodes were sent is not
  | .restart => some { s with addrChoice := ∅, builds := fun _ => none }

/-! ## Runs that lose no address -/

/-- The application a node was told about is still the one stored. -/
def Controller.current (s : Controller Address) (network : WorkloadNetwork Address) : Bool :=
  s.apps[network.workload]?.any fun app => app.uid == network.uid

/-- A restart finds every address in force reported; a report is about the application stored, or
about the address chosen for its name; a workload goes down only with an address that is kept. -/
def Controller.safe (s : Controller Address) : Event Address → Bool
  | .restart => s.sent.toList.all fun entry => entry.2.all fun network =>
    s.apps[network.workload]?.all fun app =>
      app.uid != network.uid || app.address == some network.address
  | .report _ network true =>
    s.current network || s.addrChoice[network.workload]? == some network.address
  | .report _ network false =>
    s.addrChoice[network.workload]?.isSome ||
      s.apps[network.workload]?.all fun app => app.address.isNone
  | _ => true

end

section

variable {Address : Type}

/-- An address is in use by a workload: chosen for it, or reported. -/
def Controller.Holds (s : Controller Address) (id : String) (address : Address) : Prop :=
  s.addrChoice[id]? = some address ∨ ∃ app, s.apps[id]? = some app ∧ app.address = some address

def Controller.Sent (s : Controller Address) (network : WorkloadNetwork Address) : Prop :=
  ∃ (node : String) (networks : List (WorkloadNetwork Address)),
    s.sent[node]? = some networks ∧ network ∈ networks

/-- A node was told so, or a build is about to. -/
def Controller.Told (s : Controller Address) (network : WorkloadNetwork Address) : Prop :=
  s.Sent network ∨ ∃ b build, s.builds b = some build ∧ (network ∈ build.networks ∨
    ⟨network.workload, network.uid, some network.address⟩ ∈ build.todo)

/-- A build knows every address that is reported and not chosen, and gives the workload that has it
no other one. -/
structure Controller.Knows (s : Controller Address) (build : Build Address) : Prop where
  reported : ∀ {id : String} {app : App Address} {address : Address}, s.apps[id]? = some app →
    app.address = some address → s.addrChoice[id]? = none →
    address ∈ build.reported ∧ ∀ entry ∈ build.todo, entry.workload = id →
      entry.reported = some address
  listed : ∀ entry ∈ build.todo, entry.uid < s.created

/-- No two workloads hold an address; what is told is held while the application is there; and what
a node reported in an earlier life of the control plane is known to every build. -/
structure Apart (s : Controller Address) : Prop where
  apart : ∀ {id id' : String} {address : Address}, s.Holds id address → s.Holds id' address →
    id = id'
  chosen : ∀ {id : String} {app : App Address} {address : Address}, s.apps[id]? = some app →
    app.address = some address → s.addrChoice[id]? = some address ∨ s.addrChoice[id]? = none
  knows : ∀ {b build}, s.builds b = some build → s.Knows build
  told : ∀ {network : WorkloadNetwork Address}, s.Told network → s.current network = true →
    s.Holds network.workload network.address
  past : ∀ {network : WorkloadNetwork Address}, s.Told network → network.uid < s.created
  stored : ∀ {id : String} {app : App Address}, s.apps[id]? = some app → app.uid < s.created

variable {s : Controller Address}

theorem current_iff {net : WorkloadNetwork Address} :
    s.current net = true ↔ ∃ app, s.apps[net.workload]? = some app ∧ app.uid = net.uid := by
  simp [Controller.current, Option.any_eq_true]

/-- The applications change, and none gets an address but the one chosen for it: each was there
before, or is new and has none. -/
theorem Apart.of_apps (apart : Apart s) {apps : ExtTreeMap String (App Address)} {created : Nat}
    (later : s.created ≤ created)
    (kept : ∀ {id : String} {app' : App Address}, apps[id]? = some app' →
      (∃ app, s.apps[id]? = some app ∧ app.uid = app'.uid ∧ (app.address = app'.address ∨
        ∃ chosen, s.addrChoice[id]? = some chosen ∧ ∀ a ∈ app'.address, a = chosen)) ∨
        (app'.address = none ∧ app'.uid = s.created ∧ s.created < created)) :
    Apart { s with apps := apps, created := created } := by
  -- an address that is reported now was chosen, or reported before
  have pre : ∀ {id : String} {app' : App Address} {address : Address}, apps[id]? = some app' →
      app'.address = some address → s.Holds id address := by
    intro id app' address hit reported
    rcases kept hit with ⟨app, stored, -, eq | ⟨chosen, isChosen, only⟩⟩ | ⟨noAddress, -⟩
    · exact .inr ⟨app, stored, eq.trans reported⟩
    · exact .inl (only address reported ▸ isChosen)
    · simp [noAddress] at reported
  have held : ∀ {id address},
    Controller.Holds { s with apps := apps, created := created } id address →
      s.Holds id address := by
    rintro id address (chosen | ⟨app', hit, reported⟩)
    · exact .inl chosen
    · exact pre hit reported
  refine ⟨fun first second => apart.apart (held first) (held second), ?_, ?_, ?_,
    fun told => (apart.past told).trans_le later, ?_⟩
  · intro id app' address hit reported
    rcases pre hit reported with chosen | ⟨app, stored, wasReported⟩
    · exact .inl chosen
    · exact apart.chosen stored wasReported
  · intro b build isBuild
    have knows := apart.knows isBuild
    refine ⟨?_, fun e mem => (knows.listed e mem).trans_le later⟩
    intro id app' address hit reported unchosen
    rcases pre hit reported with chosen | ⟨app, stored, wasReported⟩
    · cases unchosen.symm.trans chosen
    · exact knows.reported stored wasReported unchosen
  · intro net told cur
    obtain ⟨app', hit, uidEq⟩ := current_iff.1 cur
    rcases kept hit with ⟨app, stored, uid, address⟩ | ⟨-, isNew, -⟩
    · rcases apart.told told (current_iff.2 ⟨app, stored, uid.trans uidEq⟩) with
        chosen | ⟨found, isFound, reported⟩
      · exact .inl chosen
      · cases stored.symm.trans isFound
        rcases address with eq | ⟨chosen, isChosen, -⟩
        · exact .inr ⟨app', hit, eq.symm.trans reported⟩
        -- what the workload had reported was the choice as well
        exact .inl ((apart.chosen stored reported).resolve_right (by simp [isChosen]))
    · exact absurd (apart.past told) (by omega)
  · intro id app' hit
    rcases kept hit with ⟨app, stored, uid, -⟩ | ⟨-, isNew, more⟩
    · exact uid ▸ (apart.stored stored).trans_le later
    · exact isNew ▸ more

theorem Apart.of_insert (apart : Apart s) {id : String} {app app' : App Address}
    (hit : s.apps[id]? = some app) (uid : app.uid = app'.uid)
    (addr : app.address = app'.address ∨
      ∃ chosen, s.addrChoice[id]? = some chosen ∧ ∀ a ∈ app'.address, a = chosen) :
    Apart { s with apps := s.apps.insert id app' } := by
  refine apart.of_apps (Nat.le_refl _) ?_
  intro id' found isFound
  rcases insert_cases isFound with ⟨rfl, rfl⟩ | past
  · exact .inl ⟨app, hit, uid, addr⟩
  · exact .inl ⟨found, past, rfl, .inl rfl⟩

theorem Apart.of_edit (apart : Apart s) {id : String} {change : App Address → App Address}
    {s' : Controller Address} (edited : s.edit id change = some s') : Apart s' := by
  obtain ⟨app, hit, rfl⟩ := Option.map_eq_some_iff.1 edited
  exact apart.of_insert hit rfl (.inl rfl)

theorem update_cases {builds : Nat → Option (Build Address)} {b b' : Nat}
    {new : Option (Build Address)} {build : Build Address}
    (found : update builds b new b' = some build) :
    new = some build ∨ builds b' = some build := by
  by_cases same : b' = b
  · subst same
    exact .inl (by simpa using found)
  · exact .inr (by rwa [update_of_ne same] at found)

/-- A build begins, goes on or ends: it knows what is reported, and what it tells is held. -/
theorem Apart.of_build (apart : Apart s) {b : Nat} {new : Option (Build Address)}
    (knows : ∀ build, new = some build → s.Knows build)
    (told : ∀ build, new = some build → ∀ network, network ∈ build.networks ∨
        ⟨network.workload, network.uid, some network.address⟩ ∈ build.todo →
      s.Told network ∨ (network.uid < s.created ∧ s.Holds network.workload network.address)) :
    Apart { s with builds := update s.builds b new } := by
  have cases_told : ∀ {network},
      Controller.Told { s with builds := update s.builds b new } network →
      s.Told network ∨ (network.uid < s.created ∧ s.Holds network.workload network.address) := by
    rintro network (sent | ⟨b', build, isBuild, inBuild⟩)
    · exact .inl (.inl sent)
    · rcases update_cases isBuild with isNew | earlier
      · exact told build isNew network inBuild
      · exact .inl (.inr ⟨b', build, earlier, inBuild⟩)
  refine ⟨apart.apart, apart.chosen, ?_, ?_, ?_, apart.stored⟩
  · intro b' build isBuild
    rcases update_cases isBuild with isNew | earlier
    · exact ⟨(knows build isNew).reported, (knows build isNew).listed⟩
    · exact ⟨(apart.knows earlier).reported, (apart.knows earlier).listed⟩
  · intro network isTold cur
    rcases cases_told isTold with earlier | ⟨-, held⟩
    · exact apart.told earlier cur
    · exact held
  · intro network isTold
    rcases cases_told isTold with earlier | ⟨past, -⟩
    · exact apart.past earlier
    · exact past

theorem Apart.of_list (apart : Apart s) (b : Nat) (n : String) :
    Apart { s with builds := update s.builds b (some (listApps s.apps n)) } := by
  have inTodo : ∀ {entry}, entry ∈ (listApps s.apps n).todo → ∃ app,
      s.apps[entry.workload]? = some app ∧ app.uid = entry.uid ∧ app.address = entry.reported := by
    intro entry mem
    obtain ⟨⟨id, app⟩, isListed, rfl⟩ := List.mem_map.1 mem
    exact ⟨app, ExtTreeMap.mem_toList_iff_getElem?_eq_some.1 (List.mem_filter.1 isListed).1,
      rfl, rfl⟩
  have listed : ∀ entry ∈ (listApps s.apps n).todo, entry.uid < s.created := by
    intro entry mem
    obtain ⟨app, hit, uid, -⟩ := inTodo mem
    exact uid ▸ apart.stored hit
  refine apart.of_build ?_ ?_
  · rintro _ ⟨⟩
    refine ⟨?_, listed⟩
    intro id app addr hit reported _
    refine ⟨List.mem_filterMap.2 ⟨(id, app),
      ExtTreeMap.mem_toList_iff_getElem?_eq_some.2 hit, reported⟩, ?_⟩
    rintro entry mem rfl
    obtain ⟨found, isFound, -, eq⟩ := inTodo mem
    cases hit.symm.trans isFound
    exact eq.symm.trans reported
  rintro _ ⟨⟩ net (inNetworks | mem)
  · cases inNetworks
  · obtain ⟨app, hit, -, reported⟩ := inTodo mem
    exact .inr ⟨listed _ mem, .inr ⟨app, hit, reported⟩⟩

theorem Apart.of_rest (apart : Apart s) {b : Nat} {build : Build Address} {app : RoutedApp Address}
    {rest : List (RoutedApp Address)} {more : List (WorkloadNetwork Address)}
    (isBuild : s.builds b = some build) (todo : build.todo = app :: rest)
    (told : ∀ net ∈ more, s.Told net ∨ (net.uid = app.uid ∧ s.Holds net.workload net.address)) :
    Apart { s with builds := update s.builds b (some
      { build with todo := rest, networks := build.networks ++ more }) } := by
  have within : ∀ e ∈ rest, e ∈ build.todo := by
    intro e mem
    exact todo ▸ List.mem_cons_of_mem app mem
  have knows := apart.knows isBuild
  refine apart.of_build ?_ ?_
  · rintro _ ⟨⟩
    refine ⟨?_, fun e mem => knows.listed e (within e mem)⟩
    intro id stored addr hit reported unchosen
    obtain ⟨inReported, inTodo⟩ := knows.reported hit reported unchosen
    exact ⟨inReported, fun e mem => inTodo e (within e mem)⟩
  rintro _ ⟨⟩ net (inNetworks | mem)
  · rcases List.mem_append.1 inNetworks with past | isNew
    · exact .inl (.inr ⟨b, build, isBuild, .inl past⟩)
    · rcases told net isNew with past | ⟨uid, held⟩
      · exact .inl past
      · exact .inr ⟨uid ▸ knows.listed app (todo ▸ (.head _)), held⟩
  · exact .inl (.inr ⟨b, build, isBuild, .inr (within _ mem)⟩)

theorem Apart.of_sent (apart : Apart s) {b : Nat} {build : Build Address}
    (isBuild : s.builds b = some build) :
    Apart { s with sent := s.sent.insert build.node build.networks } := by
  have told : ∀ {network},
      Controller.Told { s with sent := s.sent.insert build.node build.networks } network →
      s.Told network := by
    rintro network (⟨n, networks, isSent, mem⟩ | inBuild)
    · rcases insert_cases isSent with ⟨-, rfl⟩ | past
      · exact .inr ⟨b, build, isBuild, .inl mem⟩
      · exact .inl ⟨n, networks, past, mem⟩
    · exact .inr inBuild
  exact ⟨apart.apart, apart.chosen,
    fun found => ⟨(apart.knows found).reported, (apart.knows found).listed⟩,
    fun isTold => apart.told (told isTold), fun isTold => apart.past (told isTold), apart.stored⟩

theorem Apart.of_choice (apart : Apart s) {b : Nat} {build : Build Address}
    {app : RoutedApp Address}
    {host : Address} (isBuild : s.builds b = some build) (mem : app ∈ build.todo)
    (unreported : app.reported = none) (unchosen : s.addrChoice[app.workload]? = none)
    (free : host ∉ build.reported) (fresh : ∀ id : String, s.addrChoice[id]? ≠ some host) :
    Apart { s with addrChoice := s.addrChoice.insert app.workload host } := by
  have knows := apart.knows isBuild
  have unheld : ∀ {id : String}, ¬ s.Holds id host := by
    rintro id (chosen | ⟨stored, hit, reported⟩)
    · exact fresh id chosen
    · rcases apart.chosen hit reported with chosen | unchosen
      · exact fresh id chosen
      · exact free (knows.reported hit reported unchosen).1
  have ne : ∀ {id : String} {stored : App Address} {address : Address},
      s.apps[id]? = some stored → stored.address = some address → app.workload ≠ id := by
    rintro _ stored address hit reported rfl
    have eq := (knows.reported hit reported unchosen).2 app mem rfl
    cases unreported.symm.trans eq
  have pre : ∀ {id : String} {address : Address},
      Controller.Holds { s with addrChoice := s.addrChoice.insert app.workload host } id address →
      (id = app.workload ∧ address = host) ∨ s.Holds id address := by
    rintro id address (chosen | reported)
    · rcases insert_cases chosen with isNew | past
      · exact .inl isNew
      · exact .inr (.inl past)
    · exact .inr (.inr reported)
  have elsewhere : ∀ {id : String}, app.workload ≠ id →
      (s.addrChoice.insert app.workload host)[id]? = s.addrChoice[id]? := by
    intro id ne
    simp [ExtTreeMap.getElem?_insert, ne]
  refine ⟨?_, ?_, ?_, ?_, apart.past, apart.stored⟩
  · intro id id' address first second
    rcases pre first with ⟨rfl, rfl⟩ | held
    · rcases pre second with ⟨rfl, -⟩ | held'
      · rfl
      · exact absurd held' unheld
    rcases pre second with ⟨rfl, rfl⟩ | held'
    · exact absurd held unheld
    · exact apart.apart held held'
  · intro id stored address hit reported
    simp only [elsewhere (ne hit reported)]
    exact apart.chosen hit reported
  · intro b' build' isBuild'
    refine ⟨?_, (apart.knows isBuild').listed⟩
    intro id stored address hit reported noChoice
    simp only [elsewhere (ne hit reported)] at noChoice
    exact (apart.knows isBuild').reported hit reported noChoice
  · intro net isTold cur
    rcases apart.told isTold cur with chosen | reported
    · have other : app.workload ≠ net.workload := by
        intro eq
        cases unchosen.symm.trans (eq ▸ chosen)
      exact .inl ((elsewhere other).trans chosen)
    · exact .inr reported

end

section

variable {Address : Type} [DecidableEq Address] {s s' : Controller Address} {range : List Address}

theorem Apart.of_report (apart : Apart s) {n : String} {net : WorkloadNetwork Address} {up : Bool}
    (sent : s.Sent net) (safe : s.safe (.report n net up) = true) :
    Apart (s.applyAppStatus n net up) := by
  simp only [Controller.applyAppStatus]
  split
  · exact apart
  rename_i app hit
  split
  · refine apart.of_insert hit rfl ?_
    cases up with
    | true =>
      simp only [Controller.safe, Bool.or_eq_true, beq_iff_eq] at safe
      rcases safe.elim (apart.told (.inl sent)) .inl with isChosen | ⟨found, isFound, reported⟩
      · exact .inr ⟨_, isChosen, by simp⟩
      cases hit.symm.trans isFound
      exact .inl reported
    | false =>
      simp only [Controller.safe, hit, Option.all_some, Bool.or_eq_true,
        Option.isNone_iff_eq_none] at safe
      rcases safe with kept | nothing
      · obtain ⟨chosen, isChosen⟩ := Option.isSome_iff_exists.1 kept
        exact .inr ⟨chosen, isChosen, by simp⟩
      · exact .inl nothing
  · exact apart

theorem workloadAddress_cases {choice choice' : ExtTreeMap String Address} {inUse : List Address}
    {app : RoutedApp Address} {addr : Address}
    (answered : workloadAddress range choice inUse app = some (addr, choice')) :
    (app.reported = some addr ∧ choice' = choice) ∨
    (choice[app.workload]? = some addr ∧ choice' = choice) ∨
    (app.reported = none ∧ choice[app.workload]? = none ∧ addr ∉ inUse ∧
      (∀ id : String, choice[id]? ≠ some addr) ∧ choice' = choice.insert app.workload addr) := by
  cases reported : app.reported with
  | some told =>
    simp only [workloadAddress, reported, Option.some.injEq, Prod.mk.injEq] at answered
    obtain ⟨rfl, rfl⟩ := answered
    exact .inl ⟨rfl, rfl⟩
  | none =>
    cases chosen : choice[app.workload]? with
    | some told =>
      simp only [workloadAddress, reported, chosen, Option.some.injEq, Prod.mk.injEq] at answered
      obtain ⟨rfl, rfl⟩ := answered
      exact .inr (.inl ⟨rfl, rfl⟩)
    | none =>
      simp only [workloadAddress, reported, chosen] at answered
      obtain ⟨host, found, eq⟩ := Option.map_eq_some_iff.1 answered
      cases eq
      have free := List.find?_some found
      simp only [List.contains_eq_mem, List.mem_append, List.mem_map, Bool.not_eq_true',
        decide_eq_false_iff_not, not_or] at free
      refine .inr (.inr ⟨rfl, rfl, free.1, ?_, rfl⟩)
      intro id isChosen
      exact free.2 ⟨(id, addr), ExtTreeMap.mem_toList_iff_getElem?_eq_some.2 isChosen, rfl⟩

theorem Apart.of_choose (apart : Apart s) {b : Nat} (moved : s.step range (.choose b) = some s') :
    Apart s' := by
  simp only [Controller.step] at moved
  split at moved
  · cases moved
  rename_i build isBuild
  split at moved
  · cases moved
  rename_i app rest todo
  have mem : app ∈ build.todo := todo ▸ (.head _)
  split at moved
  · cases moved
    simpa using apart.of_rest isBuild todo (List.forall_mem_nil _)
  rename_i addr choice answered
  cases moved
  rcases workloadAddress_cases answered with
    ⟨reported, rfl⟩ | ⟨chosen, rfl⟩ | ⟨unreported, unchosen, free, fresh, rfl⟩
  · refine apart.of_rest isBuild todo (List.forall_mem_singleton.2 (.inl (.inr ?_)))
    exact ⟨b, build, isBuild, .inr (reported ▸ mem)⟩
  · exact apart.of_rest isBuild todo (List.forall_mem_singleton.2 (.inr ⟨rfl, .inl chosen⟩))
  · have chosen := apart.of_choice isBuild mem unreported unchosen free fresh
    refine chosen.of_rest isBuild todo (List.forall_mem_singleton.2 (.inr ⟨rfl, .inl ?_⟩))
    exact ExtTreeMap.getElem?_insert_self

theorem Apart.of_restart (apart : Apart s) (safe : s.safe .restart = true) :
    Apart { s with addrChoice := ∅, builds := fun _ => none } := by
  have pre : ∀ {id : String} {address : Address},
      Controller.Holds { s with addrChoice := ∅, builds := fun _ => none } id address →
      s.Holds id address := by
    rintro id address (chosen | reported)
    · simp at chosen
    · exact .inr reported
  have wasSent : ∀ {network},
      Controller.Told { s with addrChoice := ∅, builds := fun _ => none } network →
        s.Sent network := by
    rintro network (sent | ⟨b, build, isBuild, -⟩)
    · exact sent
    · cases isBuild
  refine ⟨fun first second => apart.apart (pre first) (pre second), ?_, ?_, ?_,
    fun isTold => apart.past (.inl (wasSent isTold)), apart.stored⟩
  · intro id app address hit reported
    exact .inr (by simp)
  · exact nofun
  · intro network isTold cur
    obtain ⟨n, networks, isSent, mem⟩ := wasSent isTold
    obtain ⟨app, hit, uid⟩ := current_iff.1 cur
    have confirmed := List.all_eq_true.1 (List.all_eq_true.1 safe (n, networks)
      (ExtTreeMap.mem_toList_iff_getElem?_eq_some.2 isSent)) network mem
    simp only at hit
    simp only [hit, Option.all_some, uid, bne_self_eq_false, Bool.false_or, beq_iff_eq] at confirmed
    exact .inr ⟨app, hit, confirmed⟩

theorem Apart.of_step {ev : Event Address} (apart : Apart s) (safe : s.safe ev = true)
    (moved : s.step range ev = some s') : Apart s' := by
  cases ev with
  | create id hostNetwork =>
    simp only [Controller.step] at moved
    split at moved
    · cases moved
      refine apart.of_apps (Nat.le_succ _) ?_
      intro id' app' found
      rcases insert_cases found with ⟨rfl, rfl⟩ | past
      · exact .inr ⟨rfl, rfl, Nat.lt_succ_self _⟩
      · exact .inl ⟨app', past, rfl, .inl rfl⟩
    · cases moved
  | place id n | finish id | mark id => exact apart.of_edit moved
  | remove id =>
    cases moved
    refine apart.of_apps (Nat.le_refl _) ?_
    intro id' app' found
    rw [ExtTreeMap.getElem?_erase] at found
    split at found
    · cases found
    · exact .inl ⟨app', found, rfl, .inl rfl⟩
  | list b n =>
    simp only [Controller.step] at moved
    split at moved
    · cases moved
      exact apart.of_list b n
    · cases moved
  | choose b => exact apart.of_choose moved
  | push b =>
    simp only [Controller.step] at moved
    split at moved
    · cases moved
    rename_i build isBuild
    split at moved
    · cases moved
      exact (apart.of_sent isBuild).of_build (by simp) (by simp)
    · cases moved
  | abandon b =>
    cases moved
    exact apart.of_build (by simp) (by simp)
  | report n net up =>
    simp only [Controller.step] at moved
    split at moved
    next wasTold =>
      cases moved
      refine apart.of_report ?_ safe
      cases isSent : s.sent[n]? with
      | none => simp [isSent] at wasTold
      | some networks => exact ⟨n, networks, isSent, by simpa [isSent] using wasTold⟩
    · cases moved
  | restart =>
    cases moved
    exact apart.of_restart safe

theorem addresses_are_apart (reached : Reachable (Controller.step range) Controller.safe {} s)
    {network network' : WorkloadNetwork Address} (sent : s.Sent network) (sent' : s.Sent network')
    (current : s.current network = true) (current' : s.current network' = true)
    (same : network.address = network'.address) : network.workload = network'.workload := by
  have start : Apart ({} : Controller Address) := by
    refine ⟨?_, by simp, by simp, ?_, ?_, by simp⟩
    · rintro id id' address (chosen | ⟨app, present, -⟩) <;> simp at *
    · rintro network (⟨node, networks, isSent, -⟩ | ⟨b, build, isBuild, -⟩) <;> simp at *
    · rintro network (⟨node, networks, isSent, -⟩ | ⟨b, build, isBuild, -⟩) <;> simp at *
  have apart := reached.invariant Apart start fun apart safe happened => apart.of_step safe happened
  have held := apart.told (.inl sent) current
  have held' := apart.told (.inl sent') current'
  exact apart.apart held (same ▸ held')

end

/-! ## A restart between the choice and the report -/

/-- An application is created, placed on a node and told an address. -/
def wired (id node : String) (build : Nat) : List (Event Nat) :=
  [.create id false, .place id node, .list build node, .choose build, .push build]

theorem addresses_are_apart_wired : ∃ s : Controller Nat,
    Reachable (Controller.step [1, 2]) Controller.safe {} s ∧ s.Sent ⟨"team_web", 0, 1⟩ ∧
    s.Sent ⟨"team_db", 1, 2⟩ ∧ s.current ⟨"team_web", 0, 1⟩ = true ∧
    ∀ network', s.Sent network' → s.current network' = true → 1 = network'.address →
      "team_web" = network'.workload := by
  obtain ⟨s, reached, web, db, current⟩ : ∃ s,
    Reachable (Controller.step [1, 2]) Controller.safe {} s ∧
      s.sent["n1"]? = some [⟨"team_web", 0, 1⟩] ∧ s.sent["n2"]? = some [⟨"team_db", 1, 2⟩] ∧
      s.current ⟨"team_web", 0, 1⟩ = true :=
    exists_of_run (wired "team_web" "n1" 0 ++ [.report "n1" ⟨"team_web", 0, 1⟩ true, .restart] ++
      wired "team_db" "n2" 1) (by decide +kernel)
  have sentWeb : s.Sent ⟨"team_web", 0, 1⟩ := ⟨"n1", _, web, by simp⟩
  exact ⟨s, reached, sentWeb, ⟨"n2", _, db, by simp⟩, current, fun network' sent' current' same =>
    addresses_are_apart reached sentWeb sent' current current' same⟩

/-- The control plane restarts after it told an address and before the node has reported it, and
tells the address to another node's workload. -/
theorem restart_tells_address_twice : ∃ s : Controller Nat,
    Reachable (Controller.step [1, 2]) (fun _ _ => true) {} s ∧ s.Sent ⟨"team_web", 0, 1⟩ ∧
    s.Sent ⟨"team_db", 1, 1⟩ ∧ s.current ⟨"team_web", 0, 1⟩ = true ∧
    s.current ⟨"team_db", 1, 1⟩ = true := by
  obtain ⟨s, ran, web, db, current⟩ : ∃ s,
    Reachable (Controller.step [1, 2]) (fun _ _ => true) {} s ∧
      s.sent["n1"]? = some [⟨"team_web", 0, 1⟩] ∧ s.sent["n2"]? = some [⟨"team_db", 1, 1⟩] ∧
      s.current ⟨"team_web", 0, 1⟩ = true ∧ s.current ⟨"team_db", 1, 1⟩ = true :=
    exists_of_run (wired "team_web" "n1" 0 ++ [.restart] ++
      wired "team_db" "n2" 1) (by decide +kernel)
  exact ⟨s, ran, ⟨"n1", _, web, by simp⟩, ⟨"n2", _, db, by simp⟩, current⟩

/-! ## Addresses that are free again -/

section

variable {Address : Type} {s s' : Controller Address}

/-- A stored application has reported the address, or it was chosen for one. -/
def Controller.InUse (s : Controller Address) (address : Address) : Prop :=
  ∃ (id : String) (app : App Address), s.apps[id]? = some app ∧
    (app.address = some address ∨ s.addrChoice[id]? = some address)

/-- No application is removed that an address was chosen for, and none is chosen for one that is
gone. -/
def Controller.keepsChosen (s : Controller Address) : Event Address → Bool
  | .remove id => s.addrChoice[id]?.isNone
  | .choose b => (s.builds b).all fun build =>
    build.todo.head?.all fun app => s.apps[app.workload]?.isSome
  | _ => true

/-- What was chosen is for applications that are stored. -/
def Controller.Live (s : Controller Address) : Prop :=
  ∀ (id : String) (address : Address), s.addrChoice[id]? = some address → s.apps[id]?.isSome = true

theorem Controller.Live.insert (live : s.Live) (id : String) (app : App Address) (created : Nat) :
    Controller.Live { s with apps := s.apps.insert id app, created := created } := by
  intro id' addr chosen
  change (s.apps.insert id app)[id']?.isSome = true
  rw [ExtTreeMap.getElem?_insert]
  split
  · rfl
  · exact live id' addr chosen

/-- What a fresh listing and the choices hold is what stored applications hold. -/
theorem Controller.Live.taken_iff (live : s.Live) (n : String) (address : Address) :
    address ∈ (listApps s.apps n).reported ++ s.addrChoice.toList.map Prod.snd ↔
      s.InUse address := by
  simp only [listApps, List.mem_append, List.mem_filterMap, List.mem_map, Prod.exists,
    ExtTreeMap.mem_toList_iff_getElem?_eq_some]
  constructor
  · rintro (⟨id, app, stored, reported⟩ | ⟨id, _, chosen, rfl⟩)
    · exact ⟨id, app, stored, .inl reported⟩
    · obtain ⟨app, stored⟩ := Option.isSome_iff_exists.1 (live id _ chosen)
      exact ⟨id, app, stored, .inr chosen⟩
  rintro ⟨id, app, stored, reported | chosen⟩
  · exact .inl ⟨id, app, stored, reported⟩
  · exact .inr ⟨id, address, chosen, rfl⟩

variable [DecidableEq Address] {range : List Address}

theorem Controller.Live.of_step {ev : Event Address} (live : s.Live)
    (may : s.keepsChosen ev = true) (moved : s.step range ev = some s') : s'.Live := by
  cases ev with
  | create id hostNetwork =>
    simp only [Controller.step] at moved
    split at moved <;> cases moved
    exact live.insert id _ _
  | place id n | finish id | mark id =>
    obtain ⟨app, -, rfl⟩ := Option.map_eq_some_iff.1 moved
    exact live.insert id _ s.created
  | remove id =>
    cases moved
    intro id' addr chosen
    change (s.apps.erase id)[id']?.isSome = true
    rw [ExtTreeMap.getElem?_erase]
    split
    next eq =>
      obtain rfl := Std.LawfulEqCmp.eq_of_compare eq
      simp [Option.isNone_iff_eq_none.1 may] at chosen
    · exact live id' addr chosen
  | choose b =>
    simp only [Controller.step] at moved
    split at moved
    · cases moved
    rename_i build isBuild
    split at moved
    · cases moved
    rename_i app rest first
    have stored : s.apps[app.workload]?.isSome = true := by
      simpa [keepsChosen, isBuild, first] using may
    split at moved <;> cases moved
    · exact live
    rename_i addr choice told
    rcases workloadAddress_cases told with ⟨-, rfl⟩ | ⟨-, rfl⟩ | ⟨-, -, -, -, rfl⟩
    · exact live
    · exact live
    · intro id' addr' chosen
      rcases insert_cases chosen with ⟨rfl, -⟩ | pre
      · exact stored
      · exact live id' addr' pre
  | list b n | push b =>
    simp only [Controller.step] at moved
    repeat (split at moved <;> try cases moved)
    exact live
  | abandon b =>
    cases moved
    exact live
  | report n net up =>
    simp only [Controller.step] at moved
    split at moved <;> cases moved
    unfold Controller.applyAppStatus
    split
    · exact live
    split
    · exact live.insert _ _ s.created
    · exact live
  | restart =>
    cases moved
    intro id addr chosen
    simp at chosen

/-- **The range is exhausted by stored applications only**, while no application goes that an
address was chosen for: an address is refused when every one is in use, and the first that is not is
given. -/
theorem exhausted_by_stored
    (reached : Reachable (Controller.step range) Controller.keepsChosen {} s)
    (node : String) (app : RoutedApp Address) :
    (workloadAddress range s.addrChoice (listApps s.apps node).reported app = none →
      ∀ address ∈ range, s.InUse address) ∧
    (app.reported = none → s.addrChoice[app.workload]? = none → ∀ before address after,
      range = before ++ address :: after → (∀ a ∈ before, s.InUse a) → ¬ s.InUse address →
        (workloadAddress range s.addrChoice (listApps s.apps node).reported app).map Prod.fst =
          some address) := by
  have live : s.Live :=
    reached.invariant Controller.Live (by intro id address chosen; simp at chosen)
    fun live permitted happened => live.of_step permitted happened
  have free : ∀ address, (!((listApps s.apps node).reported ++
      s.addrChoice.toList.map Prod.snd).contains address) = true ↔ ¬ s.InUse address :=
        fun address => by
    rw [Bool.not_eq_true', ← Bool.not_eq_true, List.contains_iff_mem, live.taken_iff]
  unfold workloadAddress
  constructor
  · intro refused address member
    split at refused
    · cases refused
    · cases refused
    · have none_free := List.find?_eq_none.1 (Option.map_eq_none_iff.1 refused) address member
      rwa [free, not_not] at none_free
  intro unreported unchosen before address after split_ held unheld
  have first : range.find? (fun host => !((listApps s.apps node).reported ++
      s.addrChoice.toList.map Prod.snd).contains host) = some address := by
    refine List.find?_eq_some_iff_append.2 ⟨(free address).2 unheld, before, after, split_, ?_⟩
    intro a member
    have taken := mt (free a).1 (not_not.2 (held a member))
    rw [Bool.not_eq_true] at taken
    rw [taken, Bool.not_false]
  simp only [unreported, unchosen, first, Option.map_some]

end

/-- An address is reported, the control plane restarts, the application goes, and the address is
given to the next one. -/
theorem exhausted_by_stored_again : ∃ s : Controller Nat,
    Reachable (Controller.step [1]) Controller.keepsChosen {} s ∧
    (workloadAddress [1] s.addrChoice (listApps s.apps "n1").reported ⟨"team_db", 1, none⟩).map
      Prod.fst = some 1 := by
  obtain ⟨s, reached, unchosen, empty⟩ : ∃ s,
    Reachable (Controller.step [1]) Controller.keepsChosen {} s ∧
      s.addrChoice["team_db"]? = none ∧ s.apps.toList.length = 0 :=
    exists_of_run (wired "team_web" "n1" 0 ++ [.report "n1" ⟨"team_web", 0, 1⟩ true, .restart,
      .remove "team_web"]) (by decide +kernel)
  refine ⟨s, reached, (exhausted_by_stored reached "n1" _).2 rfl unchosen [] 1 [] rfl (by simp) ?_⟩
  rintro ⟨id, app, stored, -⟩
  have listed := ExtTreeMap.mem_toList_iff_getElem?_eq_some.2 stored
  simp [List.length_eq_zero_iff.1 empty] at listed

/-- **A choice outlives its application.**  The only address was chosen for an application that is
gone, and it is refused to the next one. -/
theorem removed_application_exhausts : ∃ s : Controller Nat,
    Reachable (Controller.step [1]) (fun _ _ => true) {} s ∧
    workloadAddress [1] s.addrChoice (listApps s.apps "n1").reported ⟨"team_db", 1, none⟩ = none ∧
    ¬ s.InUse 1 := by
  obtain ⟨s, ran, empty, exhausted⟩ : ∃ s, Reachable (Controller.step [1]) (fun _ _ => true) {} s ∧
      s.apps.toList.length = 0 ∧ (workloadAddress [1] s.addrChoice (listApps s.apps "n1").reported
        ⟨"team_db", 1, none⟩).isNone = true :=
    exists_of_run (wired "team_web" "n1" 0 ++ [.remove "team_web"]) (by decide +kernel)
  refine ⟨s, ran, Option.isNone_iff_eq_none.1 exhausted, ?_⟩
  rintro ⟨id, app, stored, -⟩
  have listed := ExtTreeMap.mem_toList_iff_getElem?_eq_some.2 stored
  simp [List.length_eq_zero_iff.1 empty] at listed

end Horchestra.Nodeserver.Addresses
