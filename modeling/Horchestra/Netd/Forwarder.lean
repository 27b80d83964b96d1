import Horchestra.Netd.SockLB

/-!
# The address table of the forwarder

One table says where every workload address lives: behind an interface of this node, in which case
the node field of its entry is zero, or on another node, in which case the field is that node's
address.  Wiring a workload writes the local entries (`recordLocal`), unwiring one removes them by
interface (`forget`), and a push replaces the rest (`routes`).

A push writes every address it is sent without looking at what the table holds, and an entry is
taken for local by the value of a field that a route may also produce.  `every_push_replaces_iff`
says exactly when each push of a run replaces the remote half and nothing else: when no route of it
is for an address that is wired here, none names the node 0.0.0.0, and no two disagree.
-/

namespace Horchestra.Netd

open Foundations ByteOrder Checks Internet KernelMaps
open Foundations.Text

/-! ## Entries -/

abbrev AddrKey := Bytes 4

/-- The node in network order, and the interface and the flags in the order of the host. -/
abbrev WorkloadVal := Bytes 12

abbrev AddrTable := Table AddrKey WorkloadVal

def workloadValue (node : Bytes 4) (ifindex flags : UInt32) : WorkloadVal :=
  bytes [nth node 0, nth node 1, nth node 2, nth node 3,
    nth (le32 ifindex) 0, nth (le32 ifindex) 1, nth (le32 ifindex) 2, nth (le32 ifindex) 3,
    nth (le32 flags) 0, nth (le32 flags) 1, nth (le32 flags) 2, nth (le32 flags) 3]

def nodeOf (val : WorkloadVal) : UInt32 :=
  ofLe32 (bytes [nth val 0, nth val 1, nth val 2, nth val 3])

def ifindexOf (val : WorkloadVal) : UInt32 :=
  ofLe32 (bytes [nth val 4, nth val 5, nth val 6, nth val 7])

/-- An entry that is taken for one of this node. -/
def isLocal (val : WorkloadVal) : Bool := nodeOf val == 0

/-- The node no route should name. -/
def nowhere : Bytes 4 := bytes [0, 0, 0, 0]

def localValue (ifindex : UInt32) : WorkloadVal := workloadValue nowhere ifindex 0

def workloadTunnel : UInt32 := 1

/-- Where packets for other nodes leave: the uplink, or the tunnel where there is one. -/
structure Egress where
  uplinkIndex : UInt32
  tunnelIndex : Option UInt32 := none

def Egress.remoteValue (egress : Egress) (node : Bytes 4) : WorkloadVal :=
  match egress.tunnelIndex with
  | none => workloadValue node egress.uplinkIndex 0
  | some tunnel => workloadValue node tunnel workloadTunnel

/-! ## Routes -/

structure Route where
  cidr : String
  nodeIp : String := ""

def readPrefix (cidr : String) : Except String Prefix :=
  match parsePrefix cidr.toList with
  | .ok p => .ok p
  | .error e =>
    match parseAddr cidr.toList with
    | .error _ => .error e
    | .ok addr => .ok ⟨addr.withoutZone, addr.bitLen⟩

def singleAddress (cidr : String) : Except String AddrKey :=
  match readPrefix cidr with
  | .error e => .error e
  | .ok ⟨.v6 .., _⟩ => .error "not IPv4: this datapath forwards IPv4 only"
  | .ok ⟨.v4 a b c d, bits⟩ =>
    if bits ≠ 32 then
      .error ("is a /" ++ Nat.repr bits ++ ": a workload address is a host route, never a block")
    else .ok (bytes [a, b, c, d])

/-- The routes of a push that name another node, the last one for each address. -/
abbrev WantedRoutes := Table AddrKey (Bytes 4)

def addRoute (mine : List Addr) (want : WantedRoutes) (r : Route) : Except String WantedRoutes := do
  let addr ← wrap ("route " ++ quote r.cidr) (singleAddress r.cidr)
  if r.nodeIp = "" then .ok want
  else do
    let node ← wrap ("route " ++ r.cidr ++ ": node " ++ quote r.nodeIp) (parseAddr r.nodeIp.toList)
    match node with
    | .v6 .. =>
      .error ("route " ++ r.cidr ++ ": node " ++ String.ofList node.format ++ " is not IPv4")
    | .v4 a b c d => .ok (if node ∈ mine then want else want.insert addr (bytes [a, b, c, d]))

def wantedRoutes (mine : List Addr) (rs : List Route) : Except String WantedRoutes :=
  rs.foldlM (addRoute mine) ∅

/-! ## The calls -/

def maxWorkloads : Nat := 65536

inductive FwdOp where
  | write (key : AddrKey) (val : WorkloadVal)
  | read
  | delete (key : AddrKey)

def FwdOp.change : FwdOp → AddrTable → AddrTable
  | .write key val, t => t.insert key val
  | .read, t => t
  | .delete key, t => t.erase key

/-- How the kernel answers, and the orders in which it and the program go through their tables. -/
structure FwdKernel where
  conduct : AddrTable → FwdOp → Option String
  wanted : Shuffle AddrKey
  table : Shuffle AddrKey

def formatAddr (key : AddrKey) : String :=
  String.ofList (dotted (nth key 0) (nth key 1) (nth key 2) (nth key 3))

def readFailed (err : String) : String := "read the address table: " ++ err

section

variable (k : FwdKernel)

def recordLocal (addr : Addr) (ifindex : UInt32) (t : AddrTable) : Progress AddrTable :=
  match addr with
  | .v6 .. => { state := t, errs := [String.ofList addr.format ++
      " is not IPv4: this datapath forwards IPv4 only"] }
  | .v4 a b c d =>
    Progress.each k.conduct (fun _ err => err) FwdOp.change
      [.write (bytes [a, b, c, d]) (localValue ifindex)] { state := t }

/-- The keys of the entries that match, in the order the table is read. -/
def entries (selects : AddrKey → WorkloadVal → Bool) (t : AddrTable) : List AddrKey :=
  (k.table.arrange t.keys).filter fun key => (t.lookup key).any (selects key)

/-- Matching entries removed, with a given report of each failure. -/
def removeEntries (selects : AddrKey → WorkloadVal → Bool) (report : FwdOp → String → String)
    (p : Progress AddrTable) : Progress AddrTable :=
  match k.conduct p.state .read with
  | some err => { p with errs := p.errs ++ [readFailed err] }
  | none => Progress.each k.conduct report FwdOp.change ((entries k selects p.state).map .delete) p

def forget (ifindex : UInt32) (t : AddrTable) : Progress AddrTable :=
  removeEntries k (fun _ val => isLocal val && ifindexOf val == ifindex) (fun _ err => err)
    { state := t }

def routeReport : FwdOp → String → String
  | .write key _, err => "route " ++ formatAddr key ++ ": " ++ err
  | .read, err => readFailed err
  | .delete key, err => "remove route " ++ formatAddr key ++ ": " ++ err

def routeEntries (egress : Egress) (want : WantedRoutes) : List (AddrKey × WorkloadVal) :=
  (k.wanted.arrange want.keys).filterMap fun key =>
    (want.lookup key).map fun node => (key, egress.remoteValue node)

/-- The remote half of the table replaced by the routes of a push. -/
def routes (egress : Egress) (mine : Except String (List Addr)) (rs : List Route) (t : AddrTable) :
    Progress AddrTable :=
  match mine with
  | .error e => { state := t, errs := [e] }
  | .ok mine =>
    match wantedRoutes mine rs with
    | .error e => { state := t, errs := [e] }
    | .ok want =>
      if maxWorkloads < (UInt32.ofNat want.keys.length).toNat then
        { state := t, errs := [Nat.repr want.keys.length ++
          " workload addresses exceed the datapath's capacity of " ++ Nat.repr maxWorkloads] }
      else
        removeEntries k (fun key val => !isLocal val && (want.lookup key).isNone) routeReport
          (Progress.each k.conduct routeReport FwdOp.change
            ((routeEntries k egress want).map fun entry => .write entry.1 entry.2) { state := t })

end

/-! ## Values -/

theorem nodeOf_workloadValue (node : Bytes 4) (ifindex flags : UInt32) :
    nodeOf (workloadValue node ifindex flags) = ofLe32 node :=
  congrArg ofLe32 (bytes4_eta node)

/-- A route's entry is taken for local exactly when its node is 0.0.0.0. -/
theorem isLocal_remoteValue (egress : Egress) (node : Bytes 4) :
    isLocal (egress.remoteValue node) = true ↔ node = nowhere := by
  have v : nodeOf (egress.remoteValue node) = ofLe32 node := by
    rw [Egress.remoteValue]
    split <;> exact nodeOf_workloadValue ..
  have zero : ofLe32 nowhere = 0 := by decide
  rw [isLocal, beq_iff_eq, v]
  constructor
  · intro none
    rw [← le32_ofLe32 node, none, ← zero, le32_ofLe32]
  rintro rfl
  exact zero

variable {egress : Egress} {node node' : Bytes 4}

theorem remoteValue_inj (eq : egress.remoteValue node = egress.remoteValue node') :
    node = node' := by
  have nodes : ofLe32 node = ofLe32 node' := by
    have f := congrArg nodeOf eq
    rw [Egress.remoteValue, Egress.remoteValue] at f
    split at f <;> simpa only [nodeOf_workloadValue] using f
  rw [← le32_ofLe32 node, nodes, le32_ofLe32]

/-! ## What a call without an error leaves -/

section

variable {k : FwdKernel} {t : AddrTable}

variable {selects : AddrKey → WorkloadVal → Bool} {key : AddrKey}

theorem mem_entries :
    key ∈ entries k selects t ↔ ∃ val, t.lookup key = some val ∧ selects key val = true := by
  rw [entries, List.mem_filter, Shuffle.mem_arrange, Option.any_eq_true]
  constructor
  · rintro ⟨-, found⟩
    exact found
  rintro ⟨val, found, selected⟩
  refine ⟨AList.mem_keys.1 (AList.lookup_isSome.1 ?_), val, found, selected⟩
  rw [found]
  rfl

/-- The matching entries are gone, and the others are there. -/
theorem removeEntries_of_noErrors {report : FwdOp → String → String} {p : Progress AddrTable}
    (clean : (removeEntries k selects report p).errs = []) :
    p.errs = [] ∧ ∀ key val, (removeEntries k selects report p).state.lookup key = some val ↔
      p.state.lookup key = some val ∧ selects key val = false := by
  rw [removeEntries] at clean ⊢
  split at clean
  · simp at clean
  obtain ⟨pre, state⟩ := Progress.each_of_noErrors clean
  refine ⟨pre, fun key val => ?_⟩
  have dropped : (Progress.each k.conduct report FwdOp.change
      ((entries k selects p.state).map .delete) p).state =
      dropAll (entries k selects p.state) p.state := by
    rw [state, List.foldl_map]
    rfl
  rw [dropped, lookup_dropAll]
  split
  next mem =>
    obtain ⟨other, found, selected⟩ := mem_entries.1 mem
    rw [found]
    constructor
    · exact nofun
    rintro ⟨eq, notSelected⟩
    cases eq
    rw [selected] at notSelected
    cases notSelected
  rename_i kept
  refine ⟨fun found => ⟨found, ?_⟩, And.left⟩
  by_contra selected
  exact kept (mem_entries.2 ⟨val, found, by simpa using selected⟩)

variable {egress : Egress} {want : WantedRoutes}

theorem mem_routeEntries {val : WorkloadVal} :
    (key, val) ∈ routeEntries k egress want ↔
      ∃ node, want.lookup key = some node ∧ val = egress.remoteValue node := by
  simp only [routeEntries, List.mem_filterMap, Option.map_eq_some_iff, Shuffle.mem_arrange]
  constructor
  · rintro ⟨_, -, node, found, eq⟩
    cases eq
    exact ⟨node, found, rfl⟩
  rintro ⟨node, found, rfl⟩
  refine ⟨key, AList.mem_keys.1 (AList.lookup_isSome.1 ?_), node, found, rfl⟩
  rw [found]
  rfl

/-- A table after the writes of a push. -/
theorem lookup_writeAll_routeEntries (key : AddrKey) :
    (writeAll (routeEntries k egress want) t).lookup key =
      match want.lookup key with
      | some node => some (egress.remoteValue node)
      | none => t.lookup key := by
  split
  next node found =>
    refine lookup_writeAll_of_mem (mem_routeEntries.2 ⟨node, found, rfl⟩) ?_ t
    intro other mem
    obtain ⟨node', found', rfl⟩ := mem_routeEntries.1 mem
    rw [found] at found'
    cases found'
    rfl
  rename_i gone
  refine lookup_writeAll_of_notMem ?_ t
  intro mem
  obtain ⟨⟨_, val⟩, e, rfl⟩ := List.mem_map.1 mem
  obtain ⟨node, found, -⟩ := mem_routeEntries.1 e
  rw [gone] at found
  cases found

/-- A push without an error: the wanted routes, and the local entries they leave. -/
theorem routes_of_noErrors {mine : Except String (List Addr)} {rs : List Route}
    (clean : (routes k egress mine rs t).errs = []) :
    ∃ own want, mine = .ok own ∧ wantedRoutes own rs = .ok want ∧
      ∀ key val, (routes k egress mine rs t).state.lookup key = some val ↔
        (∃ node, want.lookup key = some node ∧ val = egress.remoteValue node) ∨
          want.lookup key = none ∧ t.lookup key = some val ∧ isLocal val = true := by
  cases mine with
  | error e => cases clean
  | ok own =>
    rw [routes] at clean ⊢
    split at clean
    · cases clean
    rename_i want accepted
    split at clean
    · cases clean
    rename_i fits
    refine ⟨own, want, rfl, accepted, fun key val => ?_⟩
    rw [if_neg fits]
    obtain ⟨wrote, left⟩ := removeEntries_of_noErrors clean
    obtain ⟨-, state⟩ := Progress.each_of_noErrors wrote
    have table : (Progress.each k.conduct routeReport FwdOp.change
        ((routeEntries k egress want).map fun entry => .write entry.1 entry.2)
        { state := t }).state = writeAll (routeEntries k egress want) t := by
      rw [state, List.foldl_map]
      rfl
    rw [left, table, lookup_writeAll_routeEntries]
    cases found : want.lookup key with
    | none => simp
    | some node =>
      constructor
      · rintro ⟨eq, -⟩
        exact .inl ⟨node, rfl, (Option.some.inj eq).symm⟩
      rintro (⟨_, eq, rfl⟩ | ⟨gone, -⟩)
      · cases eq
        exact ⟨rfl, by simp⟩
      · cases gone

end

/-! ## The routes a push stands for -/

/-- A route that names a node other than this one, with the address and the node it names. -/
def Route.Names (r : Route) (own : List Addr) (key : AddrKey) (node : Bytes 4) : Prop :=
  singleAddress r.cidr = .ok key ∧ r.nodeIp ≠ "" ∧
    ∃ a b c d, parseAddr r.nodeIp.toList = .ok (.v4 a b c d) ∧ Addr.v4 a b c d ∉ own ∧
      node = bytes [a, b, c, d]

variable {own : List Addr} {want result : WantedRoutes} {r : Route}

theorem addRoute_spec (added : addRoute own want r = .ok result) :
    result = want ∧ (∀ key node, ¬ r.Names own key node) ∨
      ∃ key node, r.Names own key node ∧ result = want.insert key node := by
  rw [addRoute] at added
  obtain ⟨addr, isAddr, rest⟩ := bind_eq_ok_iff.1 added
  rw [wrap_eq_ok_iff] at isAddr
  split at rest
  next empty => exact .inl ⟨(Except.ok.inj rest).symm, fun key node names => names.2.1 empty⟩
  rename_i named
  obtain ⟨node, isNode, stored⟩ := bind_eq_ok_iff.1 rest
  rw [wrap_eq_ok_iff] at isNode
  cases node with
  | v6 groups whole zone => cases stored
  | v4 a b c d =>
    have res := (Except.ok.inj stored).symm
    split at res
    next ours =>
      refine .inl ⟨res, ?_⟩
      rintro key node ⟨-, -, a', b', c', d', isNode', others, -⟩
      rw [isNode] at isNode'
      cases isNode'
      exact others ours
    next others => exact .inr ⟨addr, _, ⟨isAddr, named, a, b, c, d, isNode, others, rfl⟩, res⟩

theorem Route.Names.unique {key key' : AddrKey} (names : r.Names own key node)
    (names' : r.Names own key' node') : key = key' ∧ node = node' := by
  obtain ⟨isAddr, -, a, b, c, d, isNode, -, rfl⟩ := names
  obtain ⟨isAddr', -, a', b', c', d', isNode', -, rfl⟩ := names'
  rw [isAddr] at isAddr'
  rw [isNode] at isNode'
  cases isAddr'
  cases isNode'
  exact ⟨rfl, rfl⟩

/-- What one route makes of the wanted ones: nothing wanted is lost, and what is new it names. -/
theorem addRoute_lookup (added : addRoute own want r = .ok result) (key : AddrKey) :
    (∀ node, result.lookup key = some node → want.lookup key = some node ∨ r.Names own key node) ∧
      ((∃ node, want.lookup key = some node) ∨ (∃ node, r.Names own key node) →
        ∃ node, result.lookup key = some node) := by
  rcases addRoute_spec added with ⟨rfl, nothing⟩ | ⟨key', node', names, rfl⟩
  · refine ⟨fun node found => .inl found, ?_⟩
    rintro (found | ⟨node, named⟩)
    · exact found
    · exact absurd named (nothing key node)
  by_cases eq : key = key'
  · subst eq
    rw [AList.lookup_insert]
    refine ⟨fun node found => ?_, fun _ => ⟨node', rfl⟩⟩
    cases found
    exact .inr names
  rw [AList.lookup_insert_ne eq]
  refine ⟨fun node found => .inl found, ?_⟩
  rintro (found | ⟨node, named⟩)
  · exact found
  · exact absurd (named.unique names).1 eq

theorem wantedRoutes_spec {rs : List Route} (ok : wantedRoutes own rs = .ok want)
    (key : AddrKey) :
    (∀ node, want.lookup key = some node → ∃ r ∈ rs, r.Names own key node) ∧
      ∀ r ∈ rs, ∀ node, r.Names own key node → ∃ node', want.lookup key = some node' := by
  suffices general : ∀ (rs : List Route) (start : WantedRoutes),
      rs.foldlM (addRoute own) start = .ok want →
      (∀ node, want.lookup key = some node →
        start.lookup key = some node ∨ ∃ r ∈ rs, r.Names own key node) ∧
      ((∃ node, start.lookup key = some node) ∨ (∃ r ∈ rs, ∃ node, r.Names own key node) →
        ∃ node, want.lookup key = some node) by
    obtain ⟨sources, hit⟩ := general rs ∅ ok
    refine ⟨fun node found => ?_, fun r mem node names => hit (.inr ⟨r, mem, node, names⟩)⟩
    exact (sources node found).resolve_left (by simp)
  intro rs
  induction rs with
  | nil =>
    intro start done
    cases done
    exact ⟨fun node found => .inl found, by simp⟩
  | cons r rest ih =>
    intro start done
    rw [List.foldlM_cons] at done
    obtain ⟨next, added, others⟩ := bind_eq_ok_iff.1 done
    obtain ⟨sources, hit⟩ := ih next others
    obtain ⟨stepSources, stepPresent⟩ := addRoute_lookup added key
    constructor
    · intro node found
      rcases sources node found with pre | ⟨r', mem, named⟩
      · rcases stepSources node pre with start | named
        · exact .inl start
        · exact .inr ⟨r, .head _, named⟩
      · exact .inr ⟨r', List.mem_cons_of_mem r mem, named⟩
    rintro (found | ⟨r', mem, named⟩)
    · exact hit (.inl (stepPresent (.inl found)))
    · rcases List.mem_cons.1 mem with rfl | later
      · exact hit (.inl (stepPresent (.inr named)))
      · exact hit (.inr ⟨r', later, named⟩)

/-! ## Pushes among other calls -/

/-- A push, with everything about the host it depends on. -/
structure Push where
  kernel : FwdKernel
  mine : Except String (List Addr)
  routes : List Route

def Push.run (egress : Egress) (push : Push) (t : AddrTable) : Progress AddrTable :=
  Netd.routes push.kernel egress push.mine push.routes t

def Push.Names (push : Push) (key : AddrKey) (node : Bytes 4) : Prop :=
  ∃ own, push.mine = .ok own ∧ ∃ r ∈ push.routes, r.Names own key node

inductive Call where
  | recordLocal (kernel : FwdKernel) (addr : Addr) (ifindex : UInt32)
  | forget (kernel : FwdKernel) (ifindex : UInt32)
  | push (push : Push)

/-- The table after calls, each made whatever became of the one before. -/
def run (egress : Egress) : List Call → AddrTable → AddrTable
  | [], t => t
  | .recordLocal kernel addr ifindex :: rest, t =>
    run egress rest (recordLocal kernel addr ifindex t).state
  | .forget kernel ifindex :: rest, t => run egress rest (forget kernel ifindex t).state
  | .push push :: rest, t => run egress rest (push.run egress t).state

/-- The local entries are as they were, and the others are the routes that name another node. -/
structure Replaces (egress : Egress) (push : Push) (before after : AddrTable) : Prop where
  locals : ∀ key val, isLocal val = true →
    (before.lookup key = some val ↔ after.lookup key = some val)
  remotes : ∀ key val, after.lookup key = some val ∧ isLocal val = false ↔
    ∃ node, push.Names key node ∧ val = egress.remoteValue node

/-- The routes of a push keep apart from the local entries, name real nodes and agree. -/
structure Separate (push : Push) (t : AddrTable) : Prop where
  apart : ∀ key node, push.Names key node → ∀ val, t.lookup key = some val → isLocal val = false
  real : ∀ key node, push.Names key node → node ≠ nowhere
  agree : ∀ key node node', push.Names key node → push.Names key node' → node = node'

theorem replaces_iff {push : Push} {t : AddrTable} (clean : (push.run egress t).errs = []) :
    Replaces egress push t (push.run egress t).state ↔ Separate push t := by
  obtain ⟨own, want, mine, ok, table⟩ := routes_of_noErrors clean
  have names {key : AddrKey} {node : Bytes 4} :
      push.Names key node ↔ ∃ r ∈ push.routes, r.Names own key node := by
    refine ⟨?_, fun named => ⟨own, mine, named⟩⟩
    rintro ⟨own', mine', named⟩
    rw [mine] at mine'
    cases mine'
    exact named
  have wanted {key : AddrKey} {node : Bytes 4} (found : want.lookup key = some node) :
      push.Names key node := names.2 ((wantedRoutes_spec ok key).1 node found)
  have present {key : AddrKey} {node : Bytes 4} (named : push.Names key node) :
      ∃ node', want.lookup key = some node' := by
    obtain ⟨r, mem, named⟩ := names.1 named
    exact (wantedRoutes_spec ok key).2 r mem node named
  change (∀ key val, (push.run egress t).state.lookup key = some val ↔ _) at table
  constructor
  · intro replaces
    have stored {key : AddrKey} {node : Bytes 4} (named : push.Names key node) :
        (push.run egress t).state.lookup key = some (egress.remoteValue node) ∧
          isLocal (egress.remoteValue node) = false :=
      (replaces.remotes key _).2 ⟨node, named, rfl⟩
    refine ⟨fun key node named val found => ?_, fun key node named => ?_,
      fun key node node' named named' => ?_⟩
    · by_contra eq
      have still := (replaces.locals key val (by simpa using eq)).1 found
      rw [(stored named).1] at still
      cases still
      exact eq (stored named).2
    · rintro rfl
      have remote := (stored named).2
      rw [(isLocal_remoteValue egress nowhere).2 rfl] at remote
      cases remote
    · have same := (stored named).1.symm.trans (stored named').1
      exact remoteValue_inj (Option.some.inj same)
  intro separate
  have remote {key : AddrKey} {node : Bytes 4} (named : push.Names key node) :
      isLocal (egress.remoteValue node) = false := by
    rw [Bool.eq_false_iff, ne_eq, isLocal_remoteValue]
    exact separate.real key node named
  refine ⟨fun key val eq => ?_, fun key val => ?_⟩
  · rw [table]
    constructor
    · intro found
      refine .inr ⟨?_, found, eq⟩
      by_contra some_
      obtain ⟨node, isNode⟩ := Option.ne_none_iff_exists'.1 some_
      rw [separate.apart key node (wanted isNode) val found] at eq
      cases eq
    rintro (⟨node, found, rfl⟩ | ⟨-, found, -⟩)
    · rw [remote (wanted found)] at eq
      cases eq
    · exact found
  rw [table]
  constructor
  · rintro ⟨⟨node, found, rfl⟩ | ⟨-, -, eq⟩, hit⟩
    · exact ⟨node, wanted found, rfl⟩
    · rw [eq] at hit
      cases hit
  rintro ⟨node, named, rfl⟩
  obtain ⟨node', found⟩ := present named
  obtain rfl := separate.agree key node node' named (wanted found)
  exact ⟨.inl ⟨node, found, rfl⟩, remote named⟩

/-- **Every push of a run replaces the remote half and nothing else, exactly when each keeps apart
from what is wired here, names real nodes and agrees with itself.** -/
theorem every_push_replaces_iff (egress : Egress) (calls : List Call) (t : AddrTable) :
    (∀ before push after, calls = before ++ .push push :: after →
      (push.run egress (run egress before t)).errs = [] →
        Replaces egress push (run egress before t) (push.run egress (run egress before t)).state) ↔
    ∀ before push after, calls = before ++ .push push :: after →
      (push.run egress (run egress before t)).errs = [] → Separate push (run egress before t) := by
  constructor
  · intro all before push after split clean
    exact (replaces_iff clean).1 (all before push after split clean)
  intro all before push after split clean
  exact (replaces_iff clean).2 (all before push after split clean)

/-! ## An address that is also wired here -/

def willingKernel : FwdKernel := ⟨fun _ _ => none, .inOrder, .inOrder⟩

def wiredAddress : Addr := .v4 10 244 0 7

/-- Another node is said to hold an address that is wired here. -/
def overlappingPush : Push :=
  { kernel := willingKernel, mine := .ok [.v4 10 0 0 1],
    routes := [{ cidr := "10.244.0.7/32", nodeIp := "10.0.0.2" }] }

/-- **A push takes the address of a local workload away.** -/
theorem push_overwrites_local :
    (overlappingPush.run ⟨2, none⟩ (run ⟨2, none⟩
      [.recordLocal willingKernel wiredAddress 9] ∅)).errs =
        [] ∧
      ¬ Replaces ⟨2, none⟩ overlappingPush
        (run ⟨2, none⟩ [.recordLocal willingKernel wiredAddress 9] ∅)
        (overlappingPush.run ⟨2, none⟩
          (run ⟨2, none⟩ [.recordLocal willingKernel wiredAddress 9] ∅)).state := by
  refine ⟨by decide +kernel, fun replaces => ?_⟩
  have kept := (replaces.locals (bytes [10, 244, 0, 7]) (localValue 9) (by decide +kernel)).1
    (by decide +kernel)
  revert kept
  decide +kernel

end Horchestra.Netd
