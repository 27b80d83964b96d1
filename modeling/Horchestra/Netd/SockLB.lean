import Horchestra.Foundations.ByteOrder
import Horchestra.Foundations.Checks
import Horchestra.Foundations.InternetAddresses
import Horchestra.Foundations.KernelMaps
import Mathlib.Algebra.GroupWithZero.Nat

/-!
# The service tables of the socket load balancer

A rule says which backends a cluster address, a port and a protocol balance onto.  The rules of a
push are checked as a whole and laid out in the bytes the kernel's program looks them up by
(`serviceTable`), and the two tables of the kernel are then made equal to them (`services`): every
backend and then the count that names it, the services that are gone, and last the backends that
nothing names any more.  Each operation on a table may fail, in which case the error is kept and
the update carries on.

`serviceTable_eq_ok_iff` says exactly when rules are accepted and what they are laid out as.
-/

namespace Horchestra.Netd

open Foundations ByteOrder Checks Internet KernelMaps
open Foundations.Text

/-! ## Rules -/

structure Backend where
  address : String
  port : Int

structure ServiceRule where
  clusterIp : String
  port : Int
  protocol : String := ""
  backends : List Backend := []

/-- An error with what was being done in front of it. -/
def wrap {α : Type} (what : String) (result : Except String α) : Except String α :=
  result.mapError fun e => what ++ ": " ++ e

@[simp]
theorem wrap_eq_ok_iff {α : Type} {what : String} {res : Except String α} {value : α} :
    wrap what res = .ok value ↔ res = .ok value := by
  cases res <;> simp [wrap, Except.mapError]

def ipprotoTCP : UInt8 := 6

def ipprotoUDP : UInt8 := 17

/-- The kernel's number of a protocol, whose name is read without regard to case. -/
def protocolNumber (p : String) : Except String UInt8 :=
  let upper := p.toList.map Char.toUpper
  if upper = [] ∨ upper = "TCP".toList then .ok ipprotoTCP
  else if upper = "UDP".toList then .ok ipprotoUDP
  else .error ("protocol " ++ quote p ++ " is neither TCP nor UDP")

/-- The four bytes of an IPv4 address, in network order. -/
def address4 (s : String) : Except String (Bytes 4) :=
  match parseAddr s.toList with
  | .error e => .error e
  | .ok (.v4 a b c d) => .ok (bytes [a, b, c, d])
  | .ok (.v6 ..) => .error (s ++ " is not IPv4: this datapath answers on IPv4 only")

def port16 (p : Int) : Except String UInt16 :=
  if p ≤ 0 ∨ 65535 < p then .error ("port " ++ String.ofList (itoa p) ++ " is out of range")
  else .ok (UInt16.ofNat p.toNat)

/-! ## Layouts -/

/-- Address, port, protocol and one byte of padding. -/
abbrev SvcKey := Bytes 8

abbrev SvcVal := Bytes 4

/-- A service, an index and two bytes of padding. -/
abbrev BackendKey := Bytes 12

/-- Address, port and two bytes of padding. -/
abbrev BackendVal := Bytes 8

def serviceKey (ip : Bytes 4) (port : UInt16) (proto : UInt8) : SvcKey :=
  bytes [nth ip 0, nth ip 1, nth ip 2, nth ip 3, nth (be16 port) 0, nth (be16 port) 1, proto, 0]

/-- The index is in the order of the host, unlike everything before it. -/
def backendKey (svc : SvcKey) (index : UInt16) : BackendKey :=
  bytes [nth svc 0, nth svc 1, nth svc 2, nth svc 3, nth svc 4, nth svc 5, nth svc 6, nth svc 7,
    nth (le16 index) 0, nth (le16 index) 1, 0, 0]

def backendValue (ip : Bytes 4) (port : UInt16) : BackendVal :=
  bytes [nth ip 0, nth ip 1, nth ip 2, nth ip 3, nth (be16 port) 0, nth (be16 port) 1, 0, 0]

def serviceValue (count : Nat) : SvcVal := le32 (UInt32.ofNat count)

def serviceOf (key : BackendKey) : SvcKey :=
  bytes [nth key 0, nth key 1, nth key 2, nth key 3, nth key 4, nth key 5, nth key 6, nth key 7]

def indexOf (key : BackendKey) : UInt16 := ofLe16 (bytes [nth key 8, nth key 9])

@[simp]
theorem serviceOf_backendKey (svc : SvcKey) (index : UInt16) :
    serviceOf (backendKey svc index) = svc := by
  apply Vector.ext
  intro i bound
  rcases i with _ | _ | _ | _ | _ | _ | _ | _ | i
  all_goals first | rfl | omega

@[simp]
theorem indexOf_backendKey (svc : SvcKey) (index : UInt16) :
    indexOf (backendKey svc index) = index := by
  have eq : bytes [nth (backendKey svc index) 8, nth (backendKey svc index) 9] = le16 index := by
    apply Vector.ext
    intro i bound
    rcases i with _ | _ | i
    all_goals rfl
  rw [indexOf, eq, ofLe16_le16]

theorem backendKey_inj {svc svc' : SvcKey} {index index' : UInt16} :
    backendKey svc index = backendKey svc' index' ↔ svc = svc' ∧ index = index' := by
  constructor
  · intro eq
    have service := congrArg serviceOf eq
    have place := congrArg indexOf eq
    rw [serviceOf_backendKey, serviceOf_backendKey] at service
    rw [indexOf_backendKey, indexOf_backendKey] at place
    exact ⟨service, place⟩
  rintro ⟨rfl, rfl⟩
  rfl

def formatKey (k : SvcKey) : String :=
  String.ofList (dotted (nth k 0) (nth k 1) (nth k 2) (nth k 3)) ++ ":" ++
    Nat.repr (ofBe16 (bytes [nth k 4, nth k 5])).toNat ++ "/" ++ if nth k 6 = ipprotoUDP then "udp" else "tcp"

/-! ## The table of a request -/

/-- The services of a request, each with its backends. -/
abbrev Wanted := List (SvcKey × List BackendVal)

def encodeBackend (key : SvcKey) (b : Backend) : Except String BackendVal := do
  let bip ← wrap ("backend of " ++ formatKey key) (address4 b.address)
  let bport ← wrap ("backend of " ++ formatKey key) (port16 b.port)
  .ok (backendValue bip bport)

def addRule (want : Wanted) (r : ServiceRule) : Except String Wanted := do
  let proto ← wrap ("service " ++ r.clusterIp ++ ":" ++ String.ofList (itoa r.port))
    (protocolNumber r.protocol)
  let ip ← wrap ("service clusterIP " ++ quote r.clusterIp) (address4 r.clusterIp)
  let port ← wrap ("service " ++ r.clusterIp) (port16 r.port)
  let key := serviceKey ip port proto
  if key ∈ want.map Prod.fst then .error ("service " ++ formatKey key ++ " is named twice")
  else do
    let bes ← r.backends.mapM (encodeBackend key)
    .ok (want ++ [(key, bes)])

def serviceTable (rules : List ServiceRule) : Except String Wanted := rules.foldlM addRule []

/-! ## What is accepted -/

/-- A backend as it is laid out. -/
def Backend.Encodes (b : Backend) (value : BackendVal) : Prop :=
  ∃ ip port, address4 b.address = .ok ip ∧ port16 b.port = .ok port ∧ value = backendValue ip port

/-- A rule whose address, port and protocol are laid out as a key. -/
def ServiceRule.Names (r : ServiceRule) (key : SvcKey) : Prop :=
  ∃ ip port proto, address4 r.clusterIp = .ok ip ∧ port16 r.port = .ok port ∧
    protocolNumber r.protocol = .ok proto ∧ key = serviceKey ip port proto

/-- A rule as it is laid out. -/
structure ServiceRule.Encodes (r : ServiceRule) (entry : SvcKey × List BackendVal) : Prop where
  names : r.Names entry.1
  backends : List.Forall₂ Backend.Encodes r.backends entry.2

theorem encodeBackend_eq_ok_iff {key : SvcKey} {b : Backend} {value : BackendVal} :
    encodeBackend key b = .ok value ↔ b.Encodes value := by
  simp only [encodeBackend, bind_eq_ok_iff, wrap_eq_ok_iff, Except.ok.injEq]
  constructor
  · rintro ⟨ip, isIp, port, isPort, rfl⟩
    exact ⟨ip, port, isIp, isPort, rfl⟩
  rintro ⟨ip, port, isIp, isPort, rfl⟩
  exact ⟨ip, isIp, port, isPort, rfl⟩

theorem mapM_encodeBackend_eq_ok_iff {key : SvcKey} {backends : List Backend}
    {bes : List BackendVal} :
    backends.mapM (encodeBackend key) = .ok bes ↔ List.Forall₂ Backend.Encodes backends bes := by
  rw [mapM_eq_ok_iff_forall₂]
  simp only [encodeBackend_eq_ok_iff]

theorem addRule_eq_ok_iff {want res : Wanted} {r : ServiceRule} :
    addRule want r = .ok res ↔ ∃ e, r.Encodes e ∧ e.1 ∉ want.map Prod.fst ∧ res = want ++ [e] := by
  simp only [addRule, bind_eq_ok_iff, wrap_eq_ok_iff]
  constructor
  · rintro ⟨proto, isProto, ip, isIp, port, isPort, added⟩
    split at added
    · cases added
    rename_i new
    obtain ⟨bes, encoded, whole⟩ := bind_eq_ok_iff.1 added
    cases whole
    exact ⟨(_, bes), ⟨⟨ip, port, proto, isIp, isPort, isProto, rfl⟩,
      mapM_encodeBackend_eq_ok_iff.1 encoded⟩, new, rfl⟩
  rintro ⟨⟨key, bes⟩, ⟨⟨ip, port, proto, isIp, isPort, isProto, rfl⟩, encoded⟩, new, rfl⟩
  refine ⟨proto, isProto, ip, isIp, port, isPort, ?_⟩
  rw [if_neg new]
  exact bind_eq_ok_iff.2 ⟨bes, mapM_encodeBackend_eq_ok_iff.2 encoded, rfl⟩

theorem foldlM_addRule_eq_ok_iff {rules : List ServiceRule} {want res : Wanted}
    (nodup : (want.map Prod.fst).Nodup) :
    rules.foldlM addRule want = .ok res ↔
      ∃ added, res = want ++ added ∧ List.Forall₂ ServiceRule.Encodes rules added ∧
        (res.map Prod.fst).Nodup := by
  induction rules generalizing want with
  | nil =>
    constructor
    · intro eq
      cases eq
      exact ⟨[], (List.append_nil _).symm, .nil, nodup⟩
    rintro ⟨added, rfl, encodes, -⟩
    cases encodes
    rw [List.append_nil]
    rfl
  | cons r rest ih =>
    have snoc {e : SvcKey × List BackendVal} :
        ((want ++ [e]).map Prod.fst).Nodup ↔ e.1 ∉ want.map Prod.fst := by
      rw [List.map_append, List.map_singleton, ← List.concat_eq_append, List.nodup_concat]
      exact and_iff_left nodup
    rw [List.foldlM_cons, bind_eq_ok_iff]
    constructor
    · rintro ⟨next, addedRule, others⟩
      obtain ⟨e, encodes, new, rfl⟩ := addRule_eq_ok_iff.1 addedRule
      obtain ⟨added, rfl, encodesRest, distinctAll⟩ := (ih (snoc.2 new)).1 others
      exact ⟨e :: added, by simp, .cons encodes encodesRest, distinctAll⟩
    rintro ⟨added, rfl, encodes, distinctAll⟩
    cases encodes with
    | cons first others =>
      rename_i e added
      have new : e.1 ∉ want.map Prod.fst := by
        rw [← snoc]
        refine distinctAll.sublist (List.Sublist.map _ ?_)
        exact List.Sublist.append_left (List.singleton_sublist.2 (by simp)) want
      exact ⟨want ++ [e], addRule_eq_ok_iff.2 ⟨e, first, new, rfl⟩,
        (ih (snoc.2 new)).2 ⟨added, by simp, others, distinctAll⟩⟩

/-- **Rules are accepted exactly when each can be laid out and no two have one key.** -/
theorem serviceTable_eq_ok_iff {rules : List ServiceRule} {want : Wanted} :
    serviceTable rules = .ok want ↔
      List.Forall₂ ServiceRule.Encodes rules want ∧ (want.map Prod.fst).Nodup := by
  rw [serviceTable, foldlM_addRule_eq_ok_iff (by simp)]
  constructor
  · rintro ⟨added, rfl, encodes, nodup⟩
    exact ⟨encodes, nodup⟩
  rintro ⟨encodes, nodup⟩
  exact ⟨want, rfl, encodes, nodup⟩

/-! ## The tables of the kernel -/

def maxServices : Nat := 4096

def maxBackends : Nat := 65536

/-- The two tables the kernel's program reads. -/
structure Maps where
  services : Table SvcKey SvcVal
  backends : Table BackendKey BackendVal

inductive Op where
  | writeBackend (svc : SvcKey) (index : Nat) (be : BackendVal)
  | writeService (svc : SvcKey) (count : Nat)
  | readServices
  | deleteService (svc : SvcKey)
  | readBackends
  | deleteBackend (key : BackendKey)

def Op.change : Op → Maps → Maps
  | .writeBackend svc index be, m =>
    { m with backends := m.backends.insert (backendKey svc (UInt16.ofNat index)) be }
  | .writeService svc count, m => { m with services := m.services.insert svc (serviceValue count) }
  | .deleteService svc, m => { m with services := m.services.erase svc }
  | .deleteBackend key, m => { m with backends := m.backends.erase key }
  | .readServices, m => m
  | .readBackends, m => m

def Op.report : Op → String → String
  | .writeBackend svc index _, err =>
    "backend " ++ Nat.repr index ++ " of " ++ formatKey svc ++ ": " ++ err
  | .writeService svc _, err => "service " ++ formatKey svc ++ ": " ++ err
  | .readServices, err => "read the service table: " ++ err
  | .deleteService svc, err => "remove service " ++ formatKey svc ++ ": " ++ err
  | .readBackends, err => "read the backend table: " ++ err
  | .deleteBackend _, err => "remove a backend: " ++ err

/-- The orders in which an update goes through what it has to do and what it finds. -/
structure Orders where
  wanted : Shuffle (SvcKey × List BackendVal)
  services : Shuffle SvcKey
  backends : Shuffle BackendKey

/-- The backends of a service, and then their number. -/
def serviceOps (entry : SvcKey × List BackendVal) : List Op :=
  (entry.2.zipIdx.map fun be => Op.writeBackend entry.1 be.2 be.1) ++
    [.writeService entry.1 entry.2.length]

def staleServices (orders : Orders) (want : Wanted) (m : Maps) : List SvcKey :=
  (orders.services.arrange m.services.keys).filter fun key => key ∉ want.map Prod.fst

/-- A backend the new table does not cover. -/
def uncovered (want : Wanted) (key : BackendKey) : Bool :=
  match want.find? fun entry => entry.1 == serviceOf key with
  | none => true
  | some entry => entry.2.length ≤ (indexOf key).toNat

def staleBackends (orders : Orders) (want : Wanted) (m : Maps) : List BackendKey :=
  (orders.backends.arrange m.backends.keys).filter (uncovered want)

/-- How the kernel answers an operation: with an error, or by performing it. -/
abbrev Conduct := Maps → Op → Option String

section

variable (conduct : Conduct) (orders : Orders)

abbrev perform (ops : List Op) (p : Progress Maps) : Progress Maps :=
  Progress.each conduct Op.report Op.change ops p

def reclaimBackends (want : Wanted) (p : Progress Maps) : Progress Maps :=
  match conduct p.state .readBackends with
  | some err => { p with errs := p.errs ++ [Op.report .readBackends err] }
  | none => perform conduct ((staleBackends orders want p.state).map .deleteBackend) p

/-- The tables made equal to the wanted services. -/
def replaceServices (want : Wanted) (m : Maps) : Progress Maps :=
  let p := perform conduct ((orders.wanted.arrange want).flatMap serviceOps) { state := m }
  match conduct p.state .readServices with
  | some err => { p with errs := p.errs ++ [Op.report .readServices err] }
  | none =>
    reclaimBackends conduct orders want
      (perform conduct ((staleServices orders want p.state).map .deleteService) p)

def totalBackends (want : Wanted) : Nat := (want.map fun entry => entry.2.length).sum

def services (rules : List ServiceRule) (m : Maps) : Progress Maps :=
  match serviceTable rules with
  | .error e => { state := m, errs := [e] }
  | .ok want =>
    if maxServices < (UInt32.ofNat want.length).toNat then
      { state := m, errs := [Nat.repr want.length ++ " services exceed the datapath's capacity of " ++
        Nat.repr maxServices] }
    else if maxBackends < (UInt32.ofNat (totalBackends want)).toNat then
      { state := m, errs := [Nat.repr (totalBackends want) ++
        " backends exceed the datapath's capacity of " ++ Nat.repr maxBackends] }
    else replaceServices conduct orders want m

end

end Horchestra.Netd
