import Horchestra.Netd.Holes
import Mathlib.Algebra.Order.BigOperators.Group.List
import Mathlib.Algebra.Order.Group.Nat

/-!
# What the kernel's program makes of the tables

The program runs on every connection: it lays the destination out as a key of its own, looks the
service up, draws an index below its count, looks the backend up and replaces the destination.  It
reads and writes the integers of C structures where the update writes bytes, so the two agree only
if the layouts do.

`rewrite_reaches_backends`: after an update that reports no error, whatever the tables held before,
a destination that no rule with a backend names is left as it is, and one that a rule names is
replaced by a backend of that rule, each of which some draw picks.
-/

namespace Horchestra.Netd

open Foundations ByteOrder Checks KernelMaps

/-! ## The program -/

/-- The fields of a connection the program reads and writes, as the integers it sees. -/
structure SockAddr where
  userIp4 : UInt32
  userPort : UInt32
  protocol : UInt32

/-- `struct svc_key` in memory. -/
def svcKeyImage (address : UInt32) (port : UInt16) (protocol pad : UInt8) : SvcKey :=
  bytes [nth (le32 address) 0, nth (le32 address) 1, nth (le32 address) 2, nth (le32 address) 3,
    nth (le16 port) 0, nth (le16 port) 1, protocol, pad]

/-- `struct backend_key` in memory. -/
def backendKeyImage (service : SvcKey) (index pad : UInt16) : BackendKey :=
  bytes [nth service 0, nth service 1, nth service 2, nth service 3, nth service 4, nth service 5,
    nth service 6, nth service 7, nth (le16 index) 0, nth (le16 index) 1, nth (le16 pad) 0, nth (le16 pad) 1]

/-- The fields of `struct backend`, read from memory. -/
def backendAddress (be : BackendVal) : UInt32 := ofLe32 (bytes [nth be 0, nth be 1, nth be 2, nth be 3])

def backendPort (be : BackendVal) : UInt16 := ofLe16 (bytes [nth be 4, nth be 5])

def rewrite (m : Maps) (draw : UInt32) (ctx : SockAddr) : SockAddr :=
  if ctx.protocol ≠ ipprotoTCP.toUInt32 ∧ ctx.protocol ≠ ipprotoUDP.toUInt32 then ctx
  else
    let key := svcKeyImage ctx.userIp4 ctx.userPort.toUInt16 ctx.protocol.toUInt8 0
    match m.services.lookup key with
    | none => ctx
    | some val =>
      if ofLe32 val = 0 then ctx
      else
        match m.backends.lookup (backendKeyImage key (draw % ofLe32 val).toUInt16 0) with
        | none => ctx
        | some be =>
          { ctx with userIp4 := backendAddress be, userPort := (backendPort be).toUInt32 }

/-- A destination as the kernel presents it: the address and the port in network order. -/
def destination (ip : Bytes 4) (port : UInt16) (protocol : UInt32) : SockAddr :=
  ⟨ofLe32 ip, (ofLe16 (be16 port)).toUInt32, protocol⟩

/-! ## Layouts -/

/-- The key the program makes of a destination is the one the update writes. -/
theorem svcKeyImage_destination (ip : Bytes 4) (port : UInt16) (proto : UInt8) :
    svcKeyImage (destination ip port proto.toUInt32).userIp4
        (destination ip port proto.toUInt32).userPort.toUInt16
        (destination ip port proto.toUInt32).protocol.toUInt8 0 = serviceKey ip port proto := by
  have addr : le32 (ofLe32 ip) = ip := le32_ofLe32 ip
  have place : le16 ((ofLe16 (be16 port)).toUInt32.toUInt16) = be16 port := by
    rw [UInt16.toUInt16_toUInt32, le16_ofLe16]
  rw [svcKeyImage, serviceKey]
  dsimp only [destination]
  rw [addr, place, UInt8.toUInt8_toUInt32]

/-- What the program reads of a backend is what the update wrote. -/
theorem destination_backendValue (ip : Bytes 4) (port : UInt16) (protocol : UInt32) :
    (⟨backendAddress (backendValue ip port), (backendPort (backendValue ip port)).toUInt32,
      protocol⟩ : SockAddr) = destination ip port protocol := by
  have addr : backendAddress (backendValue ip port) = ofLe32 ip :=
    congrArg ofLe32 (bytes4_eta ip)
  have place : backendPort (backendValue ip port) = ofLe16 (be16 port) :=
    congrArg ofLe16 (bytes2_eta (be16 port))
  rw [addr, place, destination]

theorem backendAddress_serviceKey (ip : Bytes 4) (port : UInt16) (proto : UInt8) :
    backendAddress (serviceKey ip port proto) = ofLe32 ip :=
  congrArg ofLe32 (bytes4_eta ip)

theorem backendPort_serviceKey (ip : Bytes 4) (port : UInt16) (proto : UInt8) :
    backendPort (serviceKey ip port proto) = ofLe16 (be16 port) :=
  congrArg ofLe16 (bytes2_eta (be16 port))

theorem serviceKey_inj {ip ip' : Bytes 4} {port port' : UInt16} {proto proto' : UInt8} :
    serviceKey ip port proto = serviceKey ip' port' proto' ↔
      ip = ip' ∧ port = port' ∧ proto = proto' := by
  constructor
  · intro eq
    have addr := congrArg backendAddress eq
    have place := congrArg backendPort eq
    rw [backendAddress_serviceKey, backendAddress_serviceKey] at addr
    rw [backendPort_serviceKey, backendPort_serviceKey] at place
    refine ⟨?_, ?_, congrArg (nth · 6) eq⟩
    · rw [← le32_ofLe32 ip, addr, le32_ofLe32]
    · rw [← ofBe16_be16 port, ← le16_ofLe16 (be16 port), place, le16_ofLe16, ofBe16_be16]
  rintro ⟨rfl, rfl, rfl⟩
  rfl

/-! ## The tables after an update without an error -/

def noFaults : Faults := fun _ => none

section

variable {conduct : Conduct} {orders : Orders} {want : Wanted} {m : Maps}

theorem perform_of_noErrors {ops : List Op} {p : Progress Maps}
    (clean : (perform conduct ops p).errs = []) :
    p.errs = [] ∧ (perform conduct ops p).state = after noFaults ops p.state := by
  obtain ⟨pre, state⟩ := Progress.each_of_noErrors clean
  refine ⟨pre, state.trans ?_⟩
  simp [after, Progress.performed, noFaults]

theorem replaceServices_of_noErrors (clean : (replaceServices conduct orders want m).errs = []) :
    (replaceServices conduct orders want m).state =
      after noFaults (reclaims noFaults orders want m) (removed noFaults orders want m) := by
  rw [replaceServices] at clean ⊢
  split at clean
  · simp at clean
  rw [reclaimBackends] at clean ⊢
  split at clean
  · simp at clean
  obtain ⟨removing, last⟩ := perform_of_noErrors clean
  obtain ⟨writing, second⟩ := perform_of_noErrors removing
  obtain ⟨-, first⟩ := perform_of_noErrors writing
  rw [last, second, first]

variable (distinct : (want.map Prod.fst).Nodup)

include distinct

theorem lookup_services_replaced {svc : SvcKey} {val : SvcVal} :
    (after noFaults (reclaims noFaults orders want m)
        (removed noFaults orders want m)).services.lookup svc = some val ↔
      ∃ bes, (svc, bes) ∈ want ∧ val = serviceValue bes.length := by
  rw [after_reclaiming, lookup_removed_iff distinct]
  constructor
  · rintro (⟨bes, mem, -, v⟩ | ⟨-, stuck⟩)
    · exact ⟨bes, mem, v⟩
    · by_cases wanted : svc ∈ want.map Prod.fst
      · obtain ⟨⟨_, bes⟩, mem, rfl⟩ := List.mem_map.1 wanted
        exact absurd rfl (stuck.1 bes mem)
      · exact absurd rfl (stuck.2 wanted)
  rintro ⟨bes, mem, v⟩
  exact .inl ⟨bes, mem, rfl, v⟩

theorem lookup_backends_replaced {svc : SvcKey} {bes : List BackendVal} (mem : (svc, bes) ∈ want)
    (fits : bes.length ≤ 65536) {j : Nat} {be : BackendVal} (place : bes[j]? = some be) :
    (after noFaults (reclaims noFaults orders want m)
        (removed noFaults orders want m)).backends.lookup (backendKey svc (UInt16.ofNat j)) =
      some be := by
  obtain ⟨below, -⟩ := List.getElem?_eq_some_iff.1 place
  have wrote : (removed noFaults orders want m).backends.lookup
      (backendKey svc (UInt16.ofNat j)) = some be := by
    rw [removed, after_removing]
    refine lookup_backends_after_of_written writes_flatMap_serviceOps
      (writeBackend_mem_flatMap.2 ⟨bes, orders.wanted.mem_arrange.2 mem, place⟩) rfl ?_
    intro svc' j' be' inWrites eq
    obtain ⟨rfl, index⟩ := backendKey_inj.1 eq
    obtain ⟨bes', member', place'⟩ := writeBackend_mem_flatMap.1 inWrites
    obtain rfl := bes_eq distinct mem (orders.wanted.mem_arrange.1 member')
    obtain ⟨below', -⟩ := List.getElem?_eq_some_iff.1 place'
    have equal : j = j' := by
      have numbers := congrArg UInt16.toNat index
      rw [UInt16.toNat_ofNat', UInt16.toNat_ofNat'] at numbers
      omega
    subst equal
    exact Option.mem_unique place' place
  have covered : uncovered want (backendKey svc (UInt16.ofNat j)) = false := by
    rw [uncovered_backendKey distinct mem, decide_eq_false_iff_not, UInt16.toNat_ofNat']
    omega
  -- Nothing that is removed at the end is a backend the new table names.
  rw [reclaims, after_reclaiming, lookup_dropAll, if_neg, wrote]
  intro stale
  have free := (mem_staleBackends.1 (List.mem_filter.1 stale).1).2
  rw [covered] at free
  cases free

end

/-! ## Where a connection goes -/

/-- The destination a rule is for. -/
def ServiceRule.IsFor (r : ServiceRule) (ip : Bytes 4) (port : UInt16) (protocol : UInt32) : Prop :=
  address4 r.clusterIp = .ok ip ∧ port16 r.port = .ok port ∧
    ∃ proto, protocolNumber r.protocol = .ok proto ∧ protocol = proto.toUInt32

/-- The destination a backend stands for. -/
def Backend.IsAt (b : Backend) (ip : Bytes 4) (port : UInt16) : Prop :=
  address4 b.address = .ok ip ∧ port16 b.port = .ok port

theorem protocolNumber_cases {name : String} {proto : UInt8}
    (known : protocolNumber name = .ok proto) : proto = ipprotoTCP ∨ proto = ipprotoUDP := by
  rw [protocolNumber] at known
  split at known
  · exact .inl (Except.ok.inj known).symm
  split at known
  · exact .inr (Except.ok.inj known).symm
  · cases known

section

variable {m : Maps} {ip : Bytes 4} {port : UInt16} {proto : UInt8}

theorem rewrite_destination (known : proto = ipprotoTCP ∨ proto = ipprotoUDP) (draw : UInt32) :
    rewrite m draw (destination ip port proto.toUInt32) =
      match m.services.lookup (serviceKey ip port proto) with
      | none => destination ip port proto.toUInt32
      | some val =>
        if ofLe32 val = 0 then destination ip port proto.toUInt32
        else
          match m.backends.lookup
              (backendKey (serviceKey ip port proto) (draw % ofLe32 val).toUInt16) with
          | none => destination ip port proto.toUInt32
          | some be => ⟨backendAddress be, (backendPort be).toUInt32, proto.toUInt32⟩ := by
  have ours : ¬ ((destination ip port proto.toUInt32).protocol ≠ ipprotoTCP.toUInt32 ∧
      (destination ip port proto.toUInt32).protocol ≠ ipprotoUDP.toUInt32) := by
    rcases known with rfl | rfl <;> simp [destination]
  -- The padding is zero on both sides, so the keys of the backends are the same bytes.
  rw [rewrite, if_neg ours, svcKeyImage_destination]
  rfl

theorem rewrite_of_backends (known : proto = ipprotoTCP ∨ proto = ipprotoUDP)
    {bes : List BackendVal} (some_ : bes ≠ []) (fits : bes.length ≤ 65536)
    (count : m.services.lookup (serviceKey ip port proto) = some (serviceValue bes.length))
    (hit : ∀ j be, bes[j]? = some be →
      m.backends.lookup (backendKey (serviceKey ip port proto) (UInt16.ofNat j)) = some be)
    (draw : UInt32) {be : BackendVal} (place : bes[draw.toNat % bes.length]? = some be) :
    rewrite m draw (destination ip port proto.toUInt32) =
      ⟨backendAddress be, (backendPort be).toUInt32, proto.toUInt32⟩ := by
  have pos : 0 < bes.length := List.length_pos_iff.2 some_
  have number : (UInt32.ofNat bes.length).toNat = bes.length := by
    rw [UInt32.toNat_ofNat']
    omega
  have nonzero : UInt32.ofNat bes.length ≠ 0 := by
    intro zero
    have v := congrArg UInt32.toNat zero
    rw [number] at v
    exact absurd v (by simpa using some_)
  have index : (draw % UInt32.ofNat bes.length).toUInt16 = UInt16.ofNat (draw.toNat % bes.length) := by
    rw [← UInt16.toNat_inj, UInt32.toNat_toUInt16, UInt32.toNat_mod, number, UInt16.toNat_ofNat']
  rw [rewrite_destination known, count]
  dsimp only
  rw [ofLe32_serviceValue, if_neg nonzero, index, hit _ be place]

end

theorem services_of_noErrors {conduct : Conduct} {orders : Orders} {rules : List ServiceRule}
    {m : Maps} (clean : (services conduct orders rules m).errs = []) :
    ∃ want, serviceTable rules = .ok want ∧ (services conduct orders rules m).state =
      after noFaults (reclaims noFaults orders want m) (removed noFaults orders want m) := by
  rw [services] at clean ⊢
  split at clean
  · cases clean
  rename_i want ok
  split at clean
  · cases clean
  split at clean
  · cases clean
  refine ⟨want, ok, ?_⟩
  rename_i few fits
  rw [if_neg few, if_neg fits]
  exact replaceServices_of_noErrors clean

theorem rewrite_reaches_backends (conduct : Conduct) (orders : Orders) (rules : List ServiceRule)
    (m : Maps) (clean : (services conduct orders rules m).errs = [])
    (fits : (rules.map fun r => r.backends.length).sum ≤ maxBackends)
    (ip : Bytes 4) (port : UInt16) (protocol : UInt32) :
    ((∀ r ∈ rules, r.backends ≠ [] → ¬ r.IsFor ip port protocol) → ∀ draw,
      rewrite (services conduct orders rules m).state draw (destination ip port protocol) =
        destination ip port protocol) ∧
    ∀ r ∈ rules, r.backends ≠ [] → r.IsFor ip port protocol →
      (∀ draw, ∃ b ∈ r.backends, ∃ bip bport, b.IsAt bip bport ∧
        rewrite (services conduct orders rules m).state draw (destination ip port protocol) =
          destination bip bport protocol) ∧
      ∀ b ∈ r.backends, ∃ draw bip bport, b.IsAt bip bport ∧
        rewrite (services conduct orders rules m).state draw (destination ip port protocol) =
          destination bip bport protocol := by
  obtain ⟨want, accepted, state⟩ := services_of_noErrors clean
  obtain ⟨encoded, distinct⟩ := serviceTable_eq_ok_iff.1 accepted
  rw [state]
  constructor
  · intro nobody draw
    by_cases known : protocol = ipprotoTCP.toUInt32 ∨ protocol = ipprotoUDP.toUInt32
    · obtain ⟨proto, ours, rfl⟩ : ∃ proto, (proto = ipprotoTCP ∨ proto = ipprotoUDP) ∧
          protocol = proto.toUInt32 := by
        rcases known with rfl | rfl
        · exact ⟨_, .inl rfl, rfl⟩
        · exact ⟨_, .inr rfl, rfl⟩
      rw [rewrite_destination ours]
      split
      · rfl
      rename_i val found
      obtain ⟨bes, member, rfl⟩ := (lookup_services_replaced distinct).1 found
      obtain ⟨i, place⟩ := List.mem_iff_getElem?.1 member
      obtain ⟨r, inRules, encodes⟩ := (exists_getElem?_of_forall₂ encoded i).2 _ place
      obtain ⟨ip', port', proto', isIp, isPort, isProto, same⟩ := encodes.names
      obtain ⟨rfl, rfl, rfl⟩ := serviceKey_inj.1 same
      have empty : r.backends = [] := by
        by_contra some_
        exact nobody r (List.mem_iff_getElem?.2 ⟨i, inRules⟩) some_
          ⟨isIp, isPort, _, isProto, rfl⟩
      have none : bes = [] := by
        have lengths := encodes.backends.length_eq
        rw [empty] at lengths
        exact List.length_eq_zero_iff.1 lengths.symm
      rw [if_pos (by rw [none]; decide)]
    · exact if_pos (not_or.1 known)
  rintro r inRules some_ ⟨isIp, isPort, proto, isProto, rfl⟩
  obtain ⟨i, place⟩ := List.mem_iff_getElem?.1 inRules
  obtain ⟨⟨key, bes⟩, listed, encodes⟩ := (exists_getElem?_of_forall₂ encoded i).1 _ place
  have member := List.mem_iff_getElem?.2 ⟨i, listed⟩
  have lengths : r.backends.length = bes.length := encodes.backends.length_eq
  have known := protocolNumber_cases isProto
  obtain rfl : key = serviceKey ip port proto := by
    obtain ⟨ip', port', proto', isIp', isPort', isProto', rfl⟩ := encodes.names
    cases isIp.symm.trans isIp'
    cases isPort.symm.trans isPort'
    cases isProto.symm.trans isProto'
    rfl
  have small : bes.length ≤ 65536 := by
    rw [← lengths]
    have listed : r.backends.length ∈ rules.map fun r => r.backends.length :=
      List.mem_map_of_mem inRules
    exact Nat.le_trans (List.le_sum_of_mem listed) fits
  have some' : bes ≠ [] := by
    rw [← List.length_pos_iff, ← lengths]
    exact List.length_pos_iff.2 some_
  have goes := rewrite_of_backends (m := after noFaults (reclaims noFaults orders want m)
    (removed noFaults orders want m)) known some' small
    ((lookup_services_replaced distinct).2 ⟨bes, member, rfl⟩)
    fun j be at_ => lookup_backends_replaced distinct member small at_
  have positive : 0 < bes.length := List.length_pos_iff.2 some'
  constructor
  · intro draw
    have below : draw.toNat % bes.length < bes.length := Nat.mod_lt _ positive
    have there : bes[draw.toNat % bes.length]? = some bes[draw.toNat % bes.length] :=
      List.getElem?_eq_getElem below
    obtain ⟨b, at_, bip, bport, isBip, isBport, value⟩ :=
      (exists_getElem?_of_forall₂ encodes.backends _).2 _ there
    refine ⟨b, List.mem_iff_getElem?.2 ⟨_, at_⟩, bip, bport, ⟨isBip, isBport⟩, ?_⟩
    rw [goes draw there, value, destination_backendValue]
  intro b inBackends
  obtain ⟨j, at_⟩ := List.mem_iff_getElem?.1 inBackends
  obtain ⟨be, there, bip, bport, isBip, isBport, rfl⟩ :=
    (exists_getElem?_of_forall₂ encodes.backends j).1 _ at_
  obtain ⟨below, -⟩ := List.getElem?_eq_some_iff.1 there
  have drawn : (UInt32.ofNat j).toNat % bes.length = j := by
    have bound : j < 2 ^ 32 := Nat.lt_of_lt_of_le below (Nat.le_trans small (by decide))
    rw [UInt32.toNat_ofNat', Nat.mod_eq_of_lt bound, Nat.mod_eq_of_lt below]
  refine ⟨UInt32.ofNat j, bip, bport, ⟨isBip, isBport⟩, ?_⟩
  rw [goes (UInt32.ofNat j) (by rw [drawn]; exact there), destination_backendValue]

/-- A service that is programmed onto empty tables. -/
theorem web_connection_reaches_backend :
    (services (fun _ => noFaults) plainOrders [webRule] emptyMaps).errs = [] ∧
      ∃ b ∈ webRule.backends, ∃ bip bport, b.IsAt bip bport ∧
        rewrite (services (fun _ => noFaults) plainOrders [webRule] emptyMaps).state 7
            (destination (bytes [10, 243, 0, 1]) 80 ipprotoTCP.toUInt32) =
          destination bip bport ipprotoTCP.toUInt32 := by
  have clean : (services (fun _ => noFaults) plainOrders [webRule] emptyMaps).errs = [] := by
    decide +kernel
  have isFor : webRule.IsFor (bytes [10, 243, 0, 1]) 80 ipprotoTCP.toUInt32 :=
    ⟨by decide +kernel, by decide +kernel, ipprotoTCP, by decide +kernel, rfl⟩
  exact ⟨clean, ((rewrite_reaches_backends _ plainOrders [webRule] emptyMaps clean (by decide) _ _ _).2
    webRule (by simp) (by decide) isFor).1 7⟩

end Horchestra.Netd
