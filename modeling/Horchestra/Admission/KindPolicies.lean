import Horchestra.Admission.References
import Horchestra.AppSet.Expand
import Horchestra.Authz.Policy

/-!
# Admission of the other kinds

The plugins that look at secrets, certificate requests, nodes, services and application sets,
each by itself.  What they take from libraries is a parameter: addresses and ranges of
addresses, the parsing of a certificate request, the feature gates of the deployment and the
digests of the set renderer.  None of them rewrites an application or a namespace.

The address a service is given by one plugin is judged by another: `allocated_address_passes`.
-/

namespace Horchestra.Admission

open Api Storage Authz Foundations Text Checks

/-! ## Secrets -/

def maxSecretBytes : Nat := 2 ^ 20

def annExternalSecretPath : String := "secrets.horchestra.io/path"
def annExternalSecretStaticRole : String := "secrets.horchestra.io/static-role"
def annExternalSecretDynamicRole : String := "secrets.horchestra.io/dynamic-role"

/-- The write-only text values folded into the data, and an empty type made opaque. -/
def foldStringData (sec : Secret) : Secret :=
  { sec with
    type := if sec.type = "" then secretTypeOpaque else sec.type
    data := sec.stringData.foldl (fun data key value => data.insert key value.toUTF8.toList) sec.data
    stringData := ∅ }

/-- The places a vault secret can name its value, with the gate each one needs. -/
def vaultSources (sec : Secret) : List (String × Option String × String) :=
  [(annExternalSecretPath, none, trimSpace (sec.metadata.annValue annExternalSecretPath)),
    (annExternalSecretStaticRole, some "VaultStaticRoles",
      trimSpace (sec.metadata.annValue annExternalSecretStaticRole)),
    (annExternalSecretDynamicRole, some "VaultDynamicSecrets",
      trimSpace (sec.metadata.annValue annExternalSecretDynamicRole))]

/-- A vault secret names exactly one source, and one the deployment admits. -/
def validateVaultSource (gates : String → Bool) (sec : Secret) : Except AdmissionError Unit :=
  match (vaultSources sec).filter fun source => source.2.2 ≠ "" with
  | [] =>
    .error (.invalid ("annotations: a " ++ secretTypeVault ++ " secret names its value with " ++
      annExternalSecretPath ++ ", " ++ annExternalSecretStaticRole ++ " or " ++
      annExternalSecretDynamicRole))
  | [(_, none, _)] => .ok ()
  | [(ann, some gate, value)] =>
    if !gates gate then
      .error (.forbidden ("annotation " ++ ann ++ " needs the " ++ gate ++
        " feature gate, which this cluster does not have on (--feature-gates=" ++ gate ++ "=true)"))
    else
      match parseEngineRole value with
      | .ok _ => .ok ()
      | .error e => .error (.invalid ("annotation " ++ ann ++ ": " ++ e))
  | (first, _) :: (second, _) :: _ =>
    .error (.invalid ("annotations: " ++ first ++ " and " ++ second ++
      " are mutually exclusive — a secret names ONE source"))

def secretSize (sec : Secret) : Nat :=
  (sec.data.toList.map fun (key, value) => key.utf8ByteSize + value.length).sum

def checkImmutable (old sec : Secret) : Except String Unit :=
  if old.immutable = some true then
    andThen (require (sec.immutable == some true)
      "immutable: the immutable flag may not be cleared")
      (require (decide (old.data = sec.data))
        "data: secret is immutable and its data may not change")
  else .ok ()

def checkSecret (gates : String → Bool) (op : Operation) (old : Option Secret) (sec : Secret) :
    Except AdmissionError Unit :=
  andThen
    (if sec.type = secretTypeVault then
      andThen (require sec.data.isEmpty (.invalid ("type " ++ quote secretTypeVault ++
        " carries no inline data: the value is fetched from the secret store")))
        (validateVaultSource gates sec)
    else .ok ()) <|
  andThen (invalid (checkAll (fun key => within "data" (validBaseName key "key")) sec.data.keys)) <|
  andThen (require (decide (secretSize sec ≤ maxSecretBytes))
    (.invalid ("data: secret size " ++ Nat.repr (secretSize sec) ++ " exceeds the " ++
      Nat.repr maxSecretBytes ++ "-byte limit"))) <|
  match op, old with
  | .update, some old => invalid (checkImmutable old sec)
  | _, _ => .ok ()

def secretPolicy (gates : String → Bool) : Plugin where
  admitPass
    | .secret, _, a => .ok (foldStringData a.object)
    | _, _, a => .ok a.object
  validate
    | .secret, _, a =>
      if a.operation = .delete || a.isSubresource then .ok ()
      else checkSecret gates a.operation a.oldObject a.object
    | _, _, _ => .ok ()

/-! ## Certificate requests -/

def annRequester : String := "certificates.horchestra.io/requester"
def annRequesterGroups : String := "certificates.horchestra.io/requester-groups"
def csrPending : String := "Pending"

def preserveRequester (m old : ObjectMeta) : ObjectMeta :=
  { m with annotations := [annRequester, annRequesterGroups].foldl (fun annotations key =>
      match old.annotations[key]? with
      | some value => annotations.insert key value
      | none => annotations.erase key) m.annotations }

def stampRequester (identity : Option Identity) (m : ObjectMeta) : ObjectMeta :=
  match identity with
  | none => m
  | some id =>
    let named := m.annotations.insert annRequester id.name
    { m with annotations := named.insert annRequesterGroups (",".intercalate id.groups) }

def admitCSR (identity : Option Identity) (a : Attributes .certificateSigningRequest) :
    Except AdmissionError CertificateSigningRequest :=
  let csr : CertificateSigningRequest := a.object
  if a.isSubresource then .ok csr
  else
    match a.operation, a.oldObject with
    | .update, some old =>
      let old : CertificateSigningRequest := old
      if csr.spec.request ≠ old.spec.request || csr.spec.nodeName ≠ old.spec.nodeName then
        .error (.forbidden "spec.request and spec.nodeName are immutable after creation")
      else .ok { csr with
        metadata := preserveRequester csr.metadata old.metadata
        status := old.status }
    | .create, _ =>
      .ok { csr with
        metadata := stampRequester identity csr.metadata
        status := { phase := csrPending } }
    | _, _ => .ok csr

/-- `parse` decodes and verifies a signing request. -/
def csrPolicy (parse : List UInt8 → Except String Unit) : Plugin where
  admitPass
    | .certificateSigningRequest, ctx, a => admitCSR ctx.identity a
    | _, _, a => .ok a.object
  validate
    | .certificateSigningRequest, _, a =>
      if a.operation = .delete then .ok ()
      else invalid (parse (CertificateSigningRequest.spec a.object).request)
    | _, _, _ => .ok ()

/-! ## Nodes -/

/-- The domain of the labels the control plane derives itself. -/
def labelDomain : String := "horchestra.io/"

def nodePolicy : Plugin where
  admitPass := keep
  validate
    | .node, _, a =>
      let reserved := (Node.metadata a.object).labels.keys.filter fun key =>
        labelDomain.toList.isPrefixOf key.toList
      if a.operation = .delete || a.isSubresource then .ok ()
      else require reserved.isEmpty
        (.forbidden ("spec.labels: " ++ ", ".intercalate reserved ++ " — the " ++ labelDomain ++
          " domain holds the labels the control plane derives from the node's own report " ++
          "(status.labels); label it with a key of your own"))
    | _, _, _ => .ok ()

def Operation.verb : Operation → String
  | .create => "create"
  | .update => "update"
  | .delete => "delete"

/-- A node's own record: on creation it says nothing but what was observed, and an update
changes neither labels nor spec. -/
def checkOwnNode (db : DB) (id : Identity) (op : Operation) (n : Node) :
    Except AdmissionError Unit :=
  if n.metadata.name ≠ id.name then
    .error (.forbidden ("node " ++ quote id.name ++ " may not " ++ op.verb ++ " Node " ++
      quote n.metadata.name ++ ": only its own Node"))
  else
    match op with
    | .create =>
      andThen (require (!n.unschedulable)
        (.forbidden ("node " ++ quote id.name ++ " may not create its own Node with a non-empty " ++
          "spec: nodes report only status")))
        (require n.metadata.labels.isEmpty
          (.forbidden ("node " ++ quote id.name ++
            " may not label its own Node: placement labels " ++
            "are the operator's, and the ones derived from a node's own report are computed by " ++
            "the control plane")))
    | .update =>
      match (db.list .node).find? fun stored => stored.metadata.name == id.name with
      | none => .ok ()
      | some stored =>
        andThen (require (decide (n.metadata.labels = stored.metadata.labels))
          (.forbidden ("node " ++ quote id.name ++ " may not change its own Node's labels: " ++
            "placement is the operator's to decide")))
          (require (decide (n.unschedulable = stored.unschedulable))
            (.forbidden ("node " ++ quote id.name ++ " may not update its own Node.spec: " ++
              "nodes report only status")))
    | .delete => .ok ()

def nodeRestriction : Plugin where
  admitPass := keep
  validate k ctx a :=
    match ctx.identity with
    | none => .ok ()
    | some id =>
      if !id.groups.contains nodeGroup then .ok ()
      else
        match k, a with
        | .certificateSigningRequest, _ => .ok ()
        | .node, a => checkOwnNode ctx.db id a.operation a.object
        | k, a =>
          .error (.forbidden ("node " ++ quote id.name ++ " may not " ++ a.operation.verb ++ " " ++
            k.name ++ ": nodes may write only their own Node"))

/-! ## Services -/

inductive Family where
  | v4
  | v6
  deriving DecidableEq

def Family.bitLen : Family → Nat
  | .v4 => 32
  | .v6 => 128

/-- An address of `net/netip`. -/
structure Addr where
  family : Family
  number : Nat
  zone : String := ""
  deriving DecidableEq

def Addr.next (a : Addr) : Option Addr :=
  if a.number + 1 < 2 ^ a.family.bitLen then some { a with number := a.number + 1 } else none

/-- An IPv4 address in the place of one that is mapped to IPv6. -/
def Addr.unmap (a : Addr) : Addr :=
  if a.family = .v6 ∧ a.number / 2 ^ 32 = 0xffff then ⟨.v4, a.number % 2 ^ 32, ""⟩ else a

def Addr.as16 (a : Addr) : Nat :=
  match a.family with
  | .v4 => 2 ^ 32 * 0xffff + a.number
  | .v6 => a.number

structure Prefix where
  addr : Addr
  bits : Nat
  le : bits ≤ addr.family.bitLen
  lt : addr.number < 2 ^ addr.family.bitLen
  noZone : addr.zone = ""

namespace Prefix

variable (p : Prefix)

def hostBits : Nat := p.addr.family.bitLen - p.bits

def masked : Prefix where
  addr := { p.addr with number := p.addr.number / 2 ^ p.hostBits * 2 ^ p.hostBits }
  bits := p.bits
  le := p.le
  lt := (Nat.div_mul_le_self _ _).trans_lt p.lt
  noZone := p.noZone

def contains (a : Addr) : Bool :=
  a.family = p.addr.family && a.zone = "" &&
    a.number / 2 ^ p.hostBits = p.addr.number / 2 ^ p.hostBits

/-- The highest address: bit `7 - i % 8` of octet `i / 8` is bit `bitLen - 1 - i` of the number. -/
def lastAddr : Addr :=
  let bitLen := p.addr.family.bitLen
  let b := (List.range' p.bits (bitLen - p.bits)).foldl (fun b i => b ||| 1 <<< (bitLen - 1 - i))
    p.addr.as16
  match p.addr.family with
  | .v4 => (Addr.mk .v6 b "").unmap
  | .v6 => ⟨.v6, b, ""⟩

end Prefix

/-- The texts of addresses and ranges, and what is asked of an address. -/
structure Netip where
  parseAddr : String → Option Addr
  string : Addr → String
  parsePrefix : String → Except String Prefix
  isUnspecified : Addr → Bool
  isMulticast : Addr → Bool

def notANodeName (db : DB) (svc : Service) : Except AdmissionError Unit :=
  match (db.list .node).find? fun n =>
    svc.spec.ports.any fun p => svc.catalogName p == n.metadata.name with
  | none => .ok ()
  | some n =>
    .error (.forbidden ("metadata.name: " ++ quote n.metadata.name ++
      " is a node's name, and the " ++
      "catalog registers what runs on a node under it — the two would merge into one service"))

/-- The ports in order, with the names and numbers seen so far. -/
def checkPorts (named : Bool) : Nat → List String → List Int → List ServicePort → Except String Unit
  | _, _, _, [] => .ok ()
  | i, names, numbers, p :: rest =>
    let located := atIndex "spec.ports" i
    andThen (require (!(named && p.name == "")) (located (".name: a service with more than one port " ++
      "must name each of them — the catalog registers one service name per port"))) <|
    andThen (require (p.name == "" || isDNS1123 p.name) (located (".name: " ++ quote p.name ++
      " is not a DNS-1123 label — it becomes part of the catalog name clients resolve"))) <|
    andThen (require (p.name == "" || !names.contains p.name) (located (".name: " ++ quote p.name ++
      " is used twice — two ports would register under one catalog name"))) <|
    andThen (require (!numbers.contains p.port) (located (".port: " ++ String.ofList (itoa p.port) ++
      " is declared twice — the datapath resolves (clusterIP, port) to one backend set and " ++
      "could not choose"))) <|
    andThen (require (p.targetName == "" || p.targetPort == 0)
      (located ": targetName and targetPort both name the instance's port — keep one")) <|
    checkPorts named (i + 1) (p.name :: names) (p.port :: numbers) rest

def checkServiceShape (db : DB) (svc : Service) : Except AdmissionError Unit :=
  andThen (notANodeName db svc) <|
  andThen (require (!svc.spec.ports.isEmpty) (.invalid ("spec.ports: a service with no ports " ++
    "answers nothing — it would be a name and an address that refuse every connection"))) <|
  invalid (checkPorts (1 < svc.spec.ports.length) 0 [] [] svc.spec.ports)

def servicePolicy : Plugin where
  admitPass := keep
  validate
    | .service, ctx, a =>
      if a.operation = .delete || a.isSubresource then .ok ()
      else checkServiceShape ctx.db a.object
    | _, _, _ => .ok ()

def sameAddr (netip : Netip) (text : String) (addr : Addr) : Bool :=
  (netip.parseAddr text).any fun got => got.unmap == addr.unmap

def checkAddress (netip : Netip) (db : DB) (svc : Service) : Except AdmissionError Unit :=
  if svc.spec.clusterIP = "" then .ok ()
  else
    match netip.parseAddr svc.spec.clusterIP with
    | none =>
      .error (.forbidden ("spec.clusterIP: " ++ quote svc.spec.clusterIP ++
        " is not an IP address"))
    | some addr =>
      andThen (require (!netip.isUnspecified addr) (.forbidden ("spec.clusterIP: " ++
        netip.string addr ++
        " is not an address a caller can connect to"))) <|
      andThen (require (!netip.isMulticast addr) (.forbidden ("spec.clusterIP: " ++
        netip.string addr ++
        " is a multicast address — a service answers one caller, not a group"))) <|
      andThen
        (match (db.list .node).find? fun n => n.status.ip ≠ "" && sameAddr netip n.status.ip addr with
          | none => .ok ()
          | some n => .error (.forbidden ("spec.clusterIP: " ++ netip.string addr ++ " is node " ++
              quote n.metadata.name ++ "'s own address, and the catalog already publishes what " ++
              "runs there under the node's name — a service cannot take it as well"))) <|
      require (!(db.list .service).any fun other => other.spec.clusterIP ≠ "" &&
          !(other.metadata.ns == svc.metadata.ns && other.metadata.name == svc.metadata.name) &&
          sameAddr netip other.spec.clusterIP addr)
        (.forbidden ("spec.clusterIP: " ++ netip.string addr ++
          " is already the address of another service — " ++
          "a cluster address identifies one service, so the second would be reachable only by port"))

def serviceAddress (netip : Netip) : Plugin where
  admitPass := keep
  validate
    | .service, ctx, a =>
      if a.operation = .delete || a.isSubresource then .ok ()
      else checkAddress netip ctx.db a.object
    | _, _, _ => .ok ()

def addressesInUse (db : DB) : List String :=
  ((db.list .service).map (·.spec.clusterIP) ++ (db.list .node).map (·.status.ip)).filter (· ≠ "")

/-- The loop of `firstFree`, which the end of the range or of the addresses ends. -/
def freeFrom (netip : Netip) (range : Prefix) (used : List String) : Nat → Addr → Option Addr
  | 0, _ => none
  | n + 1, a =>
    if !range.contains a || (a.family = .v4 && a = range.lastAddr) then none
    else if !used.contains (netip.string a) then some a
    else a.next.bind (freeFrom netip range used n)

/-- The lowest address of a range that nothing holds. -/
def firstFree (netip : Netip) (cidr : String) (used : List String) : Except AdmissionError String :=
  match netip.parsePrefix cidr with
  | .error e => .error (.forbidden ("service range " ++ quote cidr ++ " is not a CIDR: " ++ e))
  | .ok range =>
    match range.masked.addr.next.bind
      (freeFrom netip range.masked used (2 ^ range.masked.hostBits - 1)) with
    | some addr => .ok (netip.string addr)
    | none =>
      .error (.forbidden ("the service range " ++ cidr ++ " is exhausted — " ++
        Nat.repr used.dedup.length ++
        " addresses are in use; widen it or delete services that are gone"))

def withClusterIP (svc : Service) (addr : String) : Service :=
  { svc with spec := { svc.spec with clusterIP := addr } }

/-- Fills in an address where the author left it empty and the deployment names a range. -/
def serviceVIP (netip : Netip) (cidr : String) : Plugin where
  admitPass
    | .service, ctx, a =>
      let svc : Service := a.object
      if cidr = "" || svc.spec.clusterIP ≠ "" then .ok a.object
      else
        match a.operation, a.oldObject with
        | .update, some old => .ok (withClusterIP svc (Service.spec old).clusterIP)
        | .create, _ =>
          match firstFree netip cidr (addressesInUse ctx.db) with
          | .error e => .error e
          | .ok addr => .ok (withClusterIP svc addr)
        | _, _ => .ok a.object
    | _, _, a => .ok a.object
  validate := accept

/-! ## Application sets -/

def validateReplicas (i : Nat) (comp : NamedApplicationSpec) : Except String Unit :=
  match comp.scale.replicas with
  | none => .ok ()
  | some count =>
    andThen (require (decide (1 ≤ count)) (atIndex "spec.applications" i
      (".scale.replicas: must be at least 1, got " ++ String.ofList (itoa count))))
      (require comp.scale.nodeSpread.isNone (atIndex "spec.applications" i
        (": scale.replicas and scale.nodeSpread are mutually exclusive fan-outs " ++
          "(nodeSpread already yields one child per node)")))

/-- The components in order, with the names seen so far. -/
def checkComponents : Nat → List String → List NamedApplicationSpec → Except String Unit
  | _, _, [] => .ok ()
  | i, seen, comp :: rest =>
    andThen (require (isDNS1123 comp.name) (atIndex "spec.applications" i
      (".name " ++ quote comp.name ++ " is not a valid DNS-1123 name"))) <|
    andThen (require (!seen.contains comp.name)
      ("spec.applications: duplicate component name " ++ quote comp.name)) <|
    andThen (require (comp.scale.nodeSpread.isNone || comp.spec.placement.nodeName == "")
      (atIndex "spec.applications" i (": a nodeSpread component must not set " ++
        "spec.placement.nodeName (the set assigns it)"))) <|
    andThen (validateReplicas i comp) <|
    checkComponents (i + 1) (comp.name :: seen) rest

def validatePlacement (set : ApplicationSet) : Except String Unit :=
  andThen (require (set.spec.placementMode == "" || set.spec.placementMode == placementSameNode)
    ("spec.placement.mode " ++ quote set.spec.placementMode ++ " is not a known mode (" ++
      quote placementSameNode ++ ")")) <|
  if set.spec.sameNode then
    checkIndexed (fun i comp => require comp.scale.nodeSpread.isNone (atIndex "spec.applications" i
      (": nodeSpread spreads one child per node and contradicts placement.mode=" ++
        placementSameNode ++ ", which co-locates the whole set"))) 0 set.spec.applications
  else .ok ()

/-- A refusal of something a set renders, with its name in front. -/
def inRendered (what name : String) : Except AdmissionError Unit → Except AdmissionError Unit
  | .ok () => .ok ()
  | .error (.forbidden e) => .error (.forbidden (what ++ " " ++ quote name ++ ": " ++ e))
  | .error (.invalid e) => .error (.invalid (what ++ " " ++ quote name ++ ": " ++ e))

def checkSet (digests : AppSet.Digests) (render : Quantity → String) (routedNetwork : Bool)
    (db : DB)
    (set : ApplicationSet) : Except AdmissionError Unit :=
  andThen (require (!set.spec.applications.isEmpty)
    (.invalid "spec.applications: at least one application is required")) <|
  andThen (invalid (checkComponents 0 [] set.spec.applications)) <|
  andThen (invalid (validatePlacement set)) <|
  andThen (require (decide (0 ≤ set.spec.rollout.maxUnavailable))
    (.invalid ("spec.rollout.maxUnavailable: must not be negative, got " ++
      String.ofList (itoa set.spec.rollout.maxUnavailable)))) <|
  match AppSet.expand digests set (db.list .node) with
  | .error e => .error (.invalid ("spec.applications: " ++ e))
  | .ok children =>
    andThen (checkAll (fun child : Application =>
      inRendered "child" child.metadata.name <|
        andThen (invalid (checkAppSpec render routedNetwork (floored child.spec)))
          (forbid (checkFloor (floored child.spec)))) children) <|
    checkAll (fun svc : Service => inRendered "service" svc.metadata.name (checkServiceShape db svc))
      (AppSet.expandServices digests set)

def applicationSet (digests : AppSet.Digests) (render : Quantity → String) (routedNetwork : Bool) :
    Plugin where
  admitPass := keep
  validate
    | .applicationSet, ctx, a =>
      if a.operation = .delete || a.isSubresource then .ok ()
      else checkSet digests render routedNetwork ctx.db a.object
    | _, _, _ => .ok ()

/-! ## The allocator and the validator -/

/-- An address of the range that is neither the network's nor, in IPv4, the broadcast address. -/
def Usable (range : Prefix) (a : Addr) : Prop :=
  range.contains a = true ∧ a ≠ range.masked.addr ∧
    (a.family = .v4 → ∃ b, range.contains b = true ∧ a.number < b.number)

/-- The address that is `i` after the network's. -/
def Prefix.nth (p : Prefix) (i : Nat) : Addr :=
  { p.masked.addr with number := p.masked.addr.number + i }

section

variable {p : Prefix}

theorem contains_iff {a : Addr} : p.contains a = true ↔ ∃ i < 2 ^ p.hostBits, a = p.nth i := by
  have pos : 0 < 2 ^ p.hostBits := Nat.two_pow_pos _
  obtain ⟨family, number, zone⟩ := a
  simp only [Prefix.contains, Bool.and_eq_true, decide_eq_true_eq, Prefix.nth, Prefix.masked,
    Addr.mk.injEq, p.noZone]
  constructor
  · rintro ⟨⟨rfl, rfl⟩, same⟩
    refine ⟨number % 2 ^ p.hostBits, Nat.mod_lt _ pos, rfl, ?_, rfl⟩
    rw [← same, Nat.div_add_mod']
  · rintro ⟨i, lt, rfl, rfl, rfl⟩
    refine ⟨⟨rfl, rfl⟩, ?_⟩
    rw [Nat.add_comm, Nat.add_mul_div_right _ _ pos, Nat.div_eq_of_lt lt, Nat.zero_add]

theorem contains_masked : p.masked.contains = p.contains := by
  have same (i : Nat) : p.masked.nth i = p.nth i := by
    simp [Prefix.nth, Prefix.masked, Prefix.hostBits, Nat.mul_div_cancel _ (Nat.two_pow_pos _)]
  funext a
  rw [Bool.eq_iff_iff, contains_iff, contains_iff]
  simp only [same]
  rfl

theorem nth_inj {i j : Nat} (eq : p.nth i = p.nth j) : i = j := by
  simpa [Prefix.nth] using eq

theorem usable_iff {a : Addr} : Usable p a ↔ ∃ i, 0 < i ∧ i < 2 ^ p.hostBits ∧
    (p.addr.family = .v4 → i + 1 < 2 ^ p.hostBits) ∧ a = p.nth i := by
  constructor
  · rintro ⟨within, ne, broadcast⟩
    obtain ⟨i, lt, rfl⟩ := contains_iff.1 within
    refine ⟨i, Nat.pos_of_ne_zero fun zero => ne (by rw [zero]; rfl), lt, fun four => ?_, rfl⟩
    obtain ⟨b, within', above⟩ := broadcast four
    obtain ⟨j, lt', rfl⟩ := contains_iff.1 within'
    simp only [Prefix.nth] at above
    omega
  · rintro ⟨i, pos, lt, broadcast, rfl⟩
    refine ⟨contains_iff.2 ⟨i, lt, rfl⟩, fun eq => ?_, fun four => ?_⟩
    · exact pos.ne' (nth_inj (j := 0) eq)
    · exact ⟨p.nth (i + 1), contains_iff.2 ⟨_, broadcast four, rfl⟩, by simp [Prefix.nth]⟩

theorem network_add_le : p.masked.addr.number + 2 ^ p.hostBits ≤ 2 ^ p.addr.family.bitLen := by
  have split : 2 ^ p.addr.family.bitLen = 2 ^ p.bits * 2 ^ p.hostBits := by
    rw [← pow_add, Prefix.hostBits, Nat.add_sub_cancel' p.le]
  have lt : p.addr.number / 2 ^ p.hostBits < 2 ^ p.bits :=
    Nat.div_lt_of_lt_mul (by rw [Nat.mul_comm, ← split]; exact p.lt)
  rw [split, Prefix.masked, ← Nat.succ_mul]
  exact Nat.mul_le_mul_right _ lt

/-- Setting the low bits from the highest one down. -/
theorem foldl_or_range' (bitLen q : Nat) {bits : Nat} (le : bits ≤ bitLen) :
    (List.range' bits (bitLen - bits)).foldl (fun b i => b ||| 1 <<< (bitLen - 1 - i))
      (2 ^ (bitLen - bits) * q) = 2 ^ (bitLen - bits) * q + (2 ^ (bitLen - bits) - 1) := by
  generalize count : bitLen - bits = h
  induction h generalizing bits q with
  | zero => simp
  | succ h ih =>
    have top : bitLen - 1 - bits = h := by omega
    have set : 2 ^ (h + 1) * q ||| 1 <<< h = 2 ^ h * (2 * q + 1) := by
      rw [Nat.one_shiftLeft, ← Nat.two_pow_add_eq_or_of_lt (Nat.pow_lt_pow_succ Nat.one_lt_two)]
      ring
    rw [List.range'_succ, List.foldl_cons, top, set, ih (2 * q + 1) (by omega) (by omega)]
    have := Nat.two_pow_pos h
    rw [pow_succ, Nat.mul_add, Nat.mul_one, Nat.mul_assoc]
    omega

theorem lastAddr_masked : p.masked.lastAddr = p.nth (2 ^ p.hostBits - 1) := by
  have below := @network_add_le p
  have pos := Nat.two_pow_pos p.hostBits
  obtain ⟨⟨family, number, zone⟩, bits, le, lt, noZone⟩ := p
  cases (noZone : zone = "")
  simp only [Prefix.masked, Prefix.lastAddr, Prefix.nth, Addr.as16, Prefix.hostBits] at below pos ⊢
  generalize number / 2 ^ (family.bitLen - bits) = q at below ⊢
  have set (q : Nat) := foldl_or_range' family.bitLen q le
  cases family with
  | v6 => rw [Nat.mul_comm q, set]
  | v4 =>
    -- the mapped address has the same low bits
    have mapped : 2 ^ 32 * 0xffff + q * 2 ^ (32 - bits) =
        2 ^ (32 - bits) * (2 ^ bits * 0xffff + q) := by
      rw [Nat.mul_add, ← Nat.mul_assoc, ← pow_add,
        Nat.sub_add_cancel (show bits ≤ 32 from le), Nat.mul_comm q]
    have set := set (2 ^ bits * 0xffff + q)
    simp only [Family.bitLen] at set below pos ⊢
    rw [mapped, set, ← mapped, Nat.add_assoc, Addr.unmap]
    have lt : q * 2 ^ (32 - bits) + (2 ^ (32 - bits) - 1) < 2 ^ 32 := by omega
    generalize q * 2 ^ (32 - bits) + (2 ^ (32 - bits) - 1) = low at lt ⊢
    rw [if_pos ⟨rfl, show (2 ^ 32 * 0xffff + low) / 2 ^ 32 = 0xffff by omega⟩]
    exact congrArg (Addr.mk .v4 · "") (show (2 ^ 32 * 0xffff + low) % 2 ^ 32 = low by omega)

theorem freeFrom_eq_some_iff {netip : Netip} {used : List String} {n k : Nat} (pos : 0 < k)
    (count : k + n = 2 ^ p.hostBits) {a : Addr} :
    freeFrom netip p.masked used n (p.nth k) = some a ↔ ∃ i, k ≤ i ∧ i < 2 ^ p.hostBits ∧
      (p.addr.family = .v4 → i + 1 < 2 ^ p.hostBits) ∧ a = p.nth i ∧ netip.string a ∉ used ∧
      ∀ j, k ≤ j → j < i → netip.string (p.nth j) ∈ used := by
  induction n generalizing k with
  | zero =>
    refine ⟨by simp [freeFrom], ?_⟩
    rintro ⟨i, le, lt, -⟩
    omega
  | succ n ih =>
    have within : p.masked.contains (p.nth k) = true := by
      rw [contains_masked]
      exact contains_iff.2 ⟨k, by omega, rfl⟩
    have last : p.nth k = p.nth (2 ^ p.hostBits - 1) ↔ k + 1 = 2 ^ p.hostBits :=
      ⟨fun eq => by have := nth_inj eq; omega, fun eq => by rw [← eq]; rfl⟩
    have four : (p.nth k).family = p.addr.family := rfl
    have below := @network_add_le p
    simp only [freeFrom, within, lastAddr_masked, last, four, Bool.not_true, Bool.false_or]
    split
    next broadcast =>
      simp only [Bool.and_eq_true, decide_eq_true_eq] at broadcast
      grind
    next usable =>
      simp only [Bool.and_eq_true, decide_eq_true_eq, not_and] at usable
      split
      next free =>
        simp only [Bool.not_eq_true', List.contains_eq_mem, decide_eq_false_iff_not] at free
        constructor
        · rintro ⟨⟩
          exact ⟨k, le_rfl, by omega, by grind, rfl, free, by omega⟩
        · rintro ⟨i, le, -, -, rfl, -, before⟩
          rcases le.eq_or_lt with rfl | lt
          · rfl
          · exact absurd (before k le_rfl lt) free
      next held =>
        simp only [Bool.not_eq_true', List.contains_eq_mem, decide_eq_false_iff_not,
          not_not] at held
        have next : (p.nth k).next.bind (freeFrom netip p.masked used n) =
            freeFrom netip p.masked used n (p.nth (k + 1)) := by
          unfold Addr.next
          split
          · rfl
          next noNext =>
            change ¬ p.masked.addr.number + k + 1 < 2 ^ p.addr.family.bitLen at noNext
            obtain rfl : n = 0 := by omega
            rfl
        rw [next, ih (by omega) (by omega)]
        constructor
        · rintro ⟨i, le, lt, broadcast, eq, free, before⟩
          refine ⟨i, by omega, lt, broadcast, eq, free, fun j le' lt' => ?_⟩
          rcases le'.eq_or_lt with rfl | later
          · exact held
          · exact before j later lt'
        · rintro ⟨i, le, lt, broadcast, rfl, free, before⟩
          have ne : k ≠ i := fun eq => free (eq ▸ held)
          exact ⟨i, by omega, lt, broadcast, rfl, free, fun j le' => before j (by omega)⟩

end

/-- Somebody holds the address, in some spelling. -/
def isTaken (netip : Netip) (db : DB) (addr : Addr) : Bool :=
  (addressesInUse db).any (sameAddr netip · addr)

section

variable {netip : Netip} {db : DB} {addr : Addr} {svc : Service}

theorem checkAddress_of_free (ne : netip.string addr ≠ "")
    (parsed : netip.parseAddr (netip.string addr) = some addr)
    (free : isTaken netip db addr = false) :
    checkAddress netip db (withClusterIP svc (netip.string addr)) = .ok () ↔
      netip.isUnspecified addr = false ∧ netip.isMulticast addr = false := by
  have unused : ∀ text ∈ addressesInUse db, sameAddr netip text addr = false := by
    simpa [isTaken] using free
  have noNode : (db.list .node).find?
      (fun n => n.status.ip ≠ "" && sameAddr netip n.status.ip addr) = none := by
    simp only [List.find?_eq_none, Bool.and_eq_true, decide_eq_true_eq, not_and, Bool.not_eq_true]
    intro n listed set
    exact unused _ (List.mem_filter.2
      ⟨List.mem_append_right _ (List.mem_map.2 ⟨n, listed, rfl⟩), by simpa using set⟩)
  have noService : ∀ other ∈ db.list .service, other.spec.clusterIP ≠ "" →
      sameAddr netip other.spec.clusterIP addr = false := fun other listed set =>
    unused _ (List.mem_filter.2
      ⟨List.mem_append_left _ (List.mem_map.2 ⟨other, listed, rfl⟩), by simpa using set⟩)
  have untaken (other : Service) (listed : other ∈ db.list .service) :
      ¬ (other.spec.clusterIP ≠ "" && !(other.metadata.ns == svc.metadata.ns &&
        other.metadata.name == svc.metadata.name) && sameAddr netip other.spec.clusterIP addr) := by
    by_cases set : other.spec.clusterIP = ""
    · simp [set]
    · simp [noService other listed set]
  simp only [checkAddress, withClusterIP, if_neg ne, parsed, noNode, andThen_eq_ok_iff,
    require_eq_ok_iff, Bool.not_eq_true', List.any_eq_false, true_and]
  exact ⟨fun ok => ⟨ok.1, ok.2.1⟩, fun ok => ⟨ok.1, ok.2, untaken⟩⟩

/-- The allocator proposes the lowest usable address whose text nobody has recorded. -/
theorem firstFree_eq_ok_iff {cidr : String} {range : Prefix} {used : List String}
    (parsed : netip.parsePrefix cidr = .ok range)
    (lawful : ∀ b, Usable range b → netip.parseAddr (netip.string b) = some b)
    (usable : Usable range addr) :
    firstFree netip cidr used = .ok (netip.string addr) ↔ netip.string addr ∉ used ∧
      ∀ b, Usable range b → b.number < addr.number → netip.string b ∈ used := by
  obtain ⟨i, pos, lt, broadcast, rfl⟩ := usable_iff.1 usable
  have next : range.masked.addr.next = some (range.nth 1) := by
    have below := @network_add_le range
    change range.masked.addr.number + 2 ^ range.hostBits ≤
      2 ^ range.masked.addr.family.bitLen at below
    exact if_pos (by omega)
  have found (a : Addr) := @freeFrom_eq_some_iff range netip used (2 ^ range.hostBits - 1) 1 one_pos
    (by omega) a
  have given : firstFree netip cidr used = .ok (netip.string (range.nth i)) ↔
      freeFrom netip range.masked used (2 ^ range.hostBits - 1) (range.nth 1) =
        some (range.nth i) := by
    simp only [firstFree, parsed, next, Option.bind_some]
    change (match freeFrom netip range.masked used (2 ^ range.hostBits - 1) (range.nth 1) with
      | some addr => Except.ok (netip.string addr) | none => _) = _ ↔ _
    cases free : freeFrom netip range.masked used (2 ^ range.hostBits - 1) (range.nth 1) with
    | none => simp
    | some a =>
      obtain ⟨j, pos', lt', broadcast', rfl, -⟩ := (found a).1 free
      have usable' := usable_iff.2 ⟨j, pos', lt', broadcast', rfl⟩
      simp only [Except.ok.injEq, Option.some.injEq]
      refine ⟨fun same => ?_, congrArg _⟩
      exact Option.some.inj ((lawful _ usable').symm.trans ((congrArg _ same).trans (lawful _ usable)))
  rw [given, found]
  constructor
  · rintro ⟨j, -, -, -, eq, free, before⟩
    obtain rfl := nth_inj eq
    refine ⟨free, fun b usable' less => ?_⟩
    obtain ⟨j, pos', -, -, rfl⟩ := usable_iff.1 usable'
    exact before j pos' (by simpa [Prefix.nth] using less)
  · rintro ⟨free, before⟩
    refine ⟨i, pos, lt, broadcast, rfl, free, fun j pos' less => ?_⟩
    refine before _ (usable_iff.2 ⟨j, pos', less.trans lt, fun _ => by omega, rfl⟩) ?_
    simpa [Prefix.nth] using less

/-- **The allocator proposes the lowest free address, and the validator accepts it**, exactly where
every usable address below it is recorded as the allocator would spell it, and a caller can connect
to it. -/
theorem allocated_address_passes_iff {cidr : String} {range : Prefix} {ctx : Context}
    {a : Attributes .service} (named : cidr ≠ "") (parsed : netip.parsePrefix cidr = .ok range)
    (lawful : ∀ b, Usable range b →
      netip.string b ≠ "" ∧ netip.parseAddr (netip.string b) = some b)
    (creates : a.operation = .create) (silent : (Service.spec a.object).clusterIP = "")
    (usable : Usable range addr) (free : isTaken netip ctx.db addr = false) :
    (serviceVIP netip cidr).admitPass .service ctx a =
        .ok (withClusterIP a.object (netip.string addr)) ∧
      checkAddress netip ctx.db (withClusterIP a.object (netip.string addr)) = .ok () ∧
      (∀ b, Usable range b → isTaken netip ctx.db b = false → addr.number ≤ b.number) ↔
    (∀ b, Usable range b → b.number < addr.number →
      netip.string b ∈ addressesInUse ctx.db) ∧
    netip.isUnspecified addr = false ∧ netip.isMulticast addr = false := by
  -- who has recorded the text holds the address
  have taken (b : Addr) (usable : Usable range b) (used : netip.string b ∈ addressesInUse ctx.db) :
      isTaken netip ctx.db b = true :=
    List.any_eq_true.2 ⟨_, used, by simp [sameAddr, (lawful b usable).2]⟩
  have unused : netip.string addr ∉ addressesInUse ctx.db := fun used => by
    rw [taken addr usable used] at free
    cases free
  have proposed : (serviceVIP netip cidr).admitPass .service ctx a =
      .ok (withClusterIP a.object (netip.string addr)) ↔
      ∀ b, Usable range b → b.number < addr.number → netip.string b ∈ addressesInUse ctx.db := by
    rw [← and_iff_right unused (b := ∀ b, _),
      ← firstFree_eq_ok_iff parsed (fun b usable => (lawful b usable).2) usable]
    simp only [serviceVIP, named, silent, creates, decide_false, ne_eq, not_true_eq_false,
      Bool.or_self, Bool.false_eq_true, if_false]
    cases firstFree netip cidr (addressesInUse ctx.db) with
    | error e => simp
    | ok text => simp [withClusterIP]
  rw [proposed, checkAddress_of_free (lawful addr usable).1 (lawful addr usable).2 free]
  refine ⟨fun ⟨below, fits, _⟩ => ⟨below, fits⟩, fun ⟨below, fits⟩ => ⟨below, fits, ?_⟩⟩
  intro b usable' free'
  by_contra less
  rw [taken b usable' (below b usable' (by omega))] at free'
  cases free'

end

/-- Four addresses, the second of them also as it is mapped. -/
def mappedNetip : Netip where
  parseAddr text := match text with
    | "10.0.0.1" => some ⟨.v4, 0xa000001, ""⟩
    | "10.0.0.2" => some ⟨.v4, 0xa000002, ""⟩
    | "::ffff:10.0.0.1" => some ⟨.v6, 0xffff0a000001, ""⟩
    | _ => none
  string a := if a.number = 0xa000001 then "10.0.0.1" else "10.0.0.2"
  parsePrefix _ := .ok ⟨⟨.v4, 0xa000000, ""⟩, 30, by decide, by decide, rfl⟩
  isUnspecified _ := false
  isMulticast _ := false

/-- A service that has declared its address. -/
def declared (addr : String) : Service :=
  withClusterIP { metadata := { ns := "a", name := "web" } } addr

def withDeclared (addr : String) : DB := ({} : DB).putHead (k := .service) "a/web" (declared addr)

-- the lowest address is taken, as the allocator spells it, and the next one is given
theorem allocated_address_passes_iff_second :
    (serviceVIP mappedNetip "10.0.0.0/30").admitPass .service ⟨none, withDeclared "10.0.0.1"⟩
        ⟨.create, {}, none, ""⟩ = .ok (withClusterIP {} "10.0.0.2") ∧
      checkAddress mappedNetip (withDeclared "10.0.0.1") (withClusterIP {} "10.0.0.2") =
        .ok () := by
  have usable {b : Addr} (it : Usable ⟨⟨.v4, 0xa000000, ""⟩, 30, by decide, by decide, rfl⟩ b) :
      b = ⟨.v4, 0xa000001, ""⟩ ∨ b = ⟨.v4, 0xa000002, ""⟩ := by
    obtain ⟨i, pos, lt, broadcast, rfl⟩ := usable_iff.1 it
    obtain rfl | rfl : i = 1 ∨ i = 2 := by
      have := broadcast rfl
      simp [Prefix.hostBits, Family.bitLen] at this
      omega
    · exact .inl rfl
    · exact .inr rfl
  obtain ⟨given, passes, -⟩ := (@allocated_address_passes_iff mappedNetip
    ⟨.v4, 0xa000002, ""⟩ "10.0.0.0/30" _
    ⟨none, withDeclared "10.0.0.1"⟩ ⟨.create, {}, none, ""⟩ (by decide) rfl
    (fun b it => by rcases usable it with rfl | rfl <;> decide) rfl rfl
    (usable_iff.2 ⟨2, by decide, by decide, fun _ => by decide, rfl⟩) (by decide +kernel)).2
    ⟨fun b it less => by
      rcases usable it with rfl | rfl
      · decide +kernel
      · exact absurd less (lt_irrefl _), rfl, rfl⟩
  exact ⟨given, passes⟩

/-- A service has declared the lowest address as it is mapped.  The allocator proposes it all the
same, and the validator refuses it, though the next address is free. -/
theorem mapped_address_is_proposed :
    let db := withDeclared "::ffff:10.0.0.1"
    checkAddress mappedNetip {} (declared "::ffff:10.0.0.1") = .ok () ∧
      isTaken mappedNetip db ⟨.v4, 0xa000002, ""⟩ = false ∧
      (serviceVIP mappedNetip "10.0.0.0/30").admitPass .service ⟨none, db⟩ ⟨.create, {}, none, ""⟩ =
        .ok (withClusterIP {} "10.0.0.1") ∧
      (checkAddress mappedNetip db (withClusterIP {} "10.0.0.1")).isOk = false := by
  decide +kernel

end Horchestra.Admission
