import MaxApi.TaskPlugin.State

/-! # Bindings and sessions

A request binds to the package that the host's routes select.  The binding is stored with the task,
and every later step of the task resolves it again: it gets the package it was bound to, or nothing.
The host serves the state of its last publication; between publications it may serve none. -/

namespace MaxApi.TaskPlugin

open Checked
open TaskBilling (TaskUsageContract contractDigest resolveContract)

structure Actor where
  userID : ℤ
  tokenID : ℤ
  channelID : ℤ
  requestID : String
  deriving DecidableEq

structure TaskPluginBinding where
  profile : String
  action : String
  phaseApprovalID : String
  pluginKey : String
  version : String
  packageDigest : String
  sourceID : String
  schemaVersion : ℤ
  contractDigest : String
  model : String
  upstreamModel : String
  actor : Actor
  deriving DecidableEq

def TaskPluginBinding.identity (b : TaskPluginBinding) : String :=
  packageIdentity b.pluginKey b.version

def TaskPluginExpressionProfile : String := "new-api-task@1"

/-- `ErrBindingRejected`, or a dereference of a package that is not there. -/
inductive HostError where
  | bindingRejected
  | nilPackage
  deriving DecidableEq

structure PricingContractIdentity where
  action : String
  schemaVersion : ℤ
  contractDigest : String

structure Session (lib : Library) where
  binding : TaskPluginBinding
  actor : Actor
  /-- The usage contract; bindings of the expression profile have none. -/
  contract : Option TaskUsageContract
  plugin : Package lib

/-- Not empty, and without white space at its ends. -/
def Trimmed (s : String) : Prop := s ≠ "" ∧ s = Text.trimSpace s

instance (s : String) : Decidable (Trimmed s) := instDecidableAnd

def validActor (actor : Actor) : Bool :=
  0 < actor.userID && 0 < actor.tokenID && 0 < actor.channelID && decide (Trimmed actor.requestID)

variable {lib : Library}

/-- `state.revoked[id]`. -/
def HostState.isRevoked (st : HostState lib) (id : String) : Bool :=
  (st.revoked.lookup id).getD false

variable (lib)

/-- `Host.BindMapped`; `state` is what the host serves. -/
def bindMapped (state : Option (HostState lib)) (actor : Actor)
    (method path model upstreamModel : String) (contract : TaskUsageContract) :
    Except HostError TaskPluginBinding := do
  require (validActor actor = true) .bindingRejected
  let st ← orThrow state .bindingRejected
  let found ← orThrow (matchRoute lib.toTextLibrary st.routes method path upstreamModel)
    .bindingRejected
  let p ← orThrow (st.active.lookup found.pluginKey) .nilPackage
  require (st.isRevoked p.identity = false ∧ Trimmed model ∧
    declaresModel p.manifest upstreamModel = true) .bindingRejected
  let digest ← orThrow (contractDigest lib.sha256 contract).toOption .bindingRejected
  let _ ← orThrow (resolveContract lib.sha256 contract.sourceID contract.schemaVersion
    digest).toOption .bindingRejected
  pure {
    profile := "", action := "", phaseApprovalID := ""
    pluginKey := p.manifest.key, version := p.manifest.version, packageDigest := p.digest
    sourceID := contract.sourceID, schemaVersion := contract.schemaVersion
    contractDigest := digest, model := model, upstreamModel := upstreamModel, actor := actor }

/-- `Host.PricingPackage`. -/
def pricingPackage (state : Option (HostState lib)) (method path upstreamModel : String) :
    Except HostError (Package lib) := do
  let st ← orThrow state .bindingRejected
  let found ← orThrow (matchRoute lib.toTextLibrary st.routes method path upstreamModel)
    .bindingRejected
  require (found.route.type = "submit") .bindingRejected
  let p ← orThrow (st.active.lookup found.pluginKey) .bindingRejected
  require (st.isRevoked p.identity = false ∧ declaresModel p.manifest upstreamModel = true)
    .bindingRejected
  pure p

def validPricingBinding (b : TaskPluginBinding) : Bool :=
  (b.phaseApprovalID == "" || (decodePin b.phaseApprovalID).isSome) &&
    b.sourceID == b.pluginKey && b.schemaVersion == 1 && (decodePin b.contractDigest).isSome &&
    decide (Trimmed b.action)

/-- `Host.BindPricingMapped`. -/
def bindPricingMapped (state : Option (HostState lib)) (actor : Actor)
    (method path model upstreamModel : String) (contract : PricingContractIdentity) :
    Except HostError TaskPluginBinding := do
  require (validActor actor = true ∧ Trimmed model) .bindingRejected
  let p ← pricingPackage lib state method path upstreamModel
  let binding : TaskPluginBinding := {
    profile := TaskPluginExpressionProfile, action := contract.action, phaseApprovalID := ""
    pluginKey := p.manifest.key, version := p.manifest.version, packageDigest := p.digest
    sourceID := p.manifest.key, schemaVersion := contract.schemaVersion
    contractDigest := contract.contractDigest, model := model, upstreamModel := upstreamModel
    actor := actor }
  require (validPricingBinding binding = true) .bindingRejected
  pure binding

/-- The contract of a session. -/
def sessionContract (b : TaskPluginBinding) : Except HostError (Option TaskUsageContract) :=
  if b.profile ≠ "" then do
    require (b.profile = TaskPluginExpressionProfile ∧ validPricingBinding b = true)
      .bindingRejected
    pure none
  else do
    require (b.action = "" ∧ b.phaseApprovalID = "") .bindingRejected
    some <$> orThrow (resolveContract lib.sha256 b.sourceID b.schemaVersion
      b.contractDigest).toOption .bindingRejected

/-- `Host.Resolve`. -/
def resolve (state : Option (HostState lib)) (b : TaskPluginBinding) (actor : Actor) :
    Except HostError (Session lib) := do
  require (validActor actor = true ∧ b.actor = actor) .bindingRejected
  let st ← orThrow state .bindingRejected
  let p ← orThrow (st.history.lookup b.identity) .bindingRejected
  require (st.isRevoked b.identity = false ∧ b.packageDigest = p.digest ∧ Trimmed b.model ∧
    declaresModel p.manifest b.upstreamModel = true) .bindingRejected
  let contract ← sessionContract lib b
  pure ⟨b, actor, contract, p⟩

variable {lib}

/-! ### What a binding keeps -/

/-- The binding `b` was made for the package `p` of the state `st`. -/
structure BoundTo (st : HostState lib) (b : TaskPluginBinding) (p : Package lib) : Prop where
  active : st.active.lookup p.manifest.key = some p
  allowed : st.isRevoked p.identity = false
  actor : validActor b.actor = true
  key : b.pluginKey = p.manifest.key
  version : b.version = p.manifest.version
  digest : b.packageDigest = p.digest
  model : Trimmed b.model
  declared : declaresModel p.manifest b.upstreamModel = true
  contract : ∃ c, sessionContract lib b = .ok c

theorem BoundTo.identity {st : HostState lib} {b : TaskPluginBinding} {p : Package lib}
    (h : BoundTo st b p) : b.identity = p.identity := by
  unfold TaskPluginBinding.identity Package.identity
  rw [h.key, h.version]

section binding

variable {st : HostState lib} {revision : ℤ} {es : List StoredPackage} {actor : Actor}
  {method path model upstreamModel : String} {b : TaskPluginBinding}

theorem active_key (hst : StateOf revision es st) {k : String} {p : Package lib}
    (h : st.active.lookup k = some p) : p.manifest.key = k := by
  obtain ⟨e, -, -, hk, -⟩ := (hst.active k p).mp h
  exact hk

/-- A binding names the active package that it was made for. -/
theorem boundTo_of_bindMapped (hst : StateOf revision es st) {contract : TaskUsageContract}
    (h : bindMapped lib (some st) actor method path model upstreamModel contract = .ok b) :
    b.actor = actor ∧ ∃ p, BoundTo st b p := by
  unfold bindMapped at h
  simp only [ok_bind, ok_require, ok_orThrow, ok_pure] at h
  obtain ⟨-, hactor, _, hs, x, -, p, hp, -, ⟨hallowed, hmodel, hdecl⟩, digest, -, c, hc, rfl⟩ := h
  obtain rfl := Option.some.inj hs
  refine ⟨rfl, p, ?_⟩
  constructor
  · exact (active_key hst hp).symm ▸ hp
  · exact hallowed
  · exact hactor
  · rfl
  · rfl
  · rfl
  · exact hmodel
  · exact hdecl
  · refine ⟨some c, ?_⟩
    simp [sessionContract, hc, orThrow, require]

theorem boundTo_of_bindPricingMapped (hst : StateOf revision es st)
    {contract : PricingContractIdentity}
    (h : bindPricingMapped lib (some st) actor method path model upstreamModel contract = .ok b) :
    b.actor = actor ∧ ∃ p, BoundTo st b p := by
  unfold bindPricingMapped pricingPackage at h
  simp only [ok_bind, ok_require, ok_orThrow, ok_pure] at h
  obtain ⟨-, ⟨hactor, hmodel⟩, p, ⟨_, hs, x, -, -, -, q, hp, -, ⟨hallowed, hdecl⟩, hq⟩, -, hvalid,
    rfl⟩ := h
  obtain rfl := Option.some.inj hs
  subst hq
  refine ⟨rfl, q, ?_⟩
  constructor
  · exact (active_key hst hp).symm ▸ hp
  · exact hallowed
  · exact hactor
  · rfl
  · rfl
  · rfl
  · exact hmodel
  · exact hdecl
  · refine ⟨none, ?_⟩
    have hne : TaskPluginExpressionProfile ≠ "" := by decide
    simp [sessionContract, hne, hvalid, require]

/-- Some request gets the binding `b` from a host that serves `state`. -/
def Binds (lib : Library) (state : Option (HostState lib)) (b : TaskPluginBinding) : Prop :=
  ∃ actor method path model upstreamModel,
    (∃ contract, bindMapped lib state actor method path model upstreamModel contract = .ok b) ∨
      ∃ contract, bindPricingMapped lib state actor method path model upstreamModel contract = .ok b

theorem boundTo_of_binds (hst : StateOf revision es st) (h : Binds lib (some st) b) :
    ∃ p, BoundTo st b p := by
  obtain ⟨_, _, _, _, _, ⟨_, h⟩ | ⟨_, h⟩⟩ := h
  · exact (boundTo_of_bindMapped hst h).2
  · exact (boundTo_of_bindPricingMapped hst h).2

/-- A suspended host binds nothing. -/
theorem not_binds_none : ¬ Binds lib none b := by
  rintro ⟨_, _, _, _, _, ⟨_, h⟩ | ⟨_, h⟩⟩
  · unfold bindMapped at h
    simp only [ok_bind, ok_orThrow] at h
    obtain ⟨-, -, _, hnone, -⟩ := h
    simp at hnone
  · unfold bindPricingMapped pricingPackage at h
    simp only [ok_bind, ok_orThrow] at h
    obtain ⟨-, -, _, ⟨_, hnone, -⟩, -⟩ := h
    simp at hnone

/-- A session gives the package that the host keeps under the identity of the binding. -/
theorem resolve_ok {state : Option (HostState lib)} {session : Session lib} :
    resolve lib state b actor = .ok session ↔ ∃ st p c, state = some st ∧
      validActor actor = true ∧ b.actor = actor ∧ st.history.lookup b.identity = some p ∧
        st.isRevoked b.identity = false ∧ b.packageDigest = p.digest ∧ Trimmed b.model ∧
          declaresModel p.manifest b.upstreamModel = true ∧ sessionContract lib b = .ok c ∧
            session = ⟨b, actor, c, p⟩ := by
  unfold resolve
  simp only [ok_bind, ok_require, ok_orThrow, ok_pure]
  constructor
  · rintro ⟨-, ⟨hactor, hsame⟩, st, rfl, p, hp, -, ⟨hallowed, hdigest, hmodel, hdecl⟩, c, hc, rfl⟩
    exact ⟨st, p, c, rfl, hactor, hsame, hp, hallowed, hdigest, hmodel, hdecl, hc, rfl⟩
  · rintro ⟨st, p, c, rfl, hactor, hsame, hp, hallowed, hdigest, hmodel, hdecl, hc, rfl⟩
    exact ⟨(), ⟨hactor, hsame⟩, st, rfl, p, hp, (), ⟨hallowed, hdigest, hmodel, hdecl⟩, c, hc, rfl⟩

/-- A binding resolves wherever its package is kept and not revoked, to that package. -/
theorem resolve_of_boundTo {st' : HostState lib} {p : Package lib} (h : BoundTo st b p)
    (hp : st'.history.lookup p.identity = some p) (hallowed : st'.isRevoked p.identity = false) :
    ∃ session, resolve lib (some st') b b.actor = .ok session ∧ session.plugin = p := by
  obtain ⟨c, hc⟩ := h.contract
  refine ⟨⟨b, b.actor, c, p⟩, ?_, rfl⟩
  rw [resolve_ok]
  exact ⟨st', p, c, rfl, h.actor, rfl, h.identity ▸ hp, h.identity ▸ hallowed, h.digest, h.model,
    h.declared, hc, rfl⟩

/-- A revoked version resolves nowhere. -/
theorem not_resolve_of_revoked {state : Option (HostState lib)}
    (h : ∀ st, state = some st → st.isRevoked b.identity = true) (session : Session lib) :
    resolve lib state b actor ≠ .ok session := by
  intro hs
  obtain ⟨st, _, _, hst, -, -, -, hallowed, -⟩ := resolve_ok.mp hs
  rw [h st hst] at hallowed
  simp at hallowed

end binding

/-! ### States that serve alike -/

section alike

variable {st st' : HostState lib} {actor : Actor} {method path model upstreamModel : String}

theorem orThrow_some {α β ε : Type} {a : α} {e : ε} {f : α → Except ε β} :
    (orThrow (some a) e >>= f) = f a := rfl

theorem isRevoked_congr (h : SameState st st') (id : String) :
    st.isRevoked id = st'.isRevoked id := by
  unfold HostState.isRevoked
  rw [h.revoked id]

theorem bindMapped_congr (h : SameState st st') {contract : TaskUsageContract} :
    bindMapped lib (some st) actor method path model upstreamModel contract =
      bindMapped lib (some st') actor method path model upstreamModel contract := by
  unfold bindMapped
  simp only [orThrow_some, h.routes, h.active _, isRevoked_congr h]

theorem bindPricingMapped_congr (h : SameState st st') {contract : PricingContractIdentity} :
    bindPricingMapped lib (some st) actor method path model upstreamModel contract =
      bindPricingMapped lib (some st') actor method path model upstreamModel contract := by
  have hpackage : pricingPackage lib (some st) method path upstreamModel =
      pricingPackage lib (some st') method path upstreamModel := by
    unfold pricingPackage
    simp only [orThrow_some, h.routes, h.active _, isRevoked_congr h]
  unfold bindPricingMapped
  rw [hpackage]

theorem resolve_congr (h : SameState st st') {b : TaskPluginBinding} :
    resolve lib (some st) b actor = resolve lib (some st') b actor := by
  unfold resolve
  simp only [orThrow_some, h.history _, isRevoked_congr h]

end alike

/-! ### Which package a request binds to -/

/-- The manifest `m` belongs to a package of `es` that new requests may bind to. -/
def Serves (lib : Library) (es : List StoredPackage) (m : Manifest) : Prop :=
  ∃ e ∈ es, ∃ p : Package lib, Loaded lib e p ∧ e.serves = true ∧ p.manifest = m

section routing

variable {st : HostState lib} {revision : ℤ} {es : List StoredPackage}

theorem mem_activeManifests (hst : StateOf revision es st) {m : Manifest} :
    m ∈ activeManifests lib st.active ↔ Serves lib es m := by
  unfold activeManifests Serves
  rw [List.mem_filterMap]
  constructor
  · rintro ⟨k, -, hk⟩
    obtain ⟨p, hp, rfl⟩ := Option.map_eq_some_iff.mp hk
    obtain ⟨e, he, hload, -, hserves⟩ := (hst.active k p).mp hp
    exact ⟨e, he, p, hload, hserves, rfl⟩
  · rintro ⟨e, he, p, hload, hserves, rfl⟩
    have hp := (hst.active _ p).mpr ⟨e, he, hload, rfl, hserves⟩
    refine ⟨p.manifest.key, ?_, by rw [hp]; rfl⟩
    rw [List.mem_insertionSort, ← AList.mem_keys, ← AList.lookup_isSome, hp]
    rfl

theorem holds_routes (hst : StateOf revision es st) :
    Holds lib.toTextLibrary st.routes (activeManifests lib st.active) := by
  have h := holds_foldlM holds_empty hst.routes
  rwa [List.nil_append] at h

/-- The host's routes match a request with the best route of all packages that serve. -/
theorem matchRoute_state (hst : StateOf revision es st) {method path model : String}
    {x : RouteMatch} : matchRoute lib.toTextLibrary st.routes method path model = some x ↔
      Best lib.toTextLibrary (Serves lib es) method path model x := by
  have hsame : (· ∈ activeManifests lib st.active) = Serves lib es :=
    funext fun m => propext (mem_activeManifests hst)
  rw [matchRoute_iff (holds_routes hst), hsame]

/-- The package of a match is active. -/
theorem active_of_match (hst : StateOf revision es st) {method path model : String}
    {x : RouteMatch} (h : matchRoute lib.toTextLibrary st.routes method path model = some x) :
    ∃ p, st.active.lookup x.pluginKey = some p ∧ p.manifest = x.manifest := by
  have hbest := (matchRoute_state hst).mp h
  obtain ⟨e, he, p, hload, hserves, hm⟩ := hbest.fits.published
  refine ⟨p, (hst.active _ p).mpr ⟨e, he, hload, ?_, hserves⟩, hm⟩
  rw [hm, hbest.key]

/-- The package of a match is not revoked. -/
theorem allowed_of_active (hst : StateOf revision es st) {k : String} {p : Package lib}
    (h : st.active.lookup k = some p) : st.isRevoked p.identity = false := by
  obtain ⟨e, he, hload, -, hserves⟩ := (hst.active k p).mp h
  have hallowed : e.revoked = false := by
    unfold StoredPackage.serves at hserves
    simp only [Bool.and_eq_true, Bool.not_eq_true'] at hserves
    exact hserves.2
  have hlookup := (hst.revoked p.identity false).mpr ⟨e, he, p, hload, rfl, hallowed⟩
  unfold HostState.isRevoked
  rw [hlookup]
  rfl

/-- A request that a published route fits has a match. -/
theorem matchRoute_of_fits (hst : StateOf revision es st) {method path model : String}
    {m : Manifest} {r : Route}
    (h : Fits lib.toTextLibrary (Serves lib es) method path model m r) :
    ∃ x, matchRoute lib.toTextLibrary st.routes method path model = some x := by
  have hsame : (· ∈ activeManifests lib st.active) = Serves lib es :=
    funext fun m => propext (mem_activeManifests hst)
  rw [← hsame] at h
  cases hmatch : matchRoute lib.toTextLibrary st.routes method path model with
  | none => exact absurd h (none_of_matchRoute (holds_routes hst) hmatch m r)
  | some x => exact ⟨x, rfl⟩

/-- What a binding asks of a request apart from its route. -/
def Bindable (lib : Library) (actor : Actor) (model : String) (contract : TaskUsageContract) :
    Prop :=
  validActor actor = true ∧ Trimmed model ∧ ∃ digest resolved,
    contractDigest lib.sha256 contract = .ok digest ∧
      resolveContract lib.sha256 contract.sourceID contract.schemaVersion digest = .ok resolved

theorem toOption_eq_some {ε α : Type} {x : Except ε α} {a : α} :
    x.toOption = some a ↔ x = .ok a := by
  cases x with
  | error e => simp [Except.toOption]
  | ok b => simp [Except.toOption]

section bound

variable {actor : Actor} {method path model upstreamModel : String} {contract : TaskUsageContract}

/-- The binding of a request names the package with the best route. -/
theorem best_of_bindMapped (hst : StateOf revision es st) {b : TaskPluginBinding}
    (h : bindMapped lib (some st) actor method path model upstreamModel contract = .ok b) :
    Bindable lib actor model contract ∧ ∃ p : Package lib, ∃ r,
      Best lib.toTextLibrary (Serves lib es) method path upstreamModel
        ⟨p.manifest.key, p.manifest, r⟩ ∧ b.identity = p.identity ∧ b.packageDigest = p.digest := by
  unfold bindMapped at h
  simp only [ok_bind, ok_require, ok_orThrow, ok_pure, toOption_eq_some] at h
  obtain ⟨-, hactor, _, hs, x, hx, p, hp, -, ⟨-, hmodel, -⟩, digest, hdigest, c, hc, rfl⟩ := h
  obtain rfl := Option.some.inj hs
  refine ⟨⟨hactor, hmodel, digest, c, hdigest, hc⟩, p, x.route, ?_, rfl, rfl⟩
  obtain ⟨q, hq, hmanifest⟩ := active_of_match hst hx
  obtain rfl := Option.some.inj (hq.symm.trans hp)
  have hbest := (matchRoute_state hst).mp hx
  have hkey := hbest.key
  obtain ⟨k, m, r⟩ := x
  simp only at hmanifest hkey
  subst hkey
  rw [← hmanifest] at hbest
  exact hbest

/-- A request that a served route fits is bound, unless it is not bindable at all. -/
theorem bindMapped_of_fits (hst : StateOf revision es st)
    (hbindable : Bindable lib actor model contract) {m : Manifest} {r : Route}
    (h : Fits lib.toTextLibrary (Serves lib es) method path upstreamModel m r) :
    ∃ b, bindMapped lib (some st) actor method path model upstreamModel contract = .ok b := by
  obtain ⟨hactor, hmodel, digest, c, hdigest, hc⟩ := hbindable
  obtain ⟨x, hx⟩ := matchRoute_of_fits hst h
  obtain ⟨p, hp, hmanifest⟩ := active_of_match hst hx
  have hdecl : declaresModel p.manifest upstreamModel = true :=
    hmanifest ▸ ((matchRoute_state hst).mp hx).fits.declared
  unfold bindMapped
  simp only [ok_bind, ok_require, ok_orThrow, ok_pure, toOption_eq_some]
  exact ⟨_, (), hactor, st, rfl, x, hx, p, hp, (), ⟨allowed_of_active hst hp, hmodel, hdecl⟩,
    digest, hdigest, c, hc, rfl⟩

/-- A match always has its package. -/
theorem bindMapped_ne_nilPackage (hst : StateOf revision es st) :
    bindMapped lib (some st) actor method path model upstreamModel contract ≠
      .error .nilPackage := by
  intro h
  unfold bindMapped at h
  simp only [error_bind, error_require, error_orThrow, ok_orThrow, reduceCtorEq, and_false,
    false_or, or_false, exists_false, Option.some.injEq, pure, Except.pure] at h
  obtain ⟨-, -, s, rfl, x, hx, hnone, -⟩ := h
  obtain ⟨p, hp, -⟩ := active_of_match hst hx
  rw [hp] at hnone
  simp at hnone

end bound

end routing

end MaxApi.TaskPlugin
