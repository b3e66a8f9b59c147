import MaxApi.TaskPlugin.Binding
import MaxApi.TaskPlugin.Updates

/-! # What the catalog guarantees

The results hold in every run: any number of nodes, each statement of a call at any time, statements
that fail, replies that are lost, callers that go away, processes that restart, and calls of the
store that no catalog makes. -/

namespace MaxApi.TaskPlugin

open Checked
open TaskBilling (TaskUsageContract contractDigest resolveContract miniMaxH3Contract)

variable {lib : Library} {documents : Set String} {uuid : ℕ → String}

/-! ### An example catalog -/

/-- A package document as an administrator uploads it. -/
def veoDocument : String :=
  "\x7b\"format_version\":1,\"manifest\":\x7b\"APIVersion\":1,\"Key\":\"veo\",\"Name\":\"Veo\"," ++
    "\"Version\":\"1.0.0\",\"Models\":[\"veo-3\"],\"Routes\":[\x7b\"Method\":\"POST\"," ++
    "\"Path\":\"/v1/veo\",\"Type\":\"submit\",\"Decode\":\"d\",\"Render\":\"r\"\x7d]\x7d," ++
    "\"source\":\"x\"\x7d"

def veoManifest : Manifest where
  apiVersion := 1
  key := "veo"
  name := "Veo"
  version := "1.0.0"
  models := ["veo-3"]
  protocols := []
  routes := [⟨"POST", "/v1/veo", "submit", "d", "r", "", [], none⟩]
  baseURL := ""
  allowedHosts := []
  upstreams := []
  usageSchema := ∅
  usageProfiles := []

def veoContent : PackageDocument := ⟨1, veoManifest, "x"⟩

/-- A package whose route fits more paths. -/
def anyDocument : String :=
  "\x7b\"format_version\":1,\"manifest\":\x7b\"APIVersion\":1,\"Key\":\"any\",\"Name\":\"Any\"," ++
    "\"Version\":\"2.1.0\",\"Models\":[\"veo-3\",\"kling-2\"]," ++
    "\"Routes\":[\x7b\"Method\":\"POST\"," ++
    "\"Path\":\"/v1/:model\",\"Type\":\"submit\",\"Decode\":\"d\",\"Render\":\"r\"\x7d]\x7d," ++
    "\"source\":\"y\"\x7d"

def anyManifest : Manifest :=
  { veoManifest with
    key := "any", name := "Any", version := "2.1.0", models := ["veo-3", "kling-2"]
    routes := [⟨"POST", "/v1/:model", "submit", "d", "r", "", [], none⟩] }

def anyContent : PackageDocument := ⟨1, anyManifest, "y"⟩

/-- The text of the usage contract that the example binds under. -/
def contractText : String :=
  "source_id=minimax\nschema_version=1\n" ++
    "field=input_audio_duration_ms\nunit=millisecond\nrequired=false\nmin=0\nmax=15000\n" ++
    "field=input_image_count\nunit=count\nrequired=true\nmin=0\nmax=9\n" ++
    "field=input_video_duration_ms\nunit=millisecond\nrequired=false\nmin=0\nmax=15000\n" ++
    "field=output_duration_ms\nunit=millisecond\nrequired=true\nmin=4000\nmax=15000\n"

/-- The library on the texts of the example. -/
def exampleLibrary : Library where
  parse := fun _ => none
  parseRequestURI := fun s => if Text.hasPrefix s "/" then some s else none
  toLower := fun s => s
  sha256 := fun s =>
    if s = veoDocument then "bfc12e3e0f655336fca42db0c2aa2f651fca1bc674fd2ae025859a4e8295c326"
    else if s = "veo@1.0.0" then "fd210761dc0331397e55e81a6696955b38da47d8a94aea9dbd67231d7d677e7d"
    else if s = anyDocument then "5a9ec070455b601f48fda9cab317fce2663bea95083365109aedac7dae79a2d3"
    else if s = "any@2.1.0" then "77c6456928818b5f988b0ec979cb0971a9984625dc2e7a5f6358c1a6051cd17f"
    else if s = contractText then "e2f7fa75148543b5b12dcd12945abca6eb748298b5c44e395507b484dc5ad0ef"
    else s
  unmarshal := fun s =>
    if s = veoDocument then some veoContent else if s = anyDocument then some anyContent else none

theorem veo_decoded : exampleLibrary.unmarshal veoDocument = some veoContent := by
  simp only [exampleLibrary, if_true]

theorem veo_accepted : acceptedDocument exampleLibrary veoContent = true := by decide

/-- The documents are small and have two digests. -/
theorem documents_facts : veoDocument.utf8ByteSize ≤ MaxPackageBytes ∧
    anyDocument.utf8ByteSize ≤ MaxPackageBytes ∧
      exampleLibrary.sha256 veoDocument ≠ exampleLibrary.sha256 anyDocument := by
  decide +kernel

def veoPackage : Package exampleLibrary :=
  ⟨veoDocument, veoContent, veo_decoded, veo_accepted, documents_facts.1⟩

theorem any_ne_veo : anyDocument ≠ veoDocument := by decide

theorem any_decoded : exampleLibrary.unmarshal anyDocument = some anyContent := by
  simp only [exampleLibrary, if_neg any_ne_veo, if_true]

theorem any_accepted : acceptedDocument exampleLibrary anyContent = true := by decide

def anyPackage : Package exampleLibrary :=
  ⟨anyDocument, anyContent, any_decoded, any_accepted, documents_facts.2.1⟩

def exampleDocuments : Set String := {veoDocument, anyDocument}

theorem package_of_document {p : Package exampleLibrary} (h : p.document ∈ exampleDocuments) :
    p = veoPackage ∨ p = anyPackage := by
  rcases h with h | h
  · exact .inl (Package.eq_of_document h)
  · exact .inr (Package.eq_of_document h)

theorem example_identities :
    exampleLibrary.sha256 veoPackage.identity ≠ exampleLibrary.sha256 anyPackage.identity := by
  decide

theorem example_collisionFree : CollisionFree exampleLibrary exampleDocuments := by
  constructor
  · rintro a (rfl | rfl) b (rfl | rfl) h
    · rfl
    · exact absurd h documents_facts.2.2
    · exact absurd h.symm documents_facts.2.2
    · rfl
  · intro p q hp hq h
    rcases package_of_document hp with rfl | rfl
    · rcases package_of_document hq with rfl | rfl
      · rfl
      · exact absurd h example_identities
    · rcases package_of_document hq with rfl | rfl
      · exact absurd h.symm example_identities
      · rfl

def exampleUUID (n : ℕ) : String := String.ofList (List.replicate (n + 1) 'a')

theorem exampleUUID_injective : Function.Injective exampleUUID := by
  intro a b h
  have hlist := String.ofList_injective h
  have hlength := congrArg List.length hlist
  simp only [List.length_replicate] at hlength
  omega

/-- Node `n` makes a call that takes `k` steps, and nothing disturbs it. -/
def undisturbed (n : ℕ) (task : Task exampleLibrary) (k : ℕ) : List (Op exampleLibrary) :=
  .begin n task :: List.replicate k (.proceed n .none)

theorem undisturbed_sends {documents : Set String} {n k : ℕ} {task : Task exampleLibrary}
    (h : task.Sends documents) : ∀ op ∈ undisturbed n task k, op.Sends documents := by
  intro op hop
  rcases List.mem_cons.mp hop with rfl | hop
  · exact h
  · rw [List.eq_of_mem_replicate hop]
    trivial

/-- Node 0 installs the package. -/
def installed : List (Op exampleLibrary) := undisturbed 0 (.update none (.install [veoPackage])) 6

/-- Node 0 installs the other package, too. -/
def extended : List (Op exampleLibrary) := undisturbed 0 (.update none (.install [anyPackage])) 6

/-- Node 1 reads it. -/
def refreshed : List (Op exampleLibrary) := undisturbed 1 .refresh 4

/-- Node 0 revokes it. -/
def revoked : List (Op exampleLibrary) := undisturbed 0 (.update none (.revoke "veo" "1.0.0")) 6

theorem installed_sends : ∀ op ∈ installed, op.Sends exampleDocuments := by
  refine undisturbed_sends fun p hp => ?_
  rw [List.mem_singleton.mp hp]
  exact .inl rfl

theorem extended_sends : ∀ op ∈ extended, op.Sends exampleDocuments := by
  refine undisturbed_sends fun p hp => ?_
  rw [List.mem_singleton.mp hp]
  exact .inr rfl

theorem refreshed_sends {documents : Set String} : ∀ op ∈ refreshed, op.Sends documents :=
  undisturbed_sends trivial

theorem revoked_sends {documents : Set String} : ∀ op ∈ revoked, op.Sends documents :=
  undisturbed_sends trivial

theorem refreshed_install_sends : ∀ op ∈ installed ++ refreshed, op.Sends exampleDocuments :=
  List.forall_mem_append.mpr ⟨installed_sends, refreshed_sends⟩

theorem revoked_install_sends : ∀ op ∈ installed ++ revoked, op.Sends exampleDocuments :=
  List.forall_mem_append.mpr ⟨installed_sends, revoked_sends⟩

theorem extended_install_sends : ∀ op ∈ installed ++ extended, op.Sends exampleDocuments :=
  List.forall_mem_append.mpr ⟨installed_sends, extended_sends⟩

theorem extended_revoked_sends : ∀ op ∈ installed ++ revoked ++ extended,
    op.Sends exampleDocuments :=
  List.forall_mem_append.mpr ⟨revoked_install_sends, extended_sends⟩

def exampleActor : Actor := ⟨1, 1, 1, "req-1"⟩

/-- The contract of the pricing bindings of the example. -/
def exampleContract : PricingContractIdentity :=
  ⟨"generate", 1, "fd210761dc0331397e55e81a6696955b38da47d8a94aea9dbd67231d7d677e7d"⟩

def exampleBinding : TaskPluginBinding where
  profile := TaskPluginExpressionProfile
  action := "generate"
  phaseApprovalID := ""
  pluginKey := "veo"
  version := "1.0.0"
  packageDigest := "bfc12e3e0f655336fca42db0c2aa2f651fca1bc674fd2ae025859a4e8295c326"
  sourceID := "veo"
  schemaVersion := 1
  contractDigest := "fd210761dc0331397e55e81a6696955b38da47d8a94aea9dbd67231d7d677e7d"
  model := "veo-3"
  upstreamModel := "veo-3"
  actor := exampleActor

theorem idle_of_task {phase : Phase lib} (h : phase.task.isNone = true) : phase = .idle := by
  cases phase with
  | idle => rfl
  | starting _ _ => simp [Phase.task] at h
  | reading _ _ _ => simp [Phase.task] at h
  | read _ _ _ _ => simp [Phase.task] at h
  | loaded _ _ _ => simp [Phase.task] at h
  | swapping _ _ _ => simp [Phase.task] at h
  | swapped _ _ _ _ => simp [Phase.task] at h

/-- The stored package after its revocation. -/
def revokedPackage : StoredPackage :=
  ⟨veoDocument, "bfc12e3e0f655336fca42db0c2aa2f651fca1bc674fd2ae025859a4e8295c326", true, false,
    true⟩

/-- What the runs of the example lead to. -/
theorem example_runs :
    (((history exampleLibrary exampleUUID installed).nodes 0).host.map HostState.generation =
      some 1 ∧
      ((history exampleLibrary exampleUUID installed).nodes 1).phase.task.isNone = true ∧
      bindPricingMapped exampleLibrary ((history exampleLibrary exampleUUID installed).nodes 0).host
        exampleActor "POST" "/v1/veo" "veo-3" "veo-3" exampleContract = .ok exampleBinding) ∧
    ((history exampleLibrary exampleUUID (installed ++ refreshed)).nodes 1).host.map
      HostState.generation = some 1 ∧
    (⟨0, .update none (.revoke "veo" "1.0.0"), .ok (), 2⟩ : Returned exampleLibrary) ∈
      (history exampleLibrary exampleUUID (installed ++ revoked)).returned ∧
    ((history exampleLibrary exampleUUID (installed ++ revoked)).nodes 1).phase.task.isNone = true ∧
    (history exampleLibrary exampleUUID (installed ++ revoked ++ refreshed)).returned =
      (history exampleLibrary exampleUUID (installed ++ revoked)).returned ++
        [⟨1, .refresh, .ok (), 2⟩] ∧
    revokedPackage ∈
      rowsOf (history exampleLibrary exampleUUID (installed ++ revoked)).store.rows := by
  decide +kernel

/-! ### Hosts -/

/-- A host serves the state of a revision. -/
theorem host_spec {w : World lib} (h : Consistent documents uuid w) {n : ℕ} {st : HostState lib}
    (hst : (w.nodes n).host = some st) :
    ∃ c ∈ w.commits, ∃ es, es.Perm c.packages ∧ StateOf c.revision es st := by
  have hnd := h.nodes n
  have hstate : (w.nodes n).state = some st := by
    rcases hnd.host with hnone | hsame
    · rw [hst] at hnone
      simp at hnone
    · exact hsame.symm.trans hst
  obtain ⟨c, hc, hrev, hperm⟩ := hnd.snapshot
  refine ⟨c, hc, _, hperm, ?_⟩
  rw [hrev]
  exact stateOf_catalogState (hnd.state st hstate)

/-- Of two revisions the later one extends the earlier one. -/
theorem extends_of_le {w : World lib} (h : Consistent documents uuid w) {c c' : CatalogSnapshot}
    (hc : c ∈ w.commits) (hc' : c' ∈ w.commits) (hrev : c.revision ≤ c'.revision) :
    Extends c.packages c'.packages := by
  rcases hrev.eq_or_lt with heq | hlt
  · rw [eq_of_revision h hc hc' heq]
    exact Extends.refl _
  · have : ∀ l : List CatalogSnapshot, l.Pairwise (fun newer older =>
        older.revision < newer.revision ∧ Extends older.packages newer.packages) →
          c ∈ l → c' ∈ l → Extends c.packages c'.packages := by
      intro l hl
      induction hl with
      | nil => exact fun hc => absurd hc List.not_mem_nil
      | cons hhead _ ih =>
          intro hmem hmem'
          rcases List.mem_cons.mp hmem with rfl | hl
          · rcases List.mem_cons.mp hmem' with rfl | hl'
            · exact Extends.refl _
            · exact absurd (hhead c' hl').1 hlt.asymm
          · rcases List.mem_cons.mp hmem' with rfl | hl'
            · exact (hhead c hl).2
            · exact ih hl hl'
    exact this w.commits h.chain hc hc'

/-! ### The history is kept -/

/-- **History.**  Along a run the revision never falls, every version that is stored stays stored
with the same document and digest, a revoked one stays revoked, and at all times at most one version
of a key is active. -/
theorem history_kept (hfree : CollisionFree lib documents) (huuid : Function.Injective uuid)
    (ops ops' : List (Op lib)) (hops : ∀ op ∈ ops ++ ops', op.Sends documents) :
    (history lib uuid ops).store.revision ≤ (history lib uuid (ops ++ ops')).store.revision ∧
      Extends (rowsOf (history lib uuid ops).store.rows)
        (rowsOf (history lib uuid (ops ++ ops')).store.rows) ∧
      Acceptable lib (rowsOf (history lib uuid (ops ++ ops')).store.rows) := by
  have h := history_consistent hfree huuid (List.forall_mem_append.mp hops).1
  have h' := history_consistent hfree huuid hops
  obtain ⟨hrev, hext⟩ := revision_le h' ((history_commits ops ops').subset (contents_committed h))
  obtain ⟨st, hst⟩ := h'.store.state
  exact ⟨hrev, hext, (stateOf_catalogState hst).acceptable⟩

/-- The revoked version is kept when another package comes. -/
theorem history_kept_revoked :
    (∃ e ∈ rowsOf
      (history exampleLibrary exampleUUID (installed ++ revoked ++ extended)).store.rows,
        e.document = veoDocument ∧ e.digest = revokedPackage.digest ∧ e.revoked = true) ∧
      Acceptable exampleLibrary
        (rowsOf
          (history exampleLibrary exampleUUID (installed ++ revoked ++ extended)).store.rows) := by
  obtain ⟨-, hext, hacceptable⟩ := history_kept example_collisionFree exampleUUID_injective
    (installed ++ revoked) extended extended_revoked_sends
  obtain ⟨-, -, -, -, -, hstored⟩ := example_runs
  obtain ⟨e, he, hdocument, hdigest, hrevoked⟩ := hext revokedPackage hstored
  exact ⟨⟨e, he, hdocument, hdigest, hrevoked rfl⟩, hacceptable⟩

/-! ### Hosts agree -/

/-- **Agreement.**  Hosts that serve the same generation, at whatever nodes and times of a run,
select the same packages for new requests and resolve the same bindings. -/
theorem hosts_agree (hfree : CollisionFree lib documents) (huuid : Function.Injective uuid)
    (ops ops' : List (Op lib)) (hops : ∀ op ∈ ops ++ ops', op.Sends documents) (n n' : ℕ)
    (st st' : HostState lib) (hst : ((history lib uuid ops).nodes n).host = some st)
    (hst' : ((history lib uuid (ops ++ ops')).nodes n').host = some st')
    (hgeneration : st.generation = st'.generation) :
    (∀ actor method path model upstreamModel contract,
      bindMapped lib (some st) actor method path model upstreamModel contract =
        bindMapped lib (some st') actor method path model upstreamModel contract) ∧
      (∀ actor method path model upstreamModel contract,
        bindPricingMapped lib (some st) actor method path model upstreamModel contract =
          bindPricingMapped lib (some st') actor method path model upstreamModel contract) ∧
      ∀ b actor, resolve lib (some st) b actor = resolve lib (some st') b actor := by
  have h := history_consistent hfree huuid (List.forall_mem_append.mp hops).1
  have h' := history_consistent hfree huuid hops
  obtain ⟨c, hc, es, hperm, hof⟩ := host_spec h hst
  obtain ⟨c', hc', es', hperm', hof'⟩ := host_spec h' hst'
  have hrev : c.revision = c'.revision := by
    rw [← hof.generation, ← hof'.generation]
    exact hgeneration
  obtain rfl := eq_of_revision h' ((history_commits ops ops').subset hc) hc' hrev
  have hsame : SameState st st' := hof.same hof' (hperm.trans hperm'.symm)
  exact ⟨fun _ _ _ _ _ _ => bindMapped_congr hsame,
    fun _ _ _ _ _ _ => bindPricingMapped_congr hsame, fun _ _ => resolve_congr hsame⟩

theorem hosts_agree_refreshed : ∃ st st',
    ((history exampleLibrary exampleUUID installed).nodes 0).host = some st ∧
      ((history exampleLibrary exampleUUID (installed ++ refreshed)).nodes 1).host = some st' ∧
        ∀ b actor, resolve exampleLibrary (some st) b actor =
          resolve exampleLibrary (some st') b actor := by
  obtain ⟨⟨h, -, -⟩, h', -⟩ := example_runs
  obtain ⟨st, hst, hgeneration⟩ := Option.map_eq_some_iff.mp h
  obtain ⟨st', hst', hgeneration'⟩ := Option.map_eq_some_iff.mp h'
  have hagree := hosts_agree example_collisionFree exampleUUID_injective installed refreshed
    refreshed_install_sends 0 1 st st' hst hst' (hgeneration.trans hgeneration'.symm)
  exact ⟨st, st', hst, hst', hagree.2.2⟩

/-! ### Bindings are kept -/

/-- A stored package of a revision is still there in the states of later revisions. -/
theorem kept_of_le {w : World lib} (h : Consistent documents uuid w) {c c' : CatalogSnapshot}
    (hc : c ∈ w.commits) (hc' : c' ∈ w.commits) (hrev : c.revision ≤ c'.revision)
    {es : List StoredPackage} (hperm : es.Perm c'.packages) {e : StoredPackage}
    (he : e ∈ c.packages) {p : Package lib} (hp : Loaded lib e p) :
    ∃ e' ∈ es, Loaded lib e' p ∧ (e.revoked = true → e'.revoked = true) := by
  obtain ⟨e', he', hdoc, hdig, hrevoked⟩ := extends_of_le h hc hc' hrev e he
  exact ⟨e', hperm.mem_iff.mpr he', hp.of_fields hdoc hdig, hrevoked⟩

/-- **Bindings.**  A binding that a host has made is for one package, and never resolves to another
one: not at that host and at no other, then or later.  It does resolve at every host that serves
that generation or a later one in which the version is not revoked. -/
theorem binding_kept (hfree : CollisionFree lib documents) (huuid : Function.Injective uuid)
    (ops ops' : List (Op lib)) (hops : ∀ op ∈ ops ++ ops', op.Sends documents) (n : ℕ)
    (st : HostState lib) (hst : ((history lib uuid ops).nodes n).host = some st)
    (b : TaskPluginBinding) (hb : Binds lib (some st) b) :
    ∃ p : Package lib, b.identity = p.identity ∧ b.packageDigest = p.digest ∧ ∀ n' st',
      ((history lib uuid (ops ++ ops')).nodes n').host = some st' →
        (∀ actor session, resolve lib (some st') b actor = .ok session → session.plugin = p) ∧
          (st.generation ≤ st'.generation → st'.isRevoked b.identity = false →
            ∃ session, resolve lib (some st') b b.actor = .ok session) := by
  have h := history_consistent hfree huuid (List.forall_mem_append.mp hops).1
  have h' := history_consistent hfree huuid hops
  obtain ⟨c, hc, es, hperm, hof⟩ := host_spec h hst
  obtain ⟨p, hbound⟩ := boundTo_of_binds hof hb
  obtain ⟨e, he, hload, -, -⟩ := (hof.active _ p).mp hbound.active
  have hec : e ∈ c.packages := hperm.mem_iff.mp he
  have hpdoc : p.document ∈ documents := hload.document ▸ h.known c hc e hec
  refine ⟨p, hbound.identity, hbound.digest, fun n' st' hst' => ?_⟩
  obtain ⟨c', hc', es', hperm', hof'⟩ := host_spec h' hst'
  constructor
  · intro actor session hsession
    obtain ⟨_, q, _, hs, -, -, hq, -, hdigest, -, -, -, rfl⟩ := resolve_ok.mp hsession
    obtain rfl := Option.some.inj hs
    obtain ⟨e', he', hload', -⟩ := (hof'.history _ q).mp hq
    have hqdoc : q.document ∈ documents :=
      hload'.document ▸ h'.known c' hc' e' (hperm'.mem_iff.mp he')
    have hsame : q.digest = p.digest := hdigest.symm.trans hbound.digest
    exact Package.eq_of_document (hfree.digests hqdoc hpdoc hsame)
  · intro hgeneration hallowed
    have hrev : c.revision ≤ c'.revision := by
      rw [← hof.generation, ← hof'.generation]
      exact hgeneration
    obtain ⟨e', he', hload', -⟩ :=
      kept_of_le h' ((history_commits ops ops').subset hc) hc' hrev hperm' hec hload
    have hp : st'.history.lookup p.identity = some p :=
      (hof'.history _ p).mpr ⟨e', he', hload', rfl⟩
    obtain ⟨session, hsession, -⟩ :=
      resolve_of_boundTo hbound hp (hbound.identity ▸ hallowed)
    exact ⟨session, hsession⟩

theorem binding_kept_refreshed : ∃ p : Package exampleLibrary,
    exampleBinding.identity = p.identity ∧ exampleBinding.packageDigest = p.digest ∧ ∀ n' st',
      ((history exampleLibrary exampleUUID (installed ++ refreshed)).nodes n').host = some st' →
        ∀ actor session, resolve exampleLibrary (some st') exampleBinding actor = .ok session →
          session.plugin = p := by
  obtain ⟨⟨h, -, hbind⟩, -⟩ := example_runs
  obtain ⟨st, hst, -⟩ := Option.map_eq_some_iff.mp h
  rw [hst] at hbind
  obtain ⟨p, hid, hdigest, hall⟩ := binding_kept example_collisionFree exampleUUID_injective
    installed refreshed refreshed_install_sends 0 st hst exampleBinding
    ⟨exampleActor, "POST", "/v1/veo", "veo-3", "veo-3", .inr ⟨exampleContract, hbind⟩⟩
  exact ⟨p, hid, hdigest, fun n' st' hst' => (hall n' st' hst').1⟩

/-! ### Revocation is final -/

/-- A host that serves a revision after the revocation of a version does not serve the version. -/
theorem refused_of_revoked {w : World lib} (h : Consistent documents uuid w) {c : CatalogSnapshot}
    (hc : c ∈ w.commits) {e : StoredPackage} (he : e ∈ c.packages) {p : Package lib}
    (hp : Loaded lib e p) (hrevoked : e.revoked = true) {n : ℕ}
    (hserved : Served c.revision (w.nodes n).host) {b : TaskPluginBinding}
    (hb : b.identity = p.identity) :
    ¬ Binds lib (w.nodes n).host b ∧
      ∀ actor session, resolve lib (w.nodes n).host b actor ≠ .ok session := by
  have hall : ∀ st, (w.nodes n).host = some st → st.isRevoked p.identity = true := by
    intro st hst
    obtain ⟨c', hc', es', hperm', hof'⟩ := host_spec h hst
    have hrev : c.revision ≤ c'.revision := hof'.generation ▸ hserved st hst
    obtain ⟨e', he', hload', hrevoked'⟩ := kept_of_le h hc hc' hrev hperm' he hp
    have hlookup : st.revoked.lookup p.identity = some true :=
      (hof'.revoked _ _).mpr ⟨e', he', p, hload', rfl, hrevoked' hrevoked⟩
    unfold HostState.isRevoked
    rw [hlookup]
    rfl
  constructor
  · intro hbinds
    cases hst : (w.nodes n).host with
    | none =>
        rw [hst] at hbinds
        exact not_binds_none hbinds
    | some st =>
        rw [hst] at hbinds
        obtain ⟨c', hc', es', hperm', hof'⟩ := host_spec h hst
        obtain ⟨q, hbound⟩ := boundTo_of_binds hof' hbinds
        have hallowed := hbound.allowed
        rw [← hbound.identity, hb, hall st hst] at hallowed
        simp at hallowed
  · intro actor
    exact not_resolve_of_revoked fun st hst => hb ▸ hall st hst

theorem findVersion_ok {p : StoredPackage → Package lib → Bool} :
    ∀ {es : List StoredPackage} {i : ℕ}, findVersion lib p es = .ok i →
      ∃ e q, es[i]? = some e ∧ loadPackage lib e.document e.digest = some q ∧ p e q = true
  | [], i, h => by simp [findVersion] at h
  | e :: es, i, h => by
      unfold findVersion at h
      simp only [ok_bind, ok_orThrow] at h
      obtain ⟨q, hq, h⟩ := h
      split at h
      · next hpq =>
        obtain rfl : 0 = i := Except.ok.inj h
        exact ⟨e, q, rfl, hq, hpq⟩
      · cases hrest : findVersion lib p es with
        | error err =>
            rw [hrest] at h
            simp [Functor.map, Except.map] at h
        | ok j =>
            rw [hrest] at h
            obtain rfl : j + 1 = i := Except.ok.inj h
            obtain ⟨e', q', he', hq'⟩ := findVersion_ok hrest
            exact ⟨e', q', he', hq'⟩

/-- What a revocation does to the packages. -/
theorem revoked_of_revoke {es es' : List StoredPackage} {key version : String}
    (h : revokeCatalogVersion lib es key version = .ok es') :
    ∃ e ∈ es', ∃ p, loadPackage lib e.document e.digest = some p ∧
      p.identity = packageIdentity key version ∧ e.revoked = true := by
  unfold revokeCatalogVersion versionIndex at h
  simp only [ok_bind, ok_pure] at h
  obtain ⟨i, hi, rfl⟩ := h
  obtain ⟨e, p, he, hp, hkey⟩ := findVersion_ok hi
  simp only [Bool.and_eq_true, beq_iff_eq] at hkey
  refine ⟨{ e with revoked := true, enabled := false }, ?_, p, hp, ?_, rfl⟩
  · refine List.mem_of_getElem? (i := i) ?_
    rw [List.getElem?_modify_eq, he]
    rfl
  · unfold Package.identity
    rw [hkey.1, hkey.2]

/-- A revocation that has returned nil is in the history. -/
theorem revoked_commit {w : World lib} (h : Consistent documents uuid w) {expected : Option ℤ}
    {key version : String} {revision : ℤ}
    (ht : Took lib w.commits expected (.revoke key version) revision) :
    ∃ c ∈ w.commits, c.revision = revision ∧ ∃ e ∈ c.packages, ∃ p, Loaded lib e p ∧
      p.identity = packageIdentity key version ∧ e.revoked = true := by
  obtain ⟨_, _, after, hafter, _, _, hrev, es, es', -, happly, hperm⟩ := ht
  obtain ⟨e, he, p, hp, hid, hrevoked⟩ := revoked_of_revoke happly
  obtain ⟨st, hst⟩ := h.valid after hafter
  have hmem := hperm.mem_iff.mp he
  obtain ⟨q, hq⟩ := (stateOf_catalogState hst).acceptable.loads e hmem
  obtain rfl : q = p := Option.some.inj (hq.1.symm.trans hp)
  exact ⟨after, hafter, hrev, e, hmem, q, hq, hid, hrevoked⟩

/-- **Revocation.**  After a call of `Revoke` has returned nil, neither the node that made it nor
any node that has since begun and completed a call gives a request a binding of the version or a
session of an old one, whatever else happens. -/
theorem revocation_final (hfree : CollisionFree lib documents) (huuid : Function.Injective uuid)
    (ops ops' : List (Op lib)) (hops : ∀ op ∈ ops ++ ops', op.Sends documents)
    (x : Returned lib) (hx : x ∈ (history lib uuid ops).returned) (expected : Option ℤ)
    (key version : String) (hrevoke : x.task = .update expected (.revoke key version))
    (hok : x.result = .ok ()) (m : ℕ)
    (hm : m = x.node ∨ ((history lib uuid ops).nodes m).phase = .idle ∧
      ∃ earlier y later, (history lib uuid (ops ++ ops')).returned =
        (history lib uuid ops).returned ++ (earlier ++ y :: later) ∧ y.node = m ∧
          y.result = .ok ())
    (b : TaskPluginBinding) (hb : b.identity = packageIdentity key version) :
    ¬ Binds lib ((history lib uuid (ops ++ ops')).nodes m).host b ∧
      ∀ actor session,
        resolve lib ((history lib uuid (ops ++ ops')).nodes m).host b actor ≠ .ok session := by
  have hbefore := (List.forall_mem_append.mp hops).1
  have h := history_consistent hfree huuid hbefore
  have h' := history_consistent hfree huuid hops
  have hanswered := history_answered hfree huuid hops
  have htook := (history_once hfree huuid hbefore).took x hx hok expected _ hrevoke
  obtain ⟨c, hc, hrev, e, he, p, hp, hid, hrevoked⟩ := revoked_commit h htook
  have hc' := (history_commits ops ops').subset hc
  refine refused_of_revoked h' hc' he hp hrevoked ?_ (hb.trans hid.symm)
  rw [hrev]
  rcases hm with rfl | ⟨hidle, earlier, y, later, hreturned, hynode, hyok⟩
  · exact (hanswered x ((history_returned hfree huuid hops).subset hx) hok).2.2
  · obtain ⟨-, -, new, hnew, hall⟩ := history_since hfree huuid hops hidle
    rw [hreturned] at hnew
    obtain rfl := List.append_cancel_left hnew
    have hmem : y ∈ earlier ++ y :: later := List.mem_append_right _ List.mem_cons_self
    have hle : x.revision ≤ y.revision := by
      refine le_trans ?_ (hall y hmem hynode hyok)
      rw [← hrev]
      exact (revision_le h hc).1
    have hserved := (hanswered y (by rw [hreturned]; exact List.mem_append_right _ hmem) hyok).2.2
    rw [hynode] at hserved
    exact hserved.mono hle

theorem revocation_final_veo :
    ¬ Binds exampleLibrary
        ((history exampleLibrary exampleUUID (installed ++ revoked ++ refreshed)).nodes 1).host
        exampleBinding ∧
      ∀ actor session, resolve exampleLibrary
        ((history exampleLibrary exampleUUID (installed ++ revoked ++ refreshed)).nodes 1).host
        exampleBinding actor ≠ .ok session := by
  obtain ⟨-, -, hx, hidle, hreturned, -⟩ := example_runs
  refine revocation_final example_collisionFree exampleUUID_injective (installed ++ revoked)
    refreshed ?_ _ hx none "veo" "1.0.0" rfl rfl 1
    (.inr ⟨idle_of_task hidle, [], _, [], hreturned, rfl, rfl⟩)
    exampleBinding rfl
  exact List.forall_mem_append.mpr ⟨revoked_install_sends, refreshed_sends⟩

/-! ### No update is lost or repeated -/

/-- **Updates.**  Every update that has returned nil took the revision before its own to its own by
its change, and no two of them have the same revision. -/
theorem updates_once (hfree : CollisionFree lib documents) (huuid : Function.Injective uuid)
    (ops : List (Op lib)) (hops : ∀ op ∈ ops, op.Sends documents) :
    (history lib uuid ops).claims.Nodup ∧ ∀ x ∈ (history lib uuid ops).returned,
      x.result = .ok () → ∀ expected change, x.task = .update expected change →
        Took lib (history lib uuid ops).commits expected change x.revision := by
  have h := history_once hfree huuid hops
  exact ⟨h.nodup, h.took⟩

theorem updates_once_revoked :
    (history exampleLibrary exampleUUID (installed ++ revoked)).claims.Nodup ∧
      Took exampleLibrary (history exampleLibrary exampleUUID (installed ++ revoked)).commits none
        (.revoke "veo" "1.0.0") 2 := by
  obtain ⟨-, -, hx, -, -⟩ := example_runs
  obtain ⟨hnodup, hall⟩ := updates_once example_collisionFree exampleUUID_injective
    (installed ++ revoked) revoked_install_sends
  exact ⟨hnodup, hall _ hx rfl none _ rfl⟩

/-! ### Requests are routed -/

theorem serves_perm {es es' : List StoredPackage} (h : es.Perm es') :
    Serves lib es = Serves lib es' :=
  funext fun _ => propext (exists_congr fun _ => and_congr_left' h.mem_iff)

/-- **Routing.**  A host binds a request exactly when the request can be bound at all and a route of
some package that serves fits it; the binding is for the package with the best of these routes, and
the lookup of that package never fails. -/
theorem routed_best (hfree : CollisionFree lib documents) (huuid : Function.Injective uuid)
    (ops : List (Op lib)) (hops : ∀ op ∈ ops, op.Sends documents) (n : ℕ) (st : HostState lib)
    (hst : ((history lib uuid ops).nodes n).host = some st) :
    ∃ c ∈ (history lib uuid ops).commits, c.revision = st.generation ∧
      ∀ actor method path model upstreamModel contract,
        ((∃ b, bindMapped lib (some st) actor method path model upstreamModel contract = .ok b) ↔
          Bindable lib actor model contract ∧ ∃ m r,
            Fits lib.toTextLibrary (Serves lib c.packages) method path upstreamModel m r) ∧
        (∀ b, bindMapped lib (some st) actor method path model upstreamModel contract = .ok b →
          ∃ p : Package lib, ∃ r, Best lib.toTextLibrary (Serves lib c.packages) method path
            upstreamModel ⟨p.manifest.key, p.manifest, r⟩ ∧ b.identity = p.identity ∧
              b.packageDigest = p.digest) ∧
        bindMapped lib (some st) actor method path model upstreamModel contract ≠
          .error .nilPackage := by
  have h := history_consistent hfree huuid hops
  obtain ⟨c, hc, es, hperm, hof⟩ := host_spec h hst
  refine ⟨c, hc, hof.generation.symm, fun actor method path model upstreamModel contract => ?_⟩
  rw [← serves_perm hperm]
  refine ⟨⟨?_, ?_⟩, ?_, bindMapped_ne_nilPackage hof⟩
  · rintro ⟨b, hb⟩
    obtain ⟨hbindable, p, r, hbest, -, -⟩ := best_of_bindMapped hof hb
    exact ⟨hbindable, p.manifest, r, hbest.fits⟩
  · rintro ⟨hbindable, m, r, hfits⟩
    exact bindMapped_of_fits hof hbindable hfits
  · intro b hb
    exact (best_of_bindMapped hof hb).2

/-! ### Two packages for one path -/

def veoRoute : Route := ⟨"POST", "/v1/veo", "submit", "d", "r", "", [], none⟩

def anyRoute : Route := ⟨"POST", "/v1/:model", "submit", "d", "r", "", [], none⟩

/-- What is stored after both installations. -/
def bothPackages : List StoredPackage :=
  [⟨anyDocument, "5a9ec070455b601f48fda9cab317fce2663bea95083365109aedac7dae79a2d3", true, true,
      false⟩,
    ⟨veoDocument, "bfc12e3e0f655336fca42db0c2aa2f651fca1bc674fd2ae025859a4e8295c326", true, true,
      false⟩]

theorem extended_runs :
    (((history exampleLibrary exampleUUID (installed ++ extended)).nodes 0).host.map
        HostState.generation = some 2 ∧
      ∀ c ∈ (history exampleLibrary exampleUUID (installed ++ extended)).commits,
        c.revision = 2 → c.packages = bothPackages) ∧
    bothPackages.map StoredPackage.digest = [anyPackage.digest, veoPackage.digest] ∧
    bothPackages.map (fun e => loadPackage exampleLibrary e.document e.digest) =
      [some anyPackage, some veoPackage] := by
  decide +kernel

theorem serves_both {m : Manifest} :
    Serves exampleLibrary bothPackages m ↔ m = veoManifest ∨ m = anyManifest := by
  obtain ⟨-, hdigest, hload⟩ := extended_runs
  simp only [bothPackages, List.map_cons, List.map_nil, List.cons.injEq, and_true] at hdigest hload
  unfold Serves bothPackages
  constructor
  · rintro ⟨e, he, p, hp, -, rfl⟩
    rcases List.mem_cons.mp he with rfl | he
    · exact .inr (congrArg Package.manifest (Option.some.inj (hp.1.symm.trans hload.1)))
    · obtain rfl := List.mem_singleton.mp he
      exact .inl (congrArg Package.manifest (Option.some.inj (hp.1.symm.trans hload.2)))
  · rintro (rfl | rfl)
    · exact ⟨_, List.mem_cons_of_mem _ List.mem_cons_self, veoPackage,
        ⟨hload.2, hdigest.2⟩, rfl, rfl⟩
    · exact ⟨_, List.mem_cons_self, anyPackage, ⟨hload.1, hdigest.1⟩, rfl, rfl⟩

theorem bindable_veo : Bindable exampleLibrary exampleActor "veo-3" miniMaxH3Contract := by
  refine ⟨by decide, by decide,
    "e2f7fa75148543b5b12dcd12945abca6eb748298b5c44e395507b484dc5ad0ef", miniMaxH3Contract, ?_, ?_⟩
  · decide +kernel
  · decide +kernel

/-- Both routes fit the path `/v1/veo`, and it is bound to the package whose route names it. -/
theorem routed_best_veo : ∃ st b,
    ((history exampleLibrary exampleUUID (installed ++ extended)).nodes 0).host = some st ∧
      bindMapped exampleLibrary (some st) exampleActor "POST" "/v1/veo" "veo-3" "veo-3"
        miniMaxH3Contract = .ok b ∧
      b.identity = veoPackage.identity ∧
      ∀ b', bindMapped exampleLibrary (some st) exampleActor "POST" "/v2/veo" "veo-3" "veo-3"
        miniMaxH3Contract ≠ .ok b' := by
  obtain ⟨⟨h, hcommits⟩, -⟩ := extended_runs
  obtain ⟨st, hst, hgeneration⟩ := Option.map_eq_some_iff.mp h
  obtain ⟨c, hc, hrevision, hall⟩ := routed_best example_collisionFree exampleUUID_injective
    (installed ++ extended) extended_install_sends 0 st hst
  rw [hcommits c hc (hrevision.trans hgeneration)] at hall
  have hveo : Fits exampleLibrary.toTextLibrary (Serves exampleLibrary bothPackages) "POST"
      "/v1/veo" "veo-3" veoManifest veoRoute :=
    ⟨serves_both.mpr (.inl rfl), List.mem_singleton_self _, rfl, by decide, by decide,
      by decide⟩
  obtain ⟨hbinds, hbest, -⟩ :=
    hall exampleActor "POST" "/v1/veo" "veo-3" "veo-3" miniMaxH3Contract
  obtain ⟨b, hb⟩ := hbinds.mpr ⟨bindable_veo, veoManifest, veoRoute, hveo⟩
  obtain ⟨p, r, hp, hidentity, -⟩ := hbest b hb
  refine ⟨st, b, hst, hb, hidentity.trans ?_, fun b' hb' => ?_⟩
  · have hmanifest : p.manifest = veoManifest ∨ p.manifest = anyManifest :=
      serves_both.mp hp.fits.published
    rcases hmanifest with hmanifest | hmanifest
    · unfold Package.identity
      rw [hmanifest]
      rfl
    · have hfirst := hp.first veoManifest veoRoute hveo
      have hroute := hp.fits.route
      dsimp only at hfirst hroute
      rw [hmanifest] at hfirst hroute
      obtain rfl : r = anyRoute := List.mem_singleton.mp hroute
      exact absurd hfirst (by decide)
  · obtain ⟨hbinds', -, -⟩ :=
      hall exampleActor "POST" "/v2/veo" "veo-3" "veo-3" miniMaxH3Contract
    obtain ⟨-, m, r, hfits⟩ := hbinds'.mp ⟨b', hb'⟩
    have hpath := hfits.path
    have hroute := hfits.route
    rcases serves_both.mp hfits.published with rfl | rfl
    · rw [List.mem_singleton.mp hroute] at hpath
      exact absurd hpath (by decide)
    · rw [List.mem_singleton.mp hroute] at hpath
      exact absurd hpath (by decide)

/-! ### Nothing wedges the catalog -/

theorem readHead_ok {w : World lib} (h : Consistent documents uuid w) (hid : ∀ k, uuid k ≠ "") :
    readHead w.store = .ok w.store.head := by
  unfold readHead
  cases hhead : w.store.head with
  | none => rfl
  | some head =>
      obtain ⟨k, -, hk⟩ := h.store.drawnID head hhead
      simp only [ok_bind, ok_require, ok_pure, and_true]
      exact ⟨(), h.store.positive head hhead, hk ▸ hid k⟩

theorem recheck_ok {w : World lib} (h : Consistent documents uuid w) :
    recheck w.store w.store.head (rowsOf w.store.rows) = .ok w.store.contents := by
  unfold recheck
  simp only [ok_bind, ok_require]
  refine ⟨(), trivial, ?_⟩
  cases hhead : w.store.head with
  | none =>
      simp only [ok_bind, ok_require, ok_pure]
      refine ⟨(), h.store.empty hhead, ?_⟩
      unfold Store.contents
      rw [revision_none hhead]
      rfl
  | some head =>
      simp only [ok_pure]
      unfold Store.contents
      rw [revision_some hhead]
      rfl

theorem catalogFingerprint_perm {s s' : CatalogSnapshot} (h : s.packages.Perm s'.packages) :
    catalogFingerprint s = catalogFingerprint s' := by
  unfold catalogFingerprint
  rw [insertionSort_perm (h.map _)]

/-- The stored revision passes every comparison with a snapshot that a node has read before. -/
theorem buildCatalogState_ok {w : World lib} (h : Consistent documents uuid w)
    {previous : CatalogSnapshot} (hprevious : Committed w.commits previous) (check : Bool) :
    ∃ st, buildCatalogState lib w.store.contents previous check = .ok st := by
  obtain ⟨st, hst⟩ := h.store.state
  refine ⟨st, ?_⟩
  unfold buildCatalogState
  rw [ok_bind]
  refine ⟨st, hst, ?_⟩
  cases check with
  | false => rfl
  | true =>
      have hof := stateOf_catalogState hst
      obtain ⟨c, hc, hrev, hperm⟩ := hprevious
      obtain ⟨hle, hext⟩ := revision_le h hc
      obtain ⟨stc, hstc⟩ := h.valid c hc
      have hcheck : checkTransition lib w.store.contents previous st = .ok () := by
        unfold checkTransition
        simp only [ok_bind, ok_require]
        refine ⟨(), ⟨hrev ▸ hle, fun hsame => ?_⟩, forM_ok.mpr fun e he => ?_⟩
        · have hcontents := eq_of_revision h (contents_committed h) hc (hsame.trans hrev.symm)
          rw [hcontents]
          exact catalogFingerprint_perm hperm.symm
        · have hec := hperm.mem_iff.mp he
          obtain ⟨p, hp⟩ := (stateOf_catalogState hstc).acceptable.loads e hec
          obtain ⟨e', he', hdoc, hdig, hrevoked⟩ := hext e hec
          have hp' := hp.of_fields hdoc hdig
          unfold keepsEntry
          simp only [ok_bind, ok_require, ok_orThrow]
          refine ⟨p, hp.1, p, (hof.history _ _).mpr ⟨e', he', hp', rfl⟩, (), hp.2.symm, ?_⟩
          exact fun hr => (hof.revoked _ _).mpr ⟨e', he', p, hp', rfl, hrevoked hr⟩
      simp only [if_true, ok_bind, ok_pure, and_true]
      exact ⟨(), hcheck⟩

theorem set_set (w : World lib) (n : ℕ) (nd nd' : Node lib) :
    (w.set n nd).set n nd' = w.set n nd' := by
  unfold World.set
  rw [Function.update_idem]

section undisturbed

variable {w : World lib} {n : ℕ}

theorem store_set (w : World lib) (n : ℕ) (nd : Node lib) : (w.set n nd).store = w.store := rfl

theorem proceed_starting (h : Consistent documents uuid w) (hid : ∀ k, uuid k ≠ "")
    (nd : Node lib) (task : Task lib) (attempt : ℕ) :
    proceed lib uuid (w.set n (nd.in (.starting task attempt))) n .none =
      w.set n (nd.in (.reading task attempt w.store.head)) := by
  unfold proceed
  rw [nodes_set]
  simp only [Node.in, reduceCtorEq, if_false, if_true, store_set, readHead_ok h hid, set_set]

theorem proceed_reading (h : Consistent documents uuid w) (nd : Node lib) (task : Task lib)
    (attempt : ℕ) (head : Option TaskPluginCatalogHead) :
    proceed lib uuid (w.set n (nd.in (.reading task attempt head))) n .none =
      w.set n (nd.in (.read task attempt head (rowsOf w.store.rows))) := by
  unfold proceed
  rw [nodes_set]
  simp only [Node.in, if_true, store_set, loadTaskPluginVersions_ok h.store.keyed, set_set]

theorem proceed_read (h : Consistent documents uuid w) (nd : Node lib) (task : Task lib)
    (attempt : ℕ) :
    proceed lib uuid (w.set n (nd.in (.read task attempt w.store.head (rowsOf w.store.rows)))) n
      .none = w.set n (nd.in (.loaded task attempt (.ok w.store.contents))) := by
  unfold proceed
  rw [nodes_set]
  simp only [Node.in, if_true, store_set, recheck_ok h, set_set]

theorem proceed_loaded {st : HostState lib} (nd : Node lib) (attempt : ℕ)
    (hst : buildCatalogState lib w.store.contents nd.snapshot nd.state.isSome = .ok st) :
    proceed lib uuid (w.set n (nd.in (.loaded .refresh attempt (.ok w.store.contents)))) n .none =
      w.finish n (nd.publish w.store.contents st) .refresh (.ok ()) := by
  unfold proceed
  rw [nodes_set]
  simp only [Node.in, loadDone, reduceCtorEq, if_false, nodes_set, hst, afterRefresh]
  unfold World.finish
  rw [set_set]
  rfl

end undisturbed

/-- **Availability.**  In whatever state a run has left the store and the node, a refresh that
nothing disturbs returns nil, and the host serves the current revision. -/
theorem refresh_undisturbed (hfree : CollisionFree lib documents) (huuid : Function.Injective uuid)
    (hid : ∀ k, uuid k ≠ "") (ops : List (Op lib)) (hops : ∀ op ∈ ops, op.Sends documents) (n : ℕ)
    (hidle : ((history lib uuid ops).nodes n).phase = .idle) :
    (history lib uuid (ops ++ [.begin n .refresh, .proceed n .none, .proceed n .none,
      .proceed n .none, .proceed n .none])).returned = (history lib uuid ops).returned ++
        [⟨n, .refresh, .ok (), (history lib uuid ops).store.revision⟩] ∧
      ∃ st, ((history lib uuid (ops ++ [.begin n .refresh, .proceed n .none, .proceed n .none,
        .proceed n .none, .proceed n .none])).nodes n).host = some st ∧
          st.generation = (history lib uuid ops).store.revision := by
  have h := history_consistent hfree huuid hops
  unfold history at h hidle ⊢
  rw [Transition.run_append]
  generalize Transition.run (step lib uuid) (World.start lib) ops = w at h hidle ⊢
  obtain ⟨st, hst⟩ := buildCatalogState_ok h (h.nodes n).snapshot (w.nodes n).state.isSome
  have hbegin : step lib uuid w (.begin n .refresh) =
      w.set n ((w.nodes n).in (.starting .refresh 0)) := by
    simp only [step, hidle]
    rfl
  have hend : Transition.run (step lib uuid) w [.begin n .refresh, .proceed n .none,
      .proceed n .none, .proceed n .none, .proceed n .none] =
        w.finish n ((w.nodes n).publish w.store.contents st) .refresh (.ok ()) := by
    simp only [Transition.run_cons, Transition.run_nil]
    rw [hbegin]
    simp only [step]
    rw [proceed_starting h hid, proceed_reading h, proceed_read h, proceed_loaded _ _ hst]
  rw [hend]
  refine ⟨rfl, st, ?_, generation_of_catalogState (catalogState_of_build hst)⟩
  have hnode : (w.finish n ((w.nodes n).publish w.store.contents st) .refresh (.ok ())).nodes n =
      ((w.nodes n).publish w.store.contents st).in .idle := nodes_set w n _
  rw [hnode]
  rfl

theorem exampleUUID_ne (k : ℕ) : exampleUUID k ≠ "" := by
  intro h
  have hlength := congrArg String.length h
  simp [exampleUUID] at hlength

theorem refresh_undisturbed_veo :
    (history exampleLibrary exampleUUID
      (installed ++ [.begin 1 .refresh, .proceed 1 .none, .proceed 1 .none,
        .proceed 1 .none, .proceed 1 .none])).returned =
        (history exampleLibrary exampleUUID installed).returned ++
          [⟨1, .refresh, .ok (),
            (history exampleLibrary exampleUUID installed).store.revision⟩] := by
  obtain ⟨⟨-, hidle, -⟩, -⟩ := example_runs
  exact (refresh_undisturbed example_collisionFree exampleUUID_injective exampleUUID_ne installed
    installed_sends 1 (idle_of_task hidle)).1

end MaxApi.TaskPlugin
