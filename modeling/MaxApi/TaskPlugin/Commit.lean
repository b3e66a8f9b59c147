import MaxApi.TaskPlugin.Store

/-! # What a transaction commits

A committed transaction leaves exactly the packages that its caller sent, at the next revision, and
none of the versions that were there is lost, changed or no longer revoked (`compareAndSwap_spec`).
That the stored documents are the ones that were sent rests on the hash: no two of the documents
that ever reach the store may have one digest (`CollisionFree`). -/

namespace MaxApi.TaskPlugin

open Checked

variable {lib : Library}

/-- The hash tells the documents of the set apart, and the versions that they describe. -/
structure CollisionFree (lib : Library) (documents : Set String) : Prop where
  digests : Set.InjOn lib.sha256 documents
  identities : ∀ p q : Package lib, p.document ∈ documents → q.document ∈ documents →
    lib.sha256 p.identity = lib.sha256 q.identity → p.identity = q.identity

/-- All packages of `es` have documents of the set. -/
def Known (documents : Set String) (es : List StoredPackage) : Prop :=
  ∀ e ∈ es, e.document ∈ documents

/-- Every package of `es` is still in `es'`, with the same document, and revoked if it was. -/
def Extends (es es' : List StoredPackage) : Prop :=
  ∀ e ∈ es, ∃ e' ∈ es', e'.document = e.document ∧ e'.digest = e.digest ∧
    (e.revoked = true → e'.revoked = true)

theorem Extends.refl (es : List StoredPackage) : Extends es es :=
  fun e he => ⟨e, he, rfl, rfl, id⟩

theorem Extends.trans {es es' es'' : List StoredPackage} (h : Extends es es')
    (h' : Extends es' es'') : Extends es es'' := by
  intro e he
  obtain ⟨e', he', hdoc, hdig, hrev⟩ := h e he
  obtain ⟨e'', he'', hdoc', hdig', hrev'⟩ := h' e' he'
  exact ⟨e'', he'', hdoc'.trans hdoc, hdig'.trans hdig, fun hr => hrev' (hrev hr)⟩

theorem Extends.perm {es es' fs fs' : List StoredPackage} (h : Extends es es')
    (hp : es.Perm fs) (hp' : es'.Perm fs') : Extends fs fs' := by
  intro e he
  obtain ⟨e', he', hkept⟩ := h e (hp.mem_iff.mpr he)
  exact ⟨e', hp'.mem_iff.mp he', hkept⟩

theorem Loaded.of_fields {e e' : StoredPackage} {p : Package lib} (h : Loaded lib e p)
    (hdoc : e'.document = e.document) (hdig : e'.digest = e.digest) : Loaded lib e' p := by
  unfold Loaded
  rw [hdoc, hdig]
  exact h

/-! ### Rows -/

/-- Every row stands under the identity of the package it holds. -/
def Keyed (lib : Library) (rows : Dict StoredPackage) : Prop :=
  ∀ id e, rows.lookup id = some e → ∃ p, Loaded lib e p ∧ id = lib.sha256 p.identity

def rowsOf (rows : Dict StoredPackage) : List StoredPackage := (sortedRows rows).map Sigma.snd

theorem mem_sortedRows {rows : Dict StoredPackage} {row : Dict.Entry StoredPackage} :
    row ∈ sortedRows rows ↔ rows.lookup row.1 = some row.2 := by
  unfold sortedRows
  rw [List.mem_insertionSort]
  exact AList.mem_lookup_iff.symm

theorem mem_rowsOf {rows : Dict StoredPackage} {e : StoredPackage} :
    e ∈ rowsOf rows ↔ ∃ id, rows.lookup id = some e := by
  unfold rowsOf
  rw [List.mem_map]
  constructor
  · rintro ⟨row, hrow, rfl⟩
    exact ⟨row.1, mem_sortedRows.mp hrow⟩
  · rintro ⟨id, hid⟩
    exact ⟨⟨id, e⟩, mem_sortedRows.mpr hid, rfl⟩

theorem storageIdentity_eq_some {e : StoredPackage} {id : String} :
    taskPluginStorageIdentity lib e = some id ↔
      ∃ p, loadPackage lib e.document e.digest = some p ∧ lib.sha256 p.identity = id :=
  Option.map_eq_some_iff

theorem storageIdentity_of_loaded {e : StoredPackage} {p : Package lib} (h : Loaded lib e p) :
    taskPluginStorageIdentity lib e = some (lib.sha256 p.identity) :=
  storageIdentity_eq_some.mpr ⟨p, h.1, rfl⟩

theorem sortedRows_nodup (rows : Dict StoredPackage) :
    ((sortedRows rows).map Sigma.fst).Nodup :=
  ((List.perm_insertionSort _ rows.entries).map Sigma.fst).nodup_iff.mpr rows.keys_nodup

/-- No two rows hold the same package. -/
theorem rowsOf_nodup {rows : Dict StoredPackage} (h : Keyed lib rows) : (rowsOf rows).Nodup := by
  unfold rowsOf
  refine List.Nodup.map_on ?_ (List.Nodup.of_map _ (sortedRows_nodup rows))
  intro a ha b hb hab
  obtain ⟨p, hp, hid⟩ := h a.1 a.2 (mem_sortedRows.mp ha)
  obtain ⟨q, hq, hid'⟩ := h b.1 b.2 (mem_sortedRows.mp hb)
  rw [← hab] at hq
  rw [hp.eq hq, ← hid'] at hid
  exact Sigma.ext hid (heq_of_eq hab)

/-- Rows under their identities are read back as they are. -/
theorem loadTaskPluginVersions_ok {rows : Dict StoredPackage} (h : Keyed lib rows) :
    loadTaskPluginVersions lib rows = .ok (rowsOf rows) := by
  have hall : ∀ l : List (Dict.Entry StoredPackage), (∀ row ∈ l, rows.lookup row.1 = some row.2) →
      l.mapM (loadVersion lib) = .ok (l.map Sigma.snd) := by
    intro l
    induction l with
    | nil => exact fun _ => rfl
    | cons row l ih =>
        intro hl
        obtain ⟨p, hp, hid⟩ := h row.1 row.2 (hl row List.mem_cons_self)
        have hrow : loadVersion lib row = .ok row.2 := by
          unfold loadVersion
          simp only [ok_bind, ok_require, ok_pure, and_true]
          exact ⟨(), hid ▸ storageIdentity_of_loaded hp⟩
        rw [List.mapM_cons, hrow, ih fun r hr => hl r (List.mem_cons_of_mem _ hr)]
        rfl
  exact hall _ fun row hrow => mem_sortedRows.mp hrow

/-! ### Writing -/

/-- The rows after writing the versions `l`. -/
theorem writeVersions_spec {known : List String} : ∀ {l : List (String × StoredPackage)}
    {rows rows' : Dict StoredPackage}, l.foldlM (writeVersion known) rows = .ok rows' →
      (l.map Prod.fst).Nodup →
      (∀ x ∈ l, x.1 ∈ known → ∃ r, rows.lookup x.1 = some r ∧ r.document = x.2.document ∧
        r.digest = x.2.digest) →
        (∀ x ∈ l, rows'.lookup x.1 = some x.2) ∧
          ∀ id, id ∉ l.map Prod.fst → rows'.lookup id = rows.lookup id
  | [], rows, rows', h, _, _ => by
      obtain rfl : rows = rows' := Except.ok.inj h
      exact ⟨fun x hx => absurd hx List.not_mem_nil, fun _ _ => rfl⟩
  | x :: l, rows, rows', h, hnodup, hknown => by
      rw [List.foldlM_cons, ok_bind] at h
      obtain ⟨mid, hmid, hrest⟩ := h
      rw [List.map_cons, List.nodup_cons] at hnodup
      have hinsert : mid = rows.insert x.1 x.2 := by
        unfold writeVersion at hmid
        cases hrow : rows.lookup x.1 with
        | none =>
            rw [hrow] at hmid
            have hnew : x.1 ∉ known := by
              intro hk
              obtain ⟨r, hr, -⟩ := hknown x List.mem_cons_self hk
              rw [hrow] at hr
              simp at hr
            simp only [ok_pure, if_neg hnew] at hmid
            exact hmid.symm
        | some row =>
            rw [hrow] at hmid
            simp only [ok_bind, ok_require, ok_pure] at hmid
            obtain ⟨-, hk, rfl⟩ := hmid
            obtain ⟨r, hr, hdoc, hdig⟩ := hknown x List.mem_cons_self hk
            obtain rfl := Option.some.inj (hrow.symm.trans hr)
            rw [hdoc, hdig]
      subst hinsert
      have hnext : ∀ y ∈ l, y.1 ∈ known → ∃ r, (rows.insert x.1 x.2).lookup y.1 = some r ∧
          r.document = y.2.document ∧ r.digest = y.2.digest := by
        intro y hy hk
        have hne : y.1 ≠ x.1 := fun heq => hnodup.1 (heq ▸ List.mem_map_of_mem hy)
        rw [AList.lookup_insert_ne hne]
        exact hknown y (List.mem_cons_of_mem _ hy) hk
      obtain ⟨hin, hout⟩ := writeVersions_spec hrest hnodup.2 hnext
      constructor
      · intro y hy
        rcases List.mem_cons.mp hy with rfl | hy
        · rw [hout y.1 hnodup.1, AList.lookup_insert]
        · exact hin y hy
      · intro id hid
        rw [List.map_cons, List.mem_cons, not_or] at hid
        rw [hout id hid.2, AList.lookup_insert_ne hid.1]

theorem identified_mapM : ∀ {l : List StoredPackage} {r : List (String × StoredPackage)},
    l.mapM (identified lib) = .ok r →
      r.map Prod.snd = l ∧ ∀ x ∈ r, taskPluginStorageIdentity lib x.2 = some x.1
  | [], r, h => by
      obtain rfl : [] = r := Except.ok.inj h
      exact ⟨rfl, fun x hx => absurd hx List.not_mem_nil⟩
  | e :: l, r, h => by
      rw [List.mapM_cons] at h
      simp only [identified, ok_bind, ok_orThrow, ok_pure] at h
      obtain ⟨x, ⟨id, hid, rfl⟩, r', hr', rfl⟩ := h
      obtain ⟨hsnd, hall⟩ := identified_mapM hr'
      constructor
      · rw [List.map_cons, hsnd]
      · intro y hy
        rcases List.mem_cons.mp hy with rfl | hy
        · exact hid
        · exact hall y hy

/-! ### Transitions -/

theorem forM_ok {α ε : Type} {f : α → Except ε Unit} : ∀ {l : List α},
    l.forM f = .ok () ↔ ∀ a ∈ l, f a = .ok ()
  | [] => ⟨fun _ _ h => absurd h List.not_mem_nil, fun _ => rfl⟩
  | a :: l => by
      rw [List.forM_eq_forM, List.forM_cons, ok_bind, List.forall_mem_cons]
      constructor
      · rintro ⟨_, ha, hl⟩
        exact ⟨ha, forM_ok.mp hl⟩
      · rintro ⟨ha, hl⟩
        exact ⟨(), ha, forM_ok.mpr hl⟩

/-- A transition that passes the check keeps what was there. -/
theorem extends_of_checkTransition {documents : Set String} {snapshot previous : CatalogSnapshot}
    {st : HostState lib} (hfree : CollisionFree lib documents)
    (hst : catalogState lib snapshot = .ok st) (hknown : Known documents snapshot.packages)
    (hold : Known documents previous.packages)
    (hprev : ∀ e ∈ previous.packages, ∃ p, Loaded lib e p)
    (h : checkTransition lib snapshot previous st = .ok ()) :
    Extends previous.packages snapshot.packages := by
  have hof := stateOf_catalogState hst
  unfold checkTransition at h
  simp only [ok_bind, ok_require] at h
  obtain ⟨-, -, hall⟩ := h
  intro e he
  obtain ⟨p, hp⟩ := hprev e he
  have hkept := forM_ok.mp hall e he
  unfold keepsEntry at hkept
  simp only [ok_bind, ok_require, ok_orThrow] at hkept
  obtain ⟨p', hp', current, hcurrent, -, hdigest, hrevoked⟩ := hkept
  obtain rfl : p = p' := Option.some.inj (hp.1.symm.trans hp')
  obtain ⟨e', he', hload, hid⟩ := (hof.history _ _).mp hcurrent
  have hdig : e'.digest = e.digest := hload.2.trans hdigest
  have hdoc : e'.document = e.document := by
    refine hfree.digests (hknown e' he') (hold e he) ?_
    have hsame : current.digest = p.digest := hload.2.symm.trans (hdig.trans hp.2)
    unfold Package.digest at hsame
    rwa [hload.document, hp.document] at hsame
  refine ⟨e', he', hdoc, hdig, fun hr => ?_⟩
  obtain ⟨e'', he'', q, hq, hqid, hr''⟩ := (hof.revoked _ _).mp (hrevoked hr)
  have hsame : e'' = e' := hof.acceptable.eq_of_identity he'' he' hq hload (hqid.trans hid.symm)
  rw [← hsame]
  exact hr''

/-! ### Transactions -/

variable {documents : Set String} {uuid : ℕ → String}

/-- What holds of the tables between transactions. -/
structure StoreOk (lib : Library) (documents : Set String) (uuid : ℕ → String) (drawn : ℕ)
    (s : Store) : Prop where
  keyed : Keyed lib s.rows
  known : Known documents (rowsOf s.rows)
  empty : s.head = none → rowsOf s.rows = []
  positive : ∀ head ∈ s.head, 0 < head.revision
  drawnID : ∀ head ∈ s.head, ∃ k < drawn, head.mutationID = uuid k
  state : ∃ st, catalogState lib s.contents = .ok st

theorem revision_none {s : Store} (h : s.head = none) : s.revision = 0 := by
  unfold Store.revision
  rw [h]
  rfl

theorem revision_some {s : Store} {head : TaskPluginCatalogHead} (h : s.head = some head) :
    s.revision = head.revision := by
  unfold Store.revision
  rw [h]
  rfl

theorem claimHead_ok {drawn : ℕ} {s : Store} {revision : ℤ} {head : TaskPluginCatalogHead}
    (huuid : Function.Injective uuid) (hs : StoreOk lib documents uuid drawn s)
    (h : claimHead s revision (uuid drawn) = .ok head) :
    s.revision = revision ∧ head = ⟨revision + 1, uuid drawn⟩ := by
  unfold claimHead at h
  split at h
  · next hnone =>
    simp only [ok_bind, ok_require, ok_pure] at h
    obtain ⟨-, rfl, rfl⟩ := h
    exact ⟨revision_none hnone, rfl⟩
  · next old hold =>
    obtain ⟨k, hk, hid⟩ := hs.drawnID old hold
    split at h
    · simp only [ok_bind, ok_require, ok_pure] at h
      obtain ⟨-, ⟨hsame, -⟩, -⟩ := h
      rw [hid] at hsame
      exact absurd (huuid hsame) (Nat.ne_of_lt hk)
    · simp only [ok_bind, ok_require, ok_pure] at h
      obtain ⟨-, hrev, rfl⟩ := h
      exact ⟨(revision_some hold).trans hrev, rfl⟩

theorem validateCatalogTransition_ok {previous next : CatalogSnapshot} {u : Unit} :
    validateCatalogTransition lib previous next = .ok u ↔
      ∃ st, catalogState lib next = .ok st ∧ checkTransition lib next previous st = .ok () := by
  unfold validateCatalogTransition buildCatalogState
  simp only [if_true, ok_bind, ok_pure]
  constructor
  · rintro ⟨st, ⟨st', hst, _, hcheck, rfl⟩, -⟩
    exact ⟨st', hst, hcheck⟩
  · rintro ⟨st, hst, hcheck⟩
    exact ⟨st, ⟨st, hst, (), hcheck, rfl⟩, trivial⟩

/-- Accepted packages are identified, each by an identity of its own. -/
theorem identified_spec {packages : List StoredPackage} {versions : List (String × StoredPackage)}
    (hfree : CollisionFree lib documents) (haccept : Acceptable lib packages)
    (hsent : Known documents packages) (h : packages.mapM (identified lib) = .ok versions) :
    versions.map Prod.snd = packages ∧
      (∀ x ∈ versions, ∃ p, Loaded lib x.2 p ∧ x.1 = lib.sha256 p.identity) ∧
        (versions.map Prod.fst).Nodup := by
  obtain ⟨hsnd, hids⟩ := identified_mapM h
  have hmem : ∀ x ∈ versions, x.2 ∈ packages := fun x hx => hsnd ▸ List.mem_map_of_mem hx
  have hloaded : ∀ x ∈ versions, ∃ p, Loaded lib x.2 p ∧ x.1 = lib.sha256 p.identity := by
    intro x hx
    obtain ⟨p, hp⟩ := haccept.loads x.2 (hmem x hx)
    have hid := hids x hx
    rw [storageIdentity_of_loaded hp] at hid
    exact ⟨p, hp, (Option.some.inj hid).symm⟩
  refine ⟨hsnd, hloaded, List.Nodup.map_on ?_ (List.Nodup.of_map Prod.snd (hsnd ▸ haccept.nodup))⟩
  intro x hx y hy hxy
  obtain ⟨p, hp, hpid⟩ := hloaded x hx
  obtain ⟨q, hq, hqid⟩ := hloaded y hy
  have hid : p.identity = q.identity := by
    refine hfree.identities p q ?_ ?_ (hpid.symm.trans (hxy.trans hqid))
    · exact hp.document ▸ hsent x.2 (hmem x hx)
    · exact hq.document ▸ hsent y.2 (hmem y hy)
  exact Prod.ext hxy (haccept.eq_of_identity (hmem x hx) (hmem y hy) hp hq hid)

/-- An old row is sent again, with the same document. -/
theorem sent_again {rows : Dict StoredPackage} {versions : List (String × StoredPackage)}
    (hkeyed : Keyed lib rows) (hextends : Extends (rowsOf rows) (versions.map Prod.snd))
    (hloaded : ∀ x ∈ versions, ∃ p, Loaded lib x.2 p ∧ x.1 = lib.sha256 p.identity) {id : String}
    {r : StoredPackage} (hr : rows.lookup id = some r) :
    ∃ x ∈ versions, x.1 = id ∧ r.document = x.2.document ∧ r.digest = x.2.digest := by
  obtain ⟨p, hp, hid⟩ := hkeyed id r hr
  obtain ⟨e', he', hdoc, hdig, -⟩ := hextends r (mem_rowsOf.mpr ⟨id, hr⟩)
  obtain ⟨x, hx, rfl⟩ := List.mem_map.mp he'
  obtain ⟨q, hq, hqid⟩ := hloaded x hx
  have hpq : p = q := (hp.of_fields hdoc hdig).eq hq
  exact ⟨x, hx, by rw [hqid, hid, hpq], hdoc.symm, hdig.symm⟩

/-- **What a transaction commits.**  It makes the packages that it was sent, which extend those that
were there, the contents of the next revision. -/
theorem compareAndSwap_spec {drawn : ℕ} {s s' : Store} {revision : ℤ}
    {packages : List StoredPackage} (hfree : CollisionFree lib documents)
    (huuid : Function.Injective uuid) (hs : StoreOk lib documents uuid drawn s)
    (hsent : Known documents packages)
    (h : compareAndSwap lib revision packages (uuid drawn) s = .ok s') :
    s.revision = revision ∧ s'.revision = revision + 1 ∧ (rowsOf s'.rows).Perm packages ∧
      Extends (rowsOf s.rows) (rowsOf s'.rows) ∧ StoreOk lib documents uuid (drawn + 1) s' := by
  unfold compareAndSwap at h
  simp only [ok_bind, ok_require, ok_pure] at h
  obtain ⟨-, ⟨hnonneg, -⟩, -, -, versions, hversions, head, hhead, previous, hprevious, -, -, _,
    hvalid, rows, hrows, rfl⟩ := h
  obtain ⟨hrev, rfl⟩ := claimHead_ok huuid hs hhead
  rw [loadTaskPluginVersions_ok hs.keyed] at hprevious
  obtain rfl := Except.ok.inj hprevious
  obtain ⟨st, hst, hcheck⟩ := validateCatalogTransition_ok.mp hvalid
  have hof := stateOf_catalogState hst
  have haccept : Acceptable lib packages := hof.acceptable
  obtain ⟨hsnd, hloaded, hnodup⟩ := identified_spec hfree haccept hsent hversions
  have hmem : ∀ x ∈ versions, x.2 ∈ packages := fun x hx => hsnd ▸ List.mem_map_of_mem hx
  have hextends : Extends (rowsOf s.rows) packages := by
    refine extends_of_checkTransition hfree hst hsent hs.known ?_ hcheck
    intro e he
    obtain ⟨id, hid⟩ := mem_rowsOf.mp he
    obtain ⟨p, hp, -⟩ := hs.keyed id e hid
    exact ⟨p, hp⟩
  have hkept : ∀ id r, s.rows.lookup id = some r → ∃ x ∈ versions, x.1 = id ∧
      r.document = x.2.document ∧ r.digest = x.2.digest :=
    fun _ _ hr => sent_again hs.keyed (hsnd ▸ hextends) hloaded hr
  have hknown : ∀ x ∈ versions, x.1 ∈ s.rows.keys → ∃ r, s.rows.lookup x.1 = some r ∧
      r.document = x.2.document ∧ r.digest = x.2.digest := by
    intro x hx hk
    rw [← AList.mem_keys, ← AList.lookup_isSome] at hk
    obtain ⟨r, hr⟩ := Option.isSome_iff_exists.mp hk
    obtain ⟨y, hy, hyid, hdoc, hdig⟩ := hkept _ _ hr
    have hxy : y = x := List.inj_on_of_nodup_map hnodup hy hx hyid
    exact ⟨r, hr, hxy ▸ hdoc, hxy ▸ hdig⟩
  obtain ⟨hin, hout⟩ := writeVersions_spec hrows hnodup hknown
  have hlookup : ∀ id e, rows.lookup id = some e → ∃ x ∈ versions, x.1 = id ∧ x.2 = e := by
    intro id e he
    by_cases hid : id ∈ versions.map Prod.fst
    · obtain ⟨x, hx, rfl⟩ := List.mem_map.mp hid
      rw [hin x hx] at he
      exact ⟨x, hx, rfl, Option.some.inj he⟩
    · rw [hout id hid] at he
      obtain ⟨x, hx, hxid, -⟩ := hkept id e he
      exact absurd (hxid ▸ List.mem_map_of_mem hx) hid
  have hkeyed : Keyed lib rows := by
    intro id e he
    obtain ⟨x, hx, rfl, rfl⟩ := hlookup id e he
    exact hloaded x hx
  have hperm : (rowsOf rows).Perm packages := by
    refine (List.perm_ext_iff_of_nodup (rowsOf_nodup hkeyed) haccept.nodup).mpr fun e => ?_
    rw [mem_rowsOf]
    constructor
    · rintro ⟨id, he⟩
      obtain ⟨x, hx, -, rfl⟩ := hlookup id e he
      exact hmem x hx
    · intro he
      rw [← hsnd] at he
      obtain ⟨x, hx, rfl⟩ := List.mem_map.mp he
      exact ⟨x.1, hin x hx⟩
  refine ⟨hrev, rfl, hperm, hextends.perm (List.Perm.refl _) hperm.symm, ?_⟩
  constructor
  · exact hkeyed
  · intro e he
    exact hsent e (hperm.mem_iff.mp he)
  · intro hnone
    simp at hnone
  · intro head hhead
    obtain rfl := Option.some.inj hhead
    show 0 < revision + 1
    omega
  · intro head hhead
    obtain rfl := Option.some.inj hhead
    exact ⟨drawn, Nat.lt_succ_self _, rfl⟩
  · exact catalogState_perm hst rfl hperm.symm

end MaxApi.TaskPlugin
