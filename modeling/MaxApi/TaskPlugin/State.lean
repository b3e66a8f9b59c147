import MaxApi.TaskPlugin.Catalog

/-! # What a snapshot's state contains

`catalogState` reads the packages one after the other.  Its result is described by membership, and
whether it succeeds by conditions on pairs of packages, so that neither depends on the order. -/

namespace MaxApi.TaskPlugin

open Checked

variable {lib : Library}

/-- The stored package `e` loads as `p`. -/
def Loaded (lib : Library) (e : StoredPackage) (p : Package lib) : Prop :=
  loadPackage lib e.document e.digest = some p ∧ e.digest = p.digest

theorem Loaded.eq {e : StoredPackage} {p q : Package lib} (hp : Loaded lib e p)
    (hq : Loaded lib e q) : p = q := Option.some.inj (hp.1.symm.trans hq.1)

theorem Loaded.document {e : StoredPackage} {p : Package lib} (h : Loaded lib e p) :
    p.document = e.document := loadPackage_document lib h.1

/-- New requests may bind to the package. -/
def StoredPackage.serves (e : StoredPackage) : Bool := e.active && e.enabled && !e.revoked

/-- Two stored packages are different versions. -/
def Apart (lib : Library) (e e' : StoredPackage) : Prop :=
  ∀ p p', Loaded lib e p → Loaded lib e' p' → p.identity ≠ p'.identity

/-- At most one of two stored packages is the active version of its key. -/
def NotBothActive (lib : Library) (e e' : StoredPackage) : Prop :=
  ∀ p p', Loaded lib e p → Loaded lib e' p' → e.active = true → e'.active = true →
    p.manifest.key ≠ p'.manifest.key

def storedBytes (es : List StoredPackage) : ℕ := (es.map fun e => e.document.utf8ByteSize).sum

theorem StoredPackage.active_of_serves {e : StoredPackage} (h : e.serves = true) :
    e.active = true := by
  unfold StoredPackage.serves at h
  simp only [Bool.and_eq_true] at h
  exact h.1.1

/-- What the loop over the packages has made of `es`. -/
structure BuildOf (b : Building lib) (es : List StoredPackage) : Prop where
  loads : ∀ e ∈ es, ∃ p, Loaded lib e p
  small : ∀ e ∈ es, e.document.utf8ByteSize ≤ MaxPackageBytes
  apart : es.Pairwise (Apart lib)
  activeOnce : es.Pairwise (NotBothActive lib)
  history : ∀ id p, b.history.lookup id = some p ↔ ∃ e ∈ es, Loaded lib e p ∧ p.identity = id
  revoked : ∀ id r, b.revoked.lookup id = some r ↔
    ∃ e ∈ es, ∃ p, Loaded lib e p ∧ p.identity = id ∧ e.revoked = r
  active : ∀ k p, b.active.lookup k = some p ↔
    ∃ e ∈ es, Loaded lib e p ∧ p.manifest.key = k ∧ e.serves = true
  activeKeys : ∀ k, k ∈ b.activeKeys ↔
    ∃ e ∈ es, ∃ p, Loaded lib e p ∧ p.manifest.key = k ∧ e.active = true
  total : b.total = storedBytes es

theorem buildOf_start : BuildOf (Building.start lib) [] := by
  constructor
  · intro e he
    exact absurd he List.not_mem_nil
  · intro e he
    exact absurd he List.not_mem_nil
  · exact .nil
  · exact .nil
  · intro id p
    simp [Building.start]
  · intro id r
    simp [Building.start]
  · intro k p
    simp [Building.start]
  · intro k
    simp [Building.start]
  · rfl

/-- What the loop asks of its next package. -/
structure Admissible (b : Building lib) (e : StoredPackage) (p : Package lib) : Prop where
  loaded : Loaded lib e p
  small : e.document.utf8ByteSize ≤ MaxPackageBytes
  total : b.total + e.document.utf8ByteSize ≤ MaxRetainedPackageBytes
  fresh : b.history.lookup p.identity = none
  activeOnce : e.active = true → p.manifest.key ∉ b.activeKeys

/-- The loop after the package `e`, which loads as `p`. -/
def Building.with (b : Building lib) (e : StoredPackage) (p : Package lib) : Building lib where
  active := if e.serves then b.active.insert p.manifest.key p else b.active
  history := b.history.insert p.identity p
  revoked := b.revoked.insert p.identity e.revoked
  activeKeys := if e.active then p.manifest.key :: b.activeKeys else b.activeKeys
  total := b.total + e.document.utf8ByteSize

theorem addEntry_ok {b b' : Building lib} {e : StoredPackage} :
    addEntry lib b e = .ok b' ↔ ∃ p, Admissible b e p ∧ b' = b.with e p := by
  unfold addEntry
  simp only [ok_bind, ok_require, ok_orThrow, ok_pure]
  constructor
  · rintro ⟨-, ⟨hsmall, htotal⟩, p, hload, -, hdigest, -, hfresh, -, hactive, rfl⟩
    exact ⟨p, ⟨⟨hload, hdigest⟩, hsmall, htotal, hfresh, hactive⟩, rfl⟩
  · rintro ⟨p, ⟨⟨hload, hdigest⟩, hsmall, htotal, hfresh, hactive⟩, rfl⟩
    exact ⟨(), ⟨hsmall, htotal⟩, p, hload, (), hdigest, (), hfresh, (), hactive, rfl⟩

theorem buildOf_with {b : Building lib} {es : List StoredPackage} {e : StoredPackage}
    {p : Package lib} (hb : BuildOf b es) (h : Admissible b e p) :
    BuildOf (b.with e p) (es ++ [e]) := by
  have hnew : ∀ a ∈ es, ∀ q, Loaded lib a q → q.identity ≠ p.identity := by
    intro a ha q hq heq
    have hsome := (hb.history p.identity q).mpr ⟨a, ha, hq, heq⟩
    rw [h.fresh] at hsome
    simp at hsome
  have hkey : ∀ a ∈ es, ∀ q, Loaded lib a q → a.active = true → e.active = true →
      q.manifest.key ≠ p.manifest.key := fun a ha q hq hact he heq =>
    h.activeOnce he ((hb.activeKeys _).mpr ⟨a, ha, q, hq, heq, hact⟩)
  constructor
  · intro a ha
    rcases List.mem_append.mp ha with ha | ha
    · exact hb.loads a ha
    · rw [List.mem_singleton.mp ha]
      exact ⟨p, h.loaded⟩
  · intro a ha
    rcases List.mem_append.mp ha with ha | ha
    · exact hb.small a ha
    · rw [List.mem_singleton.mp ha]
      exact h.small
  · refine List.pairwise_append.mpr ⟨hb.apart, List.pairwise_singleton _ _, ?_⟩
    intro a ha a' ha' q q' hq hq'
    rw [List.mem_singleton] at ha'
    subst ha'
    rw [hq'.eq h.loaded]
    exact hnew a ha q hq
  · refine List.pairwise_append.mpr ⟨hb.activeOnce, List.pairwise_singleton _ _, ?_⟩
    intro a ha a' ha' q q' hq hq' hact hact'
    rw [List.mem_singleton] at ha'
    subst ha'
    rw [hq'.eq h.loaded]
    exact hkey a ha q hq hact hact'
  · intro id q
    show (b.history.insert p.identity p).lookup id = some q ↔ _
    simp only [List.mem_append, List.mem_singleton]
    by_cases hid : id = p.identity
    · subst hid
      rw [AList.lookup_insert, Option.some.injEq]
      constructor
      · rintro rfl
        exact ⟨e, .inr rfl, h.loaded, rfl⟩
      · rintro ⟨a, ha | rfl, hq, heq⟩
        · exact absurd heq (hnew a ha q hq)
        · exact h.loaded.eq hq
    · rw [AList.lookup_insert_ne hid, hb.history]
      constructor
      · rintro ⟨a, ha, hq, heq⟩
        exact ⟨a, .inl ha, hq, heq⟩
      · rintro ⟨a, ha | rfl, hq, heq⟩
        · exact ⟨a, ha, hq, heq⟩
        · exact absurd (heq.symm.trans (congrArg Package.identity (hq.eq h.loaded))) hid
  · intro id r
    show (b.revoked.insert p.identity e.revoked).lookup id = some r ↔ _
    simp only [List.mem_append, List.mem_singleton]
    by_cases hid : id = p.identity
    · subst hid
      rw [AList.lookup_insert, Option.some.injEq]
      constructor
      · rintro rfl
        exact ⟨e, .inr rfl, p, h.loaded, rfl, rfl⟩
      · rintro ⟨a, ha | rfl, q, hq, heq, hr⟩
        · exact absurd heq (hnew a ha q hq)
        · exact hr
    · rw [AList.lookup_insert_ne hid, hb.revoked]
      constructor
      · rintro ⟨a, ha, hq⟩
        exact ⟨a, .inl ha, hq⟩
      · rintro ⟨a, ha | rfl, q, hq, heq, hr⟩
        · exact ⟨a, ha, q, hq, heq, hr⟩
        · exact absurd (heq.symm.trans (congrArg Package.identity (hq.eq h.loaded))) hid
  · intro k q
    show (if e.serves then b.active.insert p.manifest.key p else b.active).lookup k = some q ↔ _
    simp only [List.mem_append, List.mem_singleton]
    by_cases hserves : e.serves = true
    · rw [if_pos hserves]
      by_cases hk : k = p.manifest.key
      · subst hk
        rw [AList.lookup_insert, Option.some.injEq]
        constructor
        · rintro rfl
          exact ⟨e, .inr rfl, h.loaded, rfl, hserves⟩
        · rintro ⟨a, ha | rfl, hq, heq, hs⟩
          · exact absurd heq
              (hkey a ha q hq (a.active_of_serves hs) (e.active_of_serves hserves))
          · exact h.loaded.eq hq
      · rw [AList.lookup_insert_ne hk, hb.active]
        constructor
        · rintro ⟨a, ha, hq⟩
          exact ⟨a, .inl ha, hq⟩
        · rintro ⟨a, ha | rfl, hq, heq, hs⟩
          · exact ⟨a, ha, hq, heq, hs⟩
          · exact absurd (heq.symm.trans (congrArg (fun q => q.manifest.key) (hq.eq h.loaded))) hk
    · rw [if_neg hserves, hb.active]
      constructor
      · rintro ⟨a, ha, hq⟩
        exact ⟨a, .inl ha, hq⟩
      · rintro ⟨a, ha | rfl, hq, heq, hs⟩
        · exact ⟨a, ha, hq, heq, hs⟩
        · exact absurd hs hserves
  · intro k
    show k ∈ (if e.active then p.manifest.key :: b.activeKeys else b.activeKeys) ↔ _
    simp only [List.mem_append, List.mem_singleton]
    by_cases hact : e.active = true
    · rw [if_pos hact, List.mem_cons, hb.activeKeys]
      constructor
      · rintro (rfl | ⟨a, ha, hq⟩)
        · exact ⟨e, .inr rfl, p, h.loaded, rfl, hact⟩
        · exact ⟨a, .inl ha, hq⟩
      · rintro ⟨a, ha | rfl, q, hq, heq, hs⟩
        · exact .inr ⟨a, ha, q, hq, heq, hs⟩
        · exact .inl (heq.symm.trans (congrArg (fun q => q.manifest.key) (hq.eq h.loaded)))
    · rw [if_neg hact, hb.activeKeys]
      constructor
      · rintro ⟨a, ha, hq⟩
        exact ⟨a, .inl ha, hq⟩
      · rintro ⟨a, ha | rfl, q, hq, heq, hs⟩
        · exact ⟨a, ha, q, hq, heq, hs⟩
        · exact absurd hs hact
  · show b.total + e.document.utf8ByteSize = _
    unfold storedBytes
    rw [List.map_append, List.sum_append, List.map_singleton, List.sum_singleton, hb.total]
    rfl

theorem buildOf_foldlM : ∀ {l es : List StoredPackage} {b b' : Building lib},
    l.foldlM (addEntry lib) b = .ok b' → BuildOf b es → BuildOf b' (es ++ l)
  | [], es, b, b', h, hb => by
      obtain rfl : b = b' := Except.ok.inj h
      rw [List.append_nil]
      exact hb
  | e :: l, es, b, b', h, hb => by
      rw [List.foldlM_cons, ok_bind] at h
      obtain ⟨mid, hmid, hrest⟩ := h
      obtain ⟨p, hp, rfl⟩ := addEntry_ok.mp hmid
      have hall := buildOf_foldlM hrest (buildOf_with hb hp)
      rw [List.append_assoc] at hall
      exact hall

/-! ### Which packages are accepted -/

/-- Packages that a state can be built from. -/
structure Acceptable (lib : Library) (es : List StoredPackage) : Prop where
  loads : ∀ e ∈ es, ∃ p, Loaded lib e p
  small : ∀ e ∈ es, e.document.utf8ByteSize ≤ MaxPackageBytes
  apart : es.Pairwise (Apart lib)
  activeOnce : es.Pairwise (NotBothActive lib)
  total : storedBytes es ≤ MaxRetainedPackageBytes

theorem Apart.symm {e e' : StoredPackage} (h : Apart lib e e') : Apart lib e' e :=
  fun p p' hp hp' => (h p' p hp' hp).symm

theorem NotBothActive.symm {e e' : StoredPackage} (h : NotBothActive lib e e') :
    NotBothActive lib e' e := fun p p' hp hp' ha ha' => (h p' p hp' hp ha' ha).symm

instance : Std.Symm (Apart lib) := ⟨fun _ _ => Apart.symm⟩

/-- Whether packages are accepted does not depend on their order. -/
theorem Acceptable.perm {es es' : List StoredPackage} (h : Acceptable lib es)
    (hp : es.Perm es') : Acceptable lib es' := by
  constructor
  · intro e he
    exact h.loads e (hp.mem_iff.mpr he)
  · intro e he
    exact h.small e (hp.mem_iff.mpr he)
  · exact hp.pairwise h.apart fun hab => hab.symm
  · exact hp.pairwise h.activeOnce fun hab => hab.symm
  · have hsum : storedBytes es = storedBytes es' := (hp.map _).sum_eq
    rw [← hsum]
    exact h.total

/-- Accepted packages of one version are one package. -/
theorem Acceptable.eq_of_identity {es : List StoredPackage} (h : Acceptable lib es)
    {e e' : StoredPackage} {p p' : Package lib} (he : e ∈ es) (he' : e' ∈ es)
    (hp : Loaded lib e p) (hp' : Loaded lib e' p') (hid : p.identity = p'.identity) : e = e' := by
  by_contra hne
  exact h.apart.forall he he' hne p p' hp hp' hid

theorem Acceptable.nodup {es : List StoredPackage} (h : Acceptable lib es) : es.Nodup := by
  refine h.apart.imp_of_mem ?_
  intro e e' he _ hapart heq
  obtain ⟨p, hp⟩ := h.loads e he
  exact hapart p p hp (heq ▸ hp) rfl

theorem BuildOf.acceptable {b : Building lib} {es : List StoredPackage} (h : BuildOf b es)
    (htotal : b.total ≤ MaxRetainedPackageBytes) : Acceptable lib es :=
  ⟨h.loads, h.small, h.apart, h.activeOnce, h.total ▸ htotal⟩

theorem foldlM_total : ∀ {l : List StoredPackage} {b b' : Building lib},
    l.foldlM (addEntry lib) b = .ok b' → b.total ≤ MaxRetainedPackageBytes →
      b'.total ≤ MaxRetainedPackageBytes
  | [], b, b', h, hb => by
      obtain rfl : b = b' := Except.ok.inj h
      exact hb
  | e :: l, b, b', h, hb => by
      rw [List.foldlM_cons, ok_bind] at h
      obtain ⟨mid, hmid, hrest⟩ := h
      obtain ⟨p, hp, rfl⟩ := addEntry_ok.mp hmid
      exact foldlM_total hrest hp.total

theorem foldlM_of_acceptable : ∀ {l es : List StoredPackage} {b : Building lib},
    BuildOf b es → Acceptable lib (es ++ l) → ∃ b', l.foldlM (addEntry lib) b = .ok b'
  | [], _, b, _, _ => ⟨b, rfl⟩
  | e :: l, es, b, hb, h => by
      have he : e ∈ es ++ e :: l := List.mem_append_right _ List.mem_cons_self
      obtain ⟨p, hp⟩ := h.loads e he
      have hbefore := (List.pairwise_append.mp h.apart).2.2
      have hactive := (List.pairwise_append.mp h.activeOnce).2.2
      have hadm : Admissible b e p := by
        constructor
        · exact hp
        · exact h.small e he
        · have htotal := h.total
          unfold storedBytes at htotal
          rw [List.map_append, List.sum_append, List.map_cons, List.sum_cons] at htotal
          have hes : (es.map fun e => e.document.utf8ByteSize).sum = storedBytes es := rfl
          rw [hb.total]
          omega
        · cases hq : b.history.lookup p.identity with
          | none => rfl
          | some q =>
              obtain ⟨a, ha, hload, hid⟩ := (hb.history _ _).mp hq
              exact absurd hid (hbefore a ha e List.mem_cons_self q p hload hp)
        · intro hact hmem
          obtain ⟨a, ha, q, hload, hkey, hact'⟩ := (hb.activeKeys _).mp hmem
          exact hactive a ha e List.mem_cons_self q p hload hp hact' hact hkey
      have hrest : Acceptable lib ((es ++ [e]) ++ l) := by
        rw [List.append_assoc]
        exact h
      obtain ⟨b', hb'⟩ := foldlM_of_acceptable (buildOf_with hb hadm) hrest
      refine ⟨b', ?_⟩
      rw [List.foldlM_cons, ok_bind]
      exact ⟨b.with e p, addEntry_ok.mpr ⟨p, hadm, rfl⟩, hb'⟩

/-! ### The state of a snapshot -/

/-- The state `st` holds the packages `es` at `revision`. -/
structure StateOf (revision : ℤ) (es : List StoredPackage) (st : HostState lib) : Prop where
  generation : st.generation = revision
  nonneg : 0 ≤ revision
  empty : revision = 0 → es = []
  acceptable : Acceptable lib es
  history : ∀ id p, st.history.lookup id = some p ↔ ∃ e ∈ es, Loaded lib e p ∧ p.identity = id
  revoked : ∀ id r, st.revoked.lookup id = some r ↔
    ∃ e ∈ es, ∃ p, Loaded lib e p ∧ p.identity = id ∧ e.revoked = r
  active : ∀ k p, st.active.lookup k = some p ↔
    ∃ e ∈ es, Loaded lib e p ∧ p.manifest.key = k ∧ e.serves = true
  routes : (activeManifests lib st.active).foldlM (publish lib.toTextLibrary)
    RegistryState.empty = some st.routes

theorem stateOf_catalogState {s : CatalogSnapshot} {st : HostState lib}
    (h : catalogState lib s = .ok st) : StateOf s.revision s.packages st := by
  unfold catalogState at h
  simp only [ok_bind, ok_require, ok_orThrow, ok_pure] at h
  obtain ⟨-, ⟨hnonneg, hempty⟩, b, hb, routes, hroutes, rfl⟩ := h
  have hbuild : BuildOf b s.packages := buildOf_foldlM hb buildOf_start
  have htotal : b.total ≤ MaxRetainedPackageBytes := foldlM_total hb (Nat.zero_le _)
  exact ⟨rfl, hnonneg, hempty, hbuild.acceptable htotal, hbuild.history, hbuild.revoked,
    hbuild.active, hroutes⟩

/-- Maps with the same entries. -/
def SameEntries {α : Type} (a b : Dict α) : Prop := ∀ k, a.lookup k = b.lookup k

theorem SameEntries.of_iff {α : Type} {a b : Dict α}
    (h : ∀ k x, a.lookup k = some x ↔ b.lookup k = some x) : SameEntries a b :=
  fun k => Option.ext (h k)

theorem insertionSort_perm {l l' : List String} (h : l.Perm l') :
    l.insertionSort (· ≤ ·) = l'.insertionSort (· ≤ ·) :=
  List.Perm.eq_of_pairwise (fun _ _ _ _ => le_antisymm) (List.pairwise_insertionSort _ l)
    (List.pairwise_insertionSort _ l')
    ((List.perm_insertionSort _ l).trans (h.trans (List.perm_insertionSort _ l').symm))

theorem activeManifests_congr {a b : Dict (Package lib)} (h : SameEntries a b) :
    activeManifests lib a = activeManifests lib b := by
  have hkeys : a.keys.Perm b.keys := by
    refine (List.perm_ext_iff_of_nodup a.keys_nodup b.keys_nodup).mpr fun k => ?_
    rw [← AList.mem_keys, ← AList.mem_keys, ← AList.lookup_isSome, ← AList.lookup_isSome, h k]
  unfold activeManifests
  rw [insertionSort_perm hkeys]
  refine List.filterMap_congr fun k _ => ?_
  rw [h k]

/-- States that serve every request alike. -/
structure SameState (st st' : HostState lib) : Prop where
  generation : st.generation = st'.generation
  history : SameEntries st.history st'.history
  revoked : SameEntries st.revoked st'.revoked
  active : SameEntries st.active st'.active
  routes : st.routes = st'.routes

/-- The packages of a revision determine its state. -/
theorem StateOf.same {revision : ℤ} {es es' : List StoredPackage} {st st' : HostState lib}
    (h : StateOf revision es st) (h' : StateOf revision es' st') (hp : es.Perm es') :
    SameState st st' := by
  have hactive : SameEntries st.active st'.active := by
    refine .of_iff fun k x => ?_
    rw [h.active, h'.active]
    exact exists_congr fun e => and_congr_left' hp.mem_iff
  constructor
  · rw [h.generation, h'.generation]
  · refine .of_iff fun id p => ?_
    rw [h.history, h'.history]
    exact exists_congr fun e => and_congr_left' hp.mem_iff
  · refine .of_iff fun id r => ?_
    rw [h.revoked, h'.revoked]
    exact exists_congr fun e => and_congr_left' hp.mem_iff
  · exact hactive
  · have hroutes := h.routes
    rw [activeManifests_congr hactive, h'.routes] at hroutes
    exact (Option.some.inj hroutes).symm

/-- A snapshot with the packages of one that has a state has a state as well. -/
theorem catalogState_perm {s s' : CatalogSnapshot} {st : HostState lib}
    (h : catalogState lib s = .ok st) (hrev : s'.revision = s.revision)
    (hp : s.packages.Perm s'.packages) : ∃ st', catalogState lib s' = .ok st' := by
  have hst := stateOf_catalogState h
  obtain ⟨b, hb⟩ := foldlM_of_acceptable buildOf_start (hst.acceptable.perm hp)
  have hbuild : BuildOf b s'.packages := buildOf_foldlM hb buildOf_start
  have hactive : SameEntries b.active st.active := by
    refine .of_iff fun k x => ?_
    rw [hbuild.active, hst.active]
    exact exists_congr fun e => and_congr_left' hp.mem_iff.symm
  refine ⟨⟨s'.revision, b.active, b.history, b.revoked, st.routes⟩, ?_⟩
  unfold catalogState
  simp only [ok_bind, ok_require, ok_orThrow, ok_pure]
  refine ⟨(), ⟨hrev ▸ hst.nonneg, fun h0 => ?_⟩, b, hb, st.routes, ?_, rfl⟩
  · have hnil := hst.empty (hrev ▸ h0)
    rw [hnil] at hp
    exact List.nil_perm.mp hp
  · rw [activeManifests_congr hactive]
    exact hst.routes

/-- A state is the state of its snapshot, whatever it was compared with. -/
theorem catalogState_of_build {s previous : CatalogSnapshot} {check : Bool} {st : HostState lib}
    (h : buildCatalogState lib s previous check = .ok st) : catalogState lib s = .ok st := by
  unfold buildCatalogState at h
  rw [ok_bind] at h
  obtain ⟨st', hst', h⟩ := h
  cases check with
  | false =>
      obtain rfl : st' = st := Except.ok.inj h
      exact hst'
  | true =>
      simp only [if_true, ok_bind, ok_pure] at h
      obtain ⟨-, -, rfl⟩ := h
      exact hst'

end MaxApi.TaskPlugin
