import MaxApi.TaskPlugin.Manifest
import Mathlib.Data.List.Sort
import Mathlib.Data.String.Basic

/-! # The route registry

Plugins are published one after the other.  A registry refuses a route that another plugin has in
the same shape, and keeps the routes of every method in the order in which requests try them: the
more constant parts a route has, the earlier it is tried.

The main result (`best_of_matchRoute`, `none_of_matchRoute`) describes a match without that order:
it is the best of all published routes that fit the request. -/

namespace MaxApi.TaskPlugin

variable (lib : TextLibrary)

structure RouteBinding where
  pluginKey : String
  route : Route
  deriving DecidableEq

structure RegistryState where
  plugins : Dict Manifest
  routes : Dict RouteBinding
  byMethod : Dict (List RouteBinding)

def RegistryState.empty : RegistryState := ⟨∅, ∅, ∅⟩

def routeSpecificity (path : String) : ℕ :=
  (Text.split path '/').countP fun part => part != "" && !isParameter part

/-- `a` is not tried after `b`. -/
def NotAfter (a b : RouteBinding) : Prop :=
  routeSpecificity b.route.path < routeSpecificity a.route.path ∨
    routeSpecificity b.route.path = routeSpecificity a.route.path ∧
      (a.pluginKey < b.pluginKey ∨ a.pluginKey = b.pluginKey ∧ a.route.path ≤ b.route.path)

instance (a b : RouteBinding) : Decidable (NotAfter a b) := instDecidableOr

/-- The routes of a method in the order in which they are tried. -/
def tryOrder (bindings : List RouteBinding) : List RouteBinding := bindings.insertionSort NotAfter

/-- One route of the loop of `Publish`; conflicts are those with the routes of `current`. -/
def addRoute (key : String) (current next : RegistryState) (route : Route) :
    Option RegistryState :=
  if current.routes.lookup (routeKey lib route) = none then
    some { next with
      routes := next.routes.insert (routeKey lib route) ⟨key, route⟩
      byMethod := next.byMethod.insert (routeMethod route.method)
        ((next.byMethod.lookup (routeMethod route.method)).getD [] ++ [⟨key, route⟩]) }
  else none

/-- `Registry.Publish`. -/
def publish (current : RegistryState) (manifest : Manifest) : Option RegistryState := do
  guard (validateManifest lib manifest)
  guard (current.plugins.lookup manifest.key).isNone
  let next ← manifest.routes.foldlM (addRoute lib manifest.key current)
    { current with plugins := current.plugins.insert manifest.key manifest }
  pure { next with byMethod := next.byMethod.mapValues tryOrder }

/-- A request path matches a pattern part by part. -/
def partsMatch : List String → List String → Bool
  | [], [] => true
  | part :: pattern, requested :: request =>
      (if isParameter part then requested != "" else part == requested) &&
        partsMatch pattern request
  | _, _ => false

def routeMatches (pattern requestPath : String) : Bool :=
  lib.parseRequestURI requestPath == some requestPath &&
    partsMatch (Text.split pattern '/') (Text.split requestPath '/')

def routeAllowsModel (route : Route) (model : String) : Bool :=
  route.models.isEmpty || route.models.contains model

def declaresModel (manifest : Manifest) (model : String) : Bool := manifest.models.contains model

structure RouteMatch where
  pluginKey : String
  manifest : Manifest
  route : Route

/-- The match that a published route gives for a request. -/
def matchOf (s : RegistryState) (requestPath model : String) (binding : RouteBinding) :
    Option RouteMatch :=
  if routeMatches lib binding.route.path requestPath && routeAllowsModel binding.route model then
    (s.plugins.lookup binding.pluginKey).bind fun manifest =>
      if declaresModel manifest model then some ⟨binding.pluginKey, manifest, binding.route⟩
      else none
  else none

/-- `Snapshot.MatchRoute`. -/
def matchRoute (s : RegistryState) (method requestPath model : String) : Option RouteMatch :=
  ((s.byMethod.lookup (routeMethod method)).getD []).findSome? (matchOf lib s requestPath model)

/-! ### The order of the routes -/

theorem notAfter_total (a b : RouteBinding) : NotAfter a b ∨ NotAfter b a := by
  unfold NotAfter
  rcases lt_trichotomy (routeSpecificity a.route.path) (routeSpecificity b.route.path) with
    h | h | h
  · exact .inr (.inl h)
  · rcases lt_trichotomy a.pluginKey b.pluginKey with hk | hk | hk
    · exact .inl (.inr ⟨h.symm, .inl hk⟩)
    · rcases le_total a.route.path b.route.path with hp | hp
      · exact .inl (.inr ⟨h.symm, .inr ⟨hk, hp⟩⟩)
      · exact .inr (.inr ⟨h, .inr ⟨hk.symm, hp⟩⟩)
    · exact .inr (.inr ⟨h, .inl hk⟩)
  · exact .inl (.inl h)

theorem notAfter_trans {a b c : RouteBinding} (hab : NotAfter a b) (hbc : NotAfter b c) :
    NotAfter a c := by
  unfold NotAfter at hab hbc ⊢
  rcases hab with hab | ⟨hab, hk⟩
  · rcases hbc with hbc | ⟨hbc, -⟩
    · exact .inl (hbc.trans hab)
    · exact .inl (hbc ▸ hab)
  · rcases hbc with hbc | ⟨hbc, hk'⟩
    · exact .inl (hab ▸ hbc)
    · refine .inr ⟨hbc.trans hab, ?_⟩
      rcases hk with hk | ⟨hk, hp⟩
      · rcases hk' with hk' | ⟨hk', -⟩
        · exact .inl (hk.trans hk')
        · exact .inl (hk' ▸ hk)
      · rcases hk' with hk' | ⟨hk', hp'⟩
        · exact .inl (hk ▸ hk')
        · exact .inr ⟨hk.trans hk', hp.trans hp'⟩

instance : Std.Total NotAfter := ⟨notAfter_total⟩

instance : IsTrans RouteBinding NotAfter := ⟨fun _ _ _ => notAfter_trans⟩

/-- Routes that are tried neither before nor after one another belong to one plugin and have the
same path. -/
theorem notAfter_antisymm {a b : RouteBinding} (hab : NotAfter a b) (hba : NotAfter b a) :
    a.pluginKey = b.pluginKey ∧ a.route.path = b.route.path := by
  unfold NotAfter at hab hba
  rcases hab with hab | ⟨hab, hk⟩
  · rcases hba with hba | ⟨hba, -⟩
    · exact absurd hab hba.asymm
    · exact absurd hba hab.ne'
  · rcases hba with hba | ⟨-, hk'⟩
    · exact absurd hab hba.ne'
    · rcases hk with hk | ⟨hk, hp⟩
      · rcases hk' with hk' | ⟨hk', -⟩
        · exact absurd hk hk'.asymm
        · exact absurd hk' hk.ne'
      · rcases hk' with hk' | ⟨-, hp'⟩
        · exact absurd hk hk'.ne'
        · exact ⟨hk, le_antisymm hp hp'⟩

theorem tryOrder_perm (bindings : List RouteBinding) : (tryOrder bindings).Perm bindings :=
  List.perm_insertionSort _ bindings

theorem tryOrder_sorted (bindings : List RouteBinding) : (tryOrder bindings).Pairwise NotAfter :=
  List.pairwise_insertionSort _ bindings

/-! ### Publishing -/

variable {lib : TextLibrary}

/-- The routes of the manifests `ms`. -/
def bindingsOf (ms : List Manifest) : List RouteBinding :=
  ms.flatMap fun m => m.routes.map fun r => ⟨m.key, r⟩

theorem mem_bindingsOf {ms : List Manifest} {b : RouteBinding} :
    b ∈ bindingsOf ms ↔ ∃ m ∈ ms, m.key = b.pluginKey ∧ b.route ∈ m.routes := by
  unfold bindingsOf
  rw [List.mem_flatMap]
  refine exists_congr fun m => and_congr_right fun _ => ?_
  rw [List.mem_map]
  constructor
  · rintro ⟨r, hr, rfl⟩
    exact ⟨rfl, hr⟩
  · rintro ⟨hk, hr⟩
    exact ⟨b.route, hr, by rw [hk]⟩

theorem bindingsOf_append (ms : List Manifest) (m : Manifest) :
    bindingsOf (ms ++ [m]) = bindingsOf ms ++ m.routes.map fun r => ⟨m.key, r⟩ := by
  unfold bindingsOf
  rw [List.flatMap_append, List.flatMap_singleton]

/-- The routes of `s` for a method. -/
def RegistryState.tried (s : RegistryState) (method : String) : List RouteBinding :=
  (s.byMethod.lookup method).getD []

/-- The bindings that serve `method`. -/
def ofMethod (method : String) (bs : List RouteBinding) : List RouteBinding :=
  bs.filter fun b => routeMethod b.route.method == method

theorem ofMethod_append (method : String) (bs bs' : List RouteBinding) :
    ofMethod method (bs ++ bs') = ofMethod method bs ++ ofMethod method bs' :=
  List.filter_append bs bs'

theorem mem_ofMethod {method : String} {bs : List RouteBinding} {b : RouteBinding} :
    b ∈ ofMethod method bs ↔ b ∈ bs ∧ routeMethod b.route.method = method := by
  unfold ofMethod
  rw [List.mem_filter, beq_iff_eq]

/-- What the loop of `publish` over the routes makes of the registry. -/
structure RoutesAdded (lib : TextLibrary) (key : String) (current next out : RegistryState)
    (routes : List Route) : Prop where
  free : ∀ r ∈ routes, current.routes.lookup (routeKey lib r) = none
  plugins : out.plugins = next.plugins
  taken : ∀ k, out.routes.lookup k = none ↔
    next.routes.lookup k = none ∧ ∀ r ∈ routes, routeKey lib r ≠ k
  tried : ∀ method, out.tried method =
    next.tried method ++ ofMethod method (routes.map fun r => ⟨key, r⟩)

theorem addRoute_spec {key : String} {current next out : RegistryState} {route : Route}
    (h : addRoute lib key current next route = some out) :
    RoutesAdded lib key current next out [route] := by
  unfold addRoute at h
  split at h
  · next hfree =>
    obtain rfl := Option.some.inj h
    constructor
    · intro r hr
      rw [List.mem_singleton.mp hr]
      exact hfree
    · rfl
    · intro k
      by_cases hk : routeKey lib route = k
      · subst hk
        simp
      · have hne : k ≠ routeKey lib route := fun h => hk h.symm
        simp [AList.lookup_insert_ne hne, hk]
    · intro method
      unfold RegistryState.tried ofMethod
      by_cases hm : routeMethod route.method = method
      · subst hm
        simp
      · have hne : method ≠ routeMethod route.method := fun h => hm h.symm
        simp [AList.lookup_insert_ne hne, hm]
  · simp at h

theorem addRoutes_spec {key : String} {current : RegistryState} :
    ∀ {routes : List Route} {next out : RegistryState},
      routes.foldlM (addRoute lib key current) next = some out →
        RoutesAdded lib key current next out routes
  | [], next, out, h => by
      obtain rfl : next = out := Option.some.inj h
      constructor
      · intro r hr
        exact absurd hr List.not_mem_nil
      · rfl
      · intro k
        simp
      · intro method
        simp [ofMethod]
  | route :: routes, next, out, h => by
      rw [List.foldlM_cons, Option.bind_eq_bind, Option.bind_eq_some_iff] at h
      obtain ⟨mid, hmid, hout⟩ := h
      have h1 := addRoute_spec hmid
      have h2 := addRoutes_spec hout
      constructor
      · intro r hr
        rcases List.mem_cons.mp hr with rfl | hr
        · exact h1.free r List.mem_cons_self
        · exact h2.free r hr
      · exact h2.plugins.trans h1.plugins
      · intro k
        rw [h2.taken, h1.taken, List.forall_mem_singleton, List.forall_mem_cons, and_assoc]
      · intro method
        rw [h2.tried, h1.tried, List.append_assoc, ← ofMethod_append]
        rfl

/-- The registry `s` holds the manifests `ms`. -/
structure Holds (lib : TextLibrary) (s : RegistryState) (ms : List Manifest) : Prop where
  keys : (ms.map Manifest.key).Nodup
  plugins : ∀ k m, s.plugins.lookup k = some m ↔ m ∈ ms ∧ m.key = k
  shapes : ((bindingsOf ms).map fun b => routeKey lib b.route).Nodup
  free : ∀ k, s.routes.lookup k = none ↔ ∀ b ∈ bindingsOf ms, routeKey lib b.route ≠ k
  routes : ∀ method, (s.tried method).Perm (ofMethod method (bindingsOf ms))
  sorted : ∀ method, (s.tried method).Pairwise NotAfter

theorem holds_empty : Holds lib RegistryState.empty [] := by
  constructor
  · exact List.nodup_nil
  · intro k m
    simp [RegistryState.empty]
  · exact List.nodup_nil
  · intro k
    simp [RegistryState.empty, bindingsOf]
  · intro method
    exact List.Perm.refl _
  · intro method
    exact List.Pairwise.nil

theorem publish_spec {s s' : RegistryState} {m : Manifest} (h : publish lib s m = some s') :
    validateManifest lib m ∧ s.plugins.lookup m.key = none ∧ ∃ next,
      RoutesAdded lib m.key s { s with plugins := s.plugins.insert m.key m } next m.routes ∧
        s' = { next with byMethod := next.byMethod.mapValues tryOrder } := by
  unfold publish at h
  simp only [Option.bind_eq_bind, Option.bind_eq_some_iff, Option.pure_def, Option.some.injEq] at h
  obtain ⟨_, hvalid, _, hnone, next, hnext, rfl⟩ := h
  refine ⟨?_, ?_, next, addRoutes_spec hnext, rfl⟩
  · by_contra hv
    simp [guard, hv] at hvalid
  · by_contra hv
    have : (s.plugins.lookup m.key).isNone = false := by
      rw [← Bool.not_eq_true, Option.isNone_iff_eq_none]
      exact hv
    simp [guard, this] at hnone

/-- Publishing adds one manifest to those that the registry holds. -/
theorem holds_publish {s s' : RegistryState} {ms : List Manifest} {m : Manifest}
    (hs : Holds lib s ms) (h : publish lib s m = some s') : Holds lib s' (ms ++ [m]) := by
  obtain ⟨hvalid, hnone, next, hadd, rfl⟩ := publish_spec h
  have hfresh : ∀ m' ∈ ms, m'.key ≠ m.key := by
    intro m' hm' hk
    have hsome := (hs.plugins m'.key m').mpr ⟨hm', rfl⟩
    rw [hk, hnone] at hsome
    simp at hsome
  have hapart : ∀ b ∈ bindingsOf ms, ∀ r ∈ m.routes, routeKey lib r ≠ routeKey lib b.route :=
    fun b hb r hr heq => ((hs.free _).mp (hadd.free r hr)) b hb heq.symm
  have htried : ∀ method, (RegistryState.tried
      { next with byMethod := next.byMethod.mapValues tryOrder } method) =
        tryOrder (next.tried method) := by
    intro method
    unfold RegistryState.tried
    rw [Dict.lookup_mapValues]
    cases next.byMethod.lookup method with
    | none => rfl
    | some bs => rfl
  constructor
  · rw [List.map_append, List.nodup_append]
    refine ⟨hs.keys, List.nodup_singleton _, ?_⟩
    intro k hk k' hk'
    obtain ⟨m', hm', rfl⟩ := List.mem_map.mp hk
    rw [List.map_singleton, List.mem_singleton] at hk'
    rw [hk']
    exact hfresh m' hm'
  · intro k m'
    rw [hadd.plugins, List.mem_append, List.mem_singleton]
    by_cases hk : k = m.key
    · subst hk
      simp only [AList.lookup_insert, Option.some.injEq]
      constructor
      · rintro rfl
        exact ⟨.inr rfl, rfl⟩
      · rintro ⟨hm' | hm', hkey⟩
        · exact absurd hkey (hfresh m' hm')
        · exact hm'.symm
    · simp only [AList.lookup_insert_ne hk, hs.plugins]
      constructor
      · rintro ⟨hm', hkey⟩
        exact ⟨.inl hm', hkey⟩
      · rintro ⟨hm' | rfl, hkey⟩
        · exact ⟨hm', hkey⟩
        · exact absurd hkey.symm hk
  · rw [bindingsOf_append, List.map_append, List.nodup_append, List.map_map]
    refine ⟨hs.shapes, routes_of_validateManifest hvalid, ?_⟩
    intro k hk k' hk' heq
    obtain ⟨b, hb, rfl⟩ := List.mem_map.mp hk
    obtain ⟨r, hr, rfl⟩ := List.mem_map.mp hk'
    exact hapart b hb r hr heq.symm
  · intro k
    rw [bindingsOf_append]
    show next.routes.lookup k = none ↔ _
    rw [hadd.taken, hs.free]
    constructor
    · rintro ⟨hold, hnew⟩ b hb
      rcases List.mem_append.mp hb with hb | hb
      · exact hold b hb
      · obtain ⟨r, hr, rfl⟩ := List.mem_map.mp hb
        exact hnew r hr
    · intro hall
      refine ⟨fun b hb => hall b (List.mem_append_left _ hb), fun r hr => ?_⟩
      exact hall ⟨m.key, r⟩ (List.mem_append_right _ (List.mem_map_of_mem hr))
  · intro method
    rw [htried, bindingsOf_append, ofMethod_append]
    refine (tryOrder_perm _).trans ?_
    rw [hadd.tried]
    exact (hs.routes method).append_right _
  · intro method
    rw [htried]
    exact tryOrder_sorted _

/-! ### Matching -/

/-- The route `r` of the published manifest `m` fits the request. -/
structure Fits (lib : TextLibrary) (published : Manifest → Prop) (method requestPath model : String)
    (m : Manifest) (r : Route) : Prop where
  published : published m
  route : r ∈ m.routes
  method : routeMethod r.method = routeMethod method
  path : routeMatches lib r.path requestPath
  allowed : routeAllowsModel r model
  declared : declaresModel m model

/-- The match `x` is the route to be tried first among those that fit the request. -/
structure Best (lib : TextLibrary) (published : Manifest → Prop) (method requestPath model : String)
    (x : RouteMatch) : Prop where
  key : x.pluginKey = x.manifest.key
  fits : Fits lib published method requestPath model x.manifest x.route
  first : ∀ m r, Fits lib published method requestPath model m r →
    NotAfter ⟨x.pluginKey, x.route⟩ ⟨m.key, r⟩

section matching

variable {s : RegistryState} {ms : List Manifest} {method requestPath model : String}

theorem matchOf_eq_some (hs : Holds lib s ms) {b : RouteBinding} {x : RouteMatch} :
    matchOf lib s requestPath model b = some x ↔
      b = ⟨x.pluginKey, x.route⟩ ∧ x.pluginKey = x.manifest.key ∧ x.manifest ∈ ms ∧
        routeMatches lib x.route.path requestPath ∧ routeAllowsModel x.route model ∧
          declaresModel x.manifest model := by
  unfold matchOf
  constructor
  · intro h
    split at h
    · next hfit =>
      rw [Bool.and_eq_true] at hfit
      obtain ⟨m, hm, h⟩ := Option.bind_eq_some_iff.mp h
      obtain ⟨hmem, hkey⟩ := (hs.plugins _ _).mp hm
      split at h
      · next hdecl =>
        obtain rfl := Option.some.inj h
        exact ⟨rfl, hkey.symm, hmem, hfit.1, hfit.2, hdecl⟩
      · simp at h
    · simp at h
  · rintro ⟨rfl, hkey, hmem, hpath, hallowed, hdecl⟩
    have hm := (hs.plugins x.pluginKey x.manifest).mpr ⟨hmem, hkey.symm⟩
    simp [hpath, hallowed, hm, hdecl]

theorem fits_of_matchOf (hs : Holds lib s ms) {b : RouteBinding} {x : RouteMatch}
    (hb : b ∈ s.tried (routeMethod method)) (h : matchOf lib s requestPath model b = some x) :
    Fits lib (· ∈ ms) method requestPath model x.manifest x.route := by
  obtain ⟨rfl, hkey, hmem, hpath, hallowed, hdecl⟩ := (matchOf_eq_some hs).mp h
  obtain ⟨hb, hmethod⟩ := mem_ofMethod.mp ((hs.routes _).mem_iff.mp hb)
  obtain ⟨m, hm, hmkey, hroute⟩ := mem_bindingsOf.mp hb
  have hsame : m = x.manifest :=
    List.inj_on_of_nodup_map hs.keys hm hmem (hmkey.trans hkey)
  exact ⟨hmem, hsame ▸ hroute, hmethod, hpath, hallowed, hdecl⟩

theorem matchOf_of_fits (hs : Holds lib s ms) {m : Manifest} {r : Route}
    (h : Fits lib (· ∈ ms) method requestPath model m r) :
    (⟨m.key, r⟩ : RouteBinding) ∈ s.tried (routeMethod method) ∧
      matchOf lib s requestPath model ⟨m.key, r⟩ = some ⟨m.key, m, r⟩ := by
  constructor
  · rw [(hs.routes _).mem_iff, mem_ofMethod]
    exact ⟨mem_bindingsOf.mpr ⟨m, h.published, rfl, h.route⟩, h.method⟩
  · exact (matchOf_eq_some hs).mpr ⟨rfl, rfl, h.published, h.path, h.allowed, h.declared⟩

/-- No request has two best routes. -/
theorem best_unique (hs : Holds lib s ms) {x y : RouteMatch}
    (hx : Best lib (· ∈ ms) method requestPath model x)
    (hy : Best lib (· ∈ ms) method requestPath model y) : x = y := by
  have hxy : NotAfter ⟨x.pluginKey, x.route⟩ ⟨y.pluginKey, y.route⟩ := by
    rw [hy.key]
    exact hx.first _ _ hy.fits
  have hyx : NotAfter ⟨y.pluginKey, y.route⟩ ⟨x.pluginKey, x.route⟩ := by
    rw [hx.key]
    exact hy.first _ _ hx.fits
  obtain ⟨hkey, hpath⟩ := notAfter_antisymm hxy hyx
  have hmanifest : x.manifest = y.manifest :=
    List.inj_on_of_nodup_map hs.keys hx.fits.published hy.fits.published
      (hx.key.symm.trans (hkey.trans hy.key))
  have hshape : routeKey lib x.route = routeKey lib y.route := by
    unfold routeKey
    rw [hx.fits.method, hy.fits.method, hpath]
  have hbinding : (⟨x.manifest.key, x.route⟩ : RouteBinding) = ⟨y.manifest.key, y.route⟩ :=
    List.inj_on_of_nodup_map hs.shapes
      (mem_bindingsOf.mpr ⟨x.manifest, hx.fits.published, rfl, hx.fits.route⟩)
      (mem_bindingsOf.mpr ⟨y.manifest, hy.fits.published, rfl, hy.fits.route⟩) hshape
  obtain ⟨xk, xm, xr⟩ := x
  obtain ⟨yk, ym, yr⟩ := y
  simp only [RouteBinding.mk.injEq] at hbinding
  simp only at hkey hmanifest
  rw [hkey, hmanifest, hbinding.2]

/-- A match is the best of the published routes that fit the request. -/
theorem best_of_matchRoute (hs : Holds lib s ms) {x : RouteMatch}
    (h : matchRoute lib s method requestPath model = some x) :
    Best lib (· ∈ ms) method requestPath model x := by
  obtain ⟨pre, b, post, hsplit, hb, hpre⟩ := List.findSome?_eq_some_iff.mp h
  have hmem : b ∈ s.tried (routeMethod method) := by
    show b ∈ (s.byMethod.lookup (routeMethod method)).getD []
    rw [hsplit]
    exact List.mem_append_right _ List.mem_cons_self
  have hbx := (matchOf_eq_some hs).mp hb
  refine ⟨hbx.2.1, fits_of_matchOf hs hmem hb, ?_⟩
  intro m r hfit
  obtain ⟨htried, hmatch⟩ := matchOf_of_fits hs hfit
  have hsorted := hs.sorted (routeMethod method)
  unfold RegistryState.tried at htried hsorted
  rw [hsplit] at htried hsorted
  rw [← hbx.1]
  rcases List.mem_append.mp htried with hm | hm
  · rw [hpre _ hm] at hmatch
    simp at hmatch
  · rcases List.mem_cons.mp hm with hm | hm
    · rw [hm]
      rcases notAfter_total b b with hself | hself
      · exact hself
      · exact hself
    · exact List.rel_of_pairwise_cons (List.pairwise_append.mp hsorted).2.1 hm

/-- A request that no route matches fits no published route. -/
theorem none_of_matchRoute (hs : Holds lib s ms)
    (h : matchRoute lib s method requestPath model = none) (m : Manifest) (r : Route) :
    ¬ Fits lib (· ∈ ms) method requestPath model m r := by
  intro hfit
  obtain ⟨htried, hmatch⟩ := matchOf_of_fits hs hfit
  rw [List.findSome?_eq_none_iff.mp h _ htried] at hmatch
  simp at hmatch

/-- **Routing.**  The match of a request is the best of the published routes that fit it, whatever
the order in which they were published. -/
theorem matchRoute_iff (hs : Holds lib s ms) {x : RouteMatch} :
    matchRoute lib s method requestPath model = some x ↔
      Best lib (· ∈ ms) method requestPath model x := by
  constructor
  · exact best_of_matchRoute hs
  · intro hx
    cases h : matchRoute lib s method requestPath model with
    | none => exact absurd hx.fits (none_of_matchRoute hs h _ _)
    | some y => rw [best_unique hs (best_of_matchRoute hs h) hx]

end matching

theorem holds_foldlM : ∀ {l ms : List Manifest} {s s' : RegistryState}, Holds lib s ms →
    l.foldlM (publish lib) s = some s' → Holds lib s' (ms ++ l)
  | [], ms, s, s', hs, h => by
      obtain rfl : s = s' := Option.some.inj h
      rw [List.append_nil]
      exact hs
  | m :: l, ms, s, s', hs, h => by
      rw [List.foldlM_cons, Option.bind_eq_bind, Option.bind_eq_some_iff] at h
      obtain ⟨mid, hmid, hrest⟩ := h
      have hall := holds_foldlM (holds_publish hs hmid) hrest
      rw [List.append_assoc] at hall
      exact hall

end MaxApi.TaskPlugin
