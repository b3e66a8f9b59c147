import MaxApi.Channels.Select

/-! # Channels: the two selectors

The selectors index the priorities with the number of the retry at different points: the one over
the cache among the channels that are left, the one over the abilities among all enabled channels
of the group and model, and again among those it kept.  What either can return is described as a
list of channels (`DrawsFrom`), and `selectors_agree` says when the two lists are the same. -/

namespace MaxApi.Channels

open Relational

/-! ### Candidates -/

/-- An enabled channel that lists the group and the model. -/
def Channel.Serves (c : Channel) (group model : String) : Prop :=
  c.status = ChannelStatusEnabled ∧ group ∈ c.groupNames ∧ model ∈ c.modelNames

instance (c : Channel) (group model : String) : Decidable (c.Serves group model) :=
  inferInstanceAs (Decidable (_ ∧ _ ∧ _))

/-- Whether a channel supports the path of a request. -/
def Channel.supportsRequestPath (config : String → Option (List String)) (c : Channel)
    (requestPath : String) : Bool :=
  if requestPath = "" then true
  else if !channelTypeSupportsRequestPath c.type requestPath then false
  else if c.type ≠ ChannelTypeAdvancedCustom then true
  else configSupports (config c.otherSettings) requestPath

/-- The enabled channels of a group and model. -/
def serving (db : Tables) (group model : String) : List Channel :=
  db.channels.rows.filter (·.Serves group model)

/-- Those that support the path. -/
def eligible (config : String → Option (List String)) (db : Tables)
    (group model requestPath : String) : List Channel :=
  (serving db group model).filter (·.supportsRequestPath config requestPath)

/-- Those that have not been tried. -/
def remaining (config : String → Option (List String)) (db : Tables)
    (group model requestPath : String) (excludedChannelIDs : List ℤ) : List Channel :=
  (eligible config db group model requestPath).filter (·.id ∉ excludedChannelIDs)

/-- The priority level of a list of channels that a retry addresses. -/
def retryLevel (channels : List Channel) (retry : ℕ) : Option ℤ :=
  Ranked.levelAt (channels.map Channel.getPriority) retry

/-- The channels of a priority level. -/
def atLevel (channels : List Channel) (level : Option ℤ) : List Channel :=
  channels.filter fun c => some c.getPriority = level

/-- The abilities are those of the channels: one for each group and model that a channel lists. -/
def Tables.InSync (db : Tables) : Prop :=
  ∀ a : Ability, a ∈ db.abilities ↔
    ∃ c ∈ db.channels, ∃ g ∈ c.groupNames, ∃ m ∈ c.modelNames, a = c.ability g m

/-! ### Outcomes -/

/-- The channel a selector returns. -/
def returned (r : Except SelectError (Option Channel)) : Option Channel :=
  match r with
  | .ok c => c
  | .error _ => none

/-- The outcomes of a selector over all draws are the channels of the list, or none if there are
none. -/
structure DrawsFrom (select : ℕ → Option Channel) (l : List Channel) : Prop where
  sound : l ≠ [] → ∀ random, ∃ c ∈ l, select random = some c
  complete : ∀ c ∈ l, ∃ random, select random = some c
  nothing : l = [] → ∀ random, select random = none

/-- Two selectors agree: whatever is drawn, either both return no channel or both a channel of the
same priority; and they can return the same channels. -/
def Agree (f g : ℕ → Option Channel) : Prop :=
  (∀ r r', (f r).map Channel.getPriority = (g r').map Channel.getPriority) ∧
    ∀ c, (∃ r, f r = some c) ↔ ∃ r, g r = some c

theorem DrawsFrom.mem_iff {f : ℕ → Option Channel} {l : List Channel} (h : DrawsFrom f l)
    (c : Channel) : (∃ r, f r = some c) ↔ c ∈ l := by
  constructor
  · rintro ⟨r, hr⟩
    by_cases hl : l = []
    · rw [h.nothing hl r] at hr
      cases hr
    · obtain ⟨d, hd, hdr⟩ := h.sound hl r
      rw [hr] at hdr
      rw [Option.some.inj hdr]
      exact hd
  · exact h.complete c

theorem DrawsFrom.congr {f : ℕ → Option Channel} {l l' : List Channel} (h : DrawsFrom f l)
    (hl : ∀ c, c ∈ l ↔ c ∈ l') : DrawsFrom f l' where
  sound hne random := by
    obtain ⟨d, hd⟩ := List.exists_mem_of_ne_nil l' hne
    obtain ⟨c, hc, hf⟩ := h.sound (List.ne_nil_of_mem ((hl d).mpr hd)) random
    exact ⟨c, (hl c).mp hc, hf⟩
  complete c hc := h.complete c ((hl c).mpr hc)
  nothing hnil := by
    refine h.nothing (List.eq_nil_iff_forall_not_mem.mpr fun c hc => ?_)
    have hc' := (hl c).mp hc
    rw [hnil] at hc'
    exact List.not_mem_nil hc'

/-- Selectors that draw from one level each agree when they draw from the same channels. -/
theorem agree_iff {f g : ℕ → Option Channel} {l l' : List Channel} (hf : DrawsFrom f l)
    (hg : DrawsFrom g l') (hl : ∀ c ∈ l, ∀ d ∈ l, c.getPriority = d.getPriority) :
    Agree f g ↔ ∀ c, c ∈ l ↔ c ∈ l' := by
  constructor
  · intro h c
    rw [← hf.mem_iff, ← hg.mem_iff]
    exact h.2 c
  · intro h
    refine ⟨fun r r' => ?_, fun c => ?_⟩
    · by_cases hnil : l = []
      · have hnil' : l' = [] := by
          rw [List.eq_nil_iff_forall_not_mem]
          intro c hc
          rw [← h c, hnil] at hc
          exact List.not_mem_nil hc
        rw [hf.nothing hnil r, hg.nothing hnil' r']
      · have hne : l' ≠ [] := by
          obtain ⟨c, hc⟩ := List.exists_mem_of_ne_nil l hnil
          exact List.ne_nil_of_mem ((h c).mp hc)
        obtain ⟨c, hc, hfr⟩ := hf.sound hnil r
        obtain ⟨d, hd, hgr⟩ := hg.sound hne r'
        rw [hfr, hgr]
        exact congrArg some (hl c hc d ((h d).mpr hd))
    · rw [hf.mem_iff, hg.mem_iff]
      exact h c

theorem mem_atLevel {channels : List Channel} {level : Option ℤ} {c : Channel} :
    c ∈ atLevel channels level ↔ c ∈ channels ∧ some c.getPriority = level := by
  unfold atLevel
  rw [List.mem_filter, decide_eq_true_eq]

/-- The level that a retry addresses has a channel. -/
theorem atLevel_ne_nil {channels : List Channel} {retry : ℕ} {p : ℤ}
    (h : retryLevel channels retry = some p) :
    atLevel channels (retryLevel channels retry) ≠ [] := by
  obtain ⟨c, hc, hp⟩ := List.mem_map.mp (Ranked.levelAt_mem h)
  refine List.ne_nil_of_mem (mem_atLevel.mpr ⟨hc, ?_⟩)
  rw [h, hp]

theorem retryLevel_eq_none {channels : List Channel} {retry : ℕ} :
    retryLevel channels retry = none ↔ channels = [] := by
  unfold retryLevel
  rw [Ranked.levelAt_eq_none, List.map_eq_nil_iff]

theorem retryLevel_congr {l l' : List Channel} (h : ∀ c, c ∈ l ↔ c ∈ l') (retry : ℕ) :
    retryLevel l retry = retryLevel l' retry := by
  refine Ranked.levelAt_congr (fun p => ?_) retry
  rw [List.mem_map, List.mem_map]
  exact exists_congr fun c => and_congr_left fun _ => h c

/-! ### The selector over the cache -/

section cache

variable {config : String → Option (List String)} {db : Tables} {group model requestPath : String}
variable {retry : ℕ} {excludedChannelIDs : List ℤ} {c : Channel}

theorem first?_id (hc : c ∈ db.channels) : db.channels.first? (·.id = c.id) = some c :=
  Table.first?_eq_some hc rfl fun _ ha h => Table.eq_of_clash ha hc h

theorem advancedCustomConfigs_id (hc : c ∈ db.channels) :
    advancedCustomConfigs config db.channels c.id =
      if c.type = ChannelTypeAdvancedCustom then config c.otherSettings else none := by
  unfold advancedCustomConfigs
  rw [first?_id hc]

theorem mem_serving :
    c ∈ serving db group model ↔ c ∈ db.channels ∧ c.Serves group model := by
  unfold serving
  rw [List.mem_filter, decide_eq_true_eq]
  exact Iff.rfl

theorem mem_eligible : c ∈ eligible config db group model requestPath ↔
    c ∈ serving db group model ∧ c.supportsRequestPath config requestPath = true := by
  unfold eligible
  rw [List.mem_filter]

theorem mem_remaining : c ∈ remaining config db group model requestPath excludedChannelIDs ↔
    c ∈ eligible config db group model requestPath ∧ c.id ∉ excludedChannelIDs := by
  unfold remaining
  rw [List.mem_filter, decide_eq_true_eq]

/-- Which rows the path filter of the cache keeps. -/
theorem mem_filterChannelsByRequestPath {lists : Lists} {channels : List ℤ} (hc : c ∈ db.channels) :
    c.id ∈ filterChannelsByRequestPath
        ⟨lists, db.channels, advancedCustomConfigs config db.channels⟩ channels requestPath ↔
      c.id ∈ channels ∧ c.supportsRequestPath config requestPath = true := by
  unfold filterChannelsByRequestPath Channel.supportsRequestPath
  by_cases hpath : requestPath = ""
  · rw [if_pos hpath, if_pos hpath]
    simp
  · rw [if_neg hpath, if_neg hpath, List.mem_filter]
    dsimp only
    rw [first?_id hc]
    dsimp only
    rw [advancedCustomConfigs_id hc]
    by_cases htype : c.type = ChannelTypeAdvancedCustom
    · simp only [if_pos htype]
    · rw [if_neg htype, if_pos htype, if_pos htype]

/-- Identifiers that have a row are found. -/
theorem cachedChannels_isOk {cache : Cache} : ∀ {ids : List ℤ},
    (∀ id ∈ ids, ∃ c ∈ cache.channelsIDM, c.id = id) → ∃ cs, cachedChannels cache ids = .ok cs
  | [], _ => ⟨[], rfl⟩
  | id :: ids, h => by
      obtain ⟨d, hd, rfl⟩ := h id List.mem_cons_self
      obtain ⟨cs, hcs⟩ := cachedChannels_isOk fun i hi => h i (List.mem_cons_of_mem _ hi)
      have hfirst : cache.channelsIDM.first? (·.id = d.id) = some d :=
        Table.first?_eq_some hd rfl fun _ ha hid => Table.eq_of_clash ha hd hid
      refine ⟨d :: cs, ?_⟩
      unfold cachedChannels
      rw [hfirst, hcs]

theorem smoothedWeight_pos {l : List Channel} (h : c.getWeight ≠ 0) :
    0 < smoothedWeight l c := by
  unfold smoothedWeight
  dsimp only
  split
  · omega
  · split
    · omega
    · omega

/-- The total weight of a draw is positive. -/
theorem smoothedWeight_sum_pos {l : List Channel} (h : l ≠ []) :
    0 < (l.map (smoothedWeight l)).sum := by
  by_cases hsum : (l.map Channel.getWeight).sum = 0
  · obtain ⟨c, hc⟩ := List.exists_mem_of_ne_nil l h
    have hle := List.le_sum_of_mem (List.mem_map_of_mem (f := smoothedWeight l) hc)
    have hw : smoothedWeight l c = c.getWeight * 1 + 100 := by
      unfold smoothedWeight
      dsimp only
      rw [if_neg (fun hne => hne.1 hsum), if_pos hsum]
    omega
  · have hex : ∃ c ∈ l, c.getWeight ≠ 0 := by
      by_contra hall
      push Not at hall
      refine hsum (List.sum_eq_zero fun w hw => ?_)
      obtain ⟨c, hc, rfl⟩ := List.mem_map.mp hw
      exact hall c hc
    obtain ⟨c, hc, hw⟩ := hex
    have hle := List.le_sum_of_mem (List.mem_map_of_mem (f := smoothedWeight l) hc)
    have hpos := smoothedWeight_pos (l := l) hw
    omega

/-- With several candidates the draw is among those of the level that the retry addresses. -/
theorem drawCandidate_value {cs : List Channel} {retry : ℕ} {p : ℤ} (hlen : 2 ≤ cs.length)
    (hp : retryLevel cs retry = some p) (random : ℕ) :
    returned (drawCandidate cs retry random) =
      Ranked.draw (smoothedWeight (atLevel cs (some p))) (atLevel cs (some p))
        (secureRandomInt random
          ((atLevel cs (some p)).map (smoothedWeight (atLevel cs (some p)))).sum) := by
  match cs with
  | [] => simp at hlen
  | [c] => simp at hlen
  | c :: d :: rest =>
      have hlevel : Ranked.levelAt ((c :: d :: rest).map Channel.getPriority) retry = some p := hp
      have htarget : (c :: d :: rest).filter (·.getPriority = p) =
          atLevel (c :: d :: rest) (some p) := by
        unfold atLevel
        simp
      unfold drawCandidate
      simp only [hlevel]
      rw [htarget]
      cases Ranked.draw (smoothedWeight (atLevel (c :: d :: rest) (some p)))
          (atLevel (c :: d :: rest) (some p)) (secureRandomInt random
            ((atLevel (c :: d :: rest) (some p)).map
              (smoothedWeight (atLevel (c :: d :: rest) (some p)))).sum) with
      | none => rfl
      | some c => rfl

/-- A single candidate is its level. -/
theorem atLevel_singleton (c : Channel) (retry : ℕ) :
    atLevel [c] (retryLevel [c] retry) = [c] := by
  have hsome : retryLevel [c] retry = some c.getPriority :=
    Ranked.levelAt_of_forall (by simp) (by simp) retry
  unfold atLevel
  rw [hsome]
  simp

/-- Where there are candidates, the draw returns one of the level that the retry addresses. -/
theorem drawCandidate_sound {cs : List Channel} (hne : cs ≠ []) (retry random : ℕ) :
    ∃ c ∈ atLevel cs (retryLevel cs retry), returned (drawCandidate cs retry random) = some c := by
  by_cases hlen : 2 ≤ cs.length
  · cases hp : retryLevel cs retry with
    | none => exact absurd (retryLevel_eq_none.mp hp) hne
    | some p =>
        have htarget : atLevel cs (some p) ≠ [] := by
          rw [← hp]
          exact atLevel_ne_nil hp
        obtain ⟨c, hc⟩ := Option.isSome_iff_exists.mp
          (Ranked.draw_isSome (Nat.mod_lt random (smoothedWeight_sum_pos htarget)))
        refine ⟨c, Ranked.draw_mem hc, ?_⟩
        rw [drawCandidate_value hlen hp]
        exact hc
  · obtain ⟨c, rfl⟩ : ∃ c, cs = [c] := by
      have hpos := List.length_pos_iff.mpr hne
      exact List.length_eq_one_iff.mp (by omega)
    rw [atLevel_singleton]
    exact ⟨c, List.mem_cons_self, rfl⟩

/-- The draw among the candidates is from the level that the retry addresses. -/
theorem drawCandidate_drawsFrom (cs : List Channel) (retry : ℕ)
    (hpos : ∀ c ∈ cs, 0 < c.getWeight) :
    DrawsFrom (fun random => returned (drawCandidate cs retry random))
      (atLevel cs (retryLevel cs retry)) where
  sound hne random := by
    refine drawCandidate_sound (fun hnil => hne ?_) retry random
    rw [hnil]
    rfl
  complete c hc := by
    have hmem := (mem_atLevel.mp hc).1
    by_cases hlen : 2 ≤ cs.length
    · have hp := (mem_atLevel.mp hc).2.symm
      rw [hp] at hc
      obtain ⟨n, hn, hdraw⟩ := Ranked.exists_draw hc
        (smoothedWeight_pos (Nat.pos_iff_ne_zero.mp (hpos c hmem)))
      refine ⟨n, ?_⟩
      rw [drawCandidate_value hlen hp]
      unfold secureRandomInt
      rw [Nat.mod_eq_of_lt hn]
      exact hdraw
    · obtain ⟨d, rfl⟩ : ∃ d, cs = [d] := by
        have hlen' := List.length_pos_of_mem hmem
        exact List.length_eq_one_iff.mp (by omega)
      rw [List.mem_singleton.mp hmem]
      exact ⟨0, rfl⟩
  nothing hnil random := by
    have hcs : cs = [] := by
      cases hp : retryLevel cs retry with
      | none => exact retryLevel_eq_none.mp hp
      | some p => exact absurd hnil (atLevel_ne_nil hp)
    rw [hcs]
    rfl

/-- The lists of a fresh cache hold the channels of their group and model. -/
theorem mem_channelsOf {slice : SortSlice} {lists : Lists}
    (h : newLists slice db.channels db.abilities.rows = some lists) (hc : c ∈ db.channels) :
    c.id ∈ channelsOf lists group model ↔ c.Serves group model := by
  rw [mem_newLists h]
  constructor
  · rintro ⟨d, hd, hstatus, hg, hm, hid⟩
    rw [← Table.eq_of_clash hd hc hid]
    exact ⟨hstatus, hg, hm⟩
  · rintro ⟨hstatus, hg, hm⟩
    exact ⟨c, hc, hstatus, hg, hm, rfl⟩

/-- **The selector over the cache** draws from the level of the retry of the channels that are
left. -/
theorem cache_drawsFrom {slice : SortSlice} {cache : Cache}
    (hcache : initChannelCache config slice db = some cache)
    (hmodel : formatMatchingModelName model = model)
    (hpos : ∀ c ∈ db.channels, c.status = ChannelStatusEnabled → 0 < c.getWeight)
    (group requestPath : String) (retry : ℕ) (excludedChannelIDs : List ℤ) :
    DrawsFrom (fun random => returned (getRandomSatisfiedChannelExcluding cache group model retry
        requestPath excludedChannelIDs random))
      (atLevel (remaining config db group model requestPath excludedChannelIDs)
        (retryLevel (remaining config db group model requestPath excludedChannelIDs) retry)) := by
  unfold initChannelCache at hcache
  obtain ⟨lists, hlists, rfl⟩ := Option.map_eq_some_iff.mp hcache
  set cache : Cache := ⟨lists, db.channels, advancedCustomConfigs config db.channels⟩ with hc
  have hsatisfied : satisfiedChannels cache group model requestPath =
      filterChannelsByRequestPath cache (channelsOf lists group model) requestPath := by
    unfold satisfiedChannels
    dsimp only
    rw [hmodel]
    split
    · rfl
    · rfl
  set available := (satisfiedChannels cache group model requestPath).filter
    (· ∉ excludedChannelIDs) with havailable
  have hmem : ∀ c ∈ db.channels, c.id ∈ available ↔
      c ∈ remaining config db group model requestPath excludedChannelIDs := by
    intro c hcd
    rw [havailable, List.mem_filter, decide_eq_true_eq, hsatisfied,
      mem_filterChannelsByRequestPath hcd, mem_channelsOf hlists hcd, mem_remaining, mem_eligible,
      mem_serving]
    simp [hcd]
  have hrows : ∀ id ∈ available, ∃ c ∈ cache.channelsIDM, c.id = id := by
    intro id hid
    have hlist : id ∈ channelsOf lists group model := by
      have hfilter := List.mem_of_mem_filter hid
      rw [hsatisfied] at hfilter
      unfold filterChannelsByRequestPath at hfilter
      split at hfilter
      · exact hfilter
      · exact List.mem_of_mem_filter hfilter
    obtain ⟨d, hd, _, _, _, hdid⟩ := (mem_newLists hlists).mp hlist
    exact ⟨d, hd, hdid⟩
  obtain ⟨cs, hcs⟩ := cachedChannels_isOk hrows
  have hcsmem := cachedChannels_mem hcs
  have hsame : ∀ c, c ∈ cs ↔
      c ∈ remaining config db group model requestPath excludedChannelIDs := by
    intro c
    rw [hcsmem]
    constructor
    · rintro ⟨hcd, hid⟩
      exact (hmem c hcd).mp hid
    · intro hrem
      have hcd : c ∈ db.channels :=
        (mem_serving.mp (mem_eligible.mp (mem_remaining.mp hrem).1).1).1
      exact ⟨hcd, (hmem c hcd).mpr hrem⟩
  have hdraw := drawCandidate_drawsFrom cs retry fun c hcmem => by
    have hserving := (mem_eligible.mp (mem_remaining.mp ((hsame c).mp hcmem)).1).1
    exact hpos c (mem_serving.mp hserving).1 (mem_serving.mp hserving).2.1
  have hvalue : ∀ random, getRandomSatisfiedChannelExcluding cache group model retry requestPath
      excludedChannelIDs random = drawCandidate cs retry random := by
    intro random
    unfold getRandomSatisfiedChannelExcluding
    dsimp only
    rw [← havailable, hcs]
  simp only [hvalue]
  exact hdraw.congr fun c => by
    rw [mem_atLevel, mem_atLevel, hsame, retryLevel_congr hsame]

end cache

/-! ### The selector over the abilities -/

section abilities

variable {config : String → Option (List String)} {db : Tables} {group model requestPath : String}
variable {abilities : List Ability} {channels : List Channel}

/-- The abilities are those of the channels, for one group and model. -/
def AbilitiesOf (group model : String) (abilities : List Ability) (channels : List Channel) :
    Prop :=
  ∀ a, a ∈ abilities ↔ ∃ c ∈ channels, a = c.ability group model

theorem AbilitiesOf.filter (h : AbilitiesOf group model abilities channels)
    {p : Ability → Bool} {q : Channel → Bool}
    (hpq : ∀ c ∈ channels, p (c.ability group model) = q c) :
    AbilitiesOf group model (abilities.filter p) (channels.filter q) := by
  intro a
  rw [List.mem_filter, h]
  constructor
  · rintro ⟨⟨c, hc, rfl⟩, hp⟩
    refine ⟨c, List.mem_filter.mpr ⟨hc, ?_⟩, rfl⟩
    rw [← hpq c hc]
    exact hp
  · rintro ⟨c, hc, rfl⟩
    obtain ⟨hc, hq⟩ := List.mem_filter.mp hc
    refine ⟨⟨c, hc, rfl⟩, ?_⟩
    rw [hpq c hc]
    exact hq

theorem AbilitiesOf.findAbilityRows (h : AbilitiesOf group model abilities channels) :
    AbilitiesOf group model (findAbilityRows abilities) channels := by
  intro a
  unfold Channels.findAbilityRows
  rw [List.mem_insertionSort]
  exact h a

theorem AbilitiesOf.eq_nil_iff (h : AbilitiesOf group model abilities channels) :
    abilities = [] ↔ channels = [] := by
  rw [List.eq_nil_iff_forall_not_mem, List.eq_nil_iff_forall_not_mem]
  constructor
  · intro hnil c hc
    exact hnil _ ((h _).mpr ⟨c, hc, rfl⟩)
  · intro hnil a ha
    obtain ⟨c, hc, _⟩ := (h a).mp ha
    exact hnil c hc

/-- Abilities have the priority levels of their channels. -/
theorem AbilitiesOf.levelAt (h : AbilitiesOf group model abilities channels) (retry : ℕ) :
    Ranked.levelAt (abilities.map Ability.priority) retry = retryLevel channels retry := by
  refine Ranked.levelAt_congr (fun p => ?_) retry
  rw [List.mem_map, List.mem_map]
  constructor
  · rintro ⟨a, ha, rfl⟩
    obtain ⟨c, hc, rfl⟩ := (h a).mp ha
    exact ⟨c, hc, rfl⟩
  · rintro ⟨c, hc, rfl⟩
    exact ⟨_, (h _).mpr ⟨c, hc, rfl⟩, rfl⟩

theorem AbilitiesOf.atLevel (h : AbilitiesOf group model abilities channels) (level : Option ℤ) :
    AbilitiesOf group model (abilities.filter fun a => some a.priority = level)
      (atLevel channels level) :=
  h.filter fun _ _ => rfl

theorem enabledAbilities_of_inSync (hsync : db.InSync) (group model : String) :
    AbilitiesOf group model (enabledAbilities db group model) (serving db group model) := by
  intro a
  unfold enabledAbilities
  rw [List.mem_filter, decide_eq_true_eq]
  constructor
  · rintro ⟨ha, hg, hm, henabled⟩
    obtain ⟨c, hc, g, hgc, m, hmc, rfl⟩ := (hsync a).mp ha
    obtain rfl : g = group := hg
    obtain rfl : m = model := hm
    exact ⟨c, mem_serving.mpr ⟨hc, of_decide_eq_true henabled, hgc, hmc⟩, rfl⟩
  · rintro ⟨c, hc, rfl⟩
    obtain ⟨hcd, hstatus, hg, hm⟩ := mem_serving.mp hc
    exact ⟨(hsync _).mpr ⟨c, hcd, group, hg, model, hm, rfl⟩, rfl, rfl, decide_eq_true hstatus⟩

/-- Without channels of the group and model the query returns no rows. -/
theorem getChannelQuery_nil (hsync : db.InSync) (h : serving db group model = []) (retry : ℕ) :
    getChannelQuery db group model retry = .ok [] ∨
      ∃ e, getChannelQuery db group model retry = .error e := by
  have hrows := (enabledAbilities_of_inSync hsync group model).eq_nil_iff.mpr h
  unfold getChannelQuery getPriority
  rw [hrows]
  by_cases hretry : retry = 0
  · rw [if_pos hretry]
    exact .inl rfl
  · rw [if_neg hretry]
    exact .inr ⟨_, rfl⟩

/-- The query returns the abilities of the level that the retry addresses. -/
theorem getChannelQuery_spec (hsync : db.InSync) (h : serving db group model ≠ []) (retry : ℕ) :
    ∃ rows, getChannelQuery db group model retry = .ok rows ∧ AbilitiesOf group model rows
      (atLevel (serving db group model) (retryLevel (serving db group model) retry)) := by
  have hall := enabledAbilities_of_inSync hsync group model
  have hlevel := hall.levelAt retry
  unfold getChannelQuery getPriority
  dsimp only
  by_cases hretry : retry = 0
  · rw [if_pos hretry]
    refine ⟨_, rfl, ?_⟩
    rw [hretry, Ranked.levelAt_zero] at hlevel
    rw [hretry, ← hlevel]
    exact hall.atLevel _
  · rw [if_neg hretry, hlevel]
    cases hp : retryLevel (serving db group model) retry with
    | none => exact absurd (retryLevel_eq_none.mp hp) h
    | some p =>
        refine ⟨_, rfl, ?_⟩
        exact hall.filter fun c _ => by
          show decide (c.getPriority = p) = decide (some c.getPriority = some p)
          simp

/-- The path filter of the abilities keeps those of the channels that support the path. -/
theorem AbilitiesOf.filterByRequestPath (h : AbilitiesOf group model abilities channels)
    (config : String → Option (List String)) (requestPath : String)
    (hdb : ∀ c ∈ channels, c ∈ db.channels) :
    AbilitiesOf group model (filterAbilityRowsByRequestPath config db abilities requestPath)
      (channels.filter (·.supportsRequestPath config requestPath)) := by
  unfold filterAbilityRowsByRequestPath
  by_cases hpath : requestPath = ""
  · have hfilter : channels.filter (·.supportsRequestPath config requestPath) = channels := by
      refine List.filter_eq_self.mpr fun c _ => ?_
      unfold Channel.supportsRequestPath
      rw [if_pos hpath]
    rw [if_pos hpath, hfilter]
    exact h
  · rw [if_neg hpath]
    refine h.filter fun c hc => ?_
    have htype : channelType db (c.ability group model) = c.type := by
      have hid : (c.ability group model).channelId = c.id := rfl
      unfold channelType
      rw [hid, first?_id (hdb c hc)]
    have hconfig : advancedCustomConfigs config db.channels (c.ability group model).channelId =
        if c.type = ChannelTypeAdvancedCustom then config c.otherSettings else none :=
      advancedCustomConfigs_id (hdb c hc)
    unfold Channel.supportsRequestPath
    rw [htype, hconfig, if_neg hpath]
    by_cases hcustom : c.type = ChannelTypeAdvancedCustom
    · simp only [if_pos hcustom]
    · rw [if_neg hcustom, if_pos hcustom, if_pos hcustom]

/-- The channels whose abilities the selector keeps: the eligible ones of the level of the retry,
or all eligible ones when there are none of that level. -/
def queried (config : String → Option (List String)) (db : Tables)
    (group model requestPath : String) (retry : ℕ) : List Channel :=
  let channels := eligible config db group model requestPath
  let target := atLevel channels (retryLevel (serving db group model) retry)
  if target = [] then channels else target

theorem queried_sub {retry : ℕ} :
    ∀ c ∈ queried config db group model requestPath retry,
      c ∈ eligible config db group model requestPath := by
  intro c hc
  unfold queried at hc
  dsimp only at hc
  split at hc
  · exact hc
  · exact (mem_atLevel.mp hc).1

theorem supportingAbilities_spec (config : String → Option (List String)) (requestPath : String)
    (hsync : db.InSync) (h : serving db group model ≠ []) {retry : ℕ}
    {rows : List Ability} (hrows : AbilitiesOf group model rows
      (atLevel (serving db group model) (retryLevel (serving db group model) retry))) :
    AbilitiesOf group model (supportingAbilities config db group model requestPath rows)
      (queried config db group model requestPath retry) := by
  have hsub : ∀ c ∈ serving db group model, c ∈ db.channels := fun c hc => (mem_serving.mp hc).1
  have htarget := hrows.findAbilityRows.filterByRequestPath config requestPath
    fun c hc => hsub c (mem_atLevel.mp hc).1
  have hcomm : (atLevel (serving db group model) (retryLevel (serving db group model) retry)).filter
      (·.supportsRequestPath config requestPath) =
        atLevel (eligible config db group model requestPath)
          (retryLevel (serving db group model) retry) := by
    unfold atLevel eligible
    rw [List.filter_filter, List.filter_filter]
    exact List.filter_congr fun c _ => Bool.and_comm _ _
  rw [hcomm] at htarget
  unfold supportingAbilities queried
  dsimp only
  by_cases hnil : atLevel (eligible config db group model requestPath)
      (retryLevel (serving db group model) retry) = []
  · have hpath : requestPath ≠ "" := by
      intro hpath
      have heligible : eligible config db group model requestPath = serving db group model := by
        refine List.filter_eq_self.mpr fun c _ => ?_
        unfold Channel.supportsRequestPath
        rw [if_pos hpath]
      rw [heligible] at hnil
      cases hp : retryLevel (serving db group model) retry with
      | none => exact h (retryLevel_eq_none.mp hp)
      | some p => exact atLevel_ne_nil hp hnil
    rw [if_pos ⟨htarget.eq_nil_iff.mpr hnil, hpath⟩, if_pos hnil]
    exact (enabledAbilities_of_inSync hsync group model).findAbilityRows.filterByRequestPath config
      requestPath hsub
  · rw [if_neg fun hboth => hnil (htarget.eq_nil_iff.mp hboth.1), if_neg hnil]
    exact htarget

/-- The draw among abilities is from the level of the retry of the channels not excluded. -/
theorem selectChannelId_drawsFrom (h : AbilitiesOf group model abilities channels)
    (hdb : ∀ c ∈ channels, c ∈ db.channels) (retry : ℕ) (excludedChannelIDs : List ℤ) :
    DrawsFrom (fun random =>
        (selectChannelIdFromAbilities abilities retry excludedChannelIDs random).bind
          fun id => db.channels.first? (·.id = id))
      (atLevel (channels.filter (·.id ∉ excludedChannelIDs))
        (retryLevel (channels.filter (·.id ∉ excludedChannelIDs)) retry)) := by
  have havailable : AbilitiesOf group model
      (abilities.filter (·.channelId ∉ excludedChannelIDs))
      (channels.filter (·.id ∉ excludedChannelIDs)) := h.filter fun _ _ => rfl
  set left := channels.filter (·.id ∉ excludedChannelIDs) with hleft
  have hlevel := havailable.levelAt retry
  unfold selectChannelIdFromAbilities
  dsimp only
  rw [hlevel]
  cases hp : retryLevel left retry with
  | none =>
      have hnil : atLevel left none = [] := by
        rw [retryLevel_eq_none.mp hp]
        rfl
      rw [hnil]
      exact ⟨fun hne => absurd rfl hne, fun c hc => absurd hc List.not_mem_nil, fun _ _ => rfl⟩
  | some p =>
      have htarget := havailable.atLevel (some p)
      have hne : atLevel left (some p) ≠ [] := by
        have hne := atLevel_ne_nil hp
        rw [hp] at hne
        exact hne
      have hfilter : (abilities.filter (·.channelId ∉ excludedChannelIDs)).filter
          (·.priority = p) = (abilities.filter (·.channelId ∉ excludedChannelIDs)).filter
            fun a => some a.priority = some p := by
        refine List.filter_congr fun a _ => ?_
        simp
      dsimp only
      rw [hfilter]
      set targets := (abilities.filter (·.channelId ∉ excludedChannelIDs)).filter
        fun a => some a.priority = some p with htargets
      set weight : Ability → ℕ := fun a => a.weight + 10 with hweight
      have hrow : ∀ c ∈ left, db.channels.first? (·.id = c.id) = some c := fun c hc =>
        first?_id (hdb c (List.mem_of_mem_filter hc))
      have hsum : 0 < (targets.map weight).sum := by
        obtain ⟨c, hc⟩ := List.exists_mem_of_ne_nil _ hne
        have hmem : c.ability group model ∈ targets := (htarget _).mpr ⟨c, hc, rfl⟩
        have hle := List.le_sum_of_mem (List.mem_map_of_mem (f := weight) hmem)
        have hpos : weight (c.ability group model) = c.getWeight + 10 := rfl
        omega
      refine ⟨fun _ random => ?_, fun c hc => ?_, fun hnil => absurd hnil hne⟩
      · have hlt := Nat.mod_lt random hsum
        obtain ⟨a, ha⟩ := Option.isSome_iff_exists.mp (Ranked.draw_isSome hlt)
        obtain ⟨c, hc, rfl⟩ := (htarget a).mp (Ranked.draw_mem ha)
        refine ⟨c, hc, ?_⟩
        unfold secureRandomInt
        rw [ha]
        exact hrow c (mem_atLevel.mp hc).1
      · have hmem : c.ability group model ∈ targets := (htarget _).mpr ⟨c, hc, rfl⟩
        obtain ⟨n, hn, hdraw⟩ := Ranked.exists_draw hmem
          (show 0 < weight (c.ability group model) from Nat.succ_pos _)
        refine ⟨n, ?_⟩
        unfold secureRandomInt
        rw [Nat.mod_eq_of_lt hn, hdraw]
        exact hrow c (mem_atLevel.mp hc).1

/-- **The selector over the abilities** draws from the level of the retry of the channels it
queried and that are not excluded. -/
theorem abilities_drawsFrom (config : String → Option (List String)) (hsync : db.InSync)
    (group model requestPath : String) (retry : ℕ) (excludedChannelIDs : List ℤ) :
    DrawsFrom (fun random => returned (getChannelExcluding config db group model retry requestPath
        excludedChannelIDs random))
      (atLevel ((queried config db group model requestPath retry).filter
          (·.id ∉ excludedChannelIDs))
        (retryLevel ((queried config db group model requestPath retry).filter
          (·.id ∉ excludedChannelIDs)) retry)) := by
  have hsub : ∀ c ∈ queried config db group model requestPath retry, c ∈ db.channels :=
    fun c hc => (mem_serving.mp (mem_eligible.mp (queried_sub c hc)).1).1
  by_cases hserving : serving db group model = []
  · have hnil : queried config db group model requestPath retry = [] := by
      rw [List.eq_nil_iff_forall_not_mem]
      intro c hc
      have hmem := (mem_eligible.mp (queried_sub c hc)).1
      rw [hserving] at hmem
      exact List.not_mem_nil hmem
    rw [hnil]
    refine ⟨fun hne => absurd rfl hne, fun c hc => absurd hc List.not_mem_nil, fun _ random => ?_⟩
    unfold getChannelExcluding
    rcases getChannelQuery_nil hsync hserving retry with hquery | ⟨e, hquery⟩
    · have hrows : supportingAbilities config db group model requestPath [] = [] := by
        have hall := (enabledAbilities_of_inSync hsync group model).eq_nil_iff.mpr hserving
        unfold supportingAbilities filterAbilityRowsByRequestPath
        rw [hall]
        by_cases hpath : requestPath = ""
        · simp [hpath, findAbilityRows]
        · simp [hpath, findAbilityRows]
      rw [hquery]
      dsimp only
      rw [hrows]
      rfl
    · rw [hquery]
      rfl
  · obtain ⟨rows, hquery, hrows⟩ := getChannelQuery_spec hsync hserving retry
    have hselect := selectChannelId_drawsFrom
      (supportingAbilities_spec config requestPath hsync hserving hrows)
      hsub retry excludedChannelIDs
    have hvalue : ∀ random, returned (getChannelExcluding config db group model retry requestPath
        excludedChannelIDs random) =
          (selectChannelIdFromAbilities (supportingAbilities config db group model requestPath rows)
            retry excludedChannelIDs random).bind fun id => db.channels.first? (·.id = id) := by
      intro random
      unfold getChannelExcluding
      rw [hquery]
      dsimp only
      cases selectChannelIdFromAbilities
        (supportingAbilities config db group model requestPath rows)
          retry excludedChannelIDs random with
      | none => rfl
      | some id =>
          dsimp only [Option.bind_some]
          cases db.channels.first? (·.id = id) with
          | none => rfl
          | some c => rfl
    simp only [hvalue]
    exact hselect

end abilities

/-! ### Agreement -/

/-- The retry addresses the same level in both selectors, or there is nothing to choose between:
no channel is left, or none of the eligible ones has the level that the query addresses. -/
def SameLevel (config : String → Option (List String)) (db : Tables)
    (group model requestPath : String) (retry : ℕ) (excludedChannelIDs : List ℤ) : Prop :=
  let level := retryLevel (serving db group model) retry
  let left := remaining config db group model requestPath excludedChannelIDs
  left = [] ∨ atLevel (eligible config db group model requestPath) level = [] ∨
    retryLevel left retry = level

/-- Drawing from the level of the retry is drawing from those of `level` when the two levels are
the same, or when there are no channels. -/
theorem atLevel_iff {left kept : List Channel} {level : Option ℤ} (retry : ℕ)
    (hkept : ∀ c, c ∈ kept ↔ c ∈ left ∧ some c.getPriority = level) :
    (∀ c, c ∈ atLevel left (retryLevel left retry) ↔ c ∈ atLevel kept (retryLevel kept retry)) ↔
      left = [] ∨ retryLevel left retry = level := by
  have hlevel : ∀ c, c ∈ atLevel kept (retryLevel kept retry) ↔
      c ∈ left ∧ some c.getPriority = level := by
    intro c
    rw [mem_atLevel, ← hkept]
    refine ⟨fun h => h.1, fun h => ⟨h, ?_⟩⟩
    symm
    refine Ranked.levelAt_of_forall (List.ne_nil_of_mem (List.mem_map_of_mem h))
      (fun p hp => ?_) retry
    obtain ⟨d, hd, rfl⟩ := List.mem_map.mp hp
    exact Option.some.inj (((hkept d).mp hd).2.trans ((hkept c).mp h).2.symm)
  constructor
  · intro hsame
    cases hp : retryLevel left retry with
    | none => exact .inl (retryLevel_eq_none.mp hp)
    | some p =>
        obtain ⟨c, hc⟩ := List.exists_mem_of_ne_nil _ (atLevel_ne_nil hp)
        have hlevel' := ((hlevel c).mp ((hsame c).mp hc)).2
        rw [← hlevel', (mem_atLevel.mp hc).2, hp]
        exact .inr rfl
  · rintro (hempty | hsame) c
    · rw [hlevel, hempty]
      exact iff_of_false (fun h => List.not_mem_nil (mem_atLevel.mp h).1)
        fun h => List.not_mem_nil h.1
    · rw [hlevel, hsame, mem_atLevel]

theorem mem_queried_left (config : String → Option (List String)) (db : Tables)
    (group model requestPath : String) (retry : ℕ) (excludedChannelIDs : List ℤ)
    (hne : atLevel (eligible config db group model requestPath)
      (retryLevel (serving db group model) retry) ≠ []) (c : Channel) :
    c ∈ (queried config db group model requestPath retry).filter (·.id ∉ excludedChannelIDs) ↔
      c ∈ remaining config db group model requestPath excludedChannelIDs ∧
        some c.getPriority = retryLevel (serving db group model) retry := by
  unfold queried
  dsimp only
  rw [if_neg hne, List.mem_filter, mem_atLevel, mem_remaining, decide_eq_true_eq, and_right_comm]

/-- **The two selectors agree exactly when the retry addresses the same level in both.** -/
theorem selectors_agree (config : String → Option (List String)) (slice : SortSlice) (db : Tables)
    (hsync : db.InSync) (cache : Cache) (hcache : initChannelCache config slice db = some cache)
    (hpos : ∀ c ∈ db.channels, c.status = ChannelStatusEnabled → 0 < c.getWeight)
    (group model : String) (hmodel : formatMatchingModelName model = model) (retry : ℕ)
    (requestPath : String) (excludedChannelIDs : List ℤ) :
    Agree (fun random => returned (getRandomSatisfiedChannelExcluding cache group model retry
        requestPath excludedChannelIDs random))
      (fun random => returned (getChannelExcluding config db group model retry requestPath
        excludedChannelIDs random)) ↔
      SameLevel config db group model requestPath retry excludedChannelIDs := by
  have hmem := cache_drawsFrom hcache hmodel hpos group requestPath retry excludedChannelIDs
  have hdb := abilities_drawsFrom config hsync group model requestPath retry excludedChannelIDs
  rw [agree_iff hmem hdb fun c hc d hd =>
    Option.some.inj ((mem_atLevel.mp hc).2.trans (mem_atLevel.mp hd).2.symm)]
  unfold SameLevel
  dsimp only
  by_cases hnil : atLevel (eligible config db group model requestPath)
      (retryLevel (serving db group model) retry) = []
  · have hqueried : queried config db group model requestPath retry =
        eligible config db group model requestPath := by
      unfold queried
      exact if_pos hnil
    rw [hqueried]
    exact iff_of_true (fun c => Iff.rfl) (.inr (.inl hnil))
  · rw [atLevel_iff retry (mem_queried_left config db group model requestPath retry
      excludedChannelIDs hnil)]
    simp only [hnil, false_or]

/-! ### Three levels -/

/-- Abilities that are listed channel by channel are in sync. -/
theorem inSync_of_rows {db : Tables} (h : db.abilities.rows = db.channels.rows.flatMap fun c =>
    c.groupNames.flatMap fun g => c.modelNames.map fun m => c.ability g m) : db.InSync := by
  intro a
  rw [Table.mem_iff, h]
  simp only [List.mem_flatMap, List.mem_map, eq_comm, Table.mem_iff]

/-- Channels 1, 2 and 3 of one group and model, of the priorities 3, 2 and 1. -/
def threeLevels : Tables :=
  batchInsertChannels ⟨.empty, .empty⟩ ([1, 2, 3].map fun id =>
    { id := id, type := 1, key := "sk", status := ChannelStatusEnabled, weight := some 1
      models := "m", group := "default", priority := some (4 - id), tag := none
      otherSettings := "", channelInfo := ⟨false, ∅, 0, .random⟩ })

theorem threeLevels_inSync : threeLevels.InSync := inSync_of_rows (by decide +kernel)

/-- The cache of the three channels. -/
def threeLevelsCache : Option Cache := initChannelCache (fun _ => none) insertionSlice threeLevels

theorem selectors_agree_threeLevels : ∃ cache, threeLevelsCache = some cache ∧
    Agree (fun random => returned (getRandomSatisfiedChannelExcluding cache "default" "m" 1 "" []
        random))
      (fun random => returned (getChannelExcluding (fun _ => none) threeLevels "default" "m" 1 ""
        [] random)) := by
  obtain ⟨cache, hcache⟩ : ∃ cache, threeLevelsCache = some cache :=
    Option.isSome_iff_exists.mp (by decide +kernel)
  refine ⟨cache, hcache, ?_⟩
  exact (selectors_agree (fun _ => none) insertionSlice threeLevels threeLevels_inSync cache hcache
    (by decide +kernel) "default" "m" (by decide +kernel) 1 "" []).mpr
      (.inr (.inr (by decide +kernel)))

/-- With channel 1 excluded, the first retry takes channel 3 from the cache, and channel 2 from
the abilities. -/
theorem selectors_disagree :
    ¬ ∀ (config : String → Option (List String)) (slice : SortSlice) (db : Tables), db.InSync →
      ∀ cache, initChannelCache config slice db = some cache →
      (∀ c ∈ db.channels, c.status = ChannelStatusEnabled → 0 < c.getWeight) →
      ∀ group model, formatMatchingModelName model = model → ∀ retry requestPath
        (excludedChannelIDs : List ℤ),
        Agree (fun random => returned (getRandomSatisfiedChannelExcluding cache group model retry
            requestPath excludedChannelIDs random))
          (fun random => returned (getChannelExcluding config db group model retry requestPath
            excludedChannelIDs random)) := by
  intro h
  have hmem : threeLevelsCache.map (fun cache => (returned (getRandomSatisfiedChannelExcluding cache
      "default" "m" 1 "" [1] 0)).map Channel.getPriority) = some (some 1) := by decide +kernel
  have hdb : (returned (getChannelExcluding (fun _ => none) threeLevels "default" "m" 1 "" [1]
      0)).map Channel.getPriority = some 2 := by decide +kernel
  obtain ⟨cache, hcache, hprio⟩ := Option.map_eq_some_iff.mp hmem
  have hagree := h _ insertionSlice threeLevels threeLevels_inSync cache hcache (by decide +kernel)
    "default" "m" (by decide +kernel) 1 "" [1]
  have hsame := hagree.1 0 0
  rw [hprio, hdb] at hsame
  exact absurd hsame (by decide)

end MaxApi.Channels
