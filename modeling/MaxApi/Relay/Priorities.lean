import MaxApi.Channels.Agreement
import MaxApi.Relay.WithinToken

/-! # Relay: descending the priorities

A request that is served from the cache tries the priorities of a group from the top.  The number
of the retry is the index of a priority among those that are left, so when an attempt has emptied
its priority the next index is one too far, and a priority is passed over.  Where that does not
happen (`KeepsLevels`) the attempts descend (`retries_descend`): they leave out no priority, and the
request moves on when its group has been swept.  A plan that retries on failure moves on after one
attempt. -/

namespace MaxApi.Relay

open Channels Relational

/-! ### Lists of attempts -/

/-- Every attempt is related to those before it. -/
def EachAfter {α : Type} (P : List α → α → Prop) (l : List α) : Prop :=
  ∀ before a rest, l = before ++ a :: rest → P before a

theorem eachAfter_nil {α : Type} {P : List α → α → Prop} : EachAfter P [] := by
  intro before a rest h
  simp at h

/-- Appending an element adds one condition. -/
theorem EachAfter.snoc {α : Type} {P : List α → α → Prop} {l : List α} {a : α}
    (h : EachAfter P l) (ha : P l a) : EachAfter P (l ++ [a]) := by
  intro before b rest heq
  rcases List.eq_nil_or_concat rest with rfl | ⟨rest', c, rfl⟩
  · obtain ⟨rfl, hb⟩ := List.append_inj' heq rfl
    obtain rfl : a = b := by simpa using hb
    exact ha
  · have hassoc : l ++ [a] = (before ++ b :: rest') ++ [c] := by
      rw [heq]
      simp
    obtain ⟨hl, _⟩ := List.append_inj' hassoc rfl
    exact h before b rest' hl

theorem EachAfter.get {α : Type} {P : List α → α → Prop} {l : List α} (h : EachAfter P l) {n : ℕ}
    {a : α} (ha : l[n]? = some a) : P (l.take n) a := by
  obtain ⟨hn, hget⟩ := List.getElem?_eq_some_iff.mp ha
  refine h (l.take n) a (l.drop (n + 1)) ?_
  rw [← hget, List.getElem_cons_drop, List.take_append_drop]

/-! ### Candidates in the cache -/

/-- The channels of the cache that serve a group, a model and a path. -/
def eligibleIn (cache : Cache) (model requestPath group : String) : List Channel :=
  cache.channelsIDM.rows.filter (·.id ∈ satisfiedChannels cache group model requestPath)

/-- Those that are not excluded. -/
def leftIn (cache : Cache) (model requestPath group : String) (excludedChannelIDs : List ℤ) :
    List Channel :=
  (eligibleIn cache model requestPath group).filter (·.id ∉ excludedChannelIDs)

variable {cache : Cache} {model requestPath group : String} {excludedChannelIDs : List ℤ}
variable {retry random : ℕ} {c : Channel}

theorem mem_leftIn : c ∈ leftIn cache model requestPath group excludedChannelIDs ↔
    c ∈ eligibleIn cache model requestPath group ∧ c.id ∉ excludedChannelIDs := by
  unfold leftIn
  rw [List.mem_filter, decide_eq_true_eq]

/-- The candidates of the selector are the channels that are left. -/
theorem candidates_leftIn {cs : List Channel}
    (hcs : cachedChannels cache ((satisfiedChannels cache group model requestPath).filter
      (· ∉ excludedChannelIDs)) = .ok cs) (c : Channel) :
    c ∈ cs ↔ c ∈ leftIn cache model requestPath group excludedChannelIDs := by
  rw [cachedChannels_mem hcs, mem_leftIn, List.mem_filter, decide_eq_true_eq]
  unfold eligibleIn
  rw [List.mem_filter, decide_eq_true_eq, and_assoc]
  exact Iff.rfl

/-- The selector returns a channel of the level of the retry. -/
theorem selected_leftIn (h : getRandomSatisfiedChannelExcluding cache group model retry requestPath
    excludedChannelIDs random = .ok (some c)) :
    c ∈ leftIn cache model requestPath group excludedChannelIDs ∧
      retryLevel (leftIn cache model requestPath group excludedChannelIDs) retry =
        some c.getPriority := by
  unfold getRandomSatisfiedChannelExcluding at h
  dsimp only at h
  split at h
  · cases h
  · next cs hcs =>
    have hsame := candidates_leftIn hcs
    have hne : cs ≠ [] := List.ne_nil_of_mem (drawCandidate_mem h)
    obtain ⟨d, hd, hreturned⟩ := drawCandidate_sound hne retry random
    rw [h] at hreturned
    obtain rfl : c = d := Option.some.inj hreturned
    obtain ⟨hmem, hlevel⟩ := mem_atLevel.mp hd
    refine ⟨(hsame c).mp hmem, ?_⟩
    rw [← retryLevel_congr hsame]
    exact hlevel.symm

/-- The selector returns no channel only when none is left. -/
theorem exhausted_leftIn (h : getRandomSatisfiedChannelExcluding cache group model retry requestPath
    excludedChannelIDs random = .ok none) :
    leftIn cache model requestPath group excludedChannelIDs = [] := by
  unfold getRandomSatisfiedChannelExcluding at h
  dsimp only at h
  split at h
  · cases h
  · next cs hcs =>
    have hnil : cs = [] := by
      by_contra hne
      obtain ⟨d, _, hreturned⟩ := drawCandidate_sound hne retry random
      rw [h] at hreturned
      cases hreturned
    rw [List.eq_nil_iff_forall_not_mem]
    intro c hc
    have hmem := (candidates_leftIn hcs c).mpr hc
    rw [hnil] at hmem
    exact List.not_mem_nil hmem

/-! ### Levels tried -/

/-- A channel of the group of the given priority has been attempted. -/
def Tried (cache : Cache) (model requestPath group : String) (attempts : List Attempt) (p : ℤ) :
    Prop :=
  ∃ c ∈ eligibleIn cache model requestPath group, c.getPriority = p ∧
    ∃ b ∈ attempts, b.channel.id = c.id

instance {cache : Cache} {model requestPath group : String} {attempts : List Attempt} {p : ℤ} :
    Decidable (Tried cache model requestPath group attempts p) := by
  unfold Tried
  infer_instance

/-- The priorities of a group. -/
def levelsIn (cache : Cache) (model requestPath group : String) : List ℤ :=
  Ranked.levels ((eligibleIn cache model requestPath group).map Channel.getPriority)

/-- The first `n` priorities of a group have been tried. -/
def Swept (cache : Cache) (model requestPath group : String) (attempts : List Attempt) (n : ℕ) :
    Prop :=
  ∀ p ∈ (levelsIn cache model requestPath group).take n,
    Tried cache model requestPath group attempts p

instance {cache : Cache} {model requestPath group : String} {attempts : List Attempt} {n : ℕ} :
    Decidable (Swept cache model requestPath group attempts n) := by
  unfold Swept
  infer_instance

/-- Every higher priority of the group of an attempt has been tried before. -/
def Descends (cache : Cache) (model requestPath : String) (before : List Attempt) (a : Attempt) :
    Prop :=
  ∀ c ∈ eligibleIn cache model requestPath a.group, a.channel.getPriority < c.getPriority →
    Tried cache model requestPath a.group before c.getPriority

instance {cache : Cache} {model requestPath : String} {before : List Attempt} {a : Attempt} :
    Decidable (Descends cache model requestPath before a) := by
  unfold Descends
  infer_instance

/-- The groups between an earlier attempt and a later one have been swept, as far as the retries
of one group allow. -/
def SweepsGroups (r : Request) (cache : Cache) (model requestPath : String) (before : List Attempt)
    (a : Attempt) : Prop :=
  ∀ b ∈ before, ∀ i < a.groupIndex, b.groupIndex ≤ i → ∀ g ∈ r.route.groups[i]?,
    Swept cache model requestPath g before (r.setting.RetryTimes + 1)

instance {r : Request} {cache : Cache} {model requestPath : String} {before : List Attempt}
    {a : Attempt} : Decidable (SweepsGroups r cache model requestPath before a) := by
  unfold SweepsGroups
  infer_instance

/-- The attempts go to different groups, but in the last group of the route. -/
def OnePerGroup (groups : List String) (before : List Attempt) (a : Attempt) : Prop :=
  ∀ b ∈ before, b.groupIndex < a.groupIndex ∨ a.groupIndex + 1 = groups.length

/-- A further retry in a group finds a channel left of every priority of the group, unless all its
priorities but the lowest have been tried. -/
def KeepsLevels (r : Request) (cache : Cache) (model requestPath : String) (s : RetryLoop) : Prop :=
  s.first.isNone → 0 < r.priorityRetry s.param →
    ∀ g ∈ r.route.groups[r.nextGroup s.param]?,
      (∀ c ∈ eligibleIn cache model requestPath g, ∃ d ∈ leftIn cache model requestPath g
        s.param.excludedChannelIDs, d.getPriority = c.getPriority) ∨
      ∀ p ∈ (levelsIn cache model requestPath g).dropLast,
        Tried cache model requestPath g s.attempts p

instance {r : Request} {cache : Cache} {model requestPath : String} {s : RetryLoop} :
    Decidable (KeepsLevels r cache model requestPath s) := by
  unfold KeepsLevels
  infer_instance

variable {attempts : List Attempt} {a : Attempt} {p : ℤ}

theorem Tried.mono {attempts' : List Attempt} (h : Tried cache model requestPath group attempts p)
    (hsub : attempts ⊆ attempts') : Tried cache model requestPath group attempts' p := by
  obtain ⟨c, hc, hp, b, hb, hid⟩ := h
  exact ⟨c, hc, hp, b, hsub hb, hid⟩

theorem Swept.mono {attempts' : List Attempt} {m n : ℕ}
    (h : Swept cache model requestPath group attempts n) (hsub : attempts ⊆ attempts')
    (hmn : m ≤ n) : Swept cache model requestPath group attempts' m := by
  intro p hp
  exact (h p (List.take_subset_take_left _ hmn hp)).mono hsub

/-- The excluded channels have been attempted. -/
def ExcludedTried (attempts : List Attempt) (excluded : List ℤ) : Prop :=
  ∀ id ∈ excluded, ∃ b ∈ attempts, b.channel.id = id

/-- The priority of an excluded channel has been tried. -/
theorem ExcludedTried.tried (h : ExcludedTried attempts excludedChannelIDs)
    (hc : c ∈ eligibleIn cache model requestPath group) (hid : c.id ∈ excludedChannelIDs) :
    Tried cache model requestPath group attempts c.getPriority :=
  ⟨c, hc, rfl, h c.id hid⟩

/-- When no channel is left, every priority has been tried. -/
theorem ExcludedTried.swept (h : ExcludedTried attempts excludedChannelIDs)
    (hnil : leftIn cache model requestPath group excludedChannelIDs = []) (n : ℕ) :
    Swept cache model requestPath group attempts n := by
  intro p hp
  obtain ⟨c, hc, rfl⟩ := List.mem_map.mp (Ranked.mem_levels.mp (List.mem_of_mem_take hp))
  refine h.tried hc ?_
  by_contra hid
  have hleft := mem_leftIn.mpr ⟨hc, hid⟩
  rw [hnil] at hleft
  exact List.not_mem_nil hleft

/-- Where every priority has a channel left, the levels left are those of the group. -/
theorem levels_leftIn (h : ∀ c ∈ eligibleIn cache model requestPath group, ∃ d ∈ leftIn cache model
    requestPath group excludedChannelIDs, d.getPriority = c.getPriority) :
    Ranked.levels ((leftIn cache model requestPath group excludedChannelIDs).map
      Channel.getPriority) = levelsIn cache model requestPath group := by
  refine Ranked.levels_congr fun p => ?_
  rw [List.mem_map, List.mem_map]
  constructor
  · rintro ⟨c, hc, rfl⟩
    exact ⟨c, (mem_leftIn.mp hc).1, rfl⟩
  · rintro ⟨c, hc, rfl⟩
    exact h c hc

/-- The first attempt in a group descends. -/
theorem ExcludedTried.descends_zero (h : ExcludedTried attempts excludedChannelIDs)
    (hlevel : retryLevel (leftIn cache model requestPath a.group excludedChannelIDs) 0 =
      some a.channel.getPriority) : Descends cache model requestPath attempts a := by
  intro c hc hlt
  refine h.tried hc ?_
  by_contra hid
  have hleft := mem_leftIn.mpr ⟨hc, hid⟩
  have hmem := Ranked.mem_take_of_lt hlevel (List.mem_map_of_mem hleft) hlt
  rw [Nat.zero_min] at hmem
  exact List.not_mem_nil hmem

/-- A further attempt in a group descends, where no priority has been emptied. -/
theorem ExcludedTried.descends_kept
    (hkept : ∀ c ∈ eligibleIn cache model requestPath a.group, ∃ d ∈ leftIn cache model
      requestPath a.group excludedChannelIDs, d.getPriority = c.getPriority)
    (hlevel : retryLevel (leftIn cache model requestPath a.group excludedChannelIDs) retry =
      some a.channel.getPriority)
    (hswept : Swept cache model requestPath a.group attempts retry) :
    Descends cache model requestPath attempts a := by
  intro c hc hlt
  obtain ⟨d, hd, hdc⟩ := hkept c hc
  have hmem := Ranked.mem_take_of_lt hlevel (List.mem_map_of_mem hd) (hdc ▸ hlt)
  rw [levels_leftIn hkept, hdc] at hmem
  exact hswept _ (List.take_subset_take_left _ (Nat.min_le_left _ _) hmem)

/-- An attempt descends where all priorities but the lowest have been tried. -/
theorem descends_last (hrow : a.channel ∈ eligibleIn cache model requestPath a.group)
    (hlast : ∀ p ∈ (levelsIn cache model requestPath a.group).dropLast,
      Tried cache model requestPath a.group attempts p) :
    Descends cache model requestPath attempts a := by
  intro c hc hlt
  refine hlast _ ?_
  obtain ⟨i, hi⟩ := List.mem_iff_getElem?.mp
    (Ranked.mem_levels.mpr (List.mem_map_of_mem (f := Channel.getPriority) hc))
  obtain ⟨j, hj⟩ := List.mem_iff_getElem?.mp
    (Ranked.mem_levels.mpr (List.mem_map_of_mem (f := Channel.getPriority) hrow))
  have hij := Ranked.index_lt (Ranked.levels_pairwise _) hi hj hlt
  have hjlen := (List.getElem?_eq_some_iff.mp hj).1
  rw [List.dropLast_eq_take]
  exact Ranked.mem_take hi (show i < (levelsIn cache model requestPath a.group).length - 1 by
    unfold levelsIn
    omega)

/-- After an attempt that descends, the group is swept up to the number of its retry. -/
theorem ExcludedTried.swept_succ (h : ExcludedTried attempts excludedChannelIDs)
    (hmem : a.channel ∈ leftIn cache model requestPath a.group excludedChannelIDs)
    (hlevel : retryLevel (leftIn cache model requestPath a.group excludedChannelIDs) retry =
      some a.channel.getPriority)
    (hdesc : Descends cache model requestPath attempts a) :
    Swept cache model requestPath a.group (attempts ++ [a]) (retry + 1) := by
  intro p hp
  obtain ⟨c, hc, rfl⟩ := List.mem_map.mp (Ranked.mem_levels.mp (List.mem_of_mem_take hp))
  have hsub : attempts ⊆ attempts ++ [a] := List.subset_append_left _ _
  rcases lt_trichotomy a.channel.getPriority c.getPriority with hlt | heq | hgt
  · exact (hdesc c hc hlt).mono hsub
  · exact ⟨a.channel, (mem_leftIn.mp hmem).1, heq, a,
      List.mem_append_right _ (List.mem_singleton_self a), rfl⟩
  · by_cases hid : c.id ∈ excludedChannelIDs
    · exact (h.tried hc hid).mono hsub
    · exfalso
      have hleft := mem_leftIn.mpr ⟨hc, hid⟩
      refine Ranked.not_mem_take_of_lt ?_ hlevel (List.mem_map_of_mem hleft) hgt hp
      intro q hq
      obtain ⟨d, hd, rfl⟩ := List.mem_map.mp hq
      exact List.mem_map_of_mem (mem_leftIn.mp hd).1

/-! ### The invariant -/

/-- A turn over a fixed cache. -/
structure CachedTurn where
  random : ℕ
  setup : Bool
  outcome : Outcome

/-- The turn, with the selector over the cache. -/
def CachedTurn.turn (cache : Cache) (hpos : ∀ c ∈ cache.channelsIDM, 0 < c.id)
    (model requestPath : String) (t : CachedTurn) : Turn :=
  ⟨cacheSelector cache hpos model requestPath t.random, t.setup, t.outcome⟩

/-- A turn of the loop over a fixed cache. -/
def Request.cachedTurn (r : Request) (cache : Cache) (hpos : ∀ c ∈ cache.channelsIDM, 0 < c.id)
    (model requestPath : String) (s : RetryLoop) (t : CachedTurn) : RetryLoop :=
  r.turn false s (t.turn cache hpos model requestPath)

/-- The attempts descend. -/
structure Descending (r : Request) (cache : Cache) (model requestPath : String)
    (attempts : List Attempt) : Prop where
  /-- No priority is left out. -/
  each : EachAfter (Descends cache model requestPath) attempts
  /-- A group is swept before the request moves on. -/
  sweeps : (∀ groups, r.route ≠ .plan groups true) →
    EachAfter (SweepsGroups r cache model requestPath) attempts
  /-- A plan that retries on failure moves on after each attempt. -/
  alone : ∀ groups, r.route = .plan groups true → EachAfter (OnePerGroup groups) attempts

/-- What holds when the next selection starts with `p`. -/
structure Ready (r : Request) (cache : Cache) (model requestPath : String)
    (attempts : List Attempt) (p : RetryParam) : Prop where
  reset : p.resetNextTry = false
  tried : ExcludedTried attempts p.excludedChannelIDs
  swept : p.retry ≤ r.setting.RetryTimes → ∀ g, r.route.groups[r.nextGroup p]? = some g →
    Swept cache model requestPath g attempts (r.priorityRetry p)
  behind : (∀ groups, r.route ≠ .plan groups true) → ∀ b ∈ attempts, ∀ i, b.groupIndex ≤ i →
    i < r.nextGroup p → ∀ g, r.route.groups[i]? = some g →
      Swept cache model requestPath g attempts (r.setting.RetryTimes + 1)
  alone : ∀ groups, r.route = .plan groups true → ∀ b ∈ attempts,
    b.groupIndex < r.nextGroup p ∨ r.nextGroup p + 1 = groups.length

/-- What holds of a selected channel, when the counter has been left at `p`. -/
structure Chosen (r : Request) (cache : Cache) (model requestPath : String)
    (attempts : List Attempt) (p : RetryParam) (a : Attempt) : Prop where
  row : a.channel ∈ cache.channelsIDM
  descends : Descends cache model requestPath attempts a
  sweeps : (∀ groups, r.route ≠ .plan groups true) →
    SweepsGroups r cache model requestPath attempts a
  alone : ∀ groups, r.route = .plan groups true → OnePerGroup groups attempts a
  /-- The next selection is ready, once the channel is excluded. -/
  ready : Ready r cache model requestPath (attempts ++ [a])
    (p.excludeChannel a.channel.id).increaseRetry

/-- The invariant of the loop. -/
def DescendInv (r : Request) (cache : Cache) (model requestPath : String) (s : RetryLoop) : Prop :=
  Descending r cache model requestPath s.attempts ∧ (s.ended = false →
    match s.first with
    | some a => Chosen r cache model requestPath s.attempts s.param a
    | none => Ready r cache model requestPath s.attempts s.param)

variable {r : Request} {hpos : ∀ c ∈ cache.channelsIDM, 0 < c.id} {s : RetryLoop}
variable {param param' : RetryParam}

theorem Descending.snoc (h : Descending r cache model requestPath attempts)
    (hc : Chosen r cache model requestPath attempts param a) :
    Descending r cache model requestPath (attempts ++ [a]) where
  each := h.each.snoc hc.descends
  sweeps hroute := (h.sweeps hroute).snoc (hc.sweeps hroute)
  alone groups hroute := (h.alone groups hroute).snoc (hc.alone groups hroute)

/-- An attempted channel can be excluded. -/
theorem ExcludedTried.snoc (h : ExcludedTried attempts excludedChannelIDs) :
    ExcludedTried (attempts ++ [a]) (a.channel.id :: excludedChannelIDs) := by
  intro id hid
  rcases List.mem_cons.mp hid with rfl | hid
  · exact ⟨a, List.mem_append_right _ (List.mem_singleton_self a), rfl⟩
  · obtain ⟨b, hb, hbid⟩ := h id hid
    exact ⟨b, List.mem_append_left _ hb, hbid⟩

/-- What a selection over the cache finds, where a further retry keeps its levels. -/
theorem Ready.descends (h : Ready r cache model requestPath s.attempts s.param)
    (hp : s.param.retry ≤ r.setting.RetryTimes) (hfirst : s.first = none)
    (hkeeps : KeepsLevels r cache model requestPath s)
    (hsel : Selects r (cacheSelector cache hpos model requestPath random) s.param a param') :
    Descends cache model requestPath s.attempts a := by
  obtain ⟨hleft, hlevel⟩ := selected_leftIn hsel.chosen
  rw [hsel.priority] at hlevel
  by_cases hstart : a.groupIndex = r.nextGroup s.param
  · rw [if_pos hstart] at hlevel
    have hgroup : r.route.groups[r.nextGroup s.param]? = some a.group := by
      rw [← hstart]
      exact hsel.group
    rcases Nat.eq_zero_or_pos (r.priorityRetry s.param) with hzero | hagain
    · rw [hzero] at hlevel
      exact h.tried.descends_zero hlevel
    · rcases hkeeps (by rw [hfirst]; rfl) hagain a.group hgroup with hkept | hlast
      · exact ExcludedTried.descends_kept hkept hlevel (h.swept hp a.group hgroup)
      · exact descends_last (mem_leftIn.mp hleft).1 hlast
  · rw [if_neg hstart] at hlevel
    exact h.tried.descends_zero hlevel

/-- The groups that a selection passes have been swept. -/
theorem Ready.passed (h : Ready r cache model requestPath s.attempts s.param)
    (hsel : Selects r (cacheSelector cache hpos model requestPath random) s.param a param') {i : ℕ}
    (hi : r.nextGroup s.param ≤ i) (hia : i < a.groupIndex) {g : String}
    (hg : r.route.groups[i]? = some g) (n : ℕ) :
    Swept cache model requestPath g s.attempts n := by
  obtain ⟨m, hnone⟩ := hsel.passed i hi hia g hg
  exact h.tried.swept (exhausted_leftIn hnone) n

/-- A retry over the cache selects a channel as it should. -/
theorem Ready.chosen (h : Ready r cache model requestPath s.attempts s.param)
    (hp : s.param.retry ≤ r.setting.RetryTimes) (hfirst : s.first = none)
    (hkeeps : KeepsLevels r cache model requestPath s)
    (hsel : Selects r (cacheSelector cache hpos model requestPath random) s.param a param') :
    Chosen r cache model requestPath s.attempts param' a := by
  obtain ⟨hleft, hlevel⟩ := selected_leftIn hsel.chosen
  have hrow : a.channel ∈ cache.channelsIDM := List.mem_of_mem_filter (mem_leftIn.mp hleft).1
  have hdesc := h.descends hp hfirst hkeeps hsel
  have hsub : s.attempts ⊆ s.attempts ++ [a] := List.subset_append_left _ _
  have hsweeps : (∀ groups, r.route ≠ .plan groups true) →
      SweepsGroups r cache model requestPath s.attempts a := by
    intro hroute b hb i hia hbi g hg
    rcases Nat.lt_or_ge i (r.nextGroup s.param) with hlt | hge
    · exact h.behind hroute b hb i hbi hlt g hg
    · exact h.passed hsel hge hia hg _
  have hswept := h.tried.swept_succ hleft hlevel hdesc
  refine ⟨hrow, hdesc, hsweeps, ?_, ?_⟩
  · intro groups hroute b hb
    have hlen : a.groupIndex < groups.length := by
      have hlt := (List.getElem?_eq_some_iff.mp hsel.group).1
      rw [hroute] at hlt
      exact hlt
    have hstart := hsel.start
    rcases h.alone groups hroute b hb with hlt | hlast
    · exact .inl (by omega)
    · exact .inr (by omega)
  · rw [excludeChannel_increaseRetry _ (hpos _ hrow), hsel.excluded]
    have hnext : r.nextGroup { param'.increaseRetry with
        excludedChannelIDs := a.channel.id :: s.param.excludedChannelIDs } = r.nextGroup param' :=
      nextGroup_congr (increaseRetry_frame param').1
    refine ⟨hsel.reset, h.tried.snoc, ?_, ?_, ?_⟩
    · intro _ g hg
      rw [hnext] at hg
      show Swept cache model requestPath g _ (r.priorityRetry param'.increaseRetry)
      rw [hsel.resumes]
      split
      · next hsame =>
        rw [hsame, hsel.group] at hg
        obtain rfl := Option.some.inj hg
        exact hswept
      · intro p hp
        exact absurd hp List.not_mem_nil
    · rw [hnext]
      intro hroute b hb i hbi hi g hg
      rcases Nat.lt_or_ge i a.groupIndex with hia | hia
      · rcases List.mem_append.mp hb with hb | hb
        · exact (hsweeps hroute b hb i hia hbi g hg).mono hsub le_rfl
        · rw [List.mem_singleton.mp hb] at hbi
          omega
      · -- the request leaves the group of the attempt
        obtain ⟨hone, hleaves⟩ := hsel.leaves (by omega)
        obtain rfl : i = a.groupIndex := by omega
        rw [hsel.group] at hg
        obtain rfl := Option.some.inj hg
        rcases hleaves with hspent | ⟨groups, hplan⟩
        · exact hswept.mono (List.Subset.refl _) (by omega)
        · exact absurd hplan (hroute groups)
    · rw [hnext]
      intro groups hroute b hb
      have hlen : a.groupIndex < groups.length := by
        have hlt := (List.getElem?_eq_some_iff.mp hsel.group).1
        rw [hroute] at hlt
        exact hlt
      have hahead := hsel.ahead
      have hstart := hsel.start
      by_cases hmore : a.groupIndex + 1 < groups.length
      · have hadv := hsel.advances groups hroute hmore
        refine .inl ?_
        rcases List.mem_append.mp hb with hb | hb
        · rcases h.alone groups hroute b hb with hlt | hlast
          · omega
          · omega
        · rw [List.mem_singleton.mp hb]
          omega
      · refine .inr ?_
        rcases Nat.eq_or_lt_of_le hahead with heq | hlt
        · omega
        · have hone := (hsel.leaves (by omega)).1
          have hbound : r.nextGroup param' < groups.length := by
            unfold Request.nextGroup at hlt ⊢
            rw [hroute] at hlt ⊢
            dsimp only at hlt ⊢
            split at hlt
            · next hin =>
              rw [if_pos hin]
              exact hin
            · omega
          omega

/-! ### Runs -/

/-- A fresh counter starts the first group at its highest priority. -/
theorem priorityRetry_fresh : r.priorityRetry (.fresh none none) = 0 := by
  unfold Request.priorityRetry RetryParam.fresh
  cases r.route with
  | plan groups retryOnFailure => exact Nat.zero_sub _
  | auto groups crossGroupRetry => rfl
  | group name => rfl

theorem ready_fresh : Ready r cache model requestPath [] (.fresh none none) where
  reset := rfl
  tried _ hid := absurd hid List.not_mem_nil
  swept _ g _ p hp := by
    rw [priorityRetry_fresh, List.take_zero] at hp
    exact absurd hp List.not_mem_nil
  behind _ b hb := absurd hb List.not_mem_nil
  alone _ _ b hb := absurd hb List.not_mem_nil

/-- The relay's own counter continues where the selection of the distributor ended. -/
theorem Ready.refresh {n : ℤ} (hn : 0 < n)
    (hex : param'.excludedChannelIDs = [])
    (hcounts : (param'.resetNextTry = false ∧ param'.retry = 0) ∨
      (param'.resetNextTry = true ∧ r.setting.RetryTimes = 0))
    (h : Ready r cache model requestPath attempts (param'.excludeChannel n).increaseRetry) :
    Ready r cache model requestPath attempts ((RetryParam.fresh param'.autoGroupIndex
      param'.autoGroupRetryIndex).excludeChannel n).increaseRetry := by
  rcases hcounts with ⟨hreset, hretry⟩ | ⟨_, hnone⟩
  · have hsame : RetryParam.fresh param'.autoGroupIndex param'.autoGroupRetryIndex = param' := by
      unfold RetryParam.fresh
      rw [← hex, ← hreset, ← hretry]
    rw [hsame]
    exact h
  · rw [excludeChannel_increaseRetry _ hn] at h ⊢
    rw [increaseRetry_of_not (p := RetryParam.fresh _ _) rfl]
    rw [hex] at h
    have hnext : ∀ q : RetryParam, q.autoGroupIndex = param'.autoGroupIndex →
        r.nextGroup { param'.increaseRetry with excludedChannelIDs := [n] } = r.nextGroup q := by
      intro q hq
      exact nextGroup_congr ((increaseRetry_frame param').1.trans hq.symm)
    refine ⟨rfl, h.tried, ?_, ?_, ?_⟩
    · intro hle
      rw [hnone] at hle
      exact absurd hle (Nat.not_succ_le_zero 0)
    · have hbehind := h.behind
      rw [hnext _ rfl] at hbehind
      exact hbehind
    · have halone := h.alone
      rw [hnext _ rfl] at halone
      exact halone

/-- The loop starts with the invariant. -/
theorem start_descends (h : r.start (.selected (cacheSelector cache hpos model requestPath
    random)) = some s) : DescendInv r cache model requestPath s := by
  unfold Request.start at h
  dsimp only at h
  split at h
  · next a p hsel =>
    obtain rfl := Option.some.inj h
    have hspec := select_spec (Nat.zero_le _) rfl hsel
    have hkeeps : KeepsLevels r cache model requestPath ⟨.fresh none none, none, [], false⟩ := by
      intro _ hagain
      dsimp only at hagain
      rw [priorityRetry_fresh] at hagain
      exact absurd hagain (Nat.lt_irrefl 0)
    have hchosen := Ready.chosen (s := ⟨.fresh none none, none, [], false⟩) ready_fresh
      (Nat.zero_le _) rfl hkeeps hspec
    have hzero := hspec.zero rfl
    refine ⟨⟨eachAfter_nil, fun _ => eachAfter_nil, fun _ _ => eachAfter_nil⟩, fun _ => ?_⟩
    refine ⟨hchosen.row, hchosen.descends, hchosen.sweeps, hchosen.alone, ?_⟩
    refine hchosen.ready.refresh (hpos _ hchosen.row) hspec.excluded ?_
    rcases hspec.counts with ⟨hreset, hretry⟩ | ⟨hreset, hspent⟩
    · exact .inl ⟨hreset, hretry.trans hzero⟩
    · rw [hzero] at hspent
      exact .inr ⟨hreset, Nat.le_zero.mp hspent⟩
  · cases h

/-- An attempt keeps the invariant. -/
theorem Chosen.attempt (h : Descending r cache model requestPath s.attempts)
    (hc : Chosen r cache model requestPath s.attempts s.param a) (outcome : Outcome) :
    DescendInv r cache model requestPath (r.attempt false s a outcome) := by
  have hsnoc := h.snoc hc
  unfold Request.attempt
  dsimp only
  cases outcome with
  | success => exact ⟨hsnoc, fun h => by cases h⟩
  | stopped => exact ⟨hsnoc, fun h => by cases h⟩
  | failed e =>
      dsimp only
      split
      · exact ⟨hsnoc, fun _ => hc.ready⟩
      · exact ⟨hsnoc, fun h => by cases h⟩

/-- A turn whose retry keeps its levels keeps the invariant. -/
theorem turn_descends (t : CachedTurn) (hkeeps : KeepsLevels r cache model requestPath s)
    (h : DescendInv r cache model requestPath s) :
    DescendInv r cache model requestPath (r.cachedTurn cache hpos model requestPath s t) := by
  obtain ⟨hdesc, hgoing⟩ := h
  unfold Request.cachedTurn Request.turn
  cases hended : s.ended with
  | true =>
      rw [if_pos rfl]
      exact ⟨hdesc, hgoing⟩
  | false =>
      have hstate := hgoing hended
      rw [if_neg (by decide)]
      by_cases hp : r.setting.RetryTimes < s.param.retry
      · rw [if_pos hp]
        exact ⟨hdesc, fun h => by cases h⟩
      · rw [if_neg hp]
        cases hfirst : s.first with
        | some a =>
            rw [hfirst] at hstate
            exact Chosen.attempt hdesc hstate t.outcome
        | none =>
            rw [hfirst] at hstate
            dsimp only at hstate ⊢
            have hp' : s.param.retry ≤ r.setting.RetryTimes := Nat.le_of_not_lt hp
            cases hsel : cacheGetRandomSatisfiedChannel r.setting.RetryTimes r.route
                (t.turn cache hpos model requestPath).select s.param with
            | mk found p' =>
                cases found with
                | error e => exact ⟨hdesc, fun h => by cases h⟩
                | ok found =>
                    cases found with
                    | none => exact ⟨hdesc, fun h => by cases h⟩
                    | some a =>
                        dsimp only
                        have hspec : Selects r (cacheSelector cache hpos model requestPath
                            t.random) s.param a p' := select_spec hp' hstate.reset hsel
                        have hchosen := hstate.chosen hp' hfirst hkeeps hspec
                        split
                        · exact Chosen.attempt (s := ⟨p', none, s.attempts, false⟩) hdesc hchosen
                            t.outcome
                        · exact ⟨hdesc, fun h => by cases h⟩

/-- The loop over a fixed cache: the distributor's selection, then the turns. -/
def Request.cachedRun (r : Request) (cache : Cache) (hpos : ∀ c ∈ cache.channelsIDM, 0 < c.id)
    (model requestPath : String) (s : RetryLoop) (turns : List CachedTurn) : RetryLoop :=
  Transition.run (r.cachedTurn cache hpos model requestPath) s turns

/-- **Retries descend the priorities**, in every run over a fixed cache in which no further retry
starts in a group that has lost a priority while another one than its lowest is untried. -/
theorem retries_descend (r : Request) (cache : Cache) (hpos : ∀ c ∈ cache.channelsIDM, 0 < c.id)
    (model requestPath : String) (random : ℕ) (s : RetryLoop)
    (hs : r.start (.selected (cacheSelector cache hpos model requestPath random)) = some s)
    (turns : List CachedTurn)
    (h : Transition.Throughout (r.cachedTurn cache hpos model requestPath)
      (fun s _ => KeepsLevels r cache model requestPath s) s turns) :
    Descending r cache model requestPath
      (r.cachedRun cache hpos model requestPath s turns).attempts := by
  have hinv := Transition.throughout_invariant (r.cachedTurn cache hpos model requestPath)
    (I := DescendInv r cache model requestPath) (fun _ t hk hi => turn_descends t hk hi) turns s h
    (start_descends hs)
  exact hinv.1

/-! ### Three requests -/

/-- Channels with the given priorities, numbered from `id` on. -/
def channelsFrom (id : ℤ) (priorities : List ℤ) : List Channel :=
  priorities.mapIdx fun i p => { channelOf (id + i) with priority := some p }

/-- Groups `a` and `b` with channels of the given priorities. -/
def cacheOf (a b : List ℤ) : Cache :=
  let inA := channelsFrom 1 a
  let inB := channelsFrom (1 + a.length) b
  let models : List Channel → Dict (List ℤ) := fun channels =>
    (∅ : Dict (List ℤ)).insert "m" (channels.map (·.id))
  { group2model2channels := ((∅ : Lists).insert "a" (models inA)).insert "b" (models inB)
    channelsIDM := (inA ++ inB).foldl Table.insert .empty
    channel2advancedCustomConfig := fun _ => none }

theorem mem_foldl_insert : ∀ {l : List Channel} {t : Table Channel} {c : Channel},
    c ∈ l.foldl Table.insert t → c ∈ t ∨ c ∈ l
  | [], _, _, h => .inl h
  | d :: l, t, c, h => by
      rcases mem_foldl_insert (l := l) h with hins | hl
      · rcases Table.mem_insert hins with ht | ⟨rfl, _⟩
        · exact .inl ht
        · exact .inr List.mem_cons_self
      · exact .inr (List.mem_cons_of_mem d hl)

theorem channelsFrom_positive {id : ℤ} (hid : 0 < id) {priorities : List ℤ} {c : Channel}
    (hc : c ∈ channelsFrom id priorities) : 0 < c.id := by
  obtain ⟨i, hi, rfl⟩ := List.mem_mapIdx.mp hc
  show 0 < id + (i : ℤ)
  omega

theorem cacheOf_positive (a b : List ℤ) : ∀ c ∈ (cacheOf a b).channelsIDM, 0 < c.id := by
  intro c hc
  rcases mem_foldl_insert hc with hempty | hl
  · exact absurd hempty List.not_mem_nil
  · rcases List.mem_append.mp hl with ha | hb
    · exact channelsFrom_positive (by decide) ha
    · exact channelsFrom_positive (by omega) hb

/-- The upstream answers with status 500. -/
def failsWith (random : ℕ) : CachedTurn :=
  ⟨random, true, .failed ⟨"bad_response_status_code", 500, false⟩⟩

/-- A request on group `a`. -/
def groupRequest : Request := requestOn (.group "a") (List.cons_ne_nil _ _)

/-- A request on a plan that retries on failure. -/
def planRequest : Request := requestOn (.plan ["a", "b"] true) bothGroups_ne_nil

/-- Two channels of priority 3, one of 2 and one of 1 are swept. -/
theorem retries_descend_ladder :
    ∃ s, groupRequest.start (.selected (cacheSelector (cacheOf [3, 3, 2, 1] [])
        (cacheOf_positive _ _) "m" "" 0)) = some s ∧
      Descending groupRequest (cacheOf [3, 3, 2, 1] []) "m" "" (groupRequest.cachedRun
        (cacheOf [3, 3, 2, 1] []) (cacheOf_positive _ _) "m" "" s
          (List.replicate 4 (failsWith 0))).attempts := by
  have hstart : ((groupRequest.start (.selected (cacheSelector (cacheOf [3, 3, 2, 1] [])
      (cacheOf_positive _ _) "m" "" 0))).map fun s => decide (Transition.Throughout
        (groupRequest.cachedTurn (cacheOf [3, 3, 2, 1] []) (cacheOf_positive _ _) "m" "")
        (fun s _ => KeepsLevels groupRequest (cacheOf [3, 3, 2, 1] []) "m" "" s) s
          (List.replicate 4 (failsWith 0)))) = some true := by
    decide +kernel
  obtain ⟨s, hs, hrun⟩ := Option.map_eq_some_iff.mp hstart
  exact ⟨s, hs, retries_descend groupRequest (cacheOf [3, 3, 2, 1] []) (cacheOf_positive _ _) "m"
    "" 0 s hs (List.replicate 4 (failsWith 0)) (of_decide_eq_true hrun)⟩

/-- The attempts of a request over the cache when `n` turns fail. -/
def Request.attemptsOver (r : Request) (a b : List ℤ) (n : ℕ) : List Attempt :=
  match r.start (.selected (cacheSelector (cacheOf a b) (cacheOf_positive a b) "m" "" 0)) with
  | none => []
  | some s => (r.cachedRun (cacheOf a b) (cacheOf_positive a b) "m" "" s
      (List.replicate n (failsWith 0))).attempts

/-- With one channel of each priority, the first retry passes over priority 2; and a plan that
retries on failure leaves priority 1 of its first group. -/
theorem retries_skip :
    ¬ EachAfter (Descends (cacheOf [3, 2, 1] []) "m" "")
        (groupRequest.attemptsOver [3, 2, 1] [] 2) ∧
      ¬ EachAfter (SweepsGroups planRequest (cacheOf [2, 1] [1]) "m" "")
        (planRequest.attemptsOver [2, 1] [1] 2) := by
  refine ⟨fun h => ?_, fun h => ?_⟩
  · have hsecond : (groupRequest.attemptsOver [3, 2, 1] [] 2)[1]?.map (fun a => decide (Descends
        (cacheOf [3, 2, 1] []) "m" "" ((groupRequest.attemptsOver [3, 2, 1] [] 2).take 1) a)) =
        some false := by
      decide +kernel
    obtain ⟨a, ha, hnot⟩ := Option.map_eq_some_iff.mp hsecond
    exact absurd (h.get ha) (of_decide_eq_false hnot)
  · have hsecond : (planRequest.attemptsOver [2, 1] [1] 2)[1]?.map (fun a => decide (SweepsGroups
        planRequest (cacheOf [2, 1] [1]) "m" "" ((planRequest.attemptsOver [2, 1] [1] 2).take 1)
          a)) = some false := by
      decide +kernel
    obtain ⟨a, ha, hnot⟩ := Option.map_eq_some_iff.mp hsecond
    exact absurd (h.get ha) (of_decide_eq_false hnot)

end MaxApi.Relay
