import MaxApi.Relay.Retry
import Mathlib.Data.List.Nodup

/-! # Relay: what the token permits

The attempts of a request go through the groups of its route in order and through the values of the
retry counter within each group, so that their positions increase (`position`).  What one selection
does with the counter and the group index is `select_spec`; the other limits follow from it by one
invariant of the loop.

There are three ways out of the limits: an affinity that starts in the middle of an auto route, an
auto route that moves on although the token does not allow it, and an error of the channel of a
pinned request. -/

namespace MaxApi.Relay

open Channels

/-! ### One selection -/

theorem autoLoop_spec (retryTimes : ℕ) (crossGroupRetry : Bool) (select : Selector) :
    ∀ (groups : List String) (i : ℕ) (p : RetryParam) (a : Attempt) (p' : RetryParam),
      autoLoop retryTimes crossGroupRetry select groups i p = (.ok (some a), p') →
      ∃ j, a.groupIndex = i + j ∧ groups[j]? = some a.group ∧
        a.retry = (if j = 0 then p.retry else 0) ∧ a.priorityRetry = a.retry ∧
        select.choose a.group a.retry p.excludedChannelIDs = .ok (some a.channel) ∧
        (∀ k, k < j → ∀ g, groups[k]? = some g →
          select.choose g (if k = 0 then p.retry else 0) p.excludedChannelIDs = .ok none) ∧
        p'.excludedChannelIDs = p.excludedChannelIDs ∧
        (crossGroupRetry ∧ retryTimes ≤ a.retry → p'.autoGroupIndex = some (i + j + 1) ∧
          p'.retry = 0 ∧ p'.resetNextTry = true) ∧
        (¬ (crossGroupRetry ∧ retryTimes ≤ a.retry) → p'.autoGroupIndex = some (i + j) ∧
          p'.retry = a.retry ∧ p'.resetNextTry = p.resetNextTry)
  | [], i, p, a, p', h => by
      simp [autoLoop] at h
  | group :: groups, i, p, a, p', h => by
      unfold autoLoop at h
      cases hchoose : select.choose group p.retry p.excludedChannelIDs with
      | error e => simp [hchoose] at h
      | ok found =>
          cases found with
          | some c =>
              simp only [hchoose, Prod.mk.injEq, Except.ok.injEq, Option.some.injEq] at h
              obtain ⟨rfl, rfl⟩ := h
              refine ⟨0, rfl, rfl, rfl, rfl, hchoose, fun k hk => absurd hk (Nat.not_lt_zero k),
                ?_, ?_, ?_⟩
              · split
                · rfl
                · rfl
              · intro hcross
                rw [if_pos hcross]
                exact ⟨rfl, rfl, rfl⟩
              · intro hcross
                rw [if_neg hcross]
                exact ⟨rfl, rfl, rfl⟩
          | none =>
              simp only [hchoose] at h
              obtain ⟨j, hj, hgroup, hretry, hprio, hchosen, hpassed, hex, hcross, hstay⟩ :=
                autoLoop_spec retryTimes crossGroupRetry select groups (i + 1) _ a p' h
              have hzero : a.retry = 0 := by
                rw [hretry]
                split
                · rfl
                · rfl
              refine ⟨j + 1, by omega, hgroup, by simpa using hzero, hprio, hchosen, ?_, hex,
                ?_, ?_⟩
              · intro k hk g hg
                cases k with
                | zero =>
                    obtain rfl : group = g := by simpa using hg
                    exact hchoose
                | succ k =>
                    have hpass := hpassed k (by omega) g (by simpa using hg)
                    simpa using hpass
              · intro hc
                rw [show i + (j + 1) + 1 = i + 1 + j + 1 by omega]
                exact hcross hc
              · intro hc
                rw [show i + (j + 1) = i + 1 + j by omega]
                exact hstay hc

theorem planLoop_spec (retryOnFailure : Bool) (select : Selector) :
    ∀ (groups : List String) (i groupStartRetry : ℕ) (p : RetryParam) (a : Attempt)
      (p' : RetryParam), groupStartRetry ≤ p.retry →
      planLoop retryOnFailure select groups i groupStartRetry p = (.ok (some a), p') →
      ∃ j, a.groupIndex = i + j ∧ groups[j]? = some a.group ∧ a.retry = p.retry ∧
        a.priorityRetry = (if j = 0 then p.retry - groupStartRetry else 0) ∧
        select.choose a.group a.priorityRetry p.excludedChannelIDs = .ok (some a.channel) ∧
        (∀ k, k < j → ∀ g, groups[k]? = some g →
          ∃ n, select.choose g n p.excludedChannelIDs = .ok none) ∧
        (j ≠ 0 → p.retry = 0 ∨ retryOnFailure = true) ∧
        p'.excludedChannelIDs = p.excludedChannelIDs ∧ p'.retry = p.retry ∧
        p'.resetNextTry = p.resetNextTry ∧
        (retryOnFailure ∧ j + 1 < groups.length → p'.autoGroupIndex = some (i + j + 1) ∧
          p'.autoGroupRetryIndex = some (p.retry + 1)) ∧
        (¬ (retryOnFailure ∧ j + 1 < groups.length) → p'.autoGroupIndex = some (i + j) ∧
          p'.autoGroupRetryIndex = some (p.retry - a.priorityRetry))
  | [], i, start, p, a, p', _, h => by
      simp [planLoop] at h
  | group :: groups, i, start, p, a, p', hstart, h => by
      unfold planLoop at h
      cases hchoose : select.choose group (p.retry - start) p.excludedChannelIDs with
      | error e => simp [hchoose] at h
      | ok found =>
          cases found with
          | some c =>
              simp only [hchoose, Prod.mk.injEq, Except.ok.injEq, Option.some.injEq] at h
              obtain ⟨rfl, rfl⟩ := h
              have hlast : 0 + 1 < (group :: groups).length ↔ groups ≠ [] := by
                rw [List.length_cons, ← List.length_pos_iff]
                omega
              refine ⟨0, rfl, rfl, rfl, rfl, hchoose, fun k hk => absurd hk (Nat.not_lt_zero k),
                fun h => absurd rfl h, ?_, ?_, ?_, ?_, ?_⟩
              · split
                · rfl
                · rfl
              · split
                · rfl
                · rfl
              · split
                · rfl
                · rfl
              · rintro ⟨hretry, hlen⟩
                rw [if_pos ⟨hretry, hlast.mp hlen⟩]
                exact ⟨rfl, rfl⟩
              · intro hnot
                rw [if_neg fun hboth => hnot ⟨hboth.1, hlast.mpr hboth.2⟩]
                refine ⟨rfl, ?_⟩
                show some start = some (p.retry - (p.retry - start))
                rw [Nat.sub_sub_self hstart]
          | none =>
              simp only [hchoose] at h
              split at h
              · simp at h
              · next hgo =>
                obtain ⟨j, hj, hgroup, hretry, hprio, hchosen, hpassed, hmoved, hex, hr, hreset,
                  hnext, hstay⟩ := planLoop_spec retryOnFailure select groups (i + 1) p.retry
                    { p with
                      autoGroupIndex := some (i + 1), autoGroupRetryIndex := some p.retry }
                    a p' (Nat.le_refl p.retry) h
                have hzero : a.priorityRetry = 0 := by
                  rw [hprio]
                  split
                  · exact Nat.sub_self _
                  · rfl
                have hlen : j + 1 + 1 < (group :: groups).length ↔ j + 1 < groups.length := by
                  rw [List.length_cons]
                  omega
                refine ⟨j + 1, by omega, hgroup, hretry, by simpa using hzero, hchosen, ?_, ?_, hex,
                  hr, hreset, ?_, ?_⟩
                · intro k hk g hg
                  cases k with
                  | zero =>
                      obtain rfl : group = g := by simpa using hg
                      exact ⟨_, hchoose⟩
                  | succ k => exact hpassed k (by omega) g (by simpa using hg)
                · intro _
                  by_cases hp : p.retry = 0
                  · exact .inl hp
                  · refine .inr ?_
                    by_contra hnot
                    exact hgo ⟨Nat.pos_of_ne_zero hp, by simpa using hnot⟩
                · rintro ⟨hrof, hl⟩
                  rw [show i + (j + 1) + 1 = i + 1 + j + 1 by omega]
                  exact hnext ⟨hrof, hlen.mp hl⟩
                · intro hnot
                  rw [show i + (j + 1) = i + 1 + j by omega]
                  exact hstay fun hboth => hnot ⟨hboth.1, hlen.mpr hboth.2⟩

variable {r : Request} {select : Selector} {p p' : RetryParam} {a : Attempt}

/-- The group that the next selection starts with. -/
def Request.nextGroup (r : Request) (p : RetryParam) : ℕ :=
  match r.route with
  | .plan groups _ => if p.autoGroupIndex.getD 0 < groups.length then p.autoGroupIndex.getD 0 else 0
  | .auto _ _ => p.autoGroupIndex.getD 0
  | .group _ => 0

/-- The retry within its group with which the next selection starts. -/
def Request.priorityRetry (r : Request) (p : RetryParam) : ℕ :=
  match r.route with
  | .plan _ _ => p.retry - p.groupStartRetry
  | .auto _ _ | .group _ => p.retry

/-- The position of a retry in a group: groups in their order, and retries within them. -/
def Request.position (r : Request) (groupIndex retry : ℕ) : ℕ :=
  groupIndex * (r.setting.RetryTimes + 1) + retry

theorem Request.position_lt (r : Request) {i j n m : ℕ} (h : i < j)
    (hn : n ≤ r.setting.RetryTimes) : r.position i n < r.position j m := by
  have hmul := Nat.mul_le_mul_right (r.setting.RetryTimes + 1) (Nat.succ_le_of_lt h)
  rw [Nat.succ_mul] at hmul
  unfold Request.position
  omega

theorem Request.position_le (r : Request) {i j n m : ℕ} (h : i ≤ j)
    (hn : n ≤ r.setting.RetryTimes) (hm : i = j → n ≤ m) : r.position i n ≤ r.position j m := by
  rcases Nat.lt_or_eq_of_le h with hlt | rfl
  · exact le_of_lt (r.position_lt hlt hn)
  · exact Nat.add_le_add_left (hm rfl) _

/-- What a selection finds, and where it leaves the counter and the group index. -/
structure Selects (r : Request) (select : Selector) (p : RetryParam) (a : Attempt)
    (p' : RetryParam) : Prop where
  start : r.nextGroup p ≤ a.groupIndex
  group : r.route.groups[a.groupIndex]? = some a.group
  chosen : select.choose a.group a.priorityRetry p.excludedChannelIDs = .ok (some a.channel)
  retry : a.retry ≤ r.setting.RetryTimes
  zero : p.retry = 0 → a.retry = 0
  later : r.position (r.nextGroup p) p.retry ≤ r.position a.groupIndex a.retry
  excluded : p'.excludedChannelIDs = p.excludedChannelIDs
  ahead : a.groupIndex ≤ r.nextGroup p'
  next : r.position a.groupIndex a.retry < r.position (r.nextGroup p') p'.increaseRetry.retry
  reset : p'.increaseRetry.resetNextTry = false
  stays : r.route.crossGroup = false → r.nextGroup p' = a.groupIndex
  passed : ∀ i, r.nextGroup p ≤ i → i < a.groupIndex → ∀ g, r.route.groups[i]? = some g →
    ∃ n, select.choose g n p.excludedChannelIDs = .ok none
  priority : a.priorityRetry = if a.groupIndex = r.nextGroup p then r.priorityRetry p else 0
  leaves : r.nextGroup p' ≠ a.groupIndex → r.nextGroup p' = a.groupIndex + 1 ∧
    (r.setting.RetryTimes ≤ a.priorityRetry ∨ ∃ groups, r.route = .plan groups true)
  advances : ∀ groups, r.route = .plan groups true → a.groupIndex + 1 < groups.length →
    r.nextGroup p' = a.groupIndex + 1
  resumes : r.priorityRetry p'.increaseRetry =
    if r.nextGroup p' = a.groupIndex then a.priorityRetry + 1 else 0
  counts : (p'.resetNextTry = false ∧ p'.retry = a.retry) ∨
    (p'.resetNextTry = true ∧ r.setting.RetryTimes ≤ a.retry)

theorem increaseRetry_of_reset (h : p.resetNextTry = true) :
    p.increaseRetry = { p with resetNextTry := false } := by
  unfold RetryParam.increaseRetry
  rw [if_pos h]

theorem increaseRetry_of_not (h : p.resetNextTry = false) :
    p.increaseRetry = { p with retry := p.retry + 1 } := by
  unfold RetryParam.increaseRetry
  rw [if_neg (by simp [h])]

/-- A selection in an auto route. -/
theorem select_auto {groups : List String} {cross : Bool} (hroute : r.route = .auto groups cross)
    (hp : p.retry ≤ r.setting.RetryTimes) (hreset : p.resetNextTry = false)
    (h : cacheGetRandomSatisfiedChannel r.setting.RetryTimes r.route select p =
      (.ok (some a), p')) : Selects r select p a p' := by
  have hnext : ∀ q : RetryParam, r.nextGroup q = q.autoGroupIndex.getD 0 := by
    intro q
    unfold Request.nextGroup
    rw [hroute]
  have hne : groups ≠ [] := by
    have hgroups := r.hasGroup
    rw [hroute] at hgroups
    exact hgroups
  rw [hroute] at h
  unfold cacheGetRandomSatisfiedChannel at h
  dsimp only at h
  rw [if_neg hne] at h
  obtain ⟨j, hj, hgroup, hretry, hprio, hchosen, hpassed, hex, hcross, hstay⟩ :=
    autoLoop_spec _ _ _ _ _ _ _ _ h
  rw [← hnext] at hj
  have hle : a.retry ≤ r.setting.RetryTimes := by
    rw [hretry]
    split
    · exact hp
    · exact Nat.zero_le _
  have hgroups : r.route.groups = groups := by rw [hroute]; rfl
  rw [List.getElem?_drop, ← hnext] at hgroup
  have hwithin : ∀ q : RetryParam, r.priorityRetry q = q.retry := by
    intro q
    unfold Request.priorityRetry
    rw [hroute]
  have hpriority : a.priorityRetry =
      if a.groupIndex = r.nextGroup p then r.priorityRetry p else 0 := by
    rw [hprio, hretry, hwithin]
    by_cases hj0 : j = 0
    · rw [if_pos hj0, if_pos (by omega)]
    · rw [if_neg hj0, if_neg (by omega)]
  have hplan : ∀ groups', r.route = .plan groups' true → a.groupIndex + 1 < groups'.length →
      r.nextGroup p' = a.groupIndex + 1 := by
    intro groups' hplan
    rw [hroute] at hplan
    cases hplan
  by_cases hc : (cross : Prop) ∧ r.setting.RetryTimes ≤ a.retry
  · obtain ⟨hidx, hzero, hflag⟩ := hcross hc
    have hnext' : r.nextGroup p' = a.groupIndex + 1 := by
      rw [hnext, hidx, Option.getD_some, hj, hnext]
    refine ⟨by omega, ?_, ?_, hle, ?_, ?_, hex, by omega, ?_, ?_, ?_, ?_, hpriority, ?_, hplan, ?_,
      .inr ⟨hflag, hc.2⟩⟩
    · rw [hgroups, hj]
      exact hgroup
    · rw [hprio]
      exact hchosen
    · intro hp0
      rw [hretry, hp0]
      simp
    · refine r.position_le (by omega) hp fun heq => ?_
      have hj0 : j = 0 := by omega
      rw [hretry, if_pos hj0]
    · rw [hnext', increaseRetry_of_reset hflag]
      exact r.position_lt (Nat.lt_succ_self _) hle
    · rw [increaseRetry_of_reset hflag]
    · intro hno
      rw [hroute] at hno
      have hno : cross = false := hno
      rw [hno] at hc
      exact absurd hc.1 (by decide)
    · intro i hi hia g hg
      refine ⟨_, hpassed (i - r.nextGroup p) (by omega) g ?_⟩
      rw [List.getElem?_drop, ← hnext, Nat.add_sub_cancel' hi, ← hgroups]
      exact hg
    · intro _
      refine ⟨hnext', .inl ?_⟩
      rw [hprio]
      exact hc.2
    · rw [if_neg (by omega), hwithin, increaseRetry_of_reset hflag]
      exact hzero
  · obtain ⟨hidx, hsame, hflag⟩ := hstay hc
    have hnext' : r.nextGroup p' = a.groupIndex := by
      rw [hnext, hidx, Option.getD_some, hj, hnext]
    refine ⟨by omega, ?_, ?_, hle, ?_, ?_, hex, by omega, ?_, ?_, fun _ => hnext', ?_, hpriority,
      fun hne => absurd hnext' hne, hplan, ?_, .inl ⟨hflag.trans hreset, hsame⟩⟩
    · rw [hgroups, hj]
      exact hgroup
    · rw [hprio]
      exact hchosen
    · intro hp0
      rw [hretry, hp0]
      simp
    · refine r.position_le (by omega) hp fun heq => ?_
      have hj0 : j = 0 := by omega
      rw [hretry, if_pos hj0]
    · rw [hnext', increaseRetry_of_not (hflag.trans hreset)]
      show _ < _ * _ + (p'.retry + 1)
      rw [hsame]
      exact Nat.lt_succ_self _
    · rw [increaseRetry_of_not (hflag.trans hreset)]
      exact hflag.trans hreset
    · intro i hi hia g hg
      refine ⟨_, hpassed (i - r.nextGroup p) (by omega) g ?_⟩
      rw [List.getElem?_drop, ← hnext, Nat.add_sub_cancel' hi, ← hgroups]
      exact hg
    · rw [if_pos hnext', hwithin, increaseRetry_of_not (hflag.trans hreset)]
      show p'.retry + 1 = _
      rw [hsame, hprio]

/-- The priority retry in a plan, after a selection that left the counter at `n` and the group's
start at `start`. -/
theorem priorityRetry_increaseRetry {groups : List String} {retryOnFailure : Bool}
    (hroute : r.route = .plan groups retryOnFailure) (hreset : p.resetNextTry = false) {n start : ℕ}
    (hn : p.retry = n) (hstart : p.autoGroupRetryIndex = some start) (hle : start ≤ n + 1) :
    r.priorityRetry p.increaseRetry = n + 1 - start := by
  rw [increaseRetry_of_not hreset]
  unfold Request.priorityRetry RetryParam.groupStartRetry
  rw [hroute]
  dsimp only
  rw [hstart, Option.getD_some, hn, if_pos hle]

theorem groupStartRetry_le (p : RetryParam) : p.groupStartRetry ≤ p.retry := by
  unfold RetryParam.groupStartRetry
  dsimp only
  split
  · assumption
  · exact le_rfl

/-- A selection in a plan. -/
theorem select_plan {groups : List String} {retryOnFailure : Bool}
    (hroute : r.route = .plan groups retryOnFailure) (hp : p.retry ≤ r.setting.RetryTimes)
    (hreset : p.resetNextTry = false)
    (h : cacheGetRandomSatisfiedChannel r.setting.RetryTimes r.route select p =
      (.ok (some a), p')) :
    Selects r select p a p' ∧
      (r.nextGroup p < a.groupIndex → p.retry = 0 ∨ retryOnFailure = true) := by
  have hnext : ∀ q : RetryParam, r.nextGroup q =
      if q.autoGroupIndex.getD 0 < groups.length then q.autoGroupIndex.getD 0 else 0 := by
    intro q
    unfold Request.nextGroup
    rw [hroute]
  have hne : groups ≠ [] := by
    have hgroups := r.hasGroup
    rw [hroute] at hgroups
    exact hgroups
  rw [hroute] at h
  unfold cacheGetRandomSatisfiedChannel selectChannelFromTokenRoutePlan at h
  dsimp only at h
  rw [if_neg hne, ← hnext] at h
  obtain ⟨j, hj, hgroup, hretry, hprio, hchosen, hpassed, hmoved, hex, hr, hflag, hgo, hstay⟩ :=
    planLoop_spec _ _ _ _ _ _ _ _ (groupStartRetry_le p) h
  have hgroups : r.route.groups = groups := by rw [hroute]; rfl
  rw [List.getElem?_drop] at hgroup
  have hlt : a.groupIndex < groups.length := by
    rw [hj]
    exact (List.getElem?_eq_some_iff.mp hgroup).1
  have hlen : j + 1 < (groups.drop (r.nextGroup p)).length ↔ a.groupIndex + 1 < groups.length := by
    rw [List.length_drop]
    omega
  have hahead : r.nextGroup p' = a.groupIndex ∨
      (retryOnFailure = true ∧ r.nextGroup p' = a.groupIndex + 1) := by
    rw [hnext]
    by_cases hc : (retryOnFailure : Prop) ∧ j + 1 < (groups.drop (r.nextGroup p)).length
    · rw [(hgo hc).1, Option.getD_some, ← hj, if_pos (hlen.mp hc.2)]
      exact .inr ⟨hc.1, rfl⟩
    · rw [(hstay hc).1, Option.getD_some, ← hj, if_pos hlt]
      exact .inl rfl
  refine ⟨⟨by omega, ?_, hchosen, by omega, by omega, ?_, hex, by omega, ?_, ?_, ?_, ?_, ?_, ?_, ?_,
    ?_, .inl ⟨hflag.trans hreset, by omega⟩⟩, ?_⟩
  · rw [hgroups, hj]
    exact hgroup
  · exact r.position_le (by omega) hp fun _ => by omega
  · rw [increaseRetry_of_not (hflag.trans hreset)]
    show _ < r.position _ (p'.retry + 1)
    rw [hr, hretry]
    refine lt_of_lt_of_le (Nat.lt_succ_self _) ?_
    show r.position a.groupIndex (p.retry + 1) ≤ _
    have hmul := Nat.mul_le_mul_right (r.setting.RetryTimes + 1)
      (show a.groupIndex ≤ r.nextGroup p' by omega)
    unfold Request.position
    omega
  · rw [increaseRetry_of_not (hflag.trans hreset)]
    exact hflag.trans hreset
  · intro hno
    rw [hroute] at hno
    have hno : retryOnFailure = false := hno
    rcases hahead with hahead | ⟨hyes, _⟩
    · exact hahead
    · rw [hno] at hyes
      cases hyes
  · intro i hi hia g hg
    refine hpassed (i - r.nextGroup p) (by omega) g ?_
    rw [List.getElem?_drop, Nat.add_sub_cancel' hi, ← hgroups]
    exact hg
  · have hsame : r.priorityRetry p = p.retry - p.groupStartRetry := by
      unfold Request.priorityRetry
      rw [hroute]
    rw [hprio, hsame]
    by_cases hj0 : j = 0
    · rw [if_pos hj0, if_pos (by omega)]
    · rw [if_neg hj0, if_neg (by omega)]
  · intro hne
    rcases hahead with hahead | ⟨hyes, hahead⟩
    · exact absurd hahead hne
    · refine ⟨hahead, .inr ⟨groups, ?_⟩⟩
      rw [hroute, hyes]
  · intro groups' hplan hlen'
    rw [hroute] at hplan
    obtain ⟨rfl, hyes⟩ := Route.plan.inj hplan
    rw [hnext, (hgo ⟨hyes, hlen.mpr hlen'⟩).1, Option.getD_some, ← hj, if_pos hlen']
  · have hle : a.priorityRetry ≤ p.retry := by
      rw [hprio]
      split
      · exact Nat.sub_le _ _
      · exact Nat.zero_le _
    by_cases hc : (retryOnFailure : Prop) ∧ j + 1 < (groups.drop (r.nextGroup p)).length
    · have hne' : r.nextGroup p' ≠ a.groupIndex := by
        rw [hnext, (hgo hc).1, Option.getD_some, ← hj, if_pos (hlen.mp hc.2)]
        exact Nat.succ_ne_self _
      rw [if_neg hne', priorityRetry_increaseRetry hroute (hflag.trans hreset) hr (hgo hc).2 le_rfl]
      exact Nat.sub_self _
    · have heq : r.nextGroup p' = a.groupIndex := by
        rw [hnext, (hstay hc).1, Option.getD_some, ← hj, if_pos hlt]
      rw [if_pos heq, priorityRetry_increaseRetry hroute (hflag.trans hreset) hr (hstay hc).2
        (by omega)]
      omega
  · intro hmove
    exact hmoved (by omega)

/-- A selection in one group. -/
theorem select_group {name : String} (hroute : r.route = .group name)
    (hp : p.retry ≤ r.setting.RetryTimes) (hreset : p.resetNextTry = false)
    (h : cacheGetRandomSatisfiedChannel r.setting.RetryTimes r.route select p =
      (.ok (some a), p')) : Selects r select p a p' := by
  have hnext : ∀ q : RetryParam, r.nextGroup q = 0 := by
    intro q
    unfold Request.nextGroup
    rw [hroute]
  rw [hroute] at h
  unfold cacheGetRandomSatisfiedChannel at h
  dsimp only at h
  cases hchoose : select.choose name p.retry p.excludedChannelIDs with
  | error e => simp [hchoose] at h
  | ok found =>
      cases found with
      | none => simp [hchoose] at h
      | some c =>
          simp only [hchoose, Prod.mk.injEq, Except.ok.injEq, Option.some.injEq] at h
          obtain ⟨rfl, rfl⟩ := h
          refine ⟨?_, ?_, hchoose, hp, id, ?_, rfl, ?_, ?_, ?_, fun _ => hnext _, ?_, ?_,
            fun hne => absurd (hnext _) hne, ?_, ?_, .inl ⟨hreset, rfl⟩⟩
          · rw [hnext]
          · rw [hroute]
            rfl
          · rw [hnext]
          · rw [hnext]
          · rw [hnext, increaseRetry_of_not hreset]
            exact Nat.lt_succ_self _
          · rw [increaseRetry_of_not hreset]
            exact hreset
          · intro i _ hi
            exact absurd hi (Nat.not_lt_zero i)
          · rw [hnext, if_pos rfl]
            unfold Request.priorityRetry
            rw [hroute]
          · intro groups hplan
            rw [hroute] at hplan
            cases hplan
          · rw [hnext, if_pos rfl, increaseRetry_of_not hreset]
            unfold Request.priorityRetry
            rw [hroute]

/-- What a selection finds. -/
theorem select_spec (hp : p.retry ≤ r.setting.RetryTimes) (hreset : p.resetNextTry = false)
    (h : cacheGetRandomSatisfiedChannel r.setting.RetryTimes r.route select p =
      (.ok (some a), p')) : Selects r select p a p' := by
  cases hroute : r.route with
  | plan groups retryOnFailure => exact (select_plan hroute hp hreset h).1
  | auto groups crossGroupRetry => exact select_auto hroute hp hreset h
  | group name => exact select_group hroute hp hreset h

/-! ### The limits -/

/-- The attempts stay inside what the token permits. -/
structure WithinToken (r : Request) (first : First) (attempts : List Attempt) : Prop where
  /-- No channel is attempted twice. -/
  once : (attempts.map fun a => a.channel.id).Nodup
  /-- The groups follow the order of the route. -/
  forward : attempts.Pairwise fun a b => a.groupIndex ≤ b.groupIndex
  named : first.isPinned = false → ∀ a ∈ attempts, r.route.groups[a.groupIndex]? = some a.group
  /-- Without cross-group retry there is one group. -/
  oneGroup : r.route.crossGroup = false →
    ∀ a ∈ attempts, ∀ b ∈ attempts, a.groupIndex = b.groupIndex
  /-- A pinned request attempts its channel only. -/
  pinned : ∀ c hc, first = .pinned c hc → ∀ a ∈ attempts, a.channel = c
  bounded : attempts.length ≤ r.route.groups.length * (r.setting.RetryTimes + 1)
  boundedOne : r.route.crossGroup = false ∨ r.route.groups.length = 1 →
    attempts.length ≤ r.setting.RetryTimes + 1

/-- `GetRandomSatisfiedChannelExcluding` returns a channel. -/
def Selector.finds (select : Selector) (group : String) (retry : ℕ) (excluded : List ℤ) : Bool :=
  match select.choose group retry excluded with
  | .ok (some _) => true
  | _ => false

/-- `GetRandomSatisfiedChannelExcluding` returns no channel, and no error. -/
def Selector.exhausts (select : Selector) (group : String) (retry : ℕ) (excluded : List ℤ) : Bool :=
  match select.choose group retry excluded with
  | .ok none => true
  | _ => false

/-- The first channel of an auto route, if an affinity chose it, is one of the first group. -/
def First.StartsInside (r : Request) : First → Prop
  | .affinity _ _ groupIndex =>
      match r.route with
      | .auto _ _ => groupIndex = 0
      | _ => True
  | _ => True

/-- A pinned request gets no error of its channel, unless there are no retries at all; and where an
auto route may not cross groups, a retry that finds its group exhausted finds the later ones without
channels, too. -/
def TurnsInside (r : Request) (specificChannel : Bool) (s : RetryLoop) (t : Turn) : Prop :=
  (match t.outcome with
    | .failed e => specificChannel = true → isChannelError e = true → r.setting.RetryTimes = 0
    | _ => True) ∧
  (match r.route, s.first with
    | .auto groups false, none =>
        match groups.drop (r.nextGroup s.param) with
        | [] => True
        | g :: later =>
            t.select.exhausts g s.param.retry s.param.excludedChannelIDs = true →
              ∀ g' ∈ later, t.select.finds g' 0 s.param.excludedChannelIDs = false
    | _, _ => True)

instance (r : Request) (specificChannel : Bool) (s : RetryLoop) (t : Turn) :
    Decidable (TurnsInside r specificChannel s t) := by
  unfold TurnsInside
  refine @instDecidableAnd _ _ ?_ ?_
  · split
    · infer_instance
    · exact .isTrue trivial
  · split
    · split
      · exact .isTrue trivial
      · infer_instance
    · exact .isTrue trivial

/-! ### The invariant -/

/-- What holds of the attempts made. -/
structure Kept (r : Request) (first : First) (attempts : List Attempt) : Prop where
  once : (attempts.map fun a => a.channel.id).Nodup
  forward : attempts.Pairwise fun a b => a.groupIndex ≤ b.groupIndex ∧
    r.position a.groupIndex a.retry < r.position b.groupIndex b.retry
  range : ∀ a ∈ attempts, a.groupIndex < r.route.groups.length ∧ a.retry ≤ r.setting.RetryTimes
  named : first.isPinned = false → ∀ a ∈ attempts, r.route.groups[a.groupIndex]? = some a.group
  oneGroup : r.route.crossGroup = false →
    ∀ a ∈ attempts, ∀ b ∈ attempts, a.groupIndex = b.groupIndex
  pinned : ∀ c hc, first = .pinned c hc → ∀ a ∈ attempts, a.channel = c

/-- What holds of the next attempt `a`, when the counter has been left at `p`. -/
structure Next (r : Request) (first : First) (attempts : List Attempt) (p : RetryParam)
    (a : Attempt) : Prop where
  positive : 0 < a.channel.id
  new : a.channel.id ∉ attempts.map fun b => b.channel.id
  excluded : ∀ b ∈ attempts, b.channel.id ∈ p.excludedChannelIDs
  range : a.groupIndex < r.route.groups.length ∧ a.retry ≤ r.setting.RetryTimes
  after : ∀ b ∈ attempts, b.groupIndex ≤ a.groupIndex ∧
    r.position b.groupIndex b.retry < r.position a.groupIndex a.retry ∧
      (r.route.crossGroup = false → b.groupIndex = a.groupIndex)
  named : first.isPinned = false → r.route.groups[a.groupIndex]? = some a.group
  ahead : a.groupIndex ≤ r.nextGroup p
  next : r.position a.groupIndex a.retry < r.position (r.nextGroup p) p.increaseRetry.retry
  reset : p.increaseRetry.resetNextTry = false
  stays : r.route.crossGroup = false → r.nextGroup p = a.groupIndex
  pinned : ∀ c hc, first = .pinned c hc → a.channel = c
  alone : first.isPinned = true → attempts = [] ∧ 0 < p.increaseRetry.retry

/-- What holds between the attempts. -/
structure Retrying (r : Request) (first : First) (attempts : List Attempt) (p : RetryParam) :
    Prop where
  nonempty : attempts ≠ []
  reset : p.resetNextTry = false
  excluded : ∀ a ∈ attempts, a.channel.id ∈ p.excludedChannelIDs
  ahead : ∀ a ∈ attempts, a.groupIndex ≤ r.nextGroup p ∧
    r.position a.groupIndex a.retry < r.position (r.nextGroup p) p.retry ∧
      (r.route.crossGroup = false → r.nextGroup p = a.groupIndex)
  pinned : first.isPinned = true → r.setting.RetryTimes < p.retry

/-- The invariant of the loop. -/
def Inv (r : Request) (first : First) (s : RetryLoop) : Prop :=
  Kept r first s.attempts ∧ (s.ended = false →
    match s.first with
    | some a => Next r first s.attempts s.param a
    | none => Retrying r first s.attempts s.param)

variable {first : First} {attempts : List Attempt} {s : RetryLoop}

theorem Kept.snoc (h : Kept r first attempts) (hn : Next r first attempts p a) :
    Kept r first (attempts ++ [a]) where
  once := by
    rw [List.map_append, List.nodup_append]
    refine ⟨h.once, List.nodup_singleton _, ?_⟩
    intro i hi j hj
    obtain rfl : j = a.channel.id := by simpa using hj
    rintro rfl
    exact hn.new hi
  forward := by
    rw [List.pairwise_append]
    refine ⟨h.forward, List.pairwise_singleton _ _, ?_⟩
    intro b hb c hc
    rw [List.mem_singleton.mp hc]
    exact ⟨(hn.after b hb).1, (hn.after b hb).2.1⟩
  range b hb := by
    rcases List.mem_append.mp hb with hb | hb
    · exact h.range b hb
    · rw [List.mem_singleton.mp hb]
      exact hn.range
  named hspecific b hb := by
    rcases List.mem_append.mp hb with hb | hb
    · exact h.named hspecific b hb
    · rw [List.mem_singleton.mp hb]
      exact hn.named hspecific
  oneGroup hcross b hb c hc := by
    have hsame : ∀ d ∈ attempts ++ [a], d.groupIndex = a.groupIndex := by
      intro d hd
      rcases List.mem_append.mp hd with hd | hd
      · exact (hn.after d hd).2.2 hcross
      · rw [List.mem_singleton.mp hd]
    rw [hsame b hb, hsame c hc]
  pinned c hc hfirst b hb := by
    rcases List.mem_append.mp hb with hb | hb
    · exact h.pinned c hc hfirst b hb
    · rw [List.mem_singleton.mp hb]
      exact hn.pinned c hc hfirst

/-- Excluding a channel leaves the counter and the group index alone. -/
theorem excludeChannel_spec (p : RetryParam) {id : ℤ} (hid : 0 < id) :
    p.excludeChannel id = { p with excludedChannelIDs := id :: p.excludedChannelIDs } := by
  unfold RetryParam.excludeChannel
  exact if_neg (by omega)

theorem increaseRetry_frame (p : RetryParam) :
    p.increaseRetry.autoGroupIndex = p.autoGroupIndex ∧
      p.increaseRetry.autoGroupRetryIndex = p.autoGroupRetryIndex ∧
      p.increaseRetry.excludedChannelIDs = p.excludedChannelIDs := by
  unfold RetryParam.increaseRetry
  split
  · exact ⟨rfl, rfl, rfl⟩
  · exact ⟨rfl, rfl, rfl⟩

/-- Excluding a channel and counting the retry do not interfere. -/
theorem excludeChannel_increaseRetry (p : RetryParam) {id : ℤ} (hid : 0 < id) :
    (p.excludeChannel id).increaseRetry =
      { p.increaseRetry with excludedChannelIDs := id :: p.excludedChannelIDs } := by
  rw [excludeChannel_spec p hid]
  unfold RetryParam.increaseRetry
  dsimp only
  split
  · rfl
  · rfl

theorem nextGroup_congr {p q : RetryParam} (h : p.autoGroupIndex = q.autoGroupIndex) :
    r.nextGroup p = r.nextGroup q := by
  unfold Request.nextGroup
  rw [h]

/-- A failed attempt leaves the counter where the next one continues. -/
theorem Next.failed (hn : Next r first attempts p a)
    (hpinned : first.isPinned = true → r.setting.RetryTimes = 0) :
    Retrying r first (attempts ++ [a]) (p.excludeChannel a.channel.id).increaseRetry := by
  rw [excludeChannel_increaseRetry p hn.positive]
  have hnext : r.nextGroup { p.increaseRetry with
      excludedChannelIDs := a.channel.id :: p.excludedChannelIDs } = r.nextGroup p :=
    nextGroup_congr (increaseRetry_frame p).1
  refine ⟨by simp, hn.reset, ?_, ?_, ?_⟩
  · intro b hb
    rcases List.mem_append.mp hb with hb | hb
    · exact List.mem_cons_of_mem _ (hn.excluded b hb)
    · rw [List.mem_singleton.mp hb]
      exact List.mem_cons_self
  · rw [hnext]
    intro b hb
    rcases List.mem_append.mp hb with hb | hb
    · obtain ⟨hle, hpos, hsame⟩ := hn.after b hb
      refine ⟨hle.trans hn.ahead, hpos.trans hn.next, fun hcross => ?_⟩
      rw [hn.stays hcross, hsame hcross]
    · rw [List.mem_singleton.mp hb]
      exact ⟨hn.ahead, hn.next, hn.stays⟩
  · intro hspecific
    rw [hpinned hspecific]
    exact (hn.alone hspecific).2

/-- `shouldRetry` refuses a pinned request unless its channel is at fault. -/
theorem shouldRetry_pinned {setting : Setting} {skip : Bool} {e : MaxAPIError} {n : ℤ}
    (h : shouldRetry setting skip true e n = true) : isChannelError e = true := by
  by_contra hchannel
  have hfalse : shouldRetry setting skip true e n = false := by
    unfold shouldRetry
    simp [hchannel]
  rw [hfalse] at h
  cases h

/-- An attempt keeps the invariant. -/
theorem Next.attempt (hkept : Kept r first s.attempts) (hn : Next r first s.attempts s.param a)
    {outcome : Outcome} (ht : match outcome with
      | .failed e => first.isPinned = true → isChannelError e = true → r.setting.RetryTimes = 0
      | _ => True) : Inv r first (r.attempt first.isPinned s a outcome) := by
  have hsnoc := hkept.snoc hn
  unfold Request.attempt
  dsimp only
  cases outcome with
  | success => exact ⟨hsnoc, fun h => by cases h⟩
  | stopped => exact ⟨hsnoc, fun h => by cases h⟩
  | failed e =>
      dsimp only at ht ⊢
      split
      · next hretry =>
        refine ⟨hsnoc, fun _ => hn.failed fun hspecific => ?_⟩
        rw [hspecific] at hretry
        exact ht hspecific (shouldRetry_pinned hretry)
      · exact ⟨hsnoc, fun h => by cases h⟩

/-- Without cross-group retry, a retry in an auto route stays in its group. -/
theorem select_auto_stays {groups : List String} (hroute : r.route = .auto groups false)
    {t : Turn} (ht : TurnsInside r first.isPinned s t) (hfirst : s.first = none)
    (h : cacheGetRandomSatisfiedChannel r.setting.RetryTimes r.route t.select s.param =
      (.ok (some a), p')) : a.groupIndex = r.nextGroup s.param := by
  have hinside := ht.2
  have hnext : r.nextGroup s.param = s.param.autoGroupIndex.getD 0 := by
    unfold Request.nextGroup
    rw [hroute]
  have hne : groups ≠ [] := by
    have hgroups := r.hasGroup
    rw [hroute] at hgroups
    exact hgroups
  rw [hroute] at h
  unfold cacheGetRandomSatisfiedChannel at h
  dsimp only at h
  rw [if_neg hne, ← hnext] at h
  rw [hroute, hfirst] at hinside
  dsimp only at hinside
  obtain ⟨j, hj, hgroup, hretry, _, hchosen, hpassed, _⟩ := autoLoop_spec _ _ _ _ _ _ _ _ h
  cases hdrop : groups.drop (r.nextGroup s.param) with
  | nil =>
      rw [hdrop] at hgroup
      simp at hgroup
  | cons g later =>
      rw [hdrop] at hinside hgroup hpassed
      dsimp only at hinside
      cases j with
      | zero => exact hj
      | succ j =>
          exfalso
          have hexhausts : t.select.exhausts g s.param.retry s.param.excludedChannelIDs = true := by
            unfold Selector.exhausts
            have hnone := hpassed 0 (Nat.succ_pos j) g rfl
            rw [if_pos rfl] at hnone
            rw [hnone]
          have hmem : a.group ∈ later := List.mem_of_getElem? (by simpa using hgroup)
          have hfinds := hinside hexhausts a.group hmem
          rw [hretry, if_neg (Nat.succ_ne_zero j)] at hchosen
          unfold Selector.finds at hfinds
          rw [hchosen] at hfinds
          cases hfinds

/-- Without cross-group retry, a retry stays in its group. -/
theorem select_stays (hcross : r.route.crossGroup = false) (hretry : s.param.retry ≠ 0)
    (hp : s.param.retry ≤ r.setting.RetryTimes) (hreset : s.param.resetNextTry = false)
    {t : Turn} (ht : TurnsInside r first.isPinned s t) (hfirst : s.first = none)
    (h : cacheGetRandomSatisfiedChannel r.setting.RetryTimes r.route t.select s.param =
      (.ok (some a), p')) : a.groupIndex = r.nextGroup s.param := by
  cases hroute : r.route with
  | auto groups crossGroupRetry =>
      rw [hroute] at hcross
      have hcross : crossGroupRetry = false := hcross
      rw [hcross] at hroute
      exact select_auto_stays hroute ht hfirst h
  | plan groups retryOnFailure =>
      obtain ⟨hsel, hmoved⟩ := select_plan hroute hp hreset h
      rw [hroute] at hcross
      have hcross : retryOnFailure = false := hcross
      have hle := hsel.start
      by_contra hne
      rcases hmoved (by omega) with hzero | hyes
      · exact hretry hzero
      · rw [hcross] at hyes
        cases hyes
  | group name =>
      have hsel := select_group hroute hp hreset h
      have hgroup := hsel.group
      have hlen : a.groupIndex < r.route.groups.length := (List.getElem?_eq_some_iff.mp hgroup).1
      rw [hroute] at hlen
      have hlen : a.groupIndex < 1 := hlen
      have hzero : r.nextGroup s.param = 0 := by
        unfold Request.nextGroup
        rw [hroute]
      omega

/-- What a retry selects is a next attempt. -/
theorem Retrying.next (hkept : Kept r first s.attempts)
    (hr : Retrying r first s.attempts s.param) (hp : s.param.retry ≤ r.setting.RetryTimes)
    {t : Turn} (ht : TurnsInside r first.isPinned s t) (hfirst : s.first = none)
    (h : cacheGetRandomSatisfiedChannel r.setting.RetryTimes r.route t.select s.param =
      (.ok (some a), p')) : Next r first s.attempts p' a := by
  have hsel := select_spec hp hr.reset h
  have hunpinned : first.isPinned = false := by
    cases hspecific : first.isPinned with
    | false => rfl
    | true =>
        have hlt := hr.pinned hspecific
        omega
  refine ⟨t.select.positive hsel.chosen, ?_, ?_, ?_, ?_, fun _ => hsel.group, hsel.ahead, hsel.next,
    hsel.reset, hsel.stays, ?_, ?_⟩
  · intro hmem
    obtain ⟨b, hb, hid⟩ := List.mem_map.mp hmem
    refine t.select.excludes hsel.chosen ?_
    rw [← hid]
    exact hr.excluded b hb
  · rw [hsel.excluded]
    exact hr.excluded
  · exact ⟨(List.getElem?_eq_some_iff.mp hsel.group).1, hsel.retry⟩
  · intro b hb
    obtain ⟨hle, hpos, hsame⟩ := hr.ahead b hb
    refine ⟨hle.trans hsel.start, lt_of_lt_of_le hpos hsel.later, fun hcross => ?_⟩
    have hretry : s.param.retry ≠ 0 := by
      intro hzero
      rw [hsame hcross, hzero] at hpos
      unfold Request.position at hpos
      omega
    rw [select_stays hcross hretry hp hr.reset ht hfirst h, hsame hcross]
  · rintro c hc rfl
    cases hunpinned
  · intro hspecific
    rw [hunpinned] at hspecific
    cases hspecific

/-- One turn keeps the invariant. -/
theorem turn_inv {t : Turn} (h : Inv r first s) (ht : TurnsInside r first.isPinned s t) :
    Inv r first (r.turn first.isPinned s t) := by
  obtain ⟨hkept, hgoing⟩ := h
  unfold Request.turn
  cases hended : s.ended with
  | true =>
      rw [if_pos rfl]
      exact ⟨hkept, hgoing⟩
  | false =>
      have hstate := hgoing hended
      rw [if_neg (by decide)]
      by_cases hp : r.setting.RetryTimes < s.param.retry
      · rw [if_pos hp]
        exact ⟨hkept, fun h => by cases h⟩
      · rw [if_neg hp]
        cases hfirst : s.first with
        | some a =>
            rw [hfirst] at hstate
            exact Next.attempt hkept hstate ht.1
        | none =>
            rw [hfirst] at hstate
            dsimp only at hstate ⊢
            have hp' : s.param.retry ≤ r.setting.RetryTimes := Nat.le_of_not_lt hp
            cases hsel : cacheGetRandomSatisfiedChannel r.setting.RetryTimes r.route t.select
                s.param with
            | mk found p' =>
                cases found with
                | error e => exact ⟨hkept, fun h => by cases h⟩
                | ok found =>
                    cases found with
                    | none => exact ⟨hkept, fun h => by cases h⟩
                    | some a =>
                        dsimp only
                        have hnext := hstate.next hkept hp' ht hfirst hsel
                        split
                        · exact Next.attempt (s := ⟨p', none, s.attempts, false⟩) hkept hnext ht.1
                        · exact ⟨hkept, fun h => by cases h⟩

/-! ### The first attempt -/

/-- Before any attempt, it is enough that the next one is in its place. -/
theorem Next.of_first (hpos : 0 < a.channel.id) (hlen : a.groupIndex < r.route.groups.length)
    (hretry : a.retry = 0) (hfresh : p = .fresh p.autoGroupIndex p.autoGroupRetryIndex)
    (hnamed : first.isPinned = false → r.route.groups[a.groupIndex]? = some a.group)
    (hahead : a.groupIndex ≤ r.nextGroup p)
    (hstays : r.route.crossGroup = false → r.nextGroup p = a.groupIndex)
    (hpinned : ∀ c hc, first = .pinned c hc → a.channel = c) : Next r first [] p a := by
  have hreset : p.resetNextTry = false := by
    rw [hfresh]
    rfl
  have hzero : p.retry = 0 := by
    rw [hfresh]
    rfl
  have hincrease := increaseRetry_of_not hreset
  refine ⟨hpos, List.not_mem_nil, fun b hb => absurd hb List.not_mem_nil,
    ⟨hlen, by rw [hretry]; exact Nat.zero_le _⟩, fun b hb => absurd hb List.not_mem_nil, hnamed,
    hahead, ?_, ?_, hstays, hpinned, fun _ => ⟨rfl, ?_⟩⟩
  · rw [hincrease, hretry]
    refine lt_of_le_of_lt (r.position_le hahead (Nat.zero_le _) fun _ => le_rfl) ?_
    exact Nat.add_lt_add_left (Nat.succ_pos p.retry) _
  · rw [hincrease]
    exact hreset
  · rw [hincrease]
    exact Nat.succ_pos p.retry

theorem kept_nil : Kept r first [] where
  once := List.nodup_nil
  forward := List.Pairwise.nil
  range _ h := absurd h List.not_mem_nil
  named _ _ h := absurd h List.not_mem_nil
  oneGroup _ _ h := absurd h List.not_mem_nil
  pinned _ _ _ _ h := absurd h List.not_mem_nil

/-- Without keys in the context the next group is the first. -/
theorem nextGroup_none : r.nextGroup (.fresh none none) = 0 := by
  unfold Request.nextGroup RetryParam.fresh
  cases r.route with
  | plan groups retryOnFailure =>
      dsimp only
      split
      · rfl
      · rfl
  | auto groups crossGroupRetry => rfl
  | group name => rfl

/-- The loop starts with the invariant. -/
theorem start_inv (hinside : first.StartsInside r) (h : r.start first = some s) :
    Inv r first s := by
  cases first with
  | pinned channel positive =>
      obtain rfl := Option.some.inj h
      refine ⟨kept_nil, fun _ => Next.of_first positive ?_ rfl rfl ?_ ?_ ?_ ?_⟩
      · exact List.length_pos_iff.mpr r.hasGroup
      · intro hno
        cases hno
      · exact Nat.zero_le _
      · intro _
        exact nextGroup_none
      · rintro c hc heq
        cases heq
        rfl
  | affinity channel positive groupIndex =>
      unfold Request.start at h
      dsimp only at h
      obtain ⟨group, hgroup, rfl⟩ := Option.map_eq_some_iff.mp h
      have hlen := (List.getElem?_eq_some_iff.mp hgroup).1
      have hother : ∀ c hc, First.affinity channel positive groupIndex = .pinned c hc →
          channel = c := by
        intro c hc heq
        cases heq
      cases hroute : r.route with
      | plan groups retryOnFailure =>
          rw [hroute] at hlen
          have hlen' : groupIndex < groups.length := hlen
          have hnext : ∀ i n, i < groups.length → r.nextGroup (.fresh (some i) n) = i := by
            intro i n hi
            unfold Request.nextGroup
            rw [hroute]
            exact if_pos hi
          refine ⟨kept_nil, fun _ => ?_⟩
          dsimp only
          split
          · next hgo =>
            refine Next.of_first positive (by rw [hroute]; exact hlen) rfl rfl
              (fun _ => hgroup) ?_ ?_ hother
            · rw [hnext _ _ hgo.2]
              exact Nat.le_succ _
            · intro hno
              rw [hroute] at hno
              have hno : retryOnFailure = false := hno
              rw [hno] at hgo
              exact absurd hgo.1 (by decide)
          · refine Next.of_first positive (by rw [hroute]; exact hlen) rfl rfl
              (fun _ => hgroup) ?_ ?_ hother
            · rw [hnext _ _ hlen']
            · intro _
              exact hnext _ _ hlen'
      | auto groups crossGroupRetry =>
          unfold First.StartsInside at hinside
          rw [hroute] at hinside
          have hinside : groupIndex = 0 := hinside
          refine ⟨kept_nil, fun _ => ?_⟩
          refine Next.of_first positive hlen rfl rfl (fun _ => hgroup) ?_ ?_ hother
          · show groupIndex ≤ _
            rw [hinside]
            exact Nat.zero_le _
          · intro _
            rw [nextGroup_none]
            exact hinside.symm
      | group name =>
          rw [hroute] at hlen
          have hinside : groupIndex = 0 := Nat.lt_one_iff.mp hlen
          refine ⟨kept_nil, fun _ => ?_⟩
          refine Next.of_first positive (by rw [hroute]; exact hlen) rfl rfl (fun _ => hgroup)
            ?_ ?_ hother
          · show groupIndex ≤ _
            rw [hinside]
            exact Nat.zero_le _
          · intro _
            rw [nextGroup_none]
            exact hinside.symm
  | selected select =>
      unfold Request.start at h
      dsimp only at h
      split at h
      · next a p hsel =>
        obtain rfl := Option.some.inj h
        have hspec := select_spec (Nat.zero_le _) rfl hsel
        have hnext : r.nextGroup (.fresh p.autoGroupIndex p.autoGroupRetryIndex) =
            r.nextGroup p := nextGroup_congr rfl
        refine ⟨kept_nil, fun _ => Next.of_first (select.positive hspec.chosen)
          (List.getElem?_eq_some_iff.mp hspec.group).1 (hspec.zero rfl) rfl (fun _ => hspec.group)
          ?_ ?_ ?_⟩
        · rw [hnext]
          exact hspec.ahead
        · rw [hnext]
          exact hspec.stays
        · intro c hc heq
          cases heq
      · cases h

/-! ### Bounds -/

/-- Positions that increase below a bound are no more than the bound. -/
theorem length_le_of_pairwise {α : Type} {f : α → ℕ} {l : List α} {n : ℕ}
    (hlt : l.Pairwise fun a b => f a < f b) (hn : ∀ a ∈ l, f a < n) : l.length ≤ n := by
  have hnd : (l.map f).Nodup := by
    unfold List.Nodup
    rw [List.pairwise_map]
    exact hlt.imp fun h => ne_of_lt h
  have hsub : l.map f ⊆ List.range n := by
    intro i hi
    obtain ⟨a, ha, rfl⟩ := List.mem_map.mp hi
    exact List.mem_range.mpr (hn a ha)
  have hle := (List.subperm_of_subset hnd hsub).length_le
  rwa [List.length_map, List.length_range] at hle

theorem Kept.withinToken (h : Kept r first attempts) : WithinToken r first attempts where
  once := h.once
  forward := h.forward.imp fun hab => hab.1
  named := h.named
  oneGroup := h.oneGroup
  pinned := h.pinned
  bounded := by
    refine length_le_of_pairwise (h.forward.imp fun hab => hab.2) fun a ha => ?_
    obtain ⟨hlen, hretry⟩ := h.range a ha
    have hlt := r.position_lt (m := 0) hlen hretry
    unfold Request.position at hlt ⊢
    omega
  boundedOne hone := by
    have hsame : ∀ a ∈ attempts, ∀ b ∈ attempts, a.groupIndex = b.groupIndex := by
      rcases hone with hcross | hlen
      · exact h.oneGroup hcross
      · intro a ha b hb
        have hlta := (h.range a ha).1
        have hltb := (h.range b hb).1
        omega
    refine length_le_of_pairwise (f := Attempt.retry) ?_ fun a ha =>
      Nat.lt_succ_of_le (h.range a ha).2
    refine List.Pairwise.imp_of_mem (fun {a b} ha hb hab => ?_) h.forward
    have hpos := hab.2
    rw [hsame a ha b hb] at hpos
    unfold Request.position at hpos
    omega

/-- **Retries stay inside what the token permits**, in every run of the loop in which no affinity
starts in the middle of an auto route, no pinned request gets an error of its channel, and no auto
route without cross-group retry is exhausted while a later group is not. -/
theorem attempts_withinToken (r : Request) (first : First) (hfirst : first.StartsInside r)
    (s : RetryLoop) (hs : r.start first = some s) (turns : List Turn)
    (h : Transition.Throughout (r.turn first.isPinned) (TurnsInside r first.isPinned) s turns) :
    WithinToken r first (r.run first s turns).attempts := by
  have hinv := Transition.throughout_invariant (r.turn first.isPinned)
    (fun _ _ ht hs => turn_inv hs ht) turns s h (start_inv hfirst hs)
  exact hinv.1.withinToken

/-! ### Three requests -/

/-- The setting with `n` retries. -/
def defaultSetting (n : ℕ) : Setting where
  RetryTimes := n
  EmptyCompletionRetryEnabled := true
  AutomaticRetryStatusCodeRanges :=
    [(100, 199), (300, 399), (401, 407), (409, 499), (500, 503), (505, 523), (525, 599)]

/-- A channel with one key. -/
def channelOf (id : ℤ) : Channel :=
  ⟨id, 1, "sk", ChannelStatusEnabled, none, "m", "a", none, none, "", ⟨false, ∅, 0, .random⟩⟩

/-- The first channel of a group that is not excluded. -/
def firstFree (channels : String → List Channel) : Selector where
  choose group _ excluded :=
    .ok ((channels group).find? fun c => decide (c.id ∉ excluded ∧ 0 < c.id))
  excludes h := by
    have hfound := List.find?_some (Except.ok.inj h)
    exact (of_decide_eq_true hfound).1
  positive h := by
    have hfound := List.find?_some (Except.ok.inj h)
    exact (of_decide_eq_true hfound).2

/-- Channels 1 and 2 are in group `a`, channel 3 is in group `b`. -/
def twoGroups : Selector :=
  firstFree fun group => if group = "a" then [channelOf 1, channelOf 2] else [channelOf 3]

/-- A request on the route. -/
def requestOn (route : Route) (hasGroup : route.groups ≠ []) : Request :=
  ⟨defaultSetting 3, route, false, hasGroup⟩

/-- The upstream answers with status 500. -/
def upstreamFails : Turn := ⟨twoGroups, true, .failed ⟨"bad_response_status_code", 500, false⟩⟩

/-- The channel cannot map the model. -/
def mappingFails : Turn := ⟨twoGroups, true, .failed ⟨"channel:model_mapped_error", 500, false⟩⟩

theorem bothGroups_ne_nil : ["a", "b"] ≠ [] := List.cons_ne_nil _ _

/-- An auto route over both groups. -/
def autoRequest (crossGroupRetry : Bool) : Request :=
  requestOn (.auto ["a", "b"] crossGroupRetry) bothGroups_ne_nil

/-- The loop after `n` turns of the kind `t`. -/
def Request.runFrom (r : Request) (first : First) (t : Turn) (n : ℕ) : List Attempt :=
  match r.start first with
  | none => []
  | some s => (r.run first s (List.replicate n t)).attempts

theorem attempts_withinToken_autoRequest :
    ∃ s, (autoRequest true).start (.selected twoGroups) = some s ∧
      WithinToken (autoRequest true) (.selected twoGroups)
        ((autoRequest true).run (.selected twoGroups) s
          (List.replicate 4 upstreamFails)).attempts := by
  have hstart : (((autoRequest true).start (.selected twoGroups)).map fun s =>
      decide (Transition.Throughout ((autoRequest true).turn false)
        (TurnsInside (autoRequest true) false) s (List.replicate 4 upstreamFails))) =
          some true := by
    decide +kernel
  obtain ⟨s, hs, hrun⟩ := Option.map_eq_some_iff.mp hstart
  exact ⟨s, hs, attempts_withinToken (autoRequest true) (.selected twoGroups) trivial s hs
    (List.replicate 4 upstreamFails) (of_decide_eq_true hrun)⟩

/-- The three ways out: an affinity in the second group of an auto route goes back to the first; an
auto route without cross-group retry moves on; and a pinned request attempts another channel. -/
theorem attempts_not_withinToken :
    ¬ WithinToken (autoRequest true) (.affinity (channelOf 3) (by decide) 1)
        ((autoRequest true).runFrom (.affinity (channelOf 3) (by decide) 1) upstreamFails 2) ∧
      ¬ WithinToken (autoRequest false) (.selected twoGroups)
        ((autoRequest false).runFrom (.selected twoGroups) upstreamFails 3) ∧
      ¬ WithinToken (autoRequest false) (.pinned (channelOf 1) (by decide))
        ((autoRequest false).runFrom (.pinned (channelOf 1) (by decide)) mappingFails 2) := by
  refine ⟨fun h => ?_, fun h => ?_, fun h => ?_⟩
  · exact absurd h.forward (by decide +kernel)
  · exact absurd (h.oneGroup rfl) (by decide +kernel)
  · have hid : ∀ a ∈ (autoRequest false).runFrom (.pinned (channelOf 1) (by decide)) mappingFails 2,
        a.channel.id = 1 := by
      intro a ha
      rw [h.pinned _ _ rfl a ha]
      rfl
    exact absurd hid (by decide +kernel)

end MaxApi.Relay
