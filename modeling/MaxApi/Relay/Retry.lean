import MaxApi.Channels.Select
import MaxApi.Lib.System

/-! # Relay: retries

A request is relayed in attempts.  The distributor selects the channel of the first attempt, and
each further attempt selects one by `CacheGetRandomSatisfiedChannel`, which follows the route of the
token: a plan of ordered groups, an auto route of the older kind, or one group.  Between the
attempts the retry counter, its reset flag, the excluded channels and the index of the next group
are kept.

What the selectors find and how an attempt ends is the choice of the environment (`Turn`). -/

namespace MaxApi.Relay

open Channels

/-! ### Errors -/

/-- The settings that retries depend on. -/
structure Setting where
  RetryTimes : ℕ
  EmptyCompletionRetryEnabled : Bool
  AutomaticRetryStatusCodeRanges : List (ℤ × ℤ)

/-- `MaxAPIError`. -/
structure MaxAPIError where
  errorCode : String
  StatusCode : ℤ
  skipRetry : Bool
  deriving DecidableEq, Repr

/-- `IsChannelError`. -/
def isChannelError (e : MaxAPIError) : Bool := Text.hasPrefix e.errorCode "channel:"

def ErrorCodeEmptyCompletion : String := "empty_completion"

def alwaysSkipRetryCodes : List String := ["bad_response_body"]

def alwaysSkipRetryStatusCodes : List ℤ := [504, 524]

/-- The loop of `shouldMatchStatusCodeRanges`, over sorted ranges. -/
def matchRanges (code : ℤ) : List (ℤ × ℤ) → Bool
  | [] => false
  | r :: ranges =>
    if code < r.1 then false else if code ≤ r.2 then true else matchRanges code ranges

/-- `shouldMatchStatusCodeRanges`. -/
def shouldMatchStatusCodeRanges (ranges : List (ℤ × ℤ)) (code : ℤ) : Bool :=
  if code < 100 ∨ 599 < code then false else matchRanges code ranges

/-- `ShouldRetryByStatusCode`. -/
def shouldRetryByStatusCode (setting : Setting) (code : ℤ) : Bool :=
  if code ∈ alwaysSkipRetryStatusCodes then false
  else shouldMatchStatusCodeRanges setting.AutomaticRetryStatusCodeRanges code

/-- `shouldRetry`; `retryTimes` are the retries that are left. -/
def shouldRetry (setting : Setting) (skipAfterAffinity specificChannel : Bool) (e : MaxAPIError)
    (retryTimes : ℤ) : Bool :=
  if skipAfterAffinity then false
  else if isChannelError e then true
  else if e.skipRetry then false
  else if retryTimes ≤ 0 then false
  else if specificChannel then false
  else if e.errorCode ∈ alwaysSkipRetryCodes then false
  else if e.errorCode = ErrorCodeEmptyCompletion ∧ !setting.EmptyCompletionRetryEnabled then false
  else if 200 ≤ e.StatusCode ∧ e.StatusCode < 300 then false
  else if e.StatusCode < 100 ∨ 599 < e.StatusCode then true
  else shouldRetryByStatusCode setting e.StatusCode

/-! ### Selection -/

/-- `GetRandomSatisfiedChannelExcluding` at one time: of a group, a retry and excluded channels.
Channels have positive identifiers. -/
structure Selector where
  choose : String → ℕ → List ℤ → Except SelectError (Option Channel)
  excludes : ∀ {group retry excluded c}, choose group retry excluded = .ok (some c) →
    c.id ∉ excluded
  positive : ∀ {group retry excluded c}, choose group retry excluded = .ok (some c) → 0 < c.id

/-- The selector over the cache, for a model and path; `random` decides its draw. -/
def cacheSelector (cache : Cache) (hpos : ∀ c ∈ cache.channelsIDM, 0 < c.id)
    (model requestPath : String) (random : ℕ) : Selector where
  choose group retry excluded :=
    getRandomSatisfiedChannelExcluding cache group model retry requestPath excluded random
  excludes h := (getRandomSatisfiedChannelExcluding_mem h).2
  positive h := hpos _ (getRandomSatisfiedChannelExcluding_mem h).1

/-- The selector over the abilities. -/
def abilitiesSelector (config : String → Option (List String)) (db : Tables)
    (hpos : ∀ c ∈ db.channels, 0 < c.id) (model requestPath : String) (random : ℕ) : Selector where
  choose group retry excluded :=
    getChannelExcluding config db group model retry requestPath excluded random
  excludes h := (getChannelExcluding_mem config h).2
  positive h := hpos _ (getChannelExcluding_mem config h).1

/-- The route of a token. -/
inductive Route where
  /-- A token route plan. -/
  | plan (orderedGroups : List String) (retryOnFailure : Bool)
  /-- An auto route of a token without a stored policy. -/
  | auto (autoGroups : List String) (crossGroupRetry : Bool)
  | group (name : String)
  deriving DecidableEq, Repr

/-- The groups of a route, in order. -/
def Route.groups : Route → List String
  | .plan groups _ => groups
  | .auto groups _ => groups
  | .group name => [name]

/-- Whether the route lets a retry move on to the next group. -/
def Route.crossGroup : Route → Bool
  | .plan _ retryOnFailure => retryOnFailure
  | .auto _ crossGroupRetry => crossGroupRetry
  | .group _ => false

/-- `RetryParam`, with `ContextKeyAutoGroupIndex` and `ContextKeyAutoGroupRetryIndex`. -/
structure RetryParam where
  retry : ℕ
  resetNextTry : Bool
  excludedChannelIDs : List ℤ
  autoGroupIndex : Option ℕ
  autoGroupRetryIndex : Option ℕ
  deriving DecidableEq, Repr

/-- `IncreaseRetry`. -/
def RetryParam.increaseRetry (p : RetryParam) : RetryParam :=
  if p.resetNextTry then { p with resetNextTry := false } else { p with retry := p.retry + 1 }

/-- `ExcludeChannel`. -/
def RetryParam.excludeChannel (p : RetryParam) (id : ℤ) : RetryParam :=
  if id ≤ 0 then p else { p with excludedChannelIDs := id :: p.excludedChannelIDs }

/-- A selected channel, with its group, the position of the group in the route, and the value of
the retry counter it counts as. -/
structure Attempt where
  channel : Channel
  group : String
  groupIndex : ℕ
  retry : ℕ
  priorityRetry : ℕ

/-- The loop over the groups of an auto route, from the group with index `i` on. -/
def autoLoop (retryTimes : ℕ) (crossGroupRetry : Bool) (select : Selector) :
    List String → ℕ → RetryParam → Except SelectError (Option Attempt) × RetryParam
  | [], _, p => (.ok none, p)
  | autoGroup :: groups, i, p =>
      match select.choose autoGroup p.retry p.excludedChannelIDs with
      | .error e => (.error e, p)
      | .ok none =>
          autoLoop retryTimes crossGroupRetry select groups (i + 1)
            { p with autoGroupIndex := some (i + 1), autoGroupRetryIndex := some 0, retry := 0 }
      | .ok (some channel) =>
          (.ok (some ⟨channel, autoGroup, i, p.retry, p.retry⟩),
            if crossGroupRetry ∧ retryTimes ≤ p.retry then
              { p with autoGroupIndex := some (i + 1), retry := 0, resetNextTry := true }
            else { p with autoGroupIndex := some i })

/-- The loop over the groups of a plan, from the group with index `index` on. -/
def planLoop (retryOnFailure : Bool) (select : Selector) :
    List String → ℕ → ℕ → RetryParam → Except SelectError (Option Attempt) × RetryParam
  | [], _, _, p => (.ok none, p)
  | group :: groups, index, groupStartRetry, p =>
      match select.choose group (p.retry - groupStartRetry) p.excludedChannelIDs with
      | .error e => (.error e, p)
      | .ok none =>
          if 0 < p.retry ∧ !retryOnFailure then (.ok none, p)
          else
            -- the next group starts at the present retry
            planLoop retryOnFailure select groups (index + 1) p.retry
              { p with autoGroupIndex := some (index + 1), autoGroupRetryIndex := some p.retry }
      | .ok (some channel) =>
          (.ok (some ⟨channel, group, index, p.retry, p.retry - groupStartRetry⟩),
            if retryOnFailure ∧ groups ≠ [] then
              { p with
                autoGroupIndex := some (index + 1), autoGroupRetryIndex := some (p.retry + 1) }
            else
              { p with autoGroupIndex := some index, autoGroupRetryIndex := some groupStartRetry })

/-- The retry at which the present group of a plan was started. -/
def RetryParam.groupStartRetry (p : RetryParam) : ℕ :=
  let retry := p.autoGroupRetryIndex.getD p.retry
  if retry ≤ p.retry then retry else p.retry

/-- `selectChannelFromTokenRoutePlan`. -/
def selectChannelFromTokenRoutePlan (groups : List String) (retryOnFailure : Bool)
    (select : Selector) (p : RetryParam) : Except SelectError (Option Attempt) × RetryParam :=
  let index := p.autoGroupIndex.getD 0
  let startGroupIndex := if index < groups.length then index else 0
  if groups = [] then (.error .noChannel, p)
  else
    planLoop retryOnFailure select (groups.drop startGroupIndex) startGroupIndex p.groupStartRetry p

/-- `CacheGetRandomSatisfiedChannel`. -/
def cacheGetRandomSatisfiedChannel (retryTimes : ℕ) (route : Route) (select : Selector)
    (p : RetryParam) : Except SelectError (Option Attempt) × RetryParam :=
  match route with
  | .plan groups retryOnFailure => selectChannelFromTokenRoutePlan groups retryOnFailure select p
  | .auto groups crossGroupRetry =>
      if groups = [] then (.error .noChannel, p)
      else
        let startGroupIndex := p.autoGroupIndex.getD 0
        autoLoop retryTimes crossGroupRetry select (groups.drop startGroupIndex) startGroupIndex p
  | .group name =>
      match select.choose name p.retry p.excludedChannelIDs with
      | .error e => (.error e, p)
      | .ok none => (.ok none, p)
      | .ok (some channel) => (.ok (some ⟨channel, name, 0, p.retry, p.retry⟩), p)

/-! ### The request -/

/-- A relay request.  A route has a group, since a policy without one is refused. -/
structure Request where
  setting : Setting
  route : Route
  /-- `ShouldSkipRetryAfterChannelAffinityFailure`. -/
  skipAfterAffinity : Bool
  hasGroup : route.groups ≠ []

/-- How the distributor finds the first channel: the token names it, an earlier request of the
same kind used it, or it is selected. -/
inductive First where
  | pinned (channel : Channel) (positive : 0 < channel.id)
  | affinity (channel : Channel) (positive : 0 < channel.id) (groupIndex : ℕ)
  | selected (select : Selector)

/-- Whether `specific_channel_id` is set. -/
def First.isPinned : First → Bool
  | .pinned _ _ => true
  | _ => false

/-- How an attempt ends. -/
inductive Outcome where
  | success
  /-- The bill could not be prepared or the body not be read. -/
  | stopped
  | failed (e : MaxAPIError)
  deriving DecidableEq, Repr

/-- What the environment does in one turn of the loop. -/
structure Turn where
  select : Selector
  /-- `SetupContextForSelectedChannel` succeeds. -/
  setup : Bool
  outcome : Outcome

/-- The state of the loop.  `first` is the channel that the distributor left in the context. -/
structure RetryLoop where
  param : RetryParam
  first : Option Attempt
  attempts : List Attempt
  ended : Bool

/-- A fresh `RetryParam`, in a context with the given keys. -/
def RetryParam.fresh (autoGroupIndex autoGroupRetryIndex : Option ℕ) : RetryParam :=
  ⟨0, false, [], autoGroupIndex, autoGroupRetryIndex⟩

/-- The loop before its first turn; `none` when the distributor has found no channel. -/
def Request.start (r : Request) : First → Option RetryLoop
  | .pinned channel _ => some ⟨.fresh none none, some ⟨channel, "", 0, 0, 0⟩, [], false⟩
  | .affinity channel _ groupIndex =>
      let keys : RetryParam :=
        match r.route with
        | .plan groups retryOnFailure =>
            if retryOnFailure ∧ groupIndex + 1 < groups.length then
              .fresh (some (groupIndex + 1)) (some 1)
            else .fresh (some groupIndex) (some 0)
        | _ => .fresh none none
      (r.route.groups[groupIndex]?).map fun group =>
        ⟨keys, some ⟨channel, group, groupIndex, 0, 0⟩, [], false⟩
  | .selected select =>
      match cacheGetRandomSatisfiedChannel r.setting.RetryTimes r.route select
          (.fresh none none) with
      | (.ok (some a), p) =>
          some ⟨.fresh p.autoGroupIndex p.autoGroupRetryIndex, some a, [], false⟩
      | _ => none

/-- The rest of a turn, once its channel is there. -/
def Request.attempt (r : Request) (specificChannel : Bool) (s : RetryLoop) (a : Attempt)
    (outcome : Outcome) : RetryLoop :=
  let s := { s with first := none, attempts := s.attempts ++ [a] }
  match outcome with
  | .success | .stopped => { s with ended := true }
  | .failed e =>
      if shouldRetry r.setting r.skipAfterAffinity specificChannel e
          (r.setting.RetryTimes - s.param.retry) then
        { s with param := (s.param.excludeChannel a.channel.id).increaseRetry }
      else { s with ended := true }

/-- One turn of the loop. -/
def Request.turn (r : Request) (specificChannel : Bool) (s : RetryLoop) (t : Turn) : RetryLoop :=
  if s.ended then s
  else if r.setting.RetryTimes < s.param.retry then { s with ended := true }
  else
    match s.first with
    | some a => r.attempt specificChannel s a t.outcome
    | none =>
        match cacheGetRandomSatisfiedChannel r.setting.RetryTimes r.route t.select s.param with
        | (.ok (some a), p) =>
            if t.setup then r.attempt specificChannel { s with param := p } a t.outcome
            else { s with param := p, ended := true }
        | (_, p) => { s with param := p, ended := true }

/-- A run of the loop. -/
def Request.run (r : Request) (first : First) (s : RetryLoop) (turns : List Turn) : RetryLoop :=
  Transition.run (r.turn first.isPinned) s turns

end MaxApi.Relay
