import MaxApi.Lib.Dict
import MaxApi.Lib.System

/-! # The in-memory rate limiter

The limiter keeps a queue of times for each key, the oldest first.  Beside it stand a clock, in
whole seconds as the limiter reads it, and the list of the calls that were let through. -/

namespace MaxApi.RateLimit

/-- The limiter, with its expiration in seconds. -/
structure InMemoryRateLimiter where
  store : Dict (List ℤ)
  expirationDuration : ℤ

namespace InMemoryRateLimiter

variable (l : InMemoryRateLimiter)

/-- The queue is one that the cleanup deletes. -/
def expired (now : ℤ) (queue : List ℤ) : Bool :=
  match queue.getLast? with
  | none => true
  | some newest => decide (l.expirationDuration < now - newest)

/-- One tick of the cleanup. -/
def clearExpiredItems (now : ℤ) : InMemoryRateLimiter :=
  { l with
    store := ⟨l.store.entries.filter fun item => !l.expired now item.2,
      l.store.nodupKeys.sublist List.filter_sublist⟩ }

/-- The answer, and the seconds to wait if it is no. -/
def requestWithRetry (key : String) (maxRequestNum duration now : ℤ) :
    InMemoryRateLimiter × Bool × ℤ :=
  if maxRequestNum ≤ 0 then (l, true, 0)
  else
    match l.store.lookup key with
    | some queue =>
        if (queue.length : ℤ) < maxRequestNum then
          ({ l with store := l.store.insert key (queue ++ [now]) }, true, 0)
        -- the queue has an entry here, because `maxRequestNum` is positive
        else if duration ≤ now - queue.headD 0 then
          ({ l with store := l.store.insert key (queue.tail ++ [now]) }, true, 0)
        else (l, false, max 1 (duration - (now - queue.headD 0)))
    | none => ({ l with store := l.store.insert key [now] }, true, 0)

def request (key : String) (maxRequestNum duration now : ℤ) : InMemoryRateLimiter × Bool :=
  let answer := l.requestWithRetry key maxRequestNum duration now
  (answer.1, answer.2.1)

def allow (key : String) (maxRequestNum duration now : ℤ) : Bool :=
  if maxRequestNum ≤ 0 then true
  else
    match l.store.lookup key with
    | some queue =>
        if (queue.length : ℤ) < maxRequestNum then true
        else decide (duration ≤ now - queue.headD 0)
    | none => true

end InMemoryRateLimiter

/-! ### Runs -/

/-- A call that was let through, with the limit it was made under. -/
structure Admission where
  key : String
  maxRequestNum : ℤ
  duration : ℤ
  time : ℤ
  deriving DecidableEq

structure World where
  limiter : InMemoryRateLimiter
  now : ℤ
  admitted : List Admission

/-- After `Init`. -/
def initial (expirationDuration now : ℤ) : World := ⟨⟨∅, expirationDuration⟩, now, []⟩

inductive Op where
  | wait (seconds : ℕ)
  | request (key : String) (maxRequestNum duration : ℤ)
  | allow (key : String) (maxRequestNum duration : ℤ)
  | clearExpiredItems
  deriving DecidableEq

def step (w : World) : Op → World
  | .wait seconds => { w with now := w.now + seconds }
  | .request key maxRequestNum duration =>
      match w.limiter.request key maxRequestNum duration w.now with
      | (limiter, true) =>
          { w with
            limiter := limiter
            admitted := w.admitted ++ [⟨key, maxRequestNum, duration, w.now⟩] }
      | (limiter, false) => { w with limiter := limiter }
  | .allow _ _ _ => w
  | .clearExpiredItems => { w with limiter := w.limiter.clearExpiredItems w.now }

end MaxApi.RateLimit
