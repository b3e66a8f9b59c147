import MaxApi.Lib.Fifo
import MaxApi.Lib.System
import MaxApi.TaskPricing.Expression

/-! # The cache of compiled expressions

Token and task expressions share one cache of compiled programs, whose keys are digests.  Every
section under the lock is a step of its own; between two sections of a call the sections of other
calls may run.  The expression library (`Library`) and the digest are parameters. -/

namespace MaxApi.BillingExpr

open TaskPricing Checked

def maxCacheSize : ℕ := 256

/-! ### Compilation -/

/-- What the expression library makes of a text: its syntax tree, and, for an environment, the
program with the tree that is left after optimization. -/
structure Library (Program : Type) where
  parse : String → Except String Node
  compile : List String → String → Except String Program
  node : Program → Node

/-- The names an expression may refer to. -/
def compileEnvPrototypeV1 : List String :=
  ["p", "c", "len", "cr", "cc", "cc1h", "img", "img_o", "ai", "ao", "tier", "header", "param",
    "has", "hour", "minute", "weekday", "month", "day", "max", "min", "abs", "ceil", "floor"]

/-- There is one environment for all versions. -/
def getCompileEnv (_version : ℕ) : List String := compileEnvPrototypeV1

def taskCompileEnv (base : List String) : List String :=
  base.filter (· ∉ taskTokenVariables) ++ ["u"]

structure CachedEntry (Program : Type) where
  prog : Program
  usedVars : List String
  version : ℕ
  usageKeys : List String
  deriving DecidableEq

section compilation

variable {Program : Type} (lib : Library Program)

def identifierName : Node → Option String
  | .identifier value => some value
  | _ => none

def extractUsedVars (prog : Program) : List String :=
  ((lib.node prog).nodes.filterMap identifierName).dedup

/-- The part of `compileEntry` that concerns task expressions. -/
def taskUsageKeysOf (task : Bool) (body : String) : Except String (List String) :=
  if task then
    match lib.parse body with
    | .error e => .error ("task expression parse: " ++ e)
    | .ok node => inspectTaskExpression node
  else .ok []

/-- `compileEntry` between its two sections. -/
def compileFresh (task : Bool) (exprStr : String) : Except String (CachedEntry Program) := do
  let (version, body) := parseExprVersion exprStr
  let usageKeys ← taskUsageKeysOf lib task body
  let env := getCompileEnv version
  let prog ← (lib.compile (if task then taskCompileEnv env else env) body).mapError
    ("expr compile error: " ++ ·)
  pure ⟨prog, extractUsedVars lib prog, version, usageKeys⟩

end compilation

/-- The key of an expression; task expressions have keys of their own. -/
def cacheKey (digest : String → String) (task : Bool) (exprStr : String) : String :=
  if task then taskExpressionProfile ++ ":" ++ digest exprStr else digest exprStr

/-! ### Calls -/

/-- The functions that compile through the cache. -/
inductive Caller where
  | compileFromCache
  | usedVars
  | taskEntry
  deriving DecidableEq

def Caller.task : Caller → Bool
  | .taskEntry => true
  | _ => false

inductive Call where
  | compile (caller : Caller) (exprStr : String)
  | exprVersion (exprStr : String)
  | invalidateCache
  deriving DecidableEq

/-- What a call returns; `vars none` is `nil`. -/
inductive Result (Program : Type) where
  | program (r : Except String Program)
  | entry (r : Except String (CachedEntry Program))
  | vars (r : Option (List String))
  | version (v : ℕ)
  | done
  deriving DecidableEq

/-- Where a call stands: before its first section, before the lookup or the insertion of
`compileEntry`, before the last lookup of `UsedVars`, or at its end. -/
inductive Phase (Program : Type) where
  | first
  | lookup
  | insert (entry : CachedEntry Program)
  | reread
  | returned (r : Result Program)
  deriving DecidableEq

abbrev Cache (Program : Type) := Fifo.Cache String (CachedEntry Program)

section sections

variable {Program : Type} (lib : Library Program) (digest : String → String)

/-- What the caller does with the result of `compileEntry`. -/
def afterCompile (caller : Caller) (r : Except String (CachedEntry Program)) : Phase Program :=
  match caller with
  | .compileFromCache => .returned (.program (r.map (·.prog)))
  | .taskEntry => .returned (.entry r)
  | .usedVars =>
      match r with
      | .error _ => .returned (.vars none)
      | .ok _ => .reread

/-- The next section of a call of a function that compiles; there is no cache after a read beyond
the end of the order list. -/
def compileSection (caller : Caller) (exprStr : String) (cache : Cache Program) :
    Phase Program → Option (Cache Program) × Phase Program
  | .first =>
      match caller with
      | .usedVars =>
          if exprStr = "" then (some cache, .returned (.vars none))
          else
            match cache.lookup (digest exprStr) with
            | some entry => (some cache, .returned (.vars (some entry.usedVars)))
            | none => (some cache, .lookup)
      | _ => (some cache, .lookup)
  | .lookup =>
      match cache.lookup (cacheKey digest caller.task exprStr) with
      | some entry => (some cache, afterCompile caller (.ok entry))
      | none =>
          match compileFresh lib caller.task exprStr with
          | .error e => (some cache, afterCompile caller (.error e))
          | .ok entry => (some cache, .insert entry)
  | .insert entry =>
      match cache.lookup (cacheKey digest caller.task exprStr) with
      | some cached => (some cache, afterCompile caller (.ok cached))
      | none =>
          (cache.put maxCacheSize (cacheKey digest caller.task exprStr) entry,
            afterCompile caller (.ok entry))
  | .reread =>
      (some cache, .returned (.vars ((cache.lookup (digest exprStr)).map (·.usedVars))))
  | .returned r => (some cache, .returned r)

/-- `ExprVersion`. -/
def exprVersion (exprStr : String) (cache : Cache Program) : ℕ :=
  if exprStr = "" then DefaultExprVersion
  else
    match cache.lookup (digest exprStr) with
    | some entry => entry.version
    | none => (parseExprVersion exprStr).1

/-- The next section of a call. -/
def runSection (cache : Cache Program) (call : Call) (phase : Phase Program) :
    Option (Cache Program) × Phase Program :=
  match call, phase with
  | .compile caller exprStr, phase => compileSection lib digest caller exprStr cache phase
  | .exprVersion exprStr, .first =>
      (some cache, .returned (.version (exprVersion digest exprStr cache)))
  | .invalidateCache, .first => (some .empty, .returned .done)
  | _, phase => (some cache, phase)

end sections

/-! ### The system -/

/-- The cache, the calls so far, and whether one has read beyond the end of the order list. -/
structure World (Program : Type) where
  cache : Cache Program
  calls : List (Call × Phase Program)
  panicked : Bool

/-- A new call, or the next section of the call at a position. -/
inductive Op where
  | call (c : Call)
  | advance (i : ℕ)
  deriving DecidableEq

section system

variable {Program : Type} (lib : Library Program) (digest : String → String)

def step (w : World Program) : Op → World Program
  | .call c => { w with calls := w.calls ++ [(c, .first)] }
  | .advance i =>
      match w.calls[i]? with
      | none => w
      | some (c, phase) =>
          match runSection lib digest w.cache c phase with
          | (none, phase) => { w with calls := w.calls.set i (c, phase), panicked := true }
          | (some cache, phase) => { w with cache := cache, calls := w.calls.set i (c, phase) }

/-- Before the first call the cache is empty. -/
def start : World Program := ⟨.empty, [], false⟩

/-- Where a call ends that has an empty cache of its own. -/
def alone (c : Call) : Option (Phase Program) :=
  (Transition.run (step lib digest) start
    [.call c, .advance 0, .advance 0, .advance 0, .advance 0]).calls.head?.map (·.2)

end system

end MaxApi.BillingExpr
