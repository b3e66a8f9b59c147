import MaxApi.BillingExpr.Cache

/-! # The cache of compiled expressions: transparency

In every run the cache stays consistent and within its limit, and no call reads beyond the end of
the order list.  Every call returns what it returns with an empty cache of its own, except that
`UsedVars`, which looks its entry up once more after it has compiled, returns nothing where the
entry has been dropped meanwhile; the runs without such a lookup are exactly the transparent ones
(`cache_transparent_iff`). -/

namespace MaxApi.BillingExpr

open TaskPricing Checked

variable {Program : Type} {lib : Library Program} {digest : String → String}

/-! ### What calls should return -/

/-- The result that does not depend on the cache. -/
def answer (lib : Library Program) : Call → Result Program
  | .compile .compileFromCache exprStr => .program ((compileFresh lib false exprStr).map (·.prog))
  | .compile .taskEntry exprStr => .entry (compileFresh lib true exprStr)
  | .compile .usedVars exprStr =>
      .vars (if exprStr = "" then none
        else (compileFresh lib false exprStr).toOption.map (·.usedVars))
  | .exprVersion exprStr =>
      .version (if exprStr = "" then DefaultExprVersion else (parseExprVersion exprStr).1)
  | .invalidateCache => .done

theorem answer_usedVars (lib : Library Program) (exprStr : String) :
    answer lib (.compile .usedVars exprStr) =
      .vars (if exprStr = "" then none
        else (compileFresh lib false exprStr).toOption.map (·.usedVars)) := rfl

/-- The version of an entry is that of its expression. -/
theorem compileFresh_version {task : Bool} {exprStr : String} {entry : CachedEntry Program}
    (h : compileFresh lib task exprStr = .ok entry) :
    entry.version = (parseExprVersion exprStr).1 := by
  unfold compileFresh at h
  simp only [ok_bind, ok_pure] at h
  obtain ⟨_, _, _, _, rfl⟩ := h
  rfl

/-! ### Keys -/

/-- A digest has sixty-four characters. -/
def HexLength (digest : String → String) : Prop := ∀ s, (digest s).toList.length = 64

theorem cacheKey_inj {exprs : Set String} (hhex : HexLength digest) (hinj : Set.InjOn digest exprs)
    {task task' : Bool} {a b : String} (ha : a ∈ exprs) (hb : b ∈ exprs)
    (h : cacheKey digest task a = cacheKey digest task' b) : task = task' ∧ a = b := by
  have hlen := congrArg (fun s => s.toList.length) h
  unfold cacheKey at h hlen
  cases task <;> cases task' <;>
    simp only [Bool.false_eq_true, if_false, if_true, String.toList_append, List.length_append,
      hhex a, hhex b] at h hlen
  · exact ⟨rfl, hinj ha hb h⟩
  · exact absurd hlen (by decide)
  · exact absurd hlen (by decide)
  · refine ⟨rfl, hinj ha hb ?_⟩
    have := congrArg String.toList h
    simp only [String.toList_append, List.append_cancel_left_eq] at this
    exact String.toList_inj.mp this

/-! ### The invariant -/

/-- Every entry is what compiling its expression gives. -/
def Compiled (lib : Library Program) (digest : String → String) (exprs : Set String)
    (cache : Cache Program) : Prop :=
  ∀ k entry, cache.lookup k = some entry →
    ∃ task, ∃ exprStr ∈ exprs, k = cacheKey digest task exprStr ∧
      compileFresh lib task exprStr = .ok entry

def Call.exprStr : Call → Option String
  | .compile _ exprStr => some exprStr
  | .exprVersion exprStr => some exprStr
  | .invalidateCache => none

/-- The expression of a call, if it has one, is one of `exprs`. -/
def Call.Uses (exprs : Set String) (c : Call) : Prop := ∀ exprStr ∈ c.exprStr, exprStr ∈ exprs

/-- What is known of a call from where it stands. -/
def Fine (lib : Library Program) (c : Call) : Phase Program → Prop
  | .first => True
  | .lookup => ∃ caller exprStr, c = .compile caller exprStr ∧ (caller = .usedVars → exprStr ≠ "")
  | .insert entry => ∃ caller exprStr, c = .compile caller exprStr ∧
      (caller = .usedVars → exprStr ≠ "") ∧ compileFresh lib caller.task exprStr = .ok entry
  | .reread => ∃ exprStr entry, c = .compile .usedVars exprStr ∧ exprStr ≠ "" ∧
      compileFresh lib false exprStr = .ok entry
  | .returned _ => True

/-- The last lookup of `UsedVars` finds nothing. -/
def Misses (digest : String → String) (cache : Cache Program) (c : Call) (phase : Phase Program) :
    Prop :=
  match c, phase with
  | .compile .usedVars exprStr, .reread => cache.lookup (digest exprStr) = none
  | _, _ => False

/-- What a section comes to. -/
structure Section (lib : Library Program) (digest : String → String) (exprs : Set String)
    (cache : Cache Program) (c : Call) (phase : Phase Program) (cache' : Cache Program)
    (phase' : Phase Program) : Prop where
  consistent : cache'.Consistent maxCacheSize
  compiled : Compiled lib digest exprs cache'
  fine : Fine lib c phase'
  /-- The section ends the call with the right answer, or because a lookup missed. -/
  answers : ∀ r, phase' = .returned r → phase = .returned r ∨
    (¬ Misses digest cache c phase ∧ r = answer lib c) ∨
      (Misses digest cache c phase ∧ r ≠ answer lib c)
  ends : Misses digest cache c phase → ∃ r, phase' = .returned r

theorem misses_returned {cache : Cache Program} {c : Call} {r : Result Program} :
    ¬ Misses digest cache c (.returned r) := by
  cases c with
  | compile caller exprStr => cases caller <;> exact id
  | exprVersion exprStr => exact id
  | invalidateCache => exact id

section sections

variable {exprs : Set String} {cache : Cache Program}

/-- A hit is the entry that compiling would give. -/
theorem compiled_hit (hhex : HexLength digest) (hinj : Set.InjOn digest exprs)
    (h : Compiled lib digest exprs cache) {task : Bool} {exprStr : String} (hexpr : exprStr ∈ exprs)
    {entry : CachedEntry Program} (hit : cache.lookup (cacheKey digest task exprStr) = some entry) :
    compileFresh lib task exprStr = .ok entry := by
  obtain ⟨task', exprStr', hexpr', hkey, hfresh⟩ := h _ _ hit
  obtain ⟨rfl, rfl⟩ := cacheKey_inj hhex hinj hexpr hexpr' hkey
  exact hfresh

/-- What a caller does with the right entry, or with the error. -/
theorem afterCompile_fine {caller : Caller} {exprStr : String}
    {r : Except String (CachedEntry Program)}
    (hne : caller = .usedVars → exprStr ≠ "") (hr : compileFresh lib caller.task exprStr = r) :
    Fine lib (.compile caller exprStr) (afterCompile caller r) ∧
      ∀ res, afterCompile caller r = .returned res →
        res = answer lib (.compile caller exprStr) := by
  cases caller with
  | compileFromCache =>
      refine ⟨trivial, ?_⟩
      rintro _ ⟨⟩
      rw [← hr]
      rfl
  | taskEntry =>
      refine ⟨trivial, ?_⟩
      rintro _ ⟨⟩
      rw [← hr]
      rfl
  | usedVars =>
      cases r with
      | error e =>
          refine ⟨trivial, ?_⟩
          rintro _ ⟨⟩
          rw [answer_usedVars, if_neg (hne rfl),
            show compileFresh lib false exprStr = .error e from hr]
          rfl
      | ok entry => exact ⟨⟨exprStr, entry, rfl, hne rfl, hr⟩, nofun⟩

/-- A section that leaves the cache alone and cannot miss. -/
theorem section_same {c : Call} {phase phase' : Phase Program}
    (hcons : cache.Consistent maxCacheSize) (hcomp : Compiled lib digest exprs cache)
    (hfine : Fine lib c phase') (hmiss : ¬ Misses digest cache c phase)
    (hans : ∀ r, phase' = .returned r → r = answer lib c) :
    Section lib digest exprs cache c phase cache phase' :=
  ⟨hcons, hcomp, hfine, fun r hr => Or.inr (Or.inl ⟨hmiss, hans r hr⟩), fun h => absurd h hmiss⟩

/-- **A section** of a call that compiles. -/
theorem compileSection_spec (hhex : HexLength digest) (hinj : Set.InjOn digest exprs)
    (hcons : cache.Consistent maxCacheSize) (hcomp : Compiled lib digest exprs cache)
    {caller : Caller} {exprStr : String} (hexpr : exprStr ∈ exprs) {phase : Phase Program}
    (hfine : Fine lib (.compile caller exprStr) phase) :
    ∃ cache' phase', compileSection lib digest caller exprStr cache phase = (some cache', phase') ∧
      Section lib digest exprs cache (.compile caller exprStr) phase cache' phase' := by
  cases phase with
  | first =>
      cases caller with
      | compileFromCache | taskEntry =>
          exact ⟨cache, .lookup, rfl,
            section_same hcons hcomp ⟨_, _, rfl, nofun⟩ id nofun⟩
      | usedVars =>
          unfold compileSection
          dsimp only
          by_cases hempty : exprStr = ""
          · rw [if_pos hempty]
            refine ⟨cache, _, rfl, section_same hcons hcomp trivial id ?_⟩
            rintro _ ⟨⟩
            rw [answer_usedVars, if_pos hempty]
          · rw [if_neg hempty]
            cases hit : cache.lookup (digest exprStr) with
            | none =>
                exact ⟨cache, .lookup, rfl,
                  section_same hcons hcomp ⟨_, _, rfl, fun _ => hempty⟩ id nofun⟩
            | some entry =>
                refine ⟨cache, _, rfl, section_same hcons hcomp trivial id ?_⟩
                rintro _ ⟨⟩
                have hfresh : compileFresh lib false exprStr = .ok entry :=
                  compiled_hit hhex hinj hcomp hexpr hit
                rw [answer_usedVars, if_neg hempty, hfresh]
                rfl
  | lookup =>
      obtain ⟨_, _, ⟨⟩, hne⟩ := hfine
      unfold compileSection
      dsimp only
      cases hit : cache.lookup (cacheKey digest caller.task exprStr) with
      | some entry =>
          have hafter := afterCompile_fine hne (compiled_hit hhex hinj hcomp hexpr hit)
          exact ⟨cache, _, rfl, section_same hcons hcomp hafter.1 (by cases caller <;> exact id)
            hafter.2⟩
      | none =>
          dsimp only
          cases hfresh : compileFresh lib caller.task exprStr with
          | error e =>
              have hafter := afterCompile_fine hne hfresh
              exact ⟨cache, _, rfl, section_same hcons hcomp hafter.1 (by cases caller <;> exact id)
                hafter.2⟩
          | ok entry =>
              exact ⟨cache, .insert entry, rfl, section_same hcons hcomp
                ⟨caller, exprStr, rfl, hne, hfresh⟩ (by cases caller <;> exact id) nofun⟩
  | insert entry =>
      obtain ⟨_, _, ⟨⟩, hne, hfresh⟩ := hfine
      unfold compileSection
      dsimp only
      cases hit : cache.lookup (cacheKey digest caller.task exprStr) with
      | some cached =>
          have hafter := afterCompile_fine hne (compiled_hit hhex hinj hcomp hexpr hit)
          exact ⟨cache, _, rfl, section_same hcons hcomp hafter.1 (by cases caller <;> exact id)
            hafter.2⟩
      | none =>
          have hafter := afterCompile_fine hne hfresh
          obtain ⟨cache', hput, hcons', _, hold⟩ :=
            Fifo.Cache.exists_put hcons (by decide) hit entry
          have hmiss : ¬ Misses digest cache (.compile caller exprStr) (.insert entry) := by
            cases caller <;> exact id
          refine ⟨cache', afterCompile caller (.ok entry), ?_, hcons', ?_, hafter.1, ?_,
            fun h => absurd h hmiss⟩
          · dsimp only
            rw [hput]
          · intro k b hb
            cases hold k b hb with
            | inl hnew =>
                rw [hnew.1, hnew.2]
                exact ⟨caller.task, exprStr, hexpr, rfl, hfresh⟩
            | inr hb => exact hcomp k b hb
          · intro r hr
            exact Or.inr (Or.inl ⟨hmiss, hafter.2 r hr⟩)
  | reread =>
      obtain ⟨_, entry, ⟨⟩, hempty, hfresh⟩ := hfine
      refine ⟨cache, _, rfl, hcons, hcomp, trivial, ?_, fun _ => ⟨_, rfl⟩⟩
      rintro _ ⟨⟩
      right
      have hanswer : answer lib (.compile .usedVars exprStr) = .vars (some entry.usedVars) := by
        rw [answer_usedVars, if_neg hempty, hfresh]
        rfl
      rw [hanswer]
      cases hit : cache.lookup (digest exprStr) with
      | none => exact Or.inr ⟨hit, nofun⟩
      | some cached =>
          left
          have hsame : compileFresh lib false exprStr = .ok cached :=
            compiled_hit hhex hinj hcomp hexpr hit
          rw [hfresh] at hsame
          cases hsame
          refine ⟨?_, rfl⟩
          intro hmiss
          rw [show cache.lookup (digest exprStr) = none from hmiss] at hit
          cases hit
  | returned r =>
      exact ⟨cache, .returned r, rfl, hcons, hcomp, trivial, fun _ hr => Or.inl hr,
        fun _ => ⟨r, rfl⟩⟩

/-- **A section** keeps the cache right, and ends its call with the right answer unless it
misses. -/
theorem runSection_spec (hhex : HexLength digest) (hinj : Set.InjOn digest exprs)
    (hcons : cache.Consistent maxCacheSize) (hcomp : Compiled lib digest exprs cache) {c : Call}
    (huses : c.Uses exprs) {phase : Phase Program} (hfine : Fine lib c phase) :
    ∃ cache' phase', runSection lib digest cache c phase = (some cache', phase') ∧
      Section lib digest exprs cache c phase cache' phase' := by
  cases c with
  | compile caller exprStr =>
      exact compileSection_spec hhex hinj hcons hcomp (huses exprStr rfl) hfine
  | exprVersion exprStr =>
      cases phase with
      | first =>
          refine ⟨cache, _, rfl, section_same hcons hcomp trivial id ?_⟩
          rintro _ ⟨⟩
          unfold exprVersion answer
          dsimp only
          by_cases hempty : exprStr = ""
          · rw [if_pos hempty, if_pos hempty]
          · rw [if_neg hempty, if_neg hempty]
            cases hit : cache.lookup (digest exprStr) with
            | none => rfl
            | some entry =>
                have hfresh : compileFresh lib false exprStr = .ok entry :=
                  compiled_hit hhex hinj hcomp (huses exprStr rfl) hit
                dsimp only
                rw [compileFresh_version hfresh]
      | returned r =>
          exact ⟨cache, _, rfl, hcons, hcomp, trivial, fun _ hr => Or.inl hr, fun _ => ⟨r, rfl⟩⟩
      | lookup =>
          obtain ⟨_, _, ⟨⟩, _⟩ := hfine
      | insert entry =>
          obtain ⟨_, _, ⟨⟩, _⟩ := hfine
      | reread =>
          obtain ⟨_, _, ⟨⟩, _⟩ := hfine
  | invalidateCache =>
      cases phase with
      | first =>
          refine ⟨.empty, _, rfl, Fifo.Cache.consistent_empty, nofun, trivial, ?_, fun h => h.elim⟩
          rintro _ ⟨⟩
          exact Or.inr (Or.inl ⟨id, rfl⟩)
      | returned r =>
          exact ⟨cache, _, rfl, hcons, hcomp, trivial, fun _ hr => Or.inl hr, fun _ => ⟨r, rfl⟩⟩
      | lookup =>
          obtain ⟨_, _, ⟨⟩, _⟩ := hfine
      | insert entry =>
          obtain ⟨_, _, ⟨⟩, _⟩ := hfine
      | reread =>
          obtain ⟨_, _, ⟨⟩, _⟩ := hfine

end sections

/-! ### Calls with a cache of their own -/

/-- The world of a single call. -/
def single (cache : Cache Program) (c : Call) (phase : Phase Program) : World Program :=
  ⟨cache, [(c, phase)], false⟩

theorem step_single {cache cache' : Cache Program} {c : Call} {phase phase' : Phase Program}
    (h : runSection lib digest cache c phase = (some cache', phase')) :
    step lib digest (single cache c phase) (.advance 0) = single cache' c phase' := by
  unfold step single
  dsimp only [List.getElem?_cons_zero]
  rw [h]
  rfl

theorem lookup_singleton (k : String) (entry : CachedEntry Program) :
    (⟨[(k, entry)], [k]⟩ : Cache Program).lookup k = some entry := by
  unfold Fifo.Cache.lookup
  rw [List.find?_cons_of_pos (by simp)]
  rfl

theorem alone_of_sections {c : Call} {k₁ k₂ k₃ k₄ : Cache Program} {p₁ p₂ p₃ p₄ : Phase Program}
    (h₁ : runSection lib digest .empty c .first = (some k₁, p₁))
    (h₂ : runSection lib digest k₁ c p₁ = (some k₂, p₂))
    (h₃ : runSection lib digest k₂ c p₂ = (some k₃, p₃))
    (h₄ : runSection lib digest k₃ c p₃ = (some k₄, p₄)) : alone lib digest c = some p₄ := by
  unfold alone
  simp only [Transition.run_cons, Transition.run_nil]
  rw [show step lib digest start (.call c) = single .empty c .first from rfl, step_single h₁,
    step_single h₂, step_single h₃, step_single h₄]
  rfl

/-- A call that finds no entry, and compiles. -/
theorem lookup_section (lib : Library Program) (digest : String → String) (caller : Caller)
    (exprStr : String) :
    runSection lib digest .empty (.compile caller exprStr) .lookup =
      match compileFresh lib caller.task exprStr with
      | .error e => (some .empty, afterCompile caller (.error e))
      | .ok entry => (some .empty, .insert entry) := rfl

/-- A call that stores the first entry. -/
theorem insert_section (lib : Library Program) (digest : String → String) (caller : Caller)
    (exprStr : String) (entry : CachedEntry Program) :
    runSection lib digest .empty (.compile caller exprStr) (.insert entry) =
      (some ⟨[(cacheKey digest caller.task exprStr, entry)], [cacheKey digest caller.task exprStr]⟩,
        afterCompile caller (.ok entry)) := rfl

/-- Alone, a call whose result is that of `compileEntry`. -/
theorem alone_compile {caller : Caller} (hcaller : caller ≠ .usedVars) (exprStr : String) :
    alone lib digest (.compile caller exprStr) =
      some (.returned (answer lib (.compile caller exprStr))) := by
  have hfirst : runSection lib digest .empty (.compile caller exprStr) .first =
      (some .empty, .lookup) := by
    cases caller with
    | compileFromCache | taskEntry => rfl
    | usedVars => exact absurd rfl hcaller
  have hlookup := lookup_section lib digest caller exprStr
  have hends : ∀ r, compileFresh lib caller.task exprStr = r →
      afterCompile caller r = .returned (answer lib (.compile caller exprStr)) := by
    intro r hr
    have hres := (afterCompile_fine (fun h => absurd h hcaller) hr).2
    cases caller with
    | compileFromCache | taskEntry => rw [← hres _ rfl]; rfl
    | usedVars => exact absurd rfl hcaller
  cases hfresh : compileFresh lib caller.task exprStr with
  | error e =>
      rw [hfresh] at hlookup
      dsimp only at hlookup
      rw [hends _ hfresh] at hlookup
      exact alone_of_sections hfirst hlookup rfl rfl
  | ok entry =>
      rw [hfresh] at hlookup
      have hinsert := insert_section lib digest caller exprStr entry
      rw [hends _ hfresh] at hinsert
      exact alone_of_sections hfirst hlookup hinsert rfl

theorem alone_usedVars (exprStr : String) :
    alone lib digest (.compile .usedVars exprStr) =
      some (.returned (answer lib (.compile .usedVars exprStr))) := by
  have hfirst : runSection lib digest .empty (.compile .usedVars exprStr) .first =
      if exprStr = "" then (some .empty, .returned (.vars none)) else (some .empty, .lookup) := rfl
  rw [answer_usedVars]
  by_cases hempty : exprStr = ""
  · rw [if_pos hempty] at hfirst ⊢
    exact alone_of_sections hfirst rfl rfl rfl
  rw [if_neg hempty] at hfirst ⊢
  have hlookup := lookup_section lib digest .usedVars exprStr
  cases hfresh : compileFresh lib false exprStr with
  | error e =>
      rw [show compileFresh lib Caller.usedVars.task exprStr = .error e from hfresh] at hlookup
      exact alone_of_sections hfirst hlookup rfl rfl
  | ok entry =>
      rw [show compileFresh lib Caller.usedVars.task exprStr = .ok entry from hfresh] at hlookup
      have hinsert := insert_section lib digest .usedVars exprStr entry
      have hreread : runSection lib digest
          ⟨[(cacheKey digest Caller.usedVars.task exprStr, entry)],
            [cacheKey digest Caller.usedVars.task exprStr]⟩ (.compile .usedVars exprStr) .reread =
          (some ⟨[(cacheKey digest Caller.usedVars.task exprStr, entry)],
            [cacheKey digest Caller.usedVars.task exprStr]⟩,
            .returned (.vars (some entry.usedVars))) := by
        unfold runSection compileSection
        dsimp only
        rw [show digest exprStr = cacheKey digest Caller.usedVars.task exprStr from rfl,
          lookup_singleton]
        rfl
      exact alone_of_sections hfirst hlookup hinsert hreread

/-- **Alone** a call returns its answer. -/
theorem alone_answer (c : Call) : alone lib digest c = some (.returned (answer lib c)) := by
  cases c with
  | invalidateCache => exact alone_of_sections rfl rfl rfl rfl
  | exprVersion exprStr => exact alone_of_sections rfl rfl rfl rfl
  | compile caller exprStr =>
      by_cases hcaller : caller = .usedVars
      · rw [hcaller]
        exact alone_usedVars exprStr
      · exact alone_compile hcaller exprStr

/-! ### Runs -/

/-- Every call that has returned has returned what it returns alone. -/
def Answers (lib : Library Program) (digest : String → String) (w : World Program) : Prop :=
  ∀ c r, (c, .returned r) ∈ w.calls → alone lib digest c = some (.returned r)

/-- The entry that `UsedVars` has compiled is there when it looks it up again. -/
def Kept (digest : String → String) (w : World Program) : Op → Prop
  | .advance i => ∀ c phase, w.calls[i]? = some (c, phase) → ¬ Misses digest w.cache c phase
  | .call _ => True

/-- The cache is consistent and no call has read beyond the end of its order list. -/
def Safe (w : World Program) : Prop := w.cache.Consistent maxCacheSize ∧ w.panicked = false

/-- The expression of an operation, if it has one, is one of `exprs`. -/
def Op.Uses (exprs : Set String) : Op → Prop
  | .call c => c.Uses exprs
  | .advance _ => True

structure Sound (lib : Library Program) (digest : String → String) (exprs : Set String)
    (w : World Program) : Prop where
  safe : Safe w
  compiled : Compiled lib digest exprs w.cache
  uses : ∀ x ∈ w.calls, x.1.Uses exprs
  fine : ∀ x ∈ w.calls, Fine lib x.1 x.2

variable {exprs : Set String}

theorem step_idle {w : World Program} {i : ℕ} (hi : w.calls[i]? = none) :
    step lib digest w (.advance i) = w := by
  unfold step
  dsimp only
  rw [hi]

/-- What a step does to the call that goes on. -/
theorem step_advance (hhex : HexLength digest) (hinj : Set.InjOn digest exprs) {w : World Program}
    (h : Sound lib digest exprs w) {i : ℕ} {c : Call} {phase : Phase Program}
    (hi : w.calls[i]? = some (c, phase)) :
    ∃ cache' phase', step lib digest w (.advance i) =
        { w with cache := cache', calls := w.calls.set i (c, phase') } ∧
      Section lib digest exprs w.cache c phase cache' phase' := by
  have hmem := List.mem_of_getElem? hi
  obtain ⟨cache', phase', hrun, hsection⟩ := runSection_spec hhex hinj h.safe.1 h.compiled
    (h.uses _ hmem) (h.fine _ hmem)
  refine ⟨cache', phase', ?_, hsection⟩
  unfold step
  dsimp only
  rw [hi]
  dsimp only
  rw [hrun]

/-- **A step** keeps the invariant. -/
theorem sound_step (hhex : HexLength digest) (hinj : Set.InjOn digest exprs) {w : World Program}
    {op : Op} (huses : op.Uses exprs) (h : Sound lib digest exprs w) :
    Sound lib digest exprs (step lib digest w op) := by
  cases op with
  | call c =>
      refine ⟨h.safe, h.compiled, ?_, ?_⟩
      · intro x hx
        cases List.mem_append.mp hx with
        | inl hx => exact h.uses x hx
        | inr hx =>
            rw [List.mem_singleton.mp hx]
            exact huses
      · intro x hx
        cases List.mem_append.mp hx with
        | inl hx => exact h.fine x hx
        | inr hx =>
            rw [List.mem_singleton.mp hx]
            trivial
  | advance i =>
      cases hi : w.calls[i]? with
      | none =>
          rw [step_idle hi]
          exact h
      | some x =>
          obtain ⟨c, phase⟩ := x
          obtain ⟨cache', phase', hstep, hsection⟩ := step_advance hhex hinj h hi
          rw [hstep]
          refine ⟨⟨hsection.consistent, h.safe.2⟩, hsection.compiled, ?_, ?_⟩
          · intro x hx
            cases List.mem_or_eq_of_mem_set hx with
            | inl hx => exact h.uses x hx
            | inr hx =>
                rw [hx]
                exact h.uses (c, phase) (List.mem_of_getElem? hi)
          · intro x hx
            cases List.mem_or_eq_of_mem_set hx with
            | inl hx => exact h.fine x hx
            | inr hx =>
                rw [hx]
                exact hsection.fine

/-- **A step** keeps the answers right exactly if its lookup does not miss. -/
theorem answers_step (hhex : HexLength digest) (hinj : Set.InjOn digest exprs) {w : World Program}
    {op : Op} (h : Sound lib digest exprs w) (hanswers : Answers lib digest w) :
    Kept digest w op ↔ Answers lib digest (step lib digest w op) := by
  cases op with
  | call c =>
      apply iff_of_true trivial
      intro c' r hmem
      cases List.mem_append.mp hmem with
      | inl hmem => exact hanswers c' r hmem
      | inr hmem => cases List.mem_singleton.mp hmem
  | advance i =>
      cases hi : w.calls[i]? with
      | none =>
          apply iff_of_true
          · intro c phase hc
            rw [hi] at hc
            cases hc
          · rw [step_idle hi]
            exact hanswers
      | some x =>
          obtain ⟨c, phase⟩ := x
          obtain ⟨cache', phase', hstep, hsection⟩ := step_advance hhex hinj h hi
          rw [hstep]
          have hkept : Kept digest w (.advance i) ↔ ¬ Misses digest w.cache c phase := by
            constructor
            · exact fun hk => hk c phase hi
            · intro hm c' phase' hc
              rw [hi] at hc
              cases hc
              exact hm
          rw [hkept]
          constructor
          · intro hmiss c' r hmem
            cases List.mem_or_eq_of_mem_set hmem with
            | inl hmem => exact hanswers c' r hmem
            | inr heq =>
                obtain ⟨rfl, rfl⟩ := Prod.mk.inj heq
                rcases hsection.answers r rfl with hsame | ⟨_, hr⟩ | ⟨hm, _⟩
                · rw [hsame] at hi
                  exact hanswers c' r (List.mem_of_getElem? hi)
                · rw [hr]
                  exact alone_answer c'
                · exact absurd hm hmiss
          · intro hall hmiss
            obtain ⟨r, hr⟩ := hsection.ends hmiss
            rw [hr] at hall
            obtain ⟨hlt, _⟩ := List.getElem?_eq_some_iff.mp hi
            have halone := hall c r (List.mem_set hlt _)
            rw [alone_answer] at halone
            cases halone
            rcases hsection.answers _ hr with hsame | ⟨hkept, _⟩ | ⟨_, hne⟩
            · rw [hsame] at hmiss
              exact misses_returned hmiss
            · exact hkept hmiss
            · exact hne rfl

/-- **The cache is transparent** exactly in the runs in which no `UsedVars` loses its entry before
it looks it up again.  In every run the cache is consistent, within its limit, and no call reads
beyond the end of the order list. -/
theorem cache_transparent_iff (lib : Library Program) (digest : String → String)
    (exprs : Set String) (hhex : HexLength digest) (hinj : Set.InjOn digest exprs) (ops : List Op)
    (huses : ∀ op ∈ ops, op.Uses exprs) :
    (∀ pre, pre <+: ops → Safe (Transition.run (step lib digest) start pre)) ∧
      (Transition.Throughout (step lib digest) (Kept digest) start ops ↔
        ∀ pre, pre <+: ops →
          Answers lib digest (Transition.run (step lib digest) start pre)) := by
  have hstart : Sound lib digest exprs start :=
    ⟨⟨Fifo.Cache.consistent_empty, rfl⟩, nofun, fun x hx => absurd hx List.not_mem_nil,
      fun x hx => absurd hx List.not_mem_nil⟩
  constructor
  · intro pre hpre
    exact (Transition.run_invariant_mem (step lib digest) pre
      (fun w op hop => sound_step hhex hinj (huses op (hpre.subset hop))) start hstart).safe
  · exact Transition.throughout_iff (step lib digest) ops
      (fun w op hop => sound_step hhex hinj (huses op hop))
      (fun w op _ h hanswers => answers_step hhex hinj h hanswers) start hstart
      (fun c r hmem => absurd hmem List.not_mem_nil)

/-! ### A run with a dropped entry -/

/-- Expressions that are one name. -/
def names : Library String where
  parse body := .ok (.identifier body)
  compile env body := if body ∈ env then .ok body else .error "unknown name"
  node := .identifier

/-- The digest of the text `p`. -/
def digestOfP (s : String) : String :=
  if s = "p" then "148de9c5a7a44d19e56cd9ae1a554bf67847afb0c58f6e12fa29ac7ddfca9940"
  else "0000000000000000000000000000000000000000000000000000000000000000"

/-- The cache is reset while `UsedVars` has compiled and not yet looked again. -/
def resetMeanwhile : List Op :=
  [.call (.compile .usedVars "p"), .advance 0, .advance 0, .advance 0, .call .invalidateCache,
    .advance 1, .advance 0]

/-- Then the names of an expression that compiles are missing. -/
theorem usedVars_lost :
    ¬ Answers names digestOfP (Transition.run (step names digestOfP) start resetMeanwhile) := by
  intro h
  have halone := h (.compile .usedVars "p") (.vars none) (by decide +kernel)
  exact absurd halone (by decide +kernel)

/-- Two calls for one expression, one after the other. -/
def oneAfterTheOther : List Op :=
  [.call (.compile .usedVars "p"), .advance 0, .advance 0, .advance 0, .advance 0,
    .call (.compile .taskEntry "p"), .advance 1, .advance 1]

theorem digestOfP_hex : HexLength digestOfP := by
  intro s
  unfold digestOfP
  split_ifs <;> decide +kernel

/-- Calls one after the other. -/
theorem cache_transparent_sequential :
    Safe (Transition.run (step names digestOfP) start oneAfterTheOther) := by
  apply (cache_transparent_iff names digestOfP {"p"} digestOfP_hex (Set.injOn_singleton _ _)
    oneAfterTheOther _).1 oneAfterTheOther List.prefix_rfl
  intro op hop
  simp only [oneAfterTheOther, List.mem_cons, List.not_mem_nil, or_false] at hop
  rcases hop with rfl | rfl | rfl | rfl | rfl | rfl | rfl | rfl
  all_goals first | trivial | (rintro _ ⟨⟩; rfl)

end MaxApi.BillingExpr
