import MaxApi.RateLimit.InMemory

/-! # The in-memory rate limiter: windows

A call is refused only if the window that ends with it is full, in every run.  That no window holds
too many calls needs a condition: the limiter asks the oldest entry of a queue, which decides for
the window only while the queue is not longer than the limit, and the cleanup drops queues without
asking for the duration of their key (`Sound`, `limiter_enforces`, `limiter_exceeded`). -/

namespace MaxApi.RateLimit

/-! ### The law -/

/-- The calls under a limit in the window that ends with `time`. -/
def callsUnder (admitted : List Admission) (key : String) (maxRequestNum duration time : ℤ) :
    List Admission :=
  admitted.filter fun a => a.key = key ∧ a.maxRequestNum = maxRequestNum ∧
    a.duration = duration ∧ time - duration < a.time ∧ a.time ≤ time

/-- The calls in the window, whatever limit they were made under. -/
def callsIn (admitted : List Admission) (key : String) (duration time : ℤ) : List Admission :=
  admitted.filter fun a => a.key = key ∧ 0 < a.maxRequestNum ∧
    time - duration < a.time ∧ a.time ≤ time

/-- No window holds more calls under a limit than the limit permits. -/
def Enforced (admitted : List Admission) : Prop :=
  ∀ key maxRequestNum duration time, 0 < maxRequestNum →
    ((callsUnder admitted key maxRequestNum duration time).length : ℤ) ≤ maxRequestNum

/-- No call that is over is in the way: a queue longer than the limit is not decided by its oldest
entry against the entry that counts, and the cleanup drops no call that its own duration still
covers. -/
def Sound (w : World) : Op → Prop
  | .request key maxRequestNum duration =>
      ∀ queue, w.limiter.store.lookup key = some queue → 0 < maxRequestNum →
        maxRequestNum < queue.length → duration ≤ w.now - queue.headD 0 →
          ∀ entry, queue[queue.length - maxRequestNum.toNat]? = some entry →
            duration ≤ w.now - entry
  | .clearExpiredItems =>
      ∀ key queue, w.limiter.store.lookup key = some queue →
        w.limiter.expired w.now queue = true → ∀ a ∈ w.admitted, a.key = key →
          0 < a.maxRequestNum → a.duration ≤ w.now - a.time
  | _ => True

/-! ### Queues of times -/

section times

variable {times rest : List ℤ} {entry bound : ℤ}

/-- Only what comes after an entry that is over can be recent. -/
theorem recent_le {before : List ℤ} (hsorted : times.Pairwise (· ≤ ·))
    (heq : times = before ++ entry :: rest) (hover : entry ≤ bound) :
    (times.filter (bound < ·)).length ≤ rest.length := by
  rw [heq] at hsorted ⊢
  obtain ⟨-, -, hbefore⟩ := List.pairwise_append.mp hsorted
  have hnone : before.filter (bound < ·) = [] := by
    rw [List.filter_eq_nil_iff]
    intro x hx hlt
    have hle := hbefore x hx entry List.mem_cons_self
    have hlt := of_decide_eq_true hlt
    omega
  rw [List.filter_append, hnone, List.nil_append, List.filter_cons_of_neg (by simpa using hover)]
  exact List.length_filter_le _ rest

theorem headD_eq_getElem (h : 0 < times.length) : times.headD 0 = times[0] := by
  cases times with
  | nil => exact absurd h (Nat.lt_irrefl 0)
  | cons oldest rest => rfl

/-- If the oldest entry is recent then all are. -/
theorem all_recent (bound : ℤ) (hsorted : times.Pairwise (· ≤ ·)) (hhead : bound < times.headD 0) :
    ∀ x ∈ times, bound < x := by
  cases times with
  | nil => exact fun x hx => absurd hx List.not_mem_nil
  | cons oldest times =>
      intro x hx
      rcases List.mem_cons.mp hx with rfl | hx
      · exact hhead
      · exact Int.lt_of_lt_of_le hhead ((List.pairwise_cons.mp hsorted).1 x hx)

end times

/-! ### What the limiter does -/

namespace InMemoryRateLimiter

variable {l : InMemoryRateLimiter} {key : String} {maxRequestNum duration now : ℤ}

/-- The queue of a key. -/
def queue (l : InMemoryRateLimiter) (key : String) : List ℤ := (l.store.lookup key).getD []

/-- The limiter with another queue for a key. -/
def withQueue (l : InMemoryRateLimiter) (key : String) (queue : List ℤ) : InMemoryRateLimiter :=
  { l with store := l.store.insert key queue }

theorem queue_withQueue (queue : List ℤ) (key' : String) :
    (l.withQueue key queue).queue key' = if key' = key then queue else l.queue key' := by
  unfold InMemoryRateLimiter.queue withQueue
  by_cases hkey : key' = key
  · rw [if_pos hkey, hkey, AList.lookup_insert, Option.getD_some]
  · rw [if_neg hkey, AList.lookup_insert_ne hkey]

theorem request_eq (hmax : 0 < maxRequestNum) :
    l.request key maxRequestNum duration now =
      if ((l.queue key).length : ℤ) < maxRequestNum then
        (l.withQueue key (l.queue key ++ [now]), true)
      else if duration ≤ now - (l.queue key).headD 0 then
        (l.withQueue key ((l.queue key).tail ++ [now]), true)
      else (l, false) := by
  unfold request requestWithRetry queue withQueue
  dsimp only
  rw [if_neg (Int.not_le.mpr hmax)]
  cases l.store.lookup key with
  | none =>
      rw [Option.getD_none, if_pos (by simpa using hmax)]
      rfl
  | some queue =>
      rw [Option.getD_some]
      dsimp only
      by_cases hlength : (queue.length : ℤ) < maxRequestNum
      · rw [if_pos hlength, if_pos hlength]
      · rw [if_neg hlength, if_neg hlength]
        by_cases hover : duration ≤ now - queue.headD 0
        · rw [if_pos hover, if_pos hover]
        · rw [if_neg hover, if_neg hover]

theorem request_unlimited (hmax : maxRequestNum ≤ 0) :
    l.request key maxRequestNum duration now = (l, true) := by
  unfold request requestWithRetry
  dsimp only
  rw [if_pos hmax]

/-- `allow` gives the answer of `request`. -/
theorem allow_eq_request (l : InMemoryRateLimiter) (key : String)
    (maxRequestNum duration now : ℤ) :
    l.allow key maxRequestNum duration now = (l.request key maxRequestNum duration now).2 := by
  unfold allow request requestWithRetry
  dsimp only
  by_cases hmax : maxRequestNum ≤ 0
  · rw [if_pos hmax, if_pos hmax]
  · rw [if_neg hmax, if_neg hmax]
    cases l.store.lookup key with
    | none => rfl
    | some queue =>
        dsimp only
        by_cases hlength : (queue.length : ℤ) < maxRequestNum
        · rw [if_pos hlength, if_pos hlength]
        · rw [if_neg hlength, if_neg hlength]
          by_cases hover : duration ≤ now - queue.headD 0
          · rw [if_pos hover, decide_eq_true hover]
          · rw [if_neg hover, decide_eq_false hover]

/-- The cleanup keeps a queue or drops it. -/
theorem queue_clear (l : InMemoryRateLimiter) (now : ℤ) (key : String) :
    (l.clearExpiredItems now).queue key = l.queue key ∨
      ((l.clearExpiredItems now).queue key = [] ∧
        ∃ queue, l.store.lookup key = some queue ∧ l.expired now queue = true) := by
  have hlookup : ∀ queue, (l.clearExpiredItems now).store.lookup key = some queue ↔
      l.store.lookup key = some queue ∧ l.expired now queue = false := by
    intro queue
    rw [← Option.mem_def, AList.mem_lookup_iff, ← Option.mem_def, AList.mem_lookup_iff]
    unfold clearExpiredItems
    rw [List.mem_filter, Bool.not_eq_true']
  unfold queue
  cases hold : l.store.lookup key with
  | none =>
      left
      cases hnew : (l.clearExpiredItems now).store.lookup key with
      | none => rfl
      | some queue =>
          have := ((hlookup queue).mp hnew).1
          rw [hold] at this
          exact nomatch this
  | some queue =>
      cases hexpired : l.expired now queue with
      | false =>
          left
          rw [(hlookup queue).mpr ⟨hold, hexpired⟩]
      | true =>
          right
          refine ⟨?_, queue, rfl, hexpired⟩
          cases hnew : (l.clearExpiredItems now).store.lookup key with
          | none => rfl
          | some queue' =>
              obtain ⟨hsame, hkept⟩ := (hlookup queue').mp hnew
              rw [hold] at hsame
              rw [Option.some.inj hsame, hkept] at hexpired
              exact nomatch hexpired

end InMemoryRateLimiter

/-! ### The queue and the calls -/

/-- The times of the calls of a key under a limit. -/
def times (admitted : List Admission) (key : String) : List ℤ :=
  (admitted.filter fun a => a.key = key ∧ 0 < a.maxRequestNum).map (·.time)

theorem times_concat (admitted : List Admission) (a : Admission) (key : String) :
    times (admitted ++ [a]) key =
      times admitted key ++ if a.key = key ∧ 0 < a.maxRequestNum then [a.time] else [] := by
  unfold times
  rw [List.filter_append, List.map_append, List.filter_singleton]
  by_cases h : a.key = key ∧ 0 < a.maxRequestNum
  · simp [h]
  · simp [h]

theorem length_callsIn (admitted : List Admission) (key : String) (duration time : ℤ) :
    (callsIn admitted key duration time).length =
      ((times admitted key).filter fun t => time - duration < t ∧ t ≤ time).length := by
  unfold callsIn times
  rw [List.filter_map, List.length_map, List.filter_filter]
  congr 2
  funext a
  simp only [Function.comp_apply, Bool.decide_and]
  cases decide (a.key = key) <;> cases decide (0 < a.maxRequestNum) <;> simp

theorem callsUnder_le_callsIn (admitted : List Admission) (key : String)
    {maxRequestNum : ℤ} (duration time : ℤ) (hmax : 0 < maxRequestNum) :
    (callsUnder admitted key maxRequestNum duration time).length ≤
      (callsIn admitted key duration time).length := by
  refine (List.monotone_filter_right admitted fun a ha => ?_).length_le
  simp only [decide_eq_true_eq] at ha ⊢
  exact ⟨ha.1, ha.2.1 ▸ hmax, ha.2.2.2⟩

/-- A window that ends later holds no more of the calls so far. -/
theorem callsUnder_later {admitted : List Admission} {now time : ℤ} (hle : now ≤ time)
    (hpast : ∀ a ∈ admitted, a.time ≤ now) (key : String) (maxRequestNum duration : ℤ) :
    (callsUnder admitted key maxRequestNum duration time).length ≤
      (callsUnder admitted key maxRequestNum duration now).length := by
  unfold callsUnder
  rw [← List.countP_eq_length_filter, ← List.countP_eq_length_filter]
  refine List.countP_mono_left fun a ha hin => ?_
  have hpast := hpast a ha
  simp only [decide_eq_true_eq] at hin ⊢
  exact ⟨hin.1, hin.2.1, hin.2.2.1, by omega, hpast⟩

/-- The queue of each key is the end of its calls, which are in order. -/
structure Queued (w : World) : Prop where
  sorted : ∀ key, (times w.admitted key).Pairwise (· ≤ ·)
  past : ∀ a ∈ w.admitted, a.time ≤ w.now
  suffix : ∀ key, w.limiter.queue key <:+ times w.admitted key

/-- While a limit has never been reached, the queue has an entry for each call under it that is not
over. -/
def Roomy (w : World) : Prop :=
  ∀ key, ∀ maxRequestNum duration : ℤ, 0 < maxRequestNum →
    maxRequestNum ≤ (w.limiter.queue key).length ∨
      (callsUnder w.admitted key maxRequestNum duration w.now).length ≤
        (w.limiter.queue key).length

section invariant

variable {w : World} {key : String} {maxRequestNum duration : ℤ}

theorem Queued.time_le (h : Queued w) {t : ℤ} (ht : t ∈ times w.admitted key) : t ≤ w.now := by
  obtain ⟨a, ha, rfl⟩ := List.mem_map.mp ht
  exact h.past a (List.mem_of_mem_filter ha)

/-- A refused call is the end of a full window. -/
theorem Queued.refused (h : Queued w) (hlength : maxRequestNum ≤ (w.limiter.queue key).length)
    (hover : ¬duration ≤ w.now - (w.limiter.queue key).headD 0) :
    maxRequestNum ≤ (callsIn w.admitted key duration w.now).length := by
  have hsorted := (h.sorted key).sublist (h.suffix key).sublist
  have hrecent := all_recent (w.now - duration) hsorted (by omega)
  have hall : (w.limiter.queue key).filter (fun t => w.now - duration < t ∧ t ≤ w.now) =
      w.limiter.queue key := by
    rw [List.filter_eq_self]
    intro t ht
    exact decide_eq_true ⟨hrecent t ht, h.time_le ((h.suffix key).mem ht)⟩
  have hle := ((h.suffix key).sublist.filter
    fun t => decide (w.now - duration < t ∧ t ≤ w.now)).length_le
  rw [hall, ← length_callsIn] at hle
  omega

/-- An admitted call does not fill the window beyond the limit. -/
theorem Queued.room (h : Queued w) (hroomy : Roomy w) (hmax : 0 < maxRequestNum)
    (hsound : Sound w (.request key maxRequestNum duration))
    (hadmitted : ((w.limiter.queue key).length : ℤ) < maxRequestNum ∨
      duration ≤ w.now - (w.limiter.queue key).headD 0) :
    ((callsUnder w.admitted key maxRequestNum duration w.now).length : ℤ) < maxRequestNum := by
  by_cases hlength : ((w.limiter.queue key).length : ℤ) < maxRequestNum
  · rcases hroomy key maxRequestNum duration hmax with hfull | hroom
    · omega
    · omega
  · have hover := hadmitted.resolve_left hlength
    obtain ⟨before, hbefore⟩ := h.suffix key
    have hindex : (w.limiter.queue key).length - maxRequestNum.toNat <
        (w.limiter.queue key).length := by omega
    have hsplit := List.drop_eq_getElem_cons hindex
    generalize hentry : (w.limiter.queue key)[(w.limiter.queue key).length -
      maxRequestNum.toNat] = entry at hsplit
    have hentryOver : entry ≤ w.now - duration := by
      by_cases hlonger : maxRequestNum < (w.limiter.queue key).length
      · have hlookup : w.limiter.store.lookup key = some (w.limiter.queue key) := by
          unfold InMemoryRateLimiter.queue at hlonger ⊢
          cases hl : w.limiter.store.lookup key with
          | none =>
              rw [hl] at hlonger
              simp only [Option.getD_none, List.length_nil] at hlonger
              omega
          | some queue => rfl
        have hle := hsound _ hlookup hmax hlonger hover entry
          (List.getElem?_eq_some_iff.mpr ⟨hindex, hentry⟩)
        omega
      · have hzero : (w.limiter.queue key).length - maxRequestNum.toNat = 0 := by omega
        have hhead : (w.limiter.queue key).headD 0 = entry := by
          rw [← hentry, headD_eq_getElem (Nat.zero_lt_of_lt hindex)]
          simp only [hzero]
        omega
    have htimes : times w.admitted key =
        (before ++ (w.limiter.queue key).take
          ((w.limiter.queue key).length - maxRequestNum.toNat)) ++
          entry :: (w.limiter.queue key).drop
            ((w.limiter.queue key).length - maxRequestNum.toNat + 1) := by
      rw [← hsplit, List.append_assoc, List.take_append_drop, hbefore]
    have hrecent := recent_le (h.sorted key) htimes hentryOver
    have hsub : (callsIn w.admitted key duration w.now).length ≤
        ((times w.admitted key).filter (w.now - duration < ·)).length := by
      rw [length_callsIn]
      refine (List.monotone_filter_right _ fun t ht => ?_).length_le
      exact decide_eq_true (of_decide_eq_true ht).1
    have hunder := callsUnder_le_callsIn w.admitted key duration w.now hmax
    rw [List.length_drop] at hrecent
    omega

/-! ### Steps -/

/-- The call is let through: the queue keeps its entries or gives up the oldest one, and gets the
time of the call. -/
structure Admitted (w w' : World) (call : Admission) (kept : List ℤ) : Prop where
  limit_pos : 0 < call.maxRequestNum
  time_eq : call.time = w.now
  now_eq : w'.now = w.now
  admitted_eq : w'.admitted = w.admitted ++ [call]
  queue_eq : ∀ key, w'.limiter.queue key =
    if key = call.key then kept ++ [w.now] else w.limiter.queue key
  suffix : kept <:+ w.limiter.queue call.key
  kept_length : kept = w.limiter.queue call.key ∨
    (kept.length + 1 = (w.limiter.queue call.key).length ∧
      call.maxRequestNum ≤ (w.limiter.queue call.key).length)

variable {w' : World} {call : Admission} {kept : List ℤ}

/-- **Requests.** An unlimited one is let through, and so is one that the queue has room for; a
refused one changes nothing. -/
theorem request_cases (w : World) (key : String) (maxRequestNum duration : ℤ) :
    (maxRequestNum ≤ 0 ∧ step w (.request key maxRequestNum duration) =
        { w with admitted := w.admitted ++ [⟨key, maxRequestNum, duration, w.now⟩] }) ∨
      ((((w.limiter.queue key).length : ℤ) < maxRequestNum ∨
          duration ≤ w.now - (w.limiter.queue key).headD 0) ∧
        ∃ kept, Admitted w (step w (.request key maxRequestNum duration))
          ⟨key, maxRequestNum, duration, w.now⟩ kept) ∨
      ((w.limiter.request key maxRequestNum duration w.now).2 = false ∧
        step w (.request key maxRequestNum duration) = w ∧
        maxRequestNum ≤ (w.limiter.queue key).length ∧
        ¬duration ≤ w.now - (w.limiter.queue key).headD 0) := by
  unfold step
  dsimp only
  by_cases hmax : maxRequestNum ≤ 0
  · rw [InMemoryRateLimiter.request_unlimited hmax]
    exact .inl ⟨hmax, rfl⟩
  · have hpos : 0 < maxRequestNum := by omega
    rw [InMemoryRateLimiter.request_eq hpos]
    by_cases hlength : ((w.limiter.queue key).length : ℤ) < maxRequestNum
    · rw [if_pos hlength]
      exact .inr (.inl ⟨.inl hlength, w.limiter.queue key, hpos, rfl, rfl, rfl,
        fun key' => InMemoryRateLimiter.queue_withQueue _ key', List.suffix_rfl, .inl rfl⟩)
    · rw [if_neg hlength]
      by_cases hover : duration ≤ w.now - (w.limiter.queue key).headD 0
      · rw [if_pos hover]
        refine .inr (.inl ⟨.inr hover, (w.limiter.queue key).tail, hpos, rfl, rfl, rfl,
          fun key' => InMemoryRateLimiter.queue_withQueue _ key', List.tail_suffix _,
            .inr ⟨?_, ?_⟩⟩)
        · dsimp only
          rw [List.length_tail]
          omega
        · dsimp only
          omega
      · rw [if_neg hover]
        exact .inr (.inr ⟨rfl, rfl, by omega, hover⟩)

theorem Admitted.queued (h : Admitted w w' call kept) (hw : Queued w) : Queued w' := by
  have htimes : ∀ key, times w'.admitted key =
      times w.admitted key ++ if key = call.key then [w.now] else [] := by
    intro key
    rw [h.admitted_eq, times_concat, h.time_eq]
    by_cases hkey : key = call.key
    · rw [if_pos hkey, if_pos ⟨hkey.symm, h.limit_pos⟩]
    · rw [if_neg hkey, if_neg fun hc => hkey hc.1.symm]
  refine ⟨fun key => ?_, fun a ha => ?_, fun key => ?_⟩
  · rw [htimes key]
    by_cases hkey : key = call.key
    · rw [if_pos hkey, List.pairwise_append]
      refine ⟨hw.sorted key, List.pairwise_singleton _ _, fun t ht t' ht' => ?_⟩
      rw [List.mem_singleton.mp ht']
      exact hw.time_le ht
    · rw [if_neg hkey, List.append_nil]
      exact hw.sorted key
  · rw [h.now_eq]
    rw [h.admitted_eq] at ha
    rcases List.mem_append.mp ha with ha | ha
    · exact hw.past a ha
    · rw [List.mem_singleton.mp ha]
      exact Int.le_of_eq h.time_eq
  · rw [htimes key, h.queue_eq key]
    by_cases hkey : key = call.key
    · rw [if_pos hkey, if_pos hkey, hkey]
      obtain ⟨before, hbefore⟩ := h.suffix.trans (hw.suffix call.key)
      exact ⟨before, by rw [← hbefore, List.append_assoc]⟩
    · rw [if_neg hkey, if_neg hkey, List.append_nil]
      exact hw.suffix key

theorem callsUnder_concat (admitted : List Admission) (a : Admission) (key : String)
    (maxRequestNum duration time : ℤ) :
    (callsUnder (admitted ++ [a]) key maxRequestNum duration time).length =
      (callsUnder admitted key maxRequestNum duration time).length +
        if a.key = key ∧ a.maxRequestNum = maxRequestNum ∧ a.duration = duration ∧
          time - duration < a.time ∧ a.time ≤ time then 1 else 0 := by
  unfold callsUnder
  rw [List.filter_append, List.length_append, List.filter_singleton]
  congr 1
  by_cases h : a.key = key ∧ a.maxRequestNum = maxRequestNum ∧ a.duration = duration ∧
      time - duration < a.time ∧ a.time ≤ time
  · simp [h]
  · rw [if_neg h, decide_eq_false h]
    rfl

theorem Admitted.roomy (h : Admitted w w' call kept) (hw : Roomy w) : Roomy w' := by
  intro key maxRequestNum duration hmax
  have hroom := hw key maxRequestNum duration hmax
  rw [h.queue_eq key, h.now_eq, h.admitted_eq, callsUnder_concat]
  by_cases hkey : key = call.key
  · rw [if_pos hkey, List.length_append, List.length_singleton]
    rw [hkey] at hroom ⊢
    rcases h.kept_length with hkept | ⟨hkept, hfull⟩
    · rw [hkept]
      split_ifs <;> omega
    · by_cases hlimit : call.maxRequestNum = maxRequestNum
      · left
        omega
      · rw [if_neg fun hc => hlimit hc.2.1]
        omega
  · rw [if_neg hkey, if_neg fun hc => hkey hc.1.symm]
    exact hroom

theorem Admitted.enforced (h : Admitted w w' call kept) (hpast : ∀ a ∈ w.admitted, a.time ≤ w.now)
    (hw : Enforced w.admitted)
    (hroom : ((callsUnder w.admitted call.key call.maxRequestNum call.duration w.now).length : ℤ) <
      call.maxRequestNum) : Enforced w'.admitted := by
  intro key maxRequestNum duration time hmax
  have hbefore := hw key maxRequestNum duration time hmax
  rw [h.admitted_eq, callsUnder_concat]
  split_ifs with hcall
  · obtain ⟨rfl, rfl, rfl, hafter, hle⟩ := hcall
    rw [h.time_eq] at hafter hle
    have hlater := callsUnder_later hle hpast call.key call.maxRequestNum call.duration
    omega
  · omega

/-- What holds in the runs under the condition. -/
structure Safe (w : World) : Prop where
  queued : Queued w
  roomy : Roomy w
  enforced : Enforced w.admitted

theorem queued_step (h : Queued w) (op : Op) : Queued (step w op) := by
  cases op with
  | wait seconds =>
      refine ⟨h.sorted, fun a ha => ?_, h.suffix⟩
      have hpast := h.past a ha
      show a.time ≤ w.now + seconds
      omega
  | request key maxRequestNum duration =>
      rcases request_cases w key maxRequestNum duration with
        ⟨hmax, heq⟩ | ⟨-, kept, hadmitted⟩ | ⟨-, heq, -⟩
      · have htimes : ∀ key', times (w.admitted ++ [⟨key, maxRequestNum, duration, w.now⟩]) key' =
            times w.admitted key' := by
          intro key'
          rw [times_concat, if_neg fun hc => Int.not_lt.mpr hmax hc.2, List.append_nil]
        rw [heq]
        refine ⟨fun key' => ?_, fun a ha => ?_, fun key' => ?_⟩
        · rw [htimes key']
          exact h.sorted key'
        · rcases List.mem_append.mp ha with ha | ha
          · exact h.past a ha
          · exact Int.le_of_eq (congrArg Admission.time (List.mem_singleton.mp ha))
        · rw [htimes key']
          exact h.suffix key'
      · exact hadmitted.queued h
      · rw [heq]
        exact h
  | allow key maxRequestNum duration => exact h
  | clearExpiredItems =>
      refine ⟨h.sorted, h.past, fun key => ?_⟩
      show (w.limiter.clearExpiredItems w.now).queue key <:+ _
      rcases InMemoryRateLimiter.queue_clear w.limiter w.now key with
        heq | ⟨heq, -⟩
      · rw [heq]
        exact h.suffix key
      · rw [heq]
        exact List.nil_suffix

/-- **One step.** Under the condition the windows stay within their limits. -/
theorem safe_step (w : World) (op : Op) (hsound : Sound w op) (h : Safe w) :
    Safe (step w op) := by
  have hqueued := queued_step h.queued op
  cases op with
  | wait seconds =>
      refine ⟨hqueued, fun key maxRequestNum duration hmax => ?_, h.enforced⟩
      refine (h.roomy key maxRequestNum duration hmax).imp_right fun hroom => ?_
      have hlater : w.now ≤ w.now + seconds := by omega
      exact Nat.le_trans (callsUnder_later hlater h.queued.past key maxRequestNum duration) hroom
  | request key maxRequestNum duration =>
      rcases request_cases w key maxRequestNum duration with
        ⟨hmax, heq⟩ | ⟨hroom, kept, hadmitted⟩ | ⟨-, heq, -⟩
      · have hsame : ∀ key' (max' duration' time : ℤ), 0 < max' →
            (callsUnder (w.admitted ++ [⟨key, maxRequestNum, duration, w.now⟩]) key' max'
              duration' time).length = (callsUnder w.admitted key' max' duration' time).length := by
          intro key' max' duration' time hpos
          rw [callsUnder_concat, if_neg, Nat.add_zero]
          rintro ⟨-, hlimit, -⟩
          dsimp only at hlimit
          omega
        rw [heq] at hqueued ⊢
        refine ⟨hqueued, fun key' max' duration' hpos => ?_,
          fun key' max' duration' time hpos => ?_⟩
        · dsimp only
          rw [hsame key' max' duration' w.now hpos]
          exact h.roomy key' max' duration' hpos
        · dsimp only
          rw [hsame key' max' duration' time hpos]
          exact h.enforced key' max' duration' time hpos
      · have hmax := hadmitted.limit_pos
        have hfew := h.queued.room h.roomy hmax hsound hroom
        exact ⟨hqueued, hadmitted.roomy h.roomy,
          hadmitted.enforced h.queued.past h.enforced hfew⟩
      · rw [heq]
        exact h
  | allow key maxRequestNum duration => exact h
  | clearExpiredItems =>
      refine ⟨hqueued, fun key maxRequestNum duration hmax => ?_, h.enforced⟩
      show maxRequestNum ≤ ((w.limiter.clearExpiredItems w.now).queue key).length ∨ _ ≤
        ((w.limiter.clearExpiredItems w.now).queue key).length
      rcases InMemoryRateLimiter.queue_clear w.limiter w.now key with
        heq | ⟨-, queue, hlookup, hexpired⟩
      · rw [heq]
        exact h.roomy key maxRequestNum duration hmax
      · have hover := hsound key queue hlookup hexpired
        have hnone : callsUnder w.admitted key maxRequestNum duration w.now = [] := by
          unfold callsUnder
          rw [List.filter_eq_nil_iff]
          intro a ha hin
          obtain ⟨hkey, hlimit, hduration, hafter, -⟩ := of_decide_eq_true hin
          have hover := hover a ha hkey (hlimit ▸ hmax)
          omega
        right
        show (callsUnder w.admitted key maxRequestNum duration w.now).length ≤ _
        rw [hnone]
        exact Nat.zero_le _

end invariant

theorem initial_queued (expirationDuration now : ℤ) : Queued (initial expirationDuration now) :=
  ⟨fun _ => List.Pairwise.nil, fun _ ha => absurd ha List.not_mem_nil, fun _ => List.nil_suffix⟩

/-! ### Main result -/

/-- **Main.** In every run a call is refused only if its window is full, and `allow` gives the
answer that `request` would give and records nothing.  In the runs under the condition no window
holds more calls than the limit they were made under. -/
theorem limiter_enforces (expirationDuration now : ℤ) (ops : List Op) :
    let w := Transition.run step (initial expirationDuration now) ops
    (Transition.Throughout step Sound (initial expirationDuration now) ops →
      Enforced w.admitted) ∧
      (∀ key maxRequestNum duration,
        (w.limiter.request key maxRequestNum duration w.now).2 = false →
          maxRequestNum ≤ (callsIn w.admitted key duration w.now).length) ∧
      ∀ key maxRequestNum duration,
        w.limiter.allow key maxRequestNum duration w.now =
            (w.limiter.request key maxRequestNum duration w.now).2 ∧
          step w (.allow key maxRequestNum duration) = w := by
  intro w
  have hqueued : Queued w := Transition.run_invariant step (I := Queued)
    (fun w op h => queued_step h op) ops _ (initial_queued expirationDuration now)
  refine ⟨fun hsound => ?_, fun key maxRequestNum duration hrefused => ?_, fun key max duration =>
    ⟨InMemoryRateLimiter.allow_eq_request _ key max duration w.now, rfl⟩⟩
  · refine (Transition.throughout_invariant step (I := Safe) safe_step ops _ hsound ?_).enforced
    refine ⟨initial_queued expirationDuration now, fun _ _ _ _ => .inr (Nat.le_refl 0), ?_⟩
    exact fun _ max _ _ hmax => Int.le_of_lt hmax
  · have hpos : 0 < maxRequestNum := by
      by_contra hmax
      rw [InMemoryRateLimiter.request_unlimited (Int.not_lt.mp hmax)] at hrefused
      exact nomatch hrefused
    rw [InMemoryRateLimiter.request_eq hpos] at hrefused
    split_ifs at hrefused with hlength hover
    exact hqueued.refused (Int.not_lt.mp hlength) hover

/-! ### Two runs -/

theorem sound_request_iff {w : World} {key : String} {maxRequestNum duration : ℤ} :
    Sound w (.request key maxRequestNum duration) ↔
      ∀ queue ∈ w.limiter.store.lookup key, 0 < maxRequestNum → maxRequestNum < queue.length →
        duration ≤ w.now - queue.headD 0 →
          ∀ entry ∈ queue[queue.length - maxRequestNum.toNat]?, duration ≤ w.now - entry := Iff.rfl

theorem sound_cleanup_iff {w : World} :
    Sound w .clearExpiredItems ↔
      ∀ item ∈ w.limiter.store.entries, w.limiter.expired w.now item.2 = true →
        ∀ a ∈ w.admitted, a.key = item.1 → 0 < a.maxRequestNum → a.duration ≤ w.now - a.time :=
  ⟨fun h item hitem => h item.1 item.2 (AList.mem_lookup_iff.mpr hitem),
    fun h key queue hqueue => h ⟨key, queue⟩ (AList.mem_lookup_iff.mp hqueue)⟩

instance (w : World) : (op : Op) → Decidable (Sound w op)
  | .wait _ => .isTrue trivial
  | .request _ _ _ => decidable_of_iff' _ sound_request_iff
  | .allow _ _ _ => .isTrue trivial
  | .clearExpiredItems => decidable_of_iff' _ sound_cleanup_iff

/-- Calls up to a limit and beyond it, a minute later under a limit that was raised, and after a
cleanup. -/
def raisedLimit : List Op :=
  [.request "user" 2 60, .wait 30, .request "user" 2 60, .request "user" 2 60,
    .request "other" 1 600, .wait 40, .request "user" 2 60, .request "user" 3 60,
    .request "user" 3 60, .wait 1300, .clearExpiredItems, .request "user" 3 60]

/-- Five of the seven calls of a user are let through, and no window holds too many of them. -/
theorem limiter_enforces_raised :
    Enforced (Transition.run step (initial 1200 0) raisedLimit).admitted ∧
      (callsIn (Transition.run step (initial 1200 0) raisedLimit).admitted "user" 1371
        1370).length = 5 :=
  ⟨(limiter_enforces 1200 0 raisedLimit).1 (by decide +kernel), by decide +kernel⟩

/-- Two calls at one time, and after a minute two more under a limit that was lowered to one; and a
call under a limit of half an hour, before and after a cleanup that does not ask for it. -/
theorem limiter_exceeded :
    ¬Enforced (Transition.run step (initial 1200 0)
        [.request "user" 2 60, .request "user" 2 60, .wait 60, .request "user" 1 60,
          .request "user" 1 60]).admitted ∧
      ¬Enforced (Transition.run step (initial 1200 0)
        [.request "user" 1 1800, .wait 1201, .clearExpiredItems,
          .request "user" 1 1800]).admitted := by
  refine ⟨fun h => ?_, fun h => ?_⟩
  · exact absurd (h "user" 1 60 60 (by decide)) (by decide +kernel)
  · exact absurd (h "user" 1 1800 1201 (by decide)) (by decide +kernel)

end MaxApi.RateLimit
