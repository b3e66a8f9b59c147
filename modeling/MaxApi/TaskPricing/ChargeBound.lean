import MaxApi.TaskPricing.Snapshot
import Mathlib.Algebra.Order.Field.Rat
import Mathlib.Tactic.Positivity
import Mathlib.Tactic.GCongr

/-! # The frozen charge bound is sound

Facts that agree on the frozen request facts, and of which one map has the larger numbers wherever
the expression looks, give the larger price to that map (`eval_mono`).  The endpoint of a bound
has the larger numbers than any facts that complete the task (`dominated_endpoint`). -/

namespace MaxApi.TaskPricing

open Checked

/-! ### The facts an expression refers to -/

/-- Nothing is forgotten from one node to the next. -/
theorem inspectNode_mono {found : Inspection} {node : Node}
    (h : (inspectNode found node).invalid = none) :
    found.invalid = none ∧ found.keys ⊆ (inspectNode found node).keys := by
  unfold inspectNode at h ⊢
  split
  all_goals grind

/-- A call of the accessor that the inspection accepts is recorded. -/
theorem inspectNode_usageKey {found : Inspection} {node : Node} {key : String}
    (h : (inspectNode found node).invalid = none) (hkey : usageKey node = some key) :
    key ∈ (inspectNode found node).keys := by
  unfold usageKey at hkey
  split at hkey
  · next literal =>
    obtain rfl := Option.some.inj hkey
    unfold inspectNode at h ⊢
    simp only [List.mem_cons, String.reduceEq, List.not_mem_nil, or_self, if_false, if_true] at h ⊢
    split
    · next hblank => simp [hblank] at h
    · simp
  · simp at hkey

theorem foldl_inspectNode {nodes : List Node} :
    ∀ {found : Inspection}, (nodes.foldl inspectNode found).invalid = none →
      found.invalid = none ∧ found.keys ⊆ (nodes.foldl inspectNode found).keys ∧
        ∀ n ∈ nodes, ∀ key, usageKey n = some key →
          key ∈ (nodes.foldl inspectNode found).keys := by
  induction nodes with
  | nil => exact fun h => ⟨h, fun _ hk => hk, fun n hn => absurd hn List.not_mem_nil⟩
  | cons node nodes ih =>
      intro found h
      rw [List.foldl_cons] at h ⊢
      obtain ⟨hinvalid, hsub, hall⟩ := ih h
      obtain ⟨hfound, hkeys⟩ := inspectNode_mono hinvalid
      refine ⟨hfound, fun k hk => hsub (hkeys hk), ?_⟩
      intro n hn key hkey
      rcases List.mem_cons.mp hn with rfl | hn
      · exact hsub (inspectNode_usageKey hinvalid hkey)
      · exact hall n hn key hkey

/-- An inspection finds the key of every call of the accessor. -/
theorem mem_taskUsageKeys {node n : Node} {keys : List String} {key : String}
    (h : inspectTaskExpression node = .ok keys) (hn : n ∈ node.nodes)
    (hkey : usageKey n = some key) : key ∈ keys := by
  unfold inspectTaskExpression at h
  dsimp only at h
  split at h
  · exact absurd h ok_throw
  · next hinvalid =>
    simp only [ok_bind, ok_pure] at h
    obtain ⟨_, _, rfl⟩ := h
    rw [List.mem_insertionSort, List.mem_dedup]
    exact (foldl_inspectNode hinvalid).2.2 n hn key hkey

/-- A node is the last one of its own nodes. -/
theorem mem_nodes (node : Node) : node ∈ node.nodes := by
  cases node <;> simp [Node.nodes]

/-! ### Facts in order -/

variable {host : Host} {c : TaskFactContract} {keys : List String}

/-- The request facts agree, and each number that is referred to is at most the other one. -/
structure Dominated (c : TaskFactContract) (keys : List String) (usage bound : TaskPricingFacts) :
    Prop where
  request : ∀ name, (policyOf c name).phase = .request → usage.lookup name = bound.lookup name
  number : ∀ name ∈ keys, typeOf c name = .number → ∀ v, usage.lookup name = some v →
    ∃ n, v = .number n ∧ 0 ≤ n ∧ ∀ v', bound.lookup name = some v' → ∃ m, v' = .number m ∧ n ≤ m

/-- The same quote for other facts. -/
def TaskQuoteInput.withUsage (input : TaskQuoteInput) (usage : TaskPricingFacts) :
    TaskQuoteInput := { input with usage := usage }

/-- A frozen operand has the same value for facts that agree on the request facts. -/
theorem eval_frozenScalar {input : TaskQuoteInput} {usage bound : TaskPricingFacts}
    (h : ∀ name, (policyOf c name).phase = .request → usage.lookup name = bound.lookup name)
    {node : Node} (hnode : frozenScalar c node) :
    eval host (input.withUsage usage) node = eval host (input.withUsage bound) node := by
  unfold frozenScalar at hnode
  split at hnode
  · rfl
  · rfl
  · rfl
  · rfl
  · split at hnode
    · next key hkey =>
      unfold usageKey at hkey
      split at hkey
      · obtain rfl := Option.some.inj hkey
        have hphase := of_decide_eq_true hnode
        unfold eval
        simp only [usageKey, TaskQuoteInput.withUsage, h _ hphase]
      · simp at hkey
    · simp at hnode

/-- A frozen condition has the same value for facts that agree on the request facts. -/
theorem eval_frozenCondition {input : TaskQuoteInput} {usage bound : TaskPricingFacts}
    (h : ∀ name, (policyOf c name).phase = .request → usage.lookup name = bound.lookup name) :
    ∀ {node : Node}, frozenCondition c node →
      eval host (input.withUsage usage) node = eval host (input.withUsage bound) node
  | .bool _, _ => rfl
  | .call callee arguments, hnode => by
      unfold frozenCondition at hnode
      split at hnode
      · next key hkey =>
        have hphase := (of_decide_eq_true hnode).1
        unfold eval
        simp only [hkey, TaskQuoteInput.withUsage, h _ hphase]
      · simp at hnode
  | .unary operator node, hnode => by
      unfold frozenCondition at hnode
      rw [Bool.and_eq_true, decide_eq_true_iff] at hnode
      obtain ⟨rfl, hnode⟩ := hnode
      unfold eval
      rw [eval_frozenCondition h hnode]
  | .binary operator left right, hnode => by
      have hscalars : frozenScalar c left && frozenScalar c right →
          eval host (input.withUsage usage) left = eval host (input.withUsage bound) left ∧
            eval host (input.withUsage usage) right = eval host (input.withUsage bound) right := by
        intro hboth
        rw [Bool.and_eq_true] at hboth
        exact ⟨eval_frozenScalar h hboth.1, eval_frozenScalar h hboth.2⟩
      unfold frozenCondition at hnode
      unfold eval
      cases operator with
      | and =>
          rw [Bool.and_eq_true] at hnode
          simp only [eval_frozenCondition h hnode.1, eval_frozenCondition h hnode.2]
      | or =>
          rw [Bool.and_eq_true] at hnode
          simp only [eval_frozenCondition h hnode.1, eval_frozenCondition h hnode.2]
      | eq => simp only [hscalars hnode]
      | ne => simp only [hscalars hnode]
      | gt => simp only [hscalars hnode]
      | ge => simp only [hscalars hnode]
      | lt => simp only [hscalars hnode]
      | le => simp only [hscalars hnode]
      | add => simp at hnode
      | mul => simp at hnode
      | div => simp at hnode
      | other name => simp at hnode

/-! ### Values in order -/

/-- A value that is a float. -/
def Value.isFloat : Value → Bool
  | .float _ => true
  | _ => false

/-- Two non-negative numbers in order; both are floats where `floating` is set. -/
structure Below (host : Host) (floating : Bool) (a b : Value) : Prop where
  numbers : ∃ x y, a.number host = some x ∧ b.number host = some y ∧ 0 ≤ x ∧ x ≤ y
  floats : floating → a.isFloat ∧ b.isFloat

/-- An operation that is monotone on non-negative numbers keeps values in order; it works on
floats because one operand is a float on either side. -/
theorem below_arith {onInt : ℤ → ℤ → ℤ} {onFloat : ℚ → ℚ → ℚ} {lf rf : Bool}
    {a b a' b' v v' : Value}
    (hop : ∀ x y x' y' : ℚ, 0 ≤ x → x ≤ x' → 0 ≤ y → y ≤ y' →
      0 ≤ onFloat x y ∧ onFloat x y ≤ onFloat x' y')
    (hfloat : lf || rf) (ha : Below host lf a a') (hb : Below host rf b b')
    (hv : arith host onInt onFloat a b = .ok v) (hv' : arith host onInt onFloat a' b' = .ok v') :
    Below host true v v' := by
  obtain ⟨⟨x, x', hx, hx', hx0, hxx⟩, hlf⟩ := ha
  obtain ⟨⟨y, y', hy, hy', hy0, hyy⟩, hrf⟩ := hb
  have heval : ∀ {a b : Value} {x y : ℚ}, a.number host = some x → b.number host = some y →
      (a.isFloat ∨ b.isFloat) →
        arith host onInt onFloat a b = .ok (.float (host.fl (onFloat x y))) := by
    intro a b x y ha hb hf
    unfold arith
    split
    · rcases hf with hf | hf
      · simp [Value.isFloat] at hf
      · simp [Value.isFloat] at hf
    · rw [ha, hb]
  rw [Bool.or_eq_true] at hfloat
  have hf : a.isFloat ∨ b.isFloat := hfloat.imp (fun h => (hlf h).1) fun h => (hrf h).1
  have hf' : a'.isFloat ∨ b'.isFloat := hfloat.imp (fun h => (hlf h).2) fun h => (hrf h).2
  rw [heval hx hy hf] at hv
  rw [heval hx' hy' hf'] at hv'
  obtain rfl := Except.ok.inj hv
  obtain rfl := Except.ok.inj hv'
  obtain ⟨h0, hle⟩ := hop x y x' y' hx0 hxx hy0 hyy
  exact ⟨⟨_, _, rfl, rfl, host.fl_nonneg _ h0, host.fl_mono hle⟩, fun _ => ⟨rfl, rfl⟩⟩

/-- Dividing by the same positive literal keeps values in order. -/
theorem below_divide {lf : Bool} {a a' b v v' : Value} {y : ℚ} (ha : Below host lf a a')
    (hb : b.number host = some y) (hy : 0 ≤ y) (hv : divide host a b = .ok v)
    (hv' : divide host a' b = .ok v') : Below host true v v' := by
  obtain ⟨⟨x, x', hx, hx', hx0, hxx⟩, _⟩ := ha
  unfold divide at hv hv'
  rw [hx, hb] at hv
  rw [hx', hb] at hv'
  by_cases hzero : y = 0
  · simp [hzero] at hv
  · simp only [if_neg hzero] at hv hv'
    obtain rfl := Except.ok.inj hv
    obtain rfl := Except.ok.inj hv'
    refine ⟨⟨_, _, rfl, rfl, host.fl_nonneg _ (div_nonneg hx0 hy), host.fl_mono ?_⟩,
      fun _ => ⟨rfl, rfl⟩⟩
    exact div_le_div_of_nonneg_right hxx hy

/-- A positive literal has the same value for all facts. -/
theorem eval_positiveLiteral (host : Host) {node : Node} (h : positiveLiteral node) :
    ∃ v y, (∀ input, eval host input node = .ok v) ∧ v.number host = some y ∧ 0 ≤ y := by
  cases node with
  | integer n =>
      have hn : (0 : ℚ) ≤ n := by exact_mod_cast (of_decide_eq_true h).le
      exact ⟨.int n, _, fun _ => rfl, rfl, host.fl_nonneg _ hn⟩
  | float q => exact ⟨.float q, q, fun _ => rfl, rfl, (of_decide_eq_true h).le⟩
  | _ => simp [positiveLiteral] at h

/-- The price of a bounded expression grows with the facts. -/
theorem eval_mono {input : TaskQuoteInput} {usage bound : TaskPricingFacts}
    (h : Dominated c keys usage bound) :
    ∀ {node : Node}, (∀ n ∈ node.nodes, ∀ key, usageKey n = some key → key ∈ keys) →
      (chargeShape c node).1 → ∀ {v v' : Value}, eval host (input.withUsage usage) node = .ok v →
        eval host (input.withUsage bound) node = .ok v' → Below host (chargeShape c node).2 v v'
  | .integer n, _, hnode, v, v', hv, hv' => by
      have hn : (0 : ℚ) ≤ n := by exact_mod_cast (of_decide_eq_true hnode).1
      obtain rfl := Except.ok.inj hv
      obtain rfl := Except.ok.inj hv'
      exact ⟨⟨_, _, rfl, rfl, host.fl_nonneg _ hn, le_refl _⟩,
        fun hf => by simp [chargeShape] at hf⟩
  | .float q, _, hnode, v, v', hv, hv' => by
      obtain rfl := Except.ok.inj hv
      obtain rfl := Except.ok.inj hv'
      exact ⟨⟨_, _, rfl, rfl, of_decide_eq_true hnode, le_refl _⟩, fun _ => ⟨rfl, rfl⟩⟩
  | .call callee arguments, hkeys, hnode, v, v', hv, hv' => by
      unfold chargeShape at hnode
      split at hnode
      · next key hkey =>
        have hmem := hkeys _ (mem_nodes _) key hkey
        unfold eval at hv hv'
        rw [hkey] at hv hv'
        simp only [ok_bind, ok_orThrow, ok_pure] at hv hv'
        obtain ⟨fact, hfact, rfl⟩ := hv
        obtain ⟨fact', hfact', rfl⟩ := hv'
        obtain ⟨n, rfl, hn, hbound⟩ := h.number key hmem (of_decide_eq_true hnode) fact hfact
        obtain ⟨m, rfl, hnm⟩ := hbound fact' hfact'
        exact ⟨⟨n, m, rfl, rfl, hn, hnm⟩, fun _ => ⟨rfl, rfl⟩⟩
      · simp at hnode
  | .conditional cond exp1 exp2, hkeys, hnode, v, v', hv, hv' => by
      unfold chargeShape at hnode ⊢
      simp only [Bool.and_eq_true] at hnode
      obtain ⟨⟨hcond, hfirst⟩, hsecond⟩ := hnode
      have hnodes1 : ∀ n ∈ exp1.nodes, ∀ key, usageKey n = some key → key ∈ keys := by
        intro n hn
        apply hkeys n
        simp [Node.nodes, hn]
      have hnodes2 : ∀ n ∈ exp2.nodes, ∀ key, usageKey n = some key → key ∈ keys := by
        intro n hn
        apply hkeys n
        simp [Node.nodes, hn]
      unfold eval at hv hv'
      simp only [ok_bind] at hv hv'
      obtain ⟨cv, hcv, b, hb, hv⟩ := hv
      obtain ⟨cv', hcv', b', hb', hv'⟩ := hv'
      -- the condition is frozen, so that both runs take the same branch
      rw [eval_frozenCondition h.request hcond, hcv'] at hcv
      obtain rfl := Except.ok.inj hcv
      obtain rfl := Except.ok.inj (hb.symm.trans hb')
      cases b with
      | true =>
          have hbelow := eval_mono h hnodes1 hfirst hv hv'
          exact ⟨hbelow.numbers, fun hf => hbelow.floats (Bool.and_eq_true_iff.mp hf).1⟩
      | false =>
          have hbelow := eval_mono h hnodes2 hsecond hv hv'
          exact ⟨hbelow.numbers, fun hf => hbelow.floats (Bool.and_eq_true_iff.mp hf).2⟩
  | .binary operator left right, hkeys, hnode, v, v', hv, hv' => by
      have hnodes1 : ∀ n ∈ left.nodes, ∀ key, usageKey n = some key → key ∈ keys := by
        intro n hn
        apply hkeys n
        simp [Node.nodes, hn]
      have hnodes2 : ∀ n ∈ right.nodes, ∀ key, usageKey n = some key → key ∈ keys := by
        intro n hn
        apply hkeys n
        simp [Node.nodes, hn]
      unfold chargeShape at hnode ⊢
      unfold eval at hv hv'
      cases operator with
      | add =>
          simp only [Bool.and_eq_true] at hnode
          obtain ⟨⟨hl, hr⟩, hfloat⟩ := hnode
          simp only [ok_bind] at hv hv'
          obtain ⟨a, ha, b, hb, hv⟩ := hv
          obtain ⟨a', ha', b', hb', hv'⟩ := hv'
          refine below_arith ?_ hfloat (eval_mono h hnodes1 hl ha ha')
            (eval_mono h hnodes2 hr hb hb') hv hv'
          intro x y x' y' hx hxx hy hyy
          exact ⟨add_nonneg hx hy, add_le_add hxx hyy⟩
      | mul =>
          simp only [Bool.and_eq_true] at hnode
          obtain ⟨⟨hl, hr⟩, hfloat⟩ := hnode
          simp only [ok_bind] at hv hv'
          obtain ⟨a, ha, b, hb, hv⟩ := hv
          obtain ⟨a', ha', b', hb', hv'⟩ := hv'
          refine below_arith ?_ hfloat (eval_mono h hnodes1 hl ha ha')
            (eval_mono h hnodes2 hr hb hb') hv hv'
          intro x y x' y' hx hxx hy hyy
          exact ⟨mul_nonneg hx hy, mul_le_mul hxx hyy hy (hx.trans hxx)⟩
      | div =>
          simp only [Bool.and_eq_true] at hnode
          obtain ⟨⟨⟨hpos, hl⟩, hr⟩, _⟩ := hnode
          simp only [ok_bind] at hv hv'
          obtain ⟨a, ha, b, hb, hv⟩ := hv
          obtain ⟨a', ha', b', hb', hv'⟩ := hv'
          obtain ⟨d, y, hd, hy, hy0⟩ := eval_positiveLiteral host hpos
          obtain rfl := Except.ok.inj ((hd _).symm.trans hb)
          obtain rfl := Except.ok.inj ((hd _).symm.trans hb')
          exact below_divide (eval_mono h hnodes1 hl ha ha') hy hy0 hv hv'
      | and => simp at hnode
      | or => simp at hnode
      | eq => simp at hnode
      | ne => simp at hnode
      | gt => simp at hnode
      | ge => simp at hnode
      | lt => simp at hnode
      | le => simp at hnode
      | other name => simp at hnode

/-! ### Quotes in order -/

/-- A quota in range is not clamped. -/
theorem quotaRound_eq {p : ℚ} (hp : 0 ≤ p) (h : round p ≤ maxQuota) : quotaRound p = round p := by
  have h0 : 0 ≤ round p := Rounding.nearest_nonneg hp
  have hmin : minQuota ≤ 0 := by decide
  unfold quotaRound
  dsimp only
  rw [if_neg (not_lt.mpr h), if_neg (not_lt.mpr (hmin.trans h0))]

/-- The parts of a quote. -/
theorem quoteTaskExpression_ok {input : TaskQuoteInput} {q : TaskQuote}
    (h : quoteTaskExpression host input = .ok q) :
    ∃ node ks v amount, taskEntry host input.expression = .ok (node, ks) ∧
      eval host input node = .ok v ∧ v.number host = some amount ∧ 0 ≤ amount ∧
      0 < input.quotaPerUnit ∧ 0 ≤ input.groupRatio ∧
      round (host.fl (host.fl (amount * input.quotaPerUnit) * input.groupRatio)) ≤ maxQuota ∧
      q.quotaAfterGroup =
        quotaRound (host.fl (host.fl (amount * input.quotaPerUnit) * input.groupRatio)) := by
  unfold quoteTaskExpression runProgram at h
  simp only [ok_bind, ok_require, ok_orThrow, ok_pure] at h
  obtain ⟨_, _, _, ⟨hunit, hratio⟩, _, _, ⟨node, ks⟩, hentry, amount, ⟨v, hv, hnum⟩, _, hpos, _,
    hmax, rfl⟩ := h
  exact ⟨node, ks, v, amount, hentry, hv, hnum, hpos, hunit, hratio, hmax, rfl⟩

/-- The quote of a bounded expression grows with the facts. -/
theorem quote_mono (input : TaskQuoteInput) {usage bound : TaskPricingFacts} {node : Node}
    {q q' : TaskQuote} (h : Dominated c keys usage bound)
    (hentry : taskEntry host input.expression = .ok (node, keys)) (hnode : monotoneCharge c node)
    (hq : quoteTaskExpression host (input.withUsage usage) = .ok q)
    (hq' : quoteTaskExpression host (input.withUsage bound) = .ok q') :
    q.quotaAfterGroup ≤ q'.quotaAfterGroup := by
  obtain ⟨n, ks, v, amount, he, hv, hnum, hpos, hunit, hratio, hmax, hquota⟩ :=
    quoteTaskExpression_ok hq
  obtain ⟨n', ks', v', amount', he', hv', hnum', hpos', _, _, hmax', hquota'⟩ :=
    quoteTaskExpression_ok hq'
  obtain ⟨rfl, rfl⟩ := Prod.mk.inj (Except.ok.inj (he.symm.trans hentry))
  obtain ⟨rfl, rfl⟩ := Prod.mk.inj (Except.ok.inj (he'.symm.trans hentry))
  have hkeys : ∀ m ∈ n'.nodes, ∀ key, usageKey m = some key → key ∈ ks' := by
    intro m hm key hkey
    unfold taskEntry at hentry
    simp only [ok_bind, ok_pure] at hentry
    obtain ⟨n, _, ks, hinspect, _, _, heq⟩ := hentry
    obtain ⟨rfl, rfl⟩ := Prod.mk.inj heq
    exact mem_taskUsageKeys hinspect hm hkey
  obtain ⟨⟨x, y, hx, hy, _, hxy⟩, _⟩ := eval_mono h hkeys hnode hv hv'
  obtain rfl := Option.some.inj (hx.symm.trans hnum)
  obtain rfl := Option.some.inj (hy.symm.trans hnum')
  have hbefore : host.fl (x * input.quotaPerUnit) ≤ host.fl (y * input.quotaPerUnit) :=
    host.fl_mono (mul_le_mul_of_nonneg_right hxy hunit.le)
  have hbefore0 : 0 ≤ host.fl (x * input.quotaPerUnit) :=
    host.fl_nonneg _ (mul_nonneg hpos hunit.le)
  have hafter : host.fl (host.fl (x * input.quotaPerUnit) * input.groupRatio) ≤
      host.fl (host.fl (y * input.quotaPerUnit) * input.groupRatio) :=
    host.fl_mono (mul_le_mul_of_nonneg_right hbefore hratio)
  have hafter0 : 0 ≤ host.fl (host.fl (x * input.quotaPerUnit) * input.groupRatio) :=
    host.fl_nonneg _ (mul_nonneg hbefore0 hratio)
  calc q.quotaAfterGroup
      = round (host.fl (host.fl (x * input.quotaPerUnit) * input.groupRatio)) :=
        hquota.trans (quotaRound_eq hafter0 hmax)
    _ ≤ round (host.fl (host.fl (y * input.quotaPerUnit) * input.groupRatio)) :=
        Rounding.nearest_mono hafter0 hafter
    _ = q'.quotaAfterGroup := (hquota'.trans (quotaRound_eq (hafter0.trans hafter) hmax')).symm

/-! ### The endpoint -/

/-- Where the expression refers to a number, the endpoint is the largest that the policy allows. -/
theorem endpointFact_max {name : String} {p : TaskFactPolicy} {raw : Fact} {n m : ℚ}
    (hname : name ∈ keys) (htype : typeOf c name = .number) (hphase : p.phase ≠ .request)
    (hfact : endpointFact c keys name p = .ok (some raw)) (hm : number raw = some m)
    (hvalid : validNumber p n) : n ≤ m := by
  unfold endpointFact at hfact
  rw [if_neg hphase] at hfact
  cases hfield : c.usageSchema.lookup name with
  | none =>
      unfold typeOf at htype
      rw [hfield] at htype
      simp at htype
  | some field =>
      have hnumber : field.type = .number := by
        unfold typeOf at htype
        rw [hfield] at htype
        exact htype
      rw [hfield] at hfact
      dsimp only at hfact
      rw [hnumber] at hfact
      dsimp only at hfact
      rw [if_pos hname] at hfact
      obtain ⟨_, _, _, hmax, hinteger⟩ := hvalid
      cases hhi : p.max with
      | none =>
          rw [hhi] at hfact
          simp at hfact
      | some hi =>
          rw [hhi] at hfact
          have hraw := Option.some.inj (Except.ok.inj hfact)
          rw [← hraw] at hm
          have hm' := Option.some.inj hm
          have hle : n ≤ hi := hmax hi hhi
          rw [← hm']
          by_cases hint : p.integer = true
          · rw [if_pos hint, ← hinteger hint]
            exact_mod_cast Int.floor_le_floor hle
          · rw [if_neg hint]
            exact hle

/-- Facts that complete a task are below the endpoint of the bound, for the same frozen facts. -/
theorem dominated_endpoint {f a e endpoint out out' : TaskPricingFacts}
    (hendpoint : Dict.collect (endpointFact c keys) c.fieldPolicy = .ok endpoint)
    (hf : ∃ facts submit, validateFacts c facts submit = .ok f)
    (ha : ∃ facts submit, validateFacts c facts submit = .ok a)
    (he : validateFacts c endpoint false = .ok e)
    (hout : ∀ name, out.lookup name =
      if (policyOf c name).phase = .request then f.lookup name else a.lookup name)
    (hout' : ∀ name, out'.lookup name =
      if (policyOf c name).phase = .request then f.lookup name else e.lookup name) :
    Dominated c keys out out' := by
  constructor
  · intro name hphase
    rw [hout, hout', if_pos hphase, if_pos hphase]
  · intro name hname htype v hv
    rw [hout] at hv
    rw [hout']
    by_cases hphase : (policyOf c name).phase = .request
    · rw [if_pos hphase] at hv ⊢
      obtain ⟨facts, submit, hf⟩ := hf
      obtain ⟨value, _, hvalue⟩ := Dict.exists_of_collect (validateFacts_lookup hf) hv
      obtain ⟨n, _, rfl, hvalid⟩ := validateFact_number htype hvalue
      refine ⟨n, rfl, hvalid.1, ?_⟩
      intro v' hv'
      rw [hv] at hv'
      exact ⟨n, (Option.some.inj hv').symm, le_refl n⟩
    · rw [if_neg hphase] at hv ⊢
      obtain ⟨facts, submit, ha⟩ := ha
      obtain ⟨value, _, hvalue⟩ := Dict.exists_of_collect (validateFacts_lookup ha) hv
      obtain ⟨n, _, rfl, hvalid⟩ := validateFact_number htype hvalue
      refine ⟨n, rfl, hvalid.1, ?_⟩
      intro v' hv'
      obtain ⟨raw, hraw, hvalue'⟩ := Dict.exists_of_collect (validateFacts_lookup he) hv'
      obtain ⟨m, hm, rfl, _⟩ := validateFact_number htype hvalue'
      obtain ⟨p, hp, hfact⟩ := Dict.exists_of_collect hendpoint hraw
      have hpolicy : policyOf c name = p := by
        unfold policyOf
        rw [hp]
        rfl
      rw [hpolicy] at hvalid hphase
      exact ⟨m, rfl, endpointFact_max hname htype hphase hfact hm hvalid⟩

/-! ### The bound -/

theorem le_reservationQuota (estimate : ℤ) (groupRatio : ℚ) (floor : ℤ) :
    estimate ≤ reservationQuota estimate groupRatio floor := by
  unfold reservationQuota
  split
  · exact le_max_right _ _
  · exact le_refl _

theorem taskUsageKeys_ok {expression : String} (h : taskUsageKeys host expression = .ok keys) :
    ∃ node, taskEntry host expression = .ok (node, keys) ∧
      host.parse (parseExprVersion expression).2 = .ok node := by
  unfold taskUsageKeys at h
  simp only [ok_bind, ok_pure] at h
  obtain ⟨⟨node, ks⟩, hentry, rfl⟩ := h
  refine ⟨node, hentry, ?_⟩
  unfold taskEntry at hentry
  simp only [ok_bind, ok_pure] at hentry
  obtain ⟨n, hparse, ks', _, _, _, heq⟩ := hentry
  obtain ⟨rfl, _⟩ := Prod.mk.inj heq
  exact hparse

/-- The same facts are frozen, whether they are frozen before or while they are completed. -/
theorem frozen_eq {c' : TaskFactContract} {submit frozen F f : TaskPricingFacts}
    (hc : normalizeContract c = .ok c') (hfrozen : validateFacts c' submit true = .ok frozen)
    (hF : F = submit ∨ submitFacts c submit = .ok F) (hf : validateFacts c' F true = .ok f) :
    f = frozen := by
  rcases hF with rfl | hF
  · exact Except.ok.inj (hf.symm.trans hfrozen)
  · unfold submitFacts at hF
    simp only [ok_bind] at hF
    obtain ⟨c'', hc'', hF⟩ := hF
    obtain rfl := Except.ok.inj (hc''.symm.trans hc)
    obtain rfl := Except.ok.inj (hF.symm.trans hfrozen)
    exact validateFacts_idem hF hf

/-- The exposure of a task bounds the quote of any facts that complete the task. -/
theorem exposure_sound {input : ExposureInput} {exposure : ExposureQuote} {q : TaskQuote}
    {F actual facts : TaskPricingFacts} (h : quoteExposure host input = .ok exposure)
    (hF : F = input.submit ∨ submitFacts input.contract input.submit = .ok F)
    (hfacts : completeFacts input.contract F actual = .ok facts)
    (hq : quoteTaskExpression host ⟨input.profile, input.expression, facts, .empty,
      input.pricingAt, input.quotaPerUnit, input.groupRatio⟩ = .ok q) :
    q.quotaAfterGroup ≤ exposure.maximum.quotaAfterGroup ∧
      exposure.maximum.quotaAfterGroup ≤ exposure.requiredReservationQuota := by
  unfold quoteExposure at h
  simp only [ok_bind, ok_require, ok_pure, ok_mapError] at h
  obtain ⟨_, _, _, _, c, hc, _, _, node, hparse, _, hnode, frozen, hfrozen, keys, hkeys, endpoint,
    hendpoint, completed, hcompleted, estimate, _, maximum, hmaximum, _, _, digest, _, rfl⟩ := h
  refine ⟨?_, le_reservationQuota _ _ _⟩
  have hidem := normalizeContract_idem hc
  unfold submitFacts at hfrozen
  simp only [ok_bind] at hfrozen
  obtain ⟨c1, hc1, hfrozen⟩ := hfrozen
  obtain rfl := Except.ok.inj (hc1.symm.trans hidem)
  obtain ⟨c2, f2, e, hc2, hf2, he, hbound⟩ := completeFacts_lookup hcompleted
  obtain rfl := Except.ok.inj (hc2.symm.trans hidem)
  obtain ⟨c3, f, a, hc3, hf, ha, husage⟩ := completeFacts_lookup hfacts
  obtain rfl := Except.ok.inj (hc3.symm.trans hc)
  obtain rfl := validateFacts_idem hfrozen hf2
  obtain rfl := frozen_eq hc hfrozen hF hf
  have hdom : Dominated c3 keys facts completed :=
    dominated_endpoint hendpoint ⟨_, _, hf⟩ ⟨_, _, ha⟩ he husage hbound
  obtain ⟨n, hentry, hparse'⟩ := taskUsageKeys_ok hkeys
  obtain rfl := Except.ok.inj (hparse'.symm.trans hparse)
  exact quote_mono ⟨input.profile, input.expression, facts, .empty, input.pricingAt,
    input.quotaPerUnit, input.groupRatio⟩ hdom hentry hnode hq hmaximum

/-- A plan that carries a bound, and that is valid, bounds its final quote and reserves the
bound. -/
theorem quoteFinal_le {plan : TaskBillingPlan} {p : TaskExpressionPlan} {b : TaskChargeBound}
    {envelope : Option TaskPricingUsageEnvelope} {q : TaskQuote}
    (hp : plan.expressionPlan = some p) (hb : p.chargeBound = some b)
    (h : quoteFinal host plan envelope = .ok q) :
    q.quotaAfterGroup ≤ b.maximumQuota ∧ b.maximumQuota ≤ plan.reserveQuota := by
  unfold quoteFinal at h
  simp only [ok_bind, ok_orThrow, ok_require] at h
  obtain ⟨_, hvalid, p', hp', envelope, _, _, _, facts, hfacts, hq⟩ := h
  obtain rfl := Option.some.inj (hp'.symm.trans hp)
  unfold validateSnapshot at hvalid
  simp only [ok_bind, ok_orThrow, ok_require] at hvalid
  obtain ⟨_, _, p'', hp'', _, _, _, _, _, _, _, _, _, _, _, _, _, _, _, _, _, _, digest, _, _, _,
    frozen, _, quote, _, reservation, hreservation, _, hreserve⟩ := hvalid
  obtain rfl := Option.some.inj (hp''.symm.trans hp)
  unfold requiredReservation at hreservation
  rw [hb] at hreservation
  simp only [ok_bind, ok_require, ok_pure] at hreservation
  obtain ⟨bound, hbound, _, ⟨_, hmax⟩, rfl⟩ := hreservation
  obtain ⟨hle, hres⟩ := exposure_sound hbound (.inl rfl) hfacts hq
  rw [hmax, hreserve]
  exact ⟨hle, hres⟩

/-- A bounded plan carries a bound. -/
theorem freezeBounded_chargeBound {input : FreezeInput} {plan : TaskBillingPlan}
    (h : freezeBounded host input = .ok plan) :
    ∃ p b, plan.expressionPlan = some p ∧ p.chargeBound = some b := by
  unfold freezeBounded at h
  simp only [ok_bind, ok_orThrow, ok_pure] at h
  obtain ⟨_, _, p, _, bound, _, _, _, rfl⟩ := h
  exact ⟨_, _, rfl, rfl⟩

/-- **The charge bound is sound.** The final quote of a bounded plan is at most its bound, which
the plan reserves; and an exposure bounds the quote of all facts that complete the task. -/
theorem charge_bound_sound (host : Host) :
    (∀ input plan envelope q, freezeBounded host input = .ok plan →
      quoteFinal host plan envelope = .ok q →
        ∃ p b, plan.expressionPlan = some p ∧ p.chargeBound = some b ∧
          q.quotaAfterGroup ≤ b.maximumQuota ∧ b.maximumQuota ≤ plan.reserveQuota) ∧
    (∀ input exposure frozen actual facts q, quoteExposure host input = .ok exposure →
      submitFacts input.contract input.submit = .ok frozen →
      completeFacts input.contract frozen actual = .ok facts →
      quoteTaskExpression host ⟨input.profile, input.expression, facts, .empty, input.pricingAt,
        input.quotaPerUnit, input.groupRatio⟩ = .ok q →
        q.quotaAfterGroup ≤ exposure.maximum.quotaAfterGroup ∧
          exposure.maximum.quotaAfterGroup ≤ exposure.requiredReservationQuota) := by
  constructor
  · intro input plan envelope q hplan hq
    obtain ⟨p, b, hp, hb⟩ := freezeBounded_chargeBound hplan
    obtain ⟨hle, hres⟩ := quoteFinal_le hp hb hq
    exact ⟨p, b, hp, hb, hle, hres⟩
  · intro input exposure frozen actual facts q hexposure hfrozen hfacts hq
    exact exposure_sound hexposure (.inr hfrozen) hfacts hq

/-! ### A priced video -/

/-- Ten cents a second. -/
def secondsNode : Node :=
  .binary .mul (.call (.identifier "u") [.string "seconds"]) (.float (1 / 10))

/-- A host that knows one expression. -/
def secondsHost : Host where
  parse _ := .ok secondsNode
  compile _ := .ok ()
  evalOther _ _ := .error "invalid operation"
  fl := id
  fl_mono _ _ h := h
  fl_nonneg _ h := h
  exprHash s := s
  contractHash _ := "digest"

/-- Between 4 and 15 seconds of a resolution that is frozen with the request. -/
def secondsContract : TaskFactContract where
  version := 1
  usageSchema := List.toAList
    [⟨"seconds", ⟨.number, "second", []⟩⟩, ⟨"resolution", ⟨.enum, "", ["768P", "1080P"]⟩⟩]
  fieldPolicy := List.toAList
    [⟨"seconds", ⟨.actual, true, some 4, some 15, true⟩⟩,
      ⟨"resolution", ⟨.request, true, none, none, false⟩⟩]

/-- Six seconds are asked for. -/
def secondsInput : FreezeInput where
  profile := taskExpressionProfile
  prices := ⟨List.toAList [⟨"video", "tiered_expr"⟩],
    List.toAList [⟨"video", "u(\"seconds\") * 0.1"⟩], ∅⟩
  source := ⟨"go_adapter", ""⟩
  originalModel := "video"
  mappedModel := "video"
  contract := secondsContract
  expected := ⟨"price", "digest", "binding"⟩
  current := ⟨"price", "digest", "binding"⟩
  submit := List.toAList [⟨"seconds", .integer 6⟩, ⟨"resolution", .string "768P"⟩]
  actual := none
  request := .empty
  pricingAt := 1793577600
  quotaPerUnit := 1000
  groupRatio := 1
  reservationFloor := 700
  channelID := 902
  action := "generate"
  requestID := "request"
  sourceID := "video"
  pluginVersion := ""
  packageDigest := ""

/-- The provider reports eight seconds. -/
def secondsEnvelope : TaskPricingUsageEnvelope where
  producerKind := "go_adapter"
  sourceID := "video"
  pluginVersion := ""
  packageDigest := ""
  channelID := 902
  requestID := "request"
  action := "generate"
  schemaVersion := 1
  contractDigest := "digest"
  stage := "provider_response"
  completeness := "complete"
  facts := List.toAList [⟨"seconds", .integer 8⟩]

/-- The exposure of the same task. -/
def secondsExposure : ExposureInput where
  profile := taskExpressionProfile
  expression := "u(\"seconds\") * 0.1"
  contract := secondsContract
  submit := secondsInput.submit
  pricingAt := secondsInput.pricingAt
  quotaPerUnit := secondsInput.quotaPerUnit
  groupRatio := secondsInput.groupRatio
  reservationFloor := secondsInput.reservationFloor

theorem exists_of_isSome {α : Type} {x : Except String α} (h : x.toOption.isSome) :
    ∃ a, x = .ok a := by
  cases x with
  | ok a => exact ⟨a, rfl⟩
  | error e => simp [Except.toOption] at h

theorem charge_bound_sound_seconds :
    (∃ plan q p b, freezeBounded secondsHost secondsInput = .ok plan ∧
      quoteFinal secondsHost plan (some secondsEnvelope) = .ok q ∧
        plan.expressionPlan = some p ∧ p.chargeBound = some b ∧
          q.quotaAfterGroup ≤ b.maximumQuota ∧ b.maximumQuota ≤ plan.reserveQuota) ∧
    ∃ (exposure : ExposureQuote) (q : TaskQuote),
      quoteExposure secondsHost secondsExposure = .ok exposure ∧
        q.quotaAfterGroup ≤ exposure.maximum.quotaAfterGroup := by
  obtain ⟨hbounded, hexposures⟩ := charge_bound_sound secondsHost
  constructor
  · obtain ⟨q, hq⟩ : ∃ q, (freezeBounded secondsHost secondsInput >>= fun plan =>
        quoteFinal secondsHost plan (some secondsEnvelope)) = .ok q :=
      exists_of_isSome (by decide +kernel)
    obtain ⟨plan, hplan, hq⟩ := ok_bind.mp hq
    obtain ⟨p, b, hp, hb, hle, hres⟩ := hbounded _ plan _ q hplan hq
    exact ⟨plan, q, p, b, hplan, hq, hp, hb, hle, hres⟩
  · obtain ⟨exposure, hexposure⟩ : ∃ e, quoteExposure secondsHost secondsExposure = .ok e :=
      exists_of_isSome (by decide +kernel)
    obtain ⟨q, hq⟩ : ∃ q, (submitFacts secondsContract secondsInput.submit >>= fun frozen =>
        completeFacts secondsContract frozen secondsEnvelope.facts >>= fun facts =>
          quoteTaskExpression secondsHost ⟨secondsExposure.profile, secondsExposure.expression,
            facts, .empty, secondsExposure.pricingAt, secondsExposure.quotaPerUnit,
            secondsExposure.groupRatio⟩) = .ok q :=
      exists_of_isSome (by decide +kernel)
    obtain ⟨frozen, hfrozen, hq⟩ := ok_bind.mp hq
    obtain ⟨facts, hfacts, hq⟩ := ok_bind.mp hq
    exact ⟨exposure, q, hexposure,
      (hexposures secondsExposure exposure frozen _ facts q hexposure hfrozen hfacts hq).1⟩

end MaxApi.TaskPricing
