import MaxApi.Lib.Checked
import MaxApi.Lib.Dict
import MaxApi.Lib.Text
import Mathlib.Data.List.Infix
import Mathlib.Data.List.Sort
import Mathlib.Data.Rat.Floor

/-! # Task fact contracts

A contract says which facts a task has, of which type, and for each fact whether it is frozen when
the request is submitted or measured when the task is done.  Numbers are exact rationals; a number
that is not finite is no number.  The loops over maps visit the keys in some order, which decides
at most which of several errors is reported. -/

namespace MaxApi.TaskPricing

open Checked

/-- `fmt`'s `%q`. -/
def quoted (s : String) : String := "\"" ++ s ++ "\""

/-- The largest integer up to which every integer is a float: `1<<53 - 1`. -/
def maxExact : ℚ := 2 ^ 53 - 1

/-! ### Contracts -/

/-- The column `type` of a usage field. -/
inductive FieldType where
  | number
  | boolean
  | enum
  | other (name : String)
  deriving DecidableEq, Repr

/-- The column `phase` of a policy. -/
inductive Phase where
  | request
  | actual
  | other (name : String)
  deriving DecidableEq, Repr

/-- A declared usage field, without its labels. -/
structure TaskUsageField where
  type : FieldType
  unit : String
  enum : List String
  deriving DecidableEq, Repr

/-- When a fact is known and which values it may have. -/
structure TaskFactPolicy where
  phase : Phase
  required : Bool
  min : Option ℚ
  max : Option ℚ
  integer : Bool
  deriving DecidableEq, Repr

structure TaskFactContract where
  version : ℤ
  usageSchema : Dict TaskUsageField
  fieldPolicy : Dict TaskFactPolicy

/-- A field with its type spelled out and its values in order. -/
def normalizeField (field : TaskUsageField) : TaskUsageField where
  type := if field.type = .other "" ∧ field.enum ≠ [] then .enum else field.type
  unit := field.unit
  enum := field.enum.insertionSort (· ≤ ·)

/-- The policy of a field, checked. -/
def checkPolicy (c : TaskFactContract) (name : String) (field : TaskUsageField) :
    Except String (Option TaskFactPolicy) := do
  let p ← orThrow (c.fieldPolicy.lookup name) ("missing or invalid phase for " ++ quoted name)
  require (p.phase = .request ∨ p.phase = .actual) ("missing or invalid phase for " ++ quoted name)
  require (¬ (field.type ≠ .number ∧ (p.min ≠ none ∨ p.max ≠ none ∨ p.integer)))
    ("non-numeric bounds for " ++ quoted name)
  require (∀ bound ∈ [p.min, p.max], ∀ b ∈ bound, 0 ≤ b) ("invalid bound for " ++ quoted name)
  require (∀ lo ∈ p.min, ∀ hi ∈ p.max, lo ≤ hi) ("reversed bounds for " ++ quoted name)
  pure (some p)

/-- The values of an enumeration are not blank and not repeated. -/
def checkEnum (name : String) : List String → List String → Except String Unit
  | _, [] => .ok ()
  | seen, value :: rest => do
      require (¬ Text.isBlank value)
        ("task plugin enum usage field " ++ quoted name ++ " contains an empty value")
      require (value ∉ seen) ("task plugin enum usage field " ++ quoted name ++
        " contains duplicate value " ++ quoted value)
      checkEnum name (value :: seen) rest

def allowedUsageUnits : List String := ["second", "count", "token", "credit"]

/-- The check of one field in `ValidateUsageSchema`. -/
def validateUsageField (name : String) (field : TaskUsageField) : Except String Unit := do
  require (¬ Text.isBlank name) "task plugin usage field name must not be empty"
  match field.type with
  | .number => do
      require (field.unit ∈ allowedUsageUnits)
        ("unsupported task plugin usage unit " ++ quoted field.unit)
      require (field.enum = []) ("task plugin numeric usage field " ++ quoted name ++
        " must not declare enum values")
  | .enum => do
      require (field.unit = "" ∧ field.enum ≠ []) ("task plugin enum usage field " ++ quoted name ++
        " requires values and no unit")
      checkEnum name [] field.enum
  | .boolean =>
      require (field.unit = "" ∧ field.enum = []) ("task plugin usage field " ++ quoted name ++
        " must not declare a unit or enum values")
  | .other type => .error ("unsupported task plugin usage field type " ++ quoted type)

/-- `NormalizeContract`. -/
def normalizeContract (c : TaskFactContract) : Except String TaskFactContract := do
  require (c.version = 1 ∧ c.usageSchema.keys ≠ [] ∧
    c.usageSchema.keys.length = c.fieldPolicy.keys.length)
    "invalid task fact contract version or fields"
  let usageSchema ← Dict.collect (fun _ field => .ok (some (normalizeField field))) c.usageSchema
  let fieldPolicy ← Dict.collect (checkPolicy c) usageSchema
  Dict.checkAll validateUsageField usageSchema
  pure ⟨c.version, usageSchema, fieldPolicy⟩

/-! ### Facts -/

/-- A fact as the host or a provider reports it: a float or a JSON number, an integer, a boolean, a
string, or a value of another kind. -/
inductive Fact where
  | number (n : ℚ)
  | integer (n : ℤ)
  | bool (b : Bool)
  | string (s : String)
  | other
  deriving DecidableEq, Repr

abbrev TaskPricingFacts := Dict Fact

/-- A fact read as a number. -/
def number : Fact → Option ℚ
  | .number n => some n
  | .integer n => if n < -(2 ^ 53 - 1) ∨ 2 ^ 53 - 1 < n then none else some n
  | _ => none

/-- What the policy asks of a number. -/
def validNumber (p : TaskFactPolicy) (n : ℚ) : Prop :=
  0 ≤ n ∧ n ≤ maxExact ∧ (∀ lo ∈ p.min, lo ≤ n) ∧ (∀ hi ∈ p.max, n ≤ hi) ∧
    (p.integer → (⌊n⌋ : ℚ) = n)

instance (p : TaskFactPolicy) (n : ℚ) : Decidable (validNumber p n) :=
  inferInstanceAs (Decidable (_ ∧ _ ∧ _ ∧ _ ∧ _))

/-- The policy of a name; a name without one has the zero policy. -/
def policyOf (c : TaskFactContract) (name : String) : TaskFactPolicy :=
  (c.fieldPolicy.lookup name).getD ⟨.other "", false, none, none, false⟩

/-- The type of a field; blank for an undeclared one. -/
def typeOf (c : TaskFactContract) (name : String) : FieldType :=
  ((c.usageSchema.lookup name).map (·.type)).getD (.other "")

/-- One fact, checked and normalized; nothing for a field of an unknown type. -/
def validateFact (c : TaskFactContract) (name : String) (value : Fact) :
    Except String (Option Fact) := do
  let field ← orThrow (c.usageSchema.lookup name) ("undeclared task fact " ++ quoted name)
  match field.type with
  | .number => do
      let n ← orThrow (number value) ("invalid numeric task fact " ++ quoted name)
      require (validNumber (policyOf c name) n) ("invalid numeric task fact " ++ quoted name)
      pure (some (.number n))
  | .boolean =>
      match value with
      | .bool b => pure (some (.bool b))
      | _ => throw ("invalid boolean task fact " ++ quoted name)
  | .enum =>
      match value with
      | .string s => do
          require (s ∈ field.enum) ("invalid enum task fact " ++ quoted name)
          pure (some (.string s))
      | _ => throw ("invalid enum task fact " ++ quoted name)
  | .other _ => pure none

/-- A fact that must be there: at submission a request fact, at completion an actual one. -/
def checkRequired (out : TaskPricingFacts) (submit : Bool) (name : String) (p : TaskFactPolicy) :
    Except String Unit :=
  require (¬ (p.required = true ∧ ((submit = true ∧ p.phase = .request) ∨
    (submit = false ∧ p.phase = .actual)) ∧ out.lookup name = none))
    ("missing required task fact " ++ quoted name)

def validateFacts (c : TaskFactContract) (facts : TaskPricingFacts) (submit : Bool) :
    Except String TaskPricingFacts := do
  let out ← Dict.collect (validateFact c) facts
  Dict.checkAll (checkRequired out submit) c.fieldPolicy
  pure out

/-- The facts frozen when a task is submitted; the actual ones among them are estimates. -/
def submitFacts (c : TaskFactContract) (facts : TaskPricingFacts) :
    Except String TaskPricingFacts := do
  let c ← normalizeContract c
  validateFacts c facts true

/-- A frozen request fact may be repeated at completion, but not changed or added. -/
def inheritFact (frozen actual : TaskPricingFacts) (name : String) (p : TaskFactPolicy) :
    Except String (Option Fact) :=
  if p.phase ≠ .request then .ok none
  else match actual.lookup name with
    | some replacement =>
        if frozen.lookup name = some replacement then .ok (frozen.lookup name)
        else .error ("frozen request fact changed: " ++ quoted name)
    | none => .ok (frozen.lookup name)

/-- The facts a completed task is charged by: the actual ones, and the frozen request facts. -/
def completeFacts (c : TaskFactContract) (frozen actual : TaskPricingFacts) :
    Except String TaskPricingFacts := do
  let c ← normalizeContract c
  let frozen ← validateFacts c frozen true
  let actual ← validateFacts c actual false
  let out ← Dict.collect (inheritFact frozen actual) c.fieldPolicy
  pure (actual ∪ out)

/-! ### What the checks accept -/

section lemmas

variable {c c' : TaskFactContract} {facts frozen actual out : TaskPricingFacts} {name : String}

theorem normalizeField_idem (field : TaskUsageField) :
    normalizeField (normalizeField field) = normalizeField field := by
  have henum : (field.enum.insertionSort (· ≤ ·)).insertionSort (· ≤ ·) =
      field.enum.insertionSort (· ≤ ·) :=
    List.Pairwise.insertionSort_eq (List.pairwise_insertionSort _ _)
  have hnil : field.enum.insertionSort (· ≤ ·) = [] ↔ field.enum = [] := by
    rw [← List.length_eq_zero_iff, List.length_insertionSort, List.length_eq_zero_iff]
  unfold normalizeField
  dsimp only
  rw [henum]
  by_cases h : field.type = .other "" ∧ field.enum ≠ []
  · simp [h]
  · rw [if_neg h, if_neg]
    rw [ne_eq, hnil]
    exact h

theorem checkPolicy_eq {field : TaskUsageField} {o : Option TaskFactPolicy}
    (h : checkPolicy c name field = .ok o) :
    c.fieldPolicy.lookup name = o ∧ ∃ p, o = some p ∧ (p.phase = .request ∨ p.phase = .actual) := by
  unfold checkPolicy at h
  simp only [ok_bind, ok_orThrow, ok_require, ok_pure] at h
  obtain ⟨p, hp, _, hphase, _, _, _, _, _, _, rfl⟩ := h
  exact ⟨hp, p, rfl, hphase⟩

/-- Normalizing a normalized contract changes nothing. -/
theorem normalizeContract_idem (h : normalizeContract c = .ok c') :
    normalizeContract c' = .ok c' := by
  unfold normalizeContract at h
  simp only [ok_bind, ok_require, ok_pure] at h
  obtain ⟨_, ⟨hversion, hkeys, _⟩, schema, hschema, policy, hpolicy, _, hcheck, rfl⟩ := h
  have hschema' : Dict.collect (fun _ field => .ok (some (normalizeField field))) schema =
      (.ok schema : Except String _) := by
    apply Dict.collect_self
    intro k field hk
    obtain ⟨field', _, hfield⟩ := Dict.exists_of_collect hschema hk
    rw [← Option.some.inj (Except.ok.inj hfield), normalizeField_idem]
  have hpolicy' : Dict.collect (checkPolicy ⟨c.version, schema, policy⟩) schema = .ok policy := by
    rw [← hpolicy]
    apply Dict.collect_congr
    intro k field hk
    have hk' := (checkPolicy_eq (Dict.collect_some hpolicy hk)).1
    unfold checkPolicy
    dsimp only
    rw [hk']
  have hschemaKeys : schema.keys = c.usageSchema.keys :=
    Dict.collect_keys hschema fun _ _ => by simp
  have hpolicyKeys : policy.keys = schema.keys := by
    apply Dict.collect_keys hpolicy
    intro k field hnone
    obtain ⟨_, p, hp, _⟩ := checkPolicy_eq hnone
    simp at hp
  unfold normalizeContract
  simp only [ok_bind, ok_require, ok_pure]
  refine ⟨(), ⟨hversion, ?_, ?_⟩, schema, hschema', policy, hpolicy', (), hcheck, rfl⟩
  · rw [hschemaKeys]
    exact hkeys
  · rw [hpolicyKeys]

/-- A fact of a numeric field is a number that the policy allows. -/
theorem validateFact_number {value value' : Fact} (htype : typeOf c name = .number)
    (h : validateFact c name value = .ok (some value')) :
    ∃ n, number value = some n ∧ value' = .number n ∧ validNumber (policyOf c name) n := by
  unfold validateFact at h
  simp only [ok_bind, ok_orThrow] at h
  obtain ⟨field, hfield, h⟩ := h
  have hnumber : field.type = .number := by
    unfold typeOf at htype
    rw [hfield] at htype
    exact htype
  rw [hnumber] at h
  simp only [ok_bind, ok_orThrow, ok_require, ok_pure] at h
  obtain ⟨n, hn, _, hvalid, heq⟩ := h
  exact ⟨n, hn, (Option.some.inj heq).symm, hvalid⟩

/-- Facts that have been checked are checked again without a change. -/
theorem validateFact_idem {value value' : Fact}
    (h : validateFact c name value = .ok (some value')) :
    validateFact c name value' = .ok (some value') := by
  unfold validateFact at h ⊢
  simp only [ok_bind, ok_orThrow] at h ⊢
  obtain ⟨field, hfield, h⟩ := h
  refine ⟨field, hfield, ?_⟩
  cases htype : field.type with
  | number =>
      rw [htype] at h
      simp only [ok_bind, ok_orThrow, ok_require, ok_pure] at h ⊢
      obtain ⟨n, _, _, hvalid, heq⟩ := h
      obtain rfl := Option.some.inj heq
      exact ⟨n, rfl, (), hvalid, rfl⟩
  | boolean =>
      rw [htype] at h
      cases value with
      | bool b =>
          obtain rfl := Option.some.inj (ok_pure.mp h)
          rfl
      | number n => exact absurd h ok_throw
      | integer n => exact absurd h ok_throw
      | string s => exact absurd h ok_throw
      | other => exact absurd h ok_throw
  | enum =>
      rw [htype] at h
      cases value with
      | string s =>
          simp only [ok_bind, ok_require, ok_pure] at h
          obtain ⟨_, hmem, heq⟩ := h
          obtain rfl := Option.some.inj heq
          exact ok_bind.mpr ⟨(), ok_require.mpr hmem, rfl⟩
      | number n => exact absurd h ok_throw
      | integer n => exact absurd h ok_throw
      | bool b => exact absurd h ok_throw
      | other => exact absurd h ok_throw
  | other type =>
      rw [htype] at h
      exact absurd (ok_pure.mp h) (by simp)

/-- What validation makes of each fact. -/
theorem validateFacts_lookup {submit : Bool} (h : validateFacts c facts submit = .ok out) :
    Dict.collect (validateFact c) facts = .ok out := by
  unfold validateFacts at h
  simp only [ok_bind, ok_pure] at h
  obtain ⟨out', hcollect, _, _, rfl⟩ := h
  exact hcollect

/-- Validating facts that have been validated leaves them alone. -/
theorem validateFacts_idem {submit submit' : Bool} {out' : TaskPricingFacts}
    (h : validateFacts c facts submit = .ok out) (h' : validateFacts c out submit' = .ok out') :
    out' = out := by
  have hself : Dict.collect (validateFact c) out = .ok out := by
    apply Dict.collect_self
    intro k a hk
    obtain ⟨value, _, hvalue⟩ := Dict.exists_of_collect (validateFacts_lookup h) hk
    exact validateFact_idem hvalue
  exact Except.ok.inj ((validateFacts_lookup h').symm.trans hself)

/-- What `completeFacts` makes of each name: the frozen fact where it is a request fact, else the
actual one. -/
theorem completeFacts_lookup (h : completeFacts c frozen actual = .ok out) :
    ∃ c' f a, normalizeContract c = .ok c' ∧ validateFacts c' frozen true = .ok f ∧
      validateFacts c' actual false = .ok a ∧
        ∀ name, out.lookup name =
          if (policyOf c' name).phase = .request then f.lookup name else a.lookup name := by
  unfold completeFacts at h
  simp only [ok_bind, ok_pure] at h
  obtain ⟨c', hc, f, hf, a, ha, r, hr, rfl⟩ := h
  refine ⟨c', f, a, hc, hf, ha, ?_⟩
  intro name
  have hunion : (a ∪ r).lookup name =
      if (a.lookup name).isSome then a.lookup name else r.lookup name := by
    split
    · next hsome => exact AList.lookup_union_left (AList.lookup_isSome.mp hsome)
    · next hnone => exact AList.lookup_union_right fun hmem => hnone (AList.lookup_isSome.mpr hmem)
  rw [hunion]
  unfold policyOf
  cases hp : c'.fieldPolicy.lookup name with
  | none =>
      have hnone := Dict.collect_none hr hp
      rw [hnone]
      cases ha : a.lookup name with
      | none => simp
      | some v => simp
  | some p =>
      have hsome := Dict.collect_some hr hp
      unfold inheritFact at hsome
      by_cases hphase : p.phase = .request
      · rw [if_neg (not_not.mpr hphase)] at hsome
        cases ha : a.lookup name with
        | none =>
            rw [ha] at hsome
            simpa [hphase] using (Except.ok.inj hsome).symm
        | some v =>
            rw [ha] at hsome
            dsimp only at hsome
            split at hsome
            · next heq => simp [hphase, heq]
            · simp at hsome
      · rw [if_pos hphase] at hsome
        rw [← Except.ok.inj hsome]
        cases ha : a.lookup name with
        | none => simp [hphase]
        | some v => simp [hphase]

end lemmas

end MaxApi.TaskPricing
