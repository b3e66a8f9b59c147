import MaxApi.Override.Apply
import MaxApi.Override.Writes

/-! # The audit of an override

A line is recorded for a write whose path text is at or below a sensitive path.  Where every
operation of a run either writes apart from the sensitive paths or names one of them by its text
(`CoveredFrom`), each change of a sensitive value has a write of the run with a line in the audit
(`audit_complete`). -/

namespace MaxApi.Override

/-- The locations of the sensitive paths. -/
def sensitiveLocations : List (List String) :=
  paramOverrideSensitivePathPrefixes.map (Text.split · '.')

theorem sensitiveLocations_names : ∀ q ∈ sensitiveLocations, Json.Names q := by
  unfold Json.Names
  decide +kernel

/-- The location of a path is apart from every sensitive one. -/
def Away (path : String) : Prop := ∀ q ∈ sensitiveLocations, PathApart path q

/-- The write changes the value at a location. -/
def Write.changes (w : Write) (q : List String) : Prop :=
  Json.getAt w.after q ≠ Json.getAt w.before q

/-! ### Lines -/

section lines

variable {rt : Runtime} {path fromPath toPath : String} {value : Json}

theorem shouldAuditParamPath_trim (path : String) :
    shouldAuditParamPath false (Text.trimSpace path) = shouldAuditParamPath false path := by
  unfold shouldAuditParamPath
  rw [Text.trimSpace_trimSpace]

theorem shouldAuditOperation_trim (path fromPath toPath : String) :
    shouldAuditOperation false (Text.trimSpace path) (Text.trimSpace fromPath)
      (Text.trimSpace toPath) = shouldAuditOperation false path fromPath toPath := by
  unfold shouldAuditOperation
  simp only [List.any_cons, List.any_nil, shouldAuditParamPath_trim]

theorem append_ne_empty {s : String} (t : String) (h : s ≠ "") : s ++ t ≠ "" := by
  intro happend
  exact h (String.append_eq_empty_iff.mp happend).1

/-- The modes with a line that names the path. -/
def pathModes : List String :=
  ["set", "delete", "trim_space", "to_lower", "to_upper", "prepend", "append", "trim_prefix",
    "trim_suffix", "ensure_prefix", "ensure_suffix", "replace", "regex_replace"]

/-- A sensitive operation at a path that is not blank has a line. -/
theorem buildLine_path_ne_empty {mode : String} (hmode : mode ∈ pathModes)
    (haudit : shouldAuditOperation false path fromPath toPath = true)
    (hpath : Text.trimSpace path ≠ "") :
    buildParamOverrideAuditLine rt false mode path fromPath toPath value ≠ "" := by
  unfold buildParamOverrideAuditLine
  dsimp only
  rw [shouldAuditOperation_trim, if_neg (by rw [haudit]; decide)]
  have hne : ∀ m ∈ pathModes, Text.trimSpace m = m ∧ m ≠ "" := by decide +kernel
  obtain ⟨htrim, hempty⟩ := hne mode hmode
  rw [htrim]
  unfold pathModes at hmode
  simp only [List.mem_cons, List.not_mem_nil, or_false] at hmode
  rcases hmode with rfl | rfl | rfl | rfl | rfl | rfl | rfl | rfl | rfl | rfl | rfl | rfl | rfl
  all_goals
    show (if Text.trimSpace path = "" then "" else _) ≠ ""
    rw [if_neg hpath]
    simp only [String.append_assoc]
    exact append_ne_empty _ hempty

/-- A sensitive operation between two paths that are not blank has a line. -/
theorem buildLine_between_ne_empty {mode : String} (hmode : mode ∈ ["copy", "move", "sync_fields"])
    (haudit : shouldAuditOperation false path fromPath toPath = true)
    (hfrom : Text.trimSpace fromPath ≠ "") (hto : Text.trimSpace toPath ≠ "") :
    buildParamOverrideAuditLine rt false mode path fromPath toPath value ≠ "" := by
  unfold buildParamOverrideAuditLine
  dsimp only
  rw [shouldAuditOperation_trim, if_neg (by rw [haudit]; decide)]
  have hne : ∀ m ∈ ["copy", "move", "sync_fields"], Text.trimSpace m = m ∧ m ≠ "" := by
    decide +kernel
  obtain ⟨htrim, hempty⟩ := hne mode hmode
  rw [htrim]
  have hboth : ¬ (Text.trimSpace fromPath = "" ∨ Text.trimSpace toPath = "") :=
    not_or.mpr ⟨hfrom, hto⟩
  simp only [List.mem_cons, List.not_mem_nil, or_false] at hmode
  rcases hmode with rfl | rfl | rfl
  all_goals
    show (if Text.trimSpace fromPath = "" ∨ Text.trimSpace toPath = "" then "" else _) ≠ ""
    rw [if_neg hboth]
    simp only [String.append_assoc]
    exact append_ne_empty _ hempty

end lines

/-! ### Runs -/

/-- Each sensitive value that the write changes has a line. -/
def Write.Audited (enabled : Bool) (w : Write) : Prop :=
  ∀ q ∈ sensitiveLocations, w.changes q → enabled = true ∧ w.line ≠ ""

/-- The writes lead from one document to another. -/
def Chained : Json → List Write → Json → Prop
  | doc, [], doc' => doc' = doc
  | doc, w :: ws, doc' => w.before = doc ∧ Chained w.after ws doc'

theorem Chained.append {doc doc' doc'' : Json} {ws ws' : List Write} (h : Chained doc ws doc')
    (h' : Chained doc' ws' doc'') : Chained doc (ws ++ ws') doc'' := by
  induction ws generalizing doc with
  | nil =>
      obtain rfl : doc' = doc := h
      exact h'
  | cons w ws ih => exact ⟨h.1, ih h.2⟩

/-- A value that a chain of writes changes is changed by one of them. -/
theorem Chained.exists_changes {doc doc' : Json} {ws : List Write} {q : List String}
    (h : Chained doc ws doc') (hne : Json.getAt doc' q ≠ Json.getAt doc q) :
    ∃ w ∈ ws, w.changes q := by
  induction ws generalizing doc with
  | nil =>
      obtain rfl : doc' = doc := h
      exact absurd rfl hne
  | cons w ws ih =>
      obtain ⟨rfl, hrest⟩ := h
      by_cases hchanges : w.changes q
      · exact ⟨w, List.mem_cons_self, hchanges⟩
      · have hsame : Json.getAt w.after q = Json.getAt w.before q := not_not.mp hchanges
        obtain ⟨w', hw', hchanges'⟩ := ih hrest (by rw [hsame]; exact hne)
        exact ⟨w', List.mem_cons_of_mem _ hw', hchanges'⟩

/-- A recorder keeps its lines and gets those of the writes. -/
def Logged (recorder : Option (List String)) (ws : List Write)
    (recorder' : Option (List String)) : Prop :=
  ∀ lines, recorder = some lines → ∃ lines', recorder' = some lines' ∧
    (∀ line ∈ lines, line ∈ lines') ∧ ∀ w ∈ ws, w.line ≠ "" → w.line ∈ lines'

section runs

variable {Context : Type} {enabled : Bool}

/-- The state has gone on by writes that are audited. -/
def Advances (enabled : Bool) (s s' : State Context) : Prop :=
  ∃ ws, s'.writes = s.writes ++ ws ∧ Chained s.result ws s'.result ∧
    (∀ w ∈ ws, w.Audited enabled) ∧ Logged s.recorder ws s'.recorder

theorem Advances.refl (s : State Context) : Advances enabled s s := by
  refine ⟨[], (List.append_nil _).symm, rfl, fun w hw => absurd hw List.not_mem_nil, ?_⟩
  intro lines hlines
  exact ⟨lines, hlines, fun line hline => hline, fun w hw => absurd hw List.not_mem_nil⟩

theorem Advances.trans {s s' s'' : State Context} (h : Advances enabled s s')
    (h' : Advances enabled s' s'') : Advances enabled s s'' := by
  obtain ⟨ws, hwrites, hchain, haudited, hlogged⟩ := h
  obtain ⟨ws', hwrites', hchain', haudited', hlogged'⟩ := h'
  refine ⟨ws ++ ws', by rw [hwrites', hwrites, List.append_assoc], hchain.append hchain', ?_, ?_⟩
  · intro w hw
    rcases List.mem_append.mp hw with hw | hw
    · exact haudited w hw
    · exact haudited' w hw
  · intro lines hlines
    obtain ⟨lines', hlines', hkept, hnew⟩ := hlogged lines hlines
    obtain ⟨lines'', hlines'', hkept', hnew'⟩ := hlogged' lines' hlines'
    refine ⟨lines'', hlines'', fun line hline => hkept' line (hkept line hline), ?_⟩
    intro w hw hline
    rcases List.mem_append.mp hw with hw | hw
    · exact hkept' _ (hnew w hw hline)
    · exact hnew' w hw hline

theorem record_recorder (s : State Context) (line : String) :
    ∀ lines, s.recorder = some lines → ∃ lines', (s.record line).recorder = some lines' ∧
      (∀ l ∈ lines, l ∈ lines') ∧ (line ≠ "" → line ∈ lines') := by
  intro lines hlines
  unfold State.record
  by_cases hempty : line = ""
  · rw [if_pos hempty]
    exact ⟨lines, hlines, fun l hl => hl, fun h => absurd hempty h⟩
  · rw [if_neg hempty]
    dsimp only
    rw [hlines, Option.map_some]
    by_cases hmem : line ∈ lines
    · exact ⟨lines, congrArg some (if_pos hmem), fun l hl => hl, fun _ => hmem⟩
    · refine ⟨lines ++ [line], congrArg some (if_neg hmem),
        fun l hl => List.mem_append_left _ hl, fun _ => ?_⟩
      exact List.mem_append_right _ (List.mem_singleton.mpr rfl)

theorem record_result (s : State Context) (line : String) : (s.record line).result = s.result := by
  unfold State.record
  by_cases hempty : line = ""
  · rw [if_pos hempty]
  · rw [if_neg hempty]

theorem record_writes (s : State Context) (line : String) : (s.record line).writes = s.writes := by
  unfold State.record
  by_cases hempty : line = ""
  · rw [if_pos hempty]
  · rw [if_neg hempty]

theorem Advances.write {s : State Context} {after : Json} {line : String}
    (h : Write.Audited enabled ⟨s.result, after, line⟩) :
    Advances enabled s (s.write after line) := by
  refine ⟨[⟨s.result, after, line⟩], ?_, ⟨rfl, ?_⟩, ?_, ?_⟩
  · exact record_writes _ _
  · exact record_result _ _
  · intro w hw
    obtain rfl := List.mem_singleton.mp hw
    exact h
  · intro lines hlines
    obtain ⟨lines', hlines', hkept, hnew⟩ := record_recorder
      { s with result := after, writes := s.writes ++ [⟨s.result, after, line⟩] } line lines hlines
    refine ⟨lines', hlines', hkept, fun w hw hline => ?_⟩
    obtain rfl := List.mem_singleton.mp hw
    exact hnew hline

theorem Advances.setContext {hd : Headers Context} {s s' : State Context} {context : Context}
    {line : String} (h : s.setContext hd context line = .ok s') : Advances enabled s s' := by
  unfold State.setContext at h
  obtain ⟨contextJson, -, hs'⟩ := Checked.ok_bind.mp h
  obtain rfl := (Except.ok.inj hs').symm
  refine ⟨[], ?_, ?_, fun w hw => absurd hw List.not_mem_nil, ?_⟩
  · rw [List.append_nil]
    exact record_writes s line
  · exact record_result s line
  · intro lines hlines
    obtain ⟨lines', hlines', hkept, -⟩ := record_recorder s line lines hlines
    exact ⟨lines', hlines', hkept, fun w hw => absurd hw List.not_mem_nil⟩

end runs

/-! ### Covered operations -/

/-- The texts of an operation besides its path that its lines are checked by. -/
def lineTexts (op : ParamOperation) : String × String :=
  if op.mode = "replace" ∨ op.mode = "regex_replace" then (op.opFrom, op.opTo) else ("", "")

/-- The operation has a line for the path. -/
def NamedPath (op : ParamOperation) (path : String) : Prop :=
  op.mode ≠ "prune_objects" ∧ Text.trimSpace path ≠ "" ∧
    shouldAuditOperation false path (lineTexts op).1 (lineTexts op).2 = true

instance (op : ParamOperation) (path : String) : Decidable (NamedPath op path) :=
  inferInstanceAs (Decidable (_ ∧ _ ∧ _))

/-- An operation between two paths has a line. -/
def NamedBetween (fromPath toPath : String) : Prop :=
  Text.trimSpace fromPath ≠ "" ∧ Text.trimSpace toPath ≠ "" ∧
    shouldAuditOperation false "" fromPath toPath = true

instance (fromPath toPath : String) : Decidable (NamedBetween fromPath toPath) :=
  inferInstanceAs (Decidable (_ ∧ _ ∧ _))

/-- The operation writes apart from the sensitive paths, or it has a line. -/
def CoveredPath (enabled : Bool) (op : ParamOperation) (path : String) : Prop :=
  Away path ∧ (op.mode = "prune_objects" → path ≠ "") ∨ enabled = true ∧ NamedPath op path

/-- The target is not at a sensitive path. -/
def SyncTarget.AwayFrom (lib : Libraries) (doc : Json) : SyncTarget → Prop
  | .json key => Away (processNegativeIndex lib doc key)
  | .header _ => True

section covered

variable {Context : Type} (rt : Runtime) (hd : Headers Context)

/-- What an operation writes in a state is apart from the sensitive paths or has a line. -/
def Covered (enabled : Bool) (s : State Context) (op : ParamOperation) : Prop :=
  let lib := rt.toLibraries
  let opFrom := processNegativeIndex lib s.result op.opFrom
  let opTo := processNegativeIndex lib s.result op.opTo
  if isPathBasedOperation op.mode then
    ∀ path ∈ resolveOperationPaths lib s.result (processNegativeIndex lib s.result op.path),
      CoveredPath enabled op path
  else if op.mode = "move" then
    Away opFrom ∧ Away opTo ∨ enabled = true ∧ NamedBetween opFrom opTo
  else if op.mode = "copy" then Away opTo ∨ enabled = true ∧ NamedBetween opFrom opTo
  else if op.mode = "sync_fields" then
    (∀ spec ∈ [op.opFrom, op.opTo], ∀ target, parseSyncTarget spec = .ok target →
      target.AwayFrom lib s.result) ∨
        enabled = true ∧ shouldAuditOperation false "" op.opFrom op.opTo = true
  else True

/-- Every operation of a run is covered in the state in which its conditions hold. -/
def CoveredFrom (enabled : Bool) : State Context → List ParamOperation → Prop
  | _, [] => True
  | s, op :: operations =>
      (checkConditions rt s.result s.contextJson op.conditions op.logic = .ok true →
        Covered rt enabled s op) ∧
        ∀ s', applyOperation rt hd false s op = .ok s' → CoveredFrom enabled s' operations

/-- A plain entry is written apart from the sensitive paths, or it has a line. -/
def CoveredKey (enabled : Bool) (key : String) : Prop :=
  Away (escapeSjsonLiteralKey key) ∨
    enabled = true ∧ Text.trimSpace key ≠ "" ∧ shouldAuditParamPath false key = true

/-- Every plain entry and every operation of an override is covered. -/
def CoveredOverride (paramOverride : List (String × Json)) (doc : Json) (context : Context) :
    Prop :=
  let enabled := shouldEnableParamOverrideAudit false paramOverride
  let s := initialState false paramOverride doc context
  match tryParseOperations paramOverride with
  | some operations =>
      (∀ e ∈ buildLegacyParamOverride paramOverride, CoveredKey enabled e.1) ∧
        ∀ s' contextJson, applyLegacy rt false s (buildLegacyParamOverride paramOverride) = .ok s' →
          hd.marshalContextJson s'.context = .ok contextJson →
            CoveredFrom rt hd enabled { s' with contextJson := contextJson } operations
  | none => ∀ e ∈ paramOverride, CoveredKey enabled e.1

variable {rt hd} {enabled : Bool}

theorem shouldAuditOperation_of_path {path : String} (h : shouldAuditParamPath false path = true)
    (fromPath toPath : String) : shouldAuditOperation false path fromPath toPath = true := by
  unfold shouldAuditOperation
  simp [h]

/-- The legacy loop goes on by audited writes. -/
theorem applyLegacy_advances (hlib : Documented rt.toLibraries) {entries : List (String × Json)}
    {s s' : State Context}
    (hcovered : ∀ e ∈ entries, CoveredKey enabled e.1)
    (h : applyLegacy rt false s entries = .ok s') : Advances enabled s s' := by
  induction entries generalizing s with
  | nil =>
      obtain rfl := Except.ok.inj h
      exact Advances.refl s
  | cons e entries ih =>
      obtain ⟨key, value⟩ := e
      unfold applyLegacy at h
      obtain ⟨next, hset, hrest⟩ := Checked.ok_bind.mp h
      refine (Advances.write ?_).trans
        (ih (fun e he => hcovered e (List.mem_cons_of_mem _ he)) hrest)
      intro q hq hchanges
      rcases hcovered (key, value) List.mem_cons_self with haway | ⟨henabled, hblank, haudit⟩
      · exact absurd
          (sjsonSet_apart hlib (haway q hq) (sensitiveLocations_names q hq) hset) hchanges
      · refine ⟨henabled, ?_⟩
        dsimp only
        exact buildLine_path_ne_empty List.mem_cons_self
          (shouldAuditOperation_of_path haudit "" "") hblank

/-- A named path-based operation has a line, unless it keeps a value. -/
theorem pathLine_ne_empty {op : ParamOperation} {doc : Json} {path : String}
    (hpathBased : isPathBasedOperation op.mode = true) (hnamed : NamedPath op path)
    (hset : ¬ (op.mode = "set" ∧ op.keepOrigin ∧ (rt.gjsonGet doc path).isSome)) :
    pathLine rt false op doc path ≠ "" := by
  obtain ⟨opPath, mode, value, keepOrigin, opFrom, opTo, conditions, logic⟩ := op
  obtain ⟨hprune, hblank, haudit⟩ := hnamed
  have hmode : mode ∈ pathModes := by
    have hsub : ∀ m ∈ ["delete", "set", "prepend", "append", "trim_prefix", "trim_suffix",
        "ensure_prefix", "ensure_suffix", "trim_space", "to_lower", "to_upper", "replace",
        "regex_replace", "prune_objects"], m ≠ "prune_objects" → m ∈ pathModes := by
      decide +kernel
    exact hsub mode (of_decide_eq_true hpathBased) hprune
  unfold pathModes at hmode
  simp only [List.mem_cons, List.not_mem_nil, or_false] at hmode
  unfold lineTexts at haudit
  unfold pathLine
  dsimp only at haudit ⊢
  rcases hmode with rfl | rfl | rfl | rfl | rfl | rfl | rfl | rfl | rfl | rfl | rfl | rfl | rfl
  · simp only [String.reduceEq, or_self, if_false] at haudit
    show (if keepOrigin = true ∧ (rt.gjsonGet doc path).isSome then ""
      else buildParamOverrideAuditLine rt false "set" path "" "" value) ≠ ""
    rw [if_neg fun hkeep => hset ⟨rfl, hkeep⟩]
    exact buildLine_path_ne_empty (by decide +kernel) haudit hblank
  rotate_right 2
  · simp only [String.reduceEq, or_false, if_true] at haudit
    show buildParamOverrideAuditLine rt false "replace" path opFrom opTo .null ≠ ""
    exact buildLine_path_ne_empty (by decide +kernel) haudit hblank
  · simp only [String.reduceEq, or_true, if_true] at haudit
    show buildParamOverrideAuditLine rt false "regex_replace" path opFrom opTo .null ≠ ""
    exact buildLine_path_ne_empty (by decide +kernel) haudit hblank
  all_goals
    simp only [String.reduceEq, or_self, if_false] at haudit
    show buildParamOverrideAuditLine rt false _ path "" "" _ ≠ ""
    exact buildLine_path_ne_empty (by decide +kernel) haudit hblank

/-- The loop over the paths of an operation goes on by audited writes. -/
theorem applyPaths_advances (hlib : Documented rt.toLibraries) {op : ParamOperation}
    (hmode : isPathBasedOperation op.mode = true) {paths : List String} {s s' : State Context}
    (hcovered : ∀ path ∈ paths, CoveredPath enabled op path)
    (h : applyPaths rt false op s paths = .ok s') : Advances enabled s s' := by
  induction paths generalizing s with
  | nil =>
      obtain rfl := Except.ok.inj h
      exact Advances.refl s
  | cons path paths ih =>
      unfold applyPaths at h
      obtain ⟨next, hnext, hrest⟩ := Checked.ok_bind.mp h
      refine (Advances.write ?_).trans
        (ih (fun path hpath => hcovered path (List.mem_cons_of_mem _ hpath)) hrest)
      intro q hq hchanges
      rcases hcovered path List.mem_cons_self with ⟨haway, hprune⟩ | ⟨henabled, hnamed⟩
      · have hsame := (pathOperation_writes hprune hnext).apart hlib (haway q hq)
          (sensitiveLocations_names q hq)
        exact absurd hsame hchanges
      · have hline : pathLine rt false op s.result path ≠ "" := by
          apply pathLine_ne_empty hmode hnamed
          rintro ⟨hset, hkeep⟩
          apply hchanges
          have hsame : next = s.result := by
            have hvalue : pathOperation rt s.contextJson op s.result path = .ok s.result := by
              unfold pathOperation
              rw [hset]
              exact if_pos hkeep
            exact Except.ok.inj (hnext.symm.trans hvalue)
          exact congrArg (Json.getAt · q) hsame
        exact ⟨henabled, hline⟩

theorem parseSyncTarget_ne_empty {spec : String} {target : SyncTarget}
    (h : parseSyncTarget spec = .ok target) : Text.trimSpace spec ≠ "" := by
  intro hempty
  unfold parseSyncTarget at h
  rw [if_pos hempty] at h
  exact nomatch h

theorem writeSyncTargetValue_apart (hlib : Documented rt.toLibraries) {doc next value : Json}
    {context context' : Context} {target : SyncTarget}
    (haway : target.AwayFrom rt.toLibraries doc) {q : List String} (hq : q ∈ sensitiveLocations)
    (h : writeSyncTargetValue rt hd doc context target value = .ok (next, context')) :
    Json.getAt next q = Json.getAt doc q := by
  unfold writeSyncTargetValue at h
  cases target with
  | json key =>
      obtain ⟨next', hset, heq⟩ := Checked.ok_bind.mp h
      obtain rfl := (Prod.mk.inj (Except.ok.inj heq)).1
      exact sjsonSet_apart hlib (haway q hq) (sensitiveLocations_names q hq) hset
  | header key =>
      obtain ⟨context'', -, heq⟩ := Checked.ok_bind.mp h
      obtain rfl := (Prod.mk.inj (Except.ok.inj heq)).1
      rfl

/-- `sync_fields` writes one of its two targets. -/
theorem syncFields_targets {doc next : Json} {context context' : Context}
    {fromSpec toSpec : String}
    (h : syncFieldsBetweenTargets rt hd doc context fromSpec toSpec = .ok (next, context')) :
    Text.trimSpace fromSpec ≠ "" ∧ Text.trimSpace toSpec ≠ "" ∧
      (next = doc ∨ ∃ spec ∈ [fromSpec, toSpec], ∃ target context value,
        parseSyncTarget spec = .ok target ∧
          writeSyncTargetValue rt hd doc context target value = .ok (next, context')) := by
  unfold syncFieldsBetweenTargets at h
  obtain ⟨fromTarget, hfrom, h⟩ := Checked.ok_bind.mp h
  obtain ⟨toTarget, hto, h⟩ := Checked.ok_bind.mp h
  refine ⟨parseSyncTarget_ne_empty hfrom, parseSyncTarget_ne_empty hto, ?_⟩
  cases hread : readSyncTargetValue rt hd doc context fromTarget with
  | mk context₁ fromValue =>
      rw [hread] at h
      dsimp only at h
      cases hread' : readSyncTargetValue rt hd doc context₁ toTarget with
      | mk context₂ toValue =>
          rw [hread'] at h
          dsimp only at h
          cases fromValue with
          | none =>
              cases toValue with
              | none => exact .inl (Prod.mk.inj (Except.ok.inj h)).1.symm
              | some value =>
                  exact .inr ⟨fromSpec, List.mem_cons_self, fromTarget, context₂, value, hfrom, h⟩
          | some value =>
              cases toValue with
              | none =>
                  exact .inr ⟨toSpec, List.mem_cons_of_mem _ List.mem_cons_self, toTarget, context₂,
                    value, hto, h⟩
              | some _ => exact .inl (Prod.mk.inj (Except.ok.inj h)).1.symm

theorem headerOperation_advances {mode : String}
    {move : Context → String → String → Bool → Context × Option HeaderError} {op : ParamOperation}
    {s s' : State Context} (h : headerOperation rt hd false mode move s op = .ok s') :
    Advances enabled s s' := by
  unfold headerOperation at h
  dsimp only at h
  split at h
  · exact nomatch h
  · exact Advances.setContext h

/-- An operation that is not path-based goes on by audited writes. -/
theorem otherOperation_advances (hlib : Documented rt.toLibraries) {op : ParamOperation}
    {s s' : State Context} (hmode : isPathBasedOperation op.mode = false)
    (hcovered : Covered rt enabled s op)
    (h : otherOperation rt hd false s op = .ok s') : Advances enabled s s' := by
  unfold Covered at hcovered
  dsimp only at hcovered
  rw [if_neg (by rw [hmode]; decide)] at hcovered
  unfold otherOperation at h
  dsimp only at h
  split at h
  · next hop =>
    rw [if_pos hop] at hcovered
    obtain ⟨next, hmove, heq⟩ := Checked.ok_bind.mp h
    obtain rfl := Except.ok.inj heq
    refine Advances.write fun q hq hchanges => ?_
    rcases hcovered with ⟨hfrom, hto⟩ | ⟨henabled, hfrom, hto, haudit⟩
    · exact absurd (moveValue_apart hlib (hfrom q hq) (hto q hq) (sensitiveLocations_names q hq)
        hmove) hchanges
    · refine ⟨henabled, ?_⟩
      dsimp only
      exact buildLine_between_ne_empty (by decide +kernel) haudit hfrom hto
  · next hop =>
    rw [if_neg (by rw [hop]; decide), if_pos hop] at hcovered
    obtain ⟨next, hcopy, heq⟩ := Checked.ok_bind.mp h
    obtain rfl := Except.ok.inj heq
    refine Advances.write fun q hq hchanges => ?_
    rcases hcovered with hto | ⟨henabled, hfrom, hto, haudit⟩
    · exact absurd (copyValue_apart hlib (hto q hq) (sensitiveLocations_names q hq) hcopy) hchanges
    · refine ⟨henabled, ?_⟩
      dsimp only
      exact buildLine_between_ne_empty (by decide +kernel) haudit hfrom hto
  · obtain ⟨context, -, hset⟩ := Checked.ok_bind.mp h
    exact Advances.setContext hset
  · obtain ⟨context, -, hset⟩ := Checked.ok_bind.mp h
    exact Advances.setContext hset
  · exact headerOperation_advances h
  · exact headerOperation_advances h
  · next hop =>
    rw [if_neg (by rw [hop]; decide), if_neg (by rw [hop]; decide), if_pos hop] at hcovered
    obtain ⟨⟨next, context⟩, hsync, hset⟩ := Checked.ok_bind.mp h
    refine Advances.trans (Advances.write fun q hq hchanges => ?_) (Advances.setContext hset)
    obtain ⟨hfrom, hto, hnext⟩ := syncFields_targets hsync
    rcases hcovered with haway | ⟨henabled, haudit⟩
    · exfalso
      apply hchanges
      rcases hnext with rfl | ⟨spec, hspec, target, context', value, hparse, hwrite⟩
      · rfl
      · exact writeSyncTargetValue_apart hlib (haway spec hspec target hparse) hq hwrite
    · refine ⟨henabled, ?_⟩
      dsimp only
      exact buildLine_between_ne_empty (by decide +kernel) haudit hfrom hto
  · exact nomatch h

theorem failed_ok {α : Type} {mode : String} {x : Except String α} {a : α}
    (h : failed mode x = .ok a) : x = .ok a := by
  unfold failed at h
  cases x with
  | error e => exact nomatch h
  | ok b => exact congrArg Except.ok (Except.ok.inj h)

/-- An operation goes on by audited writes. -/
theorem applyOperation_advances (hlib : Documented rt.toLibraries) {op : ParamOperation}
    {s s' : State Context}
    (hcovered : checkConditions rt s.result s.contextJson op.conditions op.logic = .ok true →
      Covered rt enabled s op)
    (h : applyOperation rt hd false s op = .ok s') : Advances enabled s s' := by
  unfold applyOperation at h
  obtain ⟨holds, hconditions, h⟩ := Checked.ok_bind.mp h
  have hconditions := Checked.ok_mapError.mp hconditions
  cases holds with
  | false =>
      rw [if_pos rfl] at h
      obtain rfl := Except.ok.inj h
      exact Advances.refl s
  | true =>
      specialize hcovered hconditions
      rw [if_neg (by decide)] at h
      cases hmode : isPathBasedOperation op.mode with
      | true =>
          rw [if_pos hmode] at h
          unfold Covered at hcovered
          dsimp only at hcovered
          rw [if_pos hmode] at hcovered
          exact applyPaths_advances hlib hmode hcovered (failed_ok h)
      | false =>
          rw [if_neg (by rw [hmode]; decide)] at h
          split at h
          · split at h
            · exact nomatch h
            · exact nomatch h
          · split at h
            · exact nomatch h
            · split at h
              · obtain ⟨names, -, h⟩ := Checked.ok_bind.mp h
                obtain ⟨context, -, hset⟩ := Checked.ok_bind.mp (failed_ok h)
                exact Advances.setContext hset
              · split at h
                · exact otherOperation_advances hlib hmode hcovered (failed_ok h)
                · exact nomatch h

/-- A run of covered operations goes on by audited writes. -/
theorem applyOperations_advances (hlib : Documented rt.toLibraries)
    {operations : List ParamOperation} {s s' : State Context}
    (hcovered : CoveredFrom rt hd enabled s operations)
    (h : applyOperations rt hd false s operations = .ok s') : Advances enabled s s' := by
  induction operations generalizing s with
  | nil =>
      obtain rfl := Except.ok.inj h
      exact Advances.refl s
  | cons op operations ih =>
      obtain ⟨hop, hrest⟩ := hcovered
      unfold applyOperations at h
      obtain ⟨next, hnext, h⟩ := Checked.ok_bind.mp h
      exact (applyOperation_advances hlib hop hnext).trans (ih (hrest next hnext) h)

/-- A covered override goes on by audited writes. -/
theorem applyParamOverride_advances (hlib : Documented rt.toLibraries)
    {paramOverride : List (String × Json)} {doc : Json} {context : Context} {s' : State Context}
    (hcovered : CoveredOverride rt hd paramOverride doc context)
    (h : applyParamOverrideWithRelayInfo rt hd false paramOverride doc context = .ok s') :
    Advances (shouldEnableParamOverrideAudit false paramOverride)
      (initialState false paramOverride doc context) s' := by
  unfold applyParamOverrideWithRelayInfo applyParamOverride at h
  unfold CoveredOverride at hcovered
  cases hparse : tryParseOperations paramOverride with
  | none =>
      rw [hparse] at h hcovered
      exact applyLegacy_advances hlib hcovered (Checked.ok_mapError.mp h)
  | some operations =>
      rw [hparse] at h hcovered
      obtain ⟨hlegacy, hoperations⟩ := hcovered
      obtain ⟨s, hs, h⟩ := Checked.ok_bind.mp h
      obtain ⟨contextJson, hjson, h⟩ := Checked.ok_bind.mp h
      have hs := Checked.ok_mapError.mp hs
      have hjson := Checked.ok_mapError.mp hjson
      have hrun := applyOperations_advances hlib (hoperations s contextJson hs hjson) h
      exact (applyLegacy_advances hlib hlegacy hs).trans hrun

end covered

/-- **Main.** In every run of an override whose writes are each apart from the sensitive paths or
named by a line, with the audit enabled, each change of a sensitive value has a write of the run
whose line is in the audit. -/
theorem audit_complete {Context : Type} (rt : Runtime) (hlib : Documented rt.toLibraries)
    (hd : Headers Context) (paramOverride : List (String × Json)) (doc : Json) (context : Context)
    (s' : State Context)
    (hcovered : CoveredOverride rt hd paramOverride doc context)
    (h : applyParamOverrideWithRelayInfo rt hd false paramOverride doc context = .ok s') :
    ∀ q ∈ sensitiveLocations, Json.getAt s'.result q ≠ Json.getAt doc q →
      shouldEnableParamOverrideAudit false paramOverride = true ∧
        ∃ lines, s'.recorder = some lines ∧
          ∃ w ∈ s'.writes, w.changes q ∧ w.line ≠ "" ∧ w.line ∈ lines := by
  intro q hq hchange
  obtain ⟨ws, hwrites, hchain, haudited, hlogged⟩ := applyParamOverride_advances hlib hcovered h
  obtain ⟨w, hw, hchanges⟩ := hchain.exists_changes hchange
  obtain ⟨henabled, hline⟩ := haudited w hw q hq hchanges
  obtain ⟨lines, hlines, -, hnew⟩ := hlogged [] (if_pos henabled)
  refine ⟨henabled, lines, hlines, w, ?_, hchanges, hline, hnew w hw hline⟩
  rw [hwrites]
  exact List.mem_append_right _ hw

/-! ### Runs with and without an audit -/

/-- The run of an override on plain values. -/
def plainRun (paramOverride : List (String × Json)) (doc : Json) : Except Failure (State Unit) :=
  applyParamOverrideWithRelayInfo plainRuntime noHeaders false paramOverride doc ()

/-- Whether a value is a text. -/
def isText (s : String) : Option Json → Bool
  | some (.string t) => s = t
  | _ => false

/-- An operation at a path that is taken as it stands. -/
theorem covered_of_path {rt : Runtime} {enabled : Bool} {Context : Type} {op : ParamOperation}
    (hmode : isPathBasedOperation op.mode = true) (hnegative : negativeIndices op.path.toList = [])
    (hwildcard : '*' ∉ op.path.toList) (hcovered : CoveredPath enabled op op.path)
    (s : State Context) : Covered rt enabled s op := by
  unfold Covered
  dsimp only
  rw [if_pos hmode, processNegativeIndex_none hnegative]
  unfold resolveOperationPaths
  rw [if_neg hwildcard]
  intro path hpath
  rw [List.mem_singleton.mp hpath]
  exact hcovered

/-- A member of another name is apart from the sensitive paths. -/
theorem away_of_member {name : String} (hpath : sjsonPath name = some [⟨name, false⟩])
    (hname : Json.index? name = none)
    (hother : ∀ q ∈ sensitiveLocations, q ≠ [] ∧ q.head? ≠ some name) : Away name := by
  intro q hq
  refine ⟨[⟨name, false⟩], hpath, ?_⟩
  obtain ⟨hne, hhead⟩ := hother q hq
  cases q with
  | nil => exact absurd rfl hne
  | cons b q => exact .inl (Json.differ_of_name (fun he => hhead (congrArg some he.symm)) hname)

/-- Operations that hold in every state. -/
theorem coveredFrom_of_covered {rt : Runtime} {Context : Type} {hd : Headers Context}
    {enabled : Bool} {operations : List ParamOperation}
    (h : ∀ op ∈ operations, ∀ s : State Context, Covered rt enabled s op) (s : State Context) :
    CoveredFrom rt hd enabled s operations := by
  induction operations generalizing s with
  | nil => trivial
  | cons op operations ih =>
      exact ⟨fun _ => h op List.mem_cons_self s,
        fun s' _ => ih (fun op hop => h op (List.mem_cons_of_mem _ hop)) s'⟩

/-- A plain entry beside a list of operations: a `set` of the model on a condition, an `append` to
the messages, a `copy` of the model and a `delete` apart from the sensitive paths. -/
def auditedOverride : List (String × Json) :=
  [("speed", .string "fast"), ("operations", .array
    [.object [("mode", .string "set"), ("path", .string "model"), ("value", .string "b"),
      ("conditions", .array [.object [("path", .string "model"), ("mode", .string "contains"),
        ("value", .string "")]])],
    .object [("mode", .string "append"), ("path", .string "messages"), ("value", .string "w")],
    .object [("mode", .string "copy"), ("from", .string "model"), ("to", .string "label")],
    .object [("mode", .string "delete"), ("path", .string "temperature")]])]

/-- The operations that the override's list is read as. -/
def auditedOperations : List ParamOperation :=
  [⟨"model", "set", .string "b", false, "", "",
    [⟨"model", "contains", .string "", false, false⟩], "OR"⟩,
    ⟨"messages", "append", .string "w", false, "", "", [], "OR"⟩,
    ⟨"", "copy", .null, false, "model", "label", [], "OR"⟩,
    ⟨"temperature", "delete", .null, false, "", "", [], "OR"⟩]

theorem tryParseOperations_audited :
    tryParseOperations auditedOverride = some auditedOperations := by
  rfl

/-- Each of the operations is covered in every state. -/
theorem auditedOperations_covered :
    ∀ op ∈ auditedOperations, ∀ s : State Unit, Covered plainRuntime true s op := by
  intro op hop s
  unfold auditedOperations at hop
  simp only [List.mem_cons, List.not_mem_nil, or_false] at hop
  rcases hop with rfl | rfl | rfl | rfl
  · exact covered_of_path rfl rfl (by decide +kernel) (.inr ⟨rfl, by decide +kernel⟩) s
  · exact covered_of_path rfl rfl (by decide +kernel) (.inr ⟨rfl, by decide +kernel⟩) s
  · refine .inr ⟨rfl, ?_⟩
    rw [processNegativeIndex_none rfl, processNegativeIndex_none rfl]
    decide +kernel
  · refine covered_of_path rfl rfl (by decide +kernel) (.inl ⟨?_, fun h => absurd h (by decide)⟩) s
    exact away_of_member (by decide +kernel) (by decide +kernel) (by decide +kernel)

def auditedBody : Json :=
  .object [("model", .string "a"), ("messages", .array []), ("temperature", .number 1)]

theorem audit_complete_model : ∃ s', plainRun auditedOverride auditedBody = .ok s' ∧
    Json.getAt s'.result ["model"] ≠ Json.getAt auditedBody ["model"] ∧
      ∀ q ∈ sensitiveLocations, Json.getAt s'.result q ≠ Json.getAt auditedBody q →
        shouldEnableParamOverrideAudit false auditedOverride = true ∧
          ∃ lines, s'.recorder = some lines ∧
            ∃ w ∈ s'.writes, w.changes q ∧ w.line ≠ "" ∧ w.line ∈ lines := by
  obtain ⟨s', hrun, hs'⟩ := exists_of_toBool (x := plainRun auditedOverride auditedBody)
    (p := fun s => isText "b" (Json.getAt s.result ["model"])) (by decide +kernel)
  refine ⟨s', hrun, fun heq => ?_, audit_complete plainRuntime (locationLibraries_documented _)
    noHeaders _ auditedBody () s' ?_ hrun⟩
  · rw [heq] at hs'
    exact absurd hs' (by decide +kernel)
  · have henabled : shouldEnableParamOverrideAudit false auditedOverride = true := by
      decide +kernel
    unfold CoveredOverride
    dsimp only
    rw [henabled, tryParseOperations_audited]
    refine ⟨fun e he => ?_, fun s' contextJson _ _ => ?_⟩
    · obtain rfl := List.mem_singleton.mp he
      exact .inr ⟨rfl, by decide +kernel⟩
    · exact coveredFrom_of_covered auditedOperations_covered _

/-- Whether a value is an empty array. -/
def isEmptyArray : Option Json → Bool
  | some (.array []) => true
  | _ => false

/-- `prune_objects` with `type: tool` at the messages. -/
def pruneMessages : List (String × Json) :=
  [("operations", .array [.object [("mode", .string "prune_objects"), ("path", .string "messages"),
    ("value", .string "tool")]])]

/-- `set` of the model under another spelling of its path. -/
def setModel : List (String × Json) :=
  [("operations", .array [.object [("mode", .string "set"), ("path", .string ":model"),
    ("value", .string "b")]])]

/-- `prune_objects` removes a message without a line; a spelling of a sensitive path that does not
start with it changes the value without an audit. -/
theorem audit_misses :
    (∃ s', plainRun pruneMessages
        (.object [("messages", .array [.object [("type", .string "tool")]])]) = .ok s' ∧
      Json.getAt s'.result ["messages"] ≠
        Json.getAt (.object [("messages", .array [.object [("type", .string "tool")]])])
          ["messages"] ∧ s'.recorder = some []) ∧
      ∃ s', plainRun setModel (.object [("model", .string "a")]) = .ok s' ∧
        Json.getAt s'.result ["model"] ≠ Json.getAt (.object [("model", .string "a")]) ["model"] ∧
          s'.recorder = none ∧ shouldEnableParamOverrideAudit false setModel = false := by
  constructor
  · obtain ⟨s', hrun, hs'⟩ := exists_of_toBool (x := plainRun pruneMessages
      (.object [("messages", .array [.object [("type", .string "tool")]])]))
      (p := fun s => isEmptyArray (Json.getAt s.result ["messages"]) && s.recorder = some [])
      (by decide +kernel)
    simp only [Bool.and_eq_true, decide_eq_true_eq] at hs'
    refine ⟨s', hrun, fun heq => ?_, hs'.2⟩
    rw [heq] at hs'
    exact absurd hs'.1 (by decide +kernel)
  · obtain ⟨s', hrun, hs'⟩ := exists_of_toBool (x := plainRun setModel
      (.object [("model", .string "a")]))
      (p := fun s => isText "b" (Json.getAt s.result ["model"]) && s.recorder = none)
      (by decide +kernel)
    simp only [Bool.and_eq_true, decide_eq_true_eq] at hs'
    refine ⟨s', hrun, fun heq => ?_, hs'.2, by decide +kernel⟩
    rw [heq] at hs'
    exact absurd hs'.1 (by decide +kernel)

end MaxApi.Override
