import MaxApi.Lib.JsonPatterns
import MaxApi.Override.Apply
import MaxApi.Override.Writes

/-! # Wildcard operations

A wildcard operation expands its path once, on the decoded body, and then works through the
expanded paths one after the other.  Where the expanded paths are read back as the locations they
were made of, this does to every matched value of the body what the operation asks for
(`wildcards_iff`), except that removing the elements of an array moves those behind. -/

namespace MaxApi.Override

open Json (Component Effect)

/-! ### The effect of an operation -/

/-- The effect of an operation on a string. -/
def stringEffect (f : String → Except String (Option String)) (current : Option Json) :
    Except String Effect :=
  match current with
  | some (.string s) => (f s).map fun next =>
      match next with
      | some next => .set (.string next)
      | none => .keep
  | current => .error (notSupported current)

/-- The effect of `append` and `prepend`. -/
def modifyEffect (rt : Runtime) (value : Json) (keepOrigin isPrepend : Bool)
    (current : Option Json) : Except String Effect :=
  match current with
  | some (.array items) =>
      let added := match value with | .array values => values | value => [value]
      let original := items.map rt.toLibraries.value
      .ok (.set (marshalSlice (if isPrepend then added ++ original else original ++ added)))
  | some (.string s) =>
      .ok (.set (.string (if isPrepend then rt.sprint value ++ s else s ++ rt.sprint value)))
  | some (.object ms) =>
      (match value with
        | .object new => .ok new
        | .null => .ok []
        | _ => .error "cannot unmarshal the value into an object" :
          Except String (List (String × Json))).map fun new =>
        .set (.object (Json.canonicalBy Json.first (mergeMembers keepOrigin
          (Json.canonical (Json.decodeMembers rt.rewrite ms)) new)))
  | current => .error (notSupported current)

/-- The effect of `prune_objects`. -/
def pruneEffect (rt : Runtime) (contextJson : Option Json) (value : Json)
    (current : Option Json) : Except String Effect := do
  let options ← parsePruneObjectsOptions value
  match current with
  | none => .ok .keep
  | some target => do
      let cleaned ← (pruneObjectsNode
        (fun ms => checkConditions rt (.object ms) contextJson options.conditions options.logic)
        options.recursive (rt.toLibraries.decode target) true).map Prod.fst
      .ok (.set cleaned)

/-- What a path-based operation does where its path finds a value. -/
def operationEffect (rt : Runtime) (contextJson : Option Json) (op : ParamOperation)
    (current : Option Json) : Except String Effect :=
  match op.mode with
  | "delete" => .ok .remove
  | "set" => .ok (if op.keepOrigin ∧ current.isSome then .keep else .set op.value)
  | "prepend" => modifyEffect rt op.value op.keepOrigin true current
  | "append" => modifyEffect rt op.value op.keepOrigin false current
  | "trim_prefix" => stringEffect (trimmed rt op.value true) current
  | "trim_suffix" => stringEffect (trimmed rt op.value false) current
  | "ensure_prefix" => stringEffect (ensured rt op.value true) current
  | "ensure_suffix" => stringEffect (ensured rt op.value false) current
  | "trim_space" => stringEffect (fun s => .ok (some (Text.trimSpace s))) current
  | "to_lower" => stringEffect (fun s => .ok (some (rt.lower s))) current
  | "to_upper" => stringEffect (fun s => .ok (some (rt.upper s))) current
  | "replace" => stringEffect (replaced op.opFrom op.opTo) current
  | "regex_replace" => stringEffect (regexReplaced rt op.opFrom op.opTo) current
  | "prune_objects" => pruneEffect rt contextJson op.value current
  | mode => .error ("unknown operation: " ++ mode)

/-- The write of an effect at a path. -/
def effectAt (lib : Libraries) (doc : Json) (path : String) : Effect → Except String Json
  | .keep => .ok doc
  | .set v => lib.sjsonSet doc path v
  | .remove => lib.sjsonDelete doc path

section effects

variable {rt : Runtime} {doc : Json} {path : String}

theorem stringOperation_effect {f : String → Except String (Option String)} :
    stringOperation rt.toLibraries f doc path =
      (stringEffect f (rt.gjsonGet doc path)).bind
        (effectAt rt.toLibraries doc path) := by
  unfold stringOperation stringEffect
  cases rt.gjsonGet doc path with
  | none => rfl
  | some current =>
      cases current with
      | string s =>
          dsimp only
          cases f s with
          | error e => rfl
          | ok next =>
              cases next with
              | none => rfl
              | some next => rfl
      | null | bool _ | number _ | array _ | object _ => rfl

theorem modifyValue_effect {value : Json} {keepOrigin isPrepend : Bool} :
    modifyValue rt doc path value keepOrigin isPrepend =
      (modifyEffect rt value keepOrigin isPrepend (rt.gjsonGet doc path)).bind
        (effectAt rt.toLibraries doc path) := by
  unfold modifyValue modifyEffect
  cases rt.gjsonGet doc path with
  | none => rfl
  | some current =>
      cases current with
      | array items => rfl
      | string s => rfl
      | object ms =>
          dsimp only
          unfold mergeObjects
          cases value with
          | object new => rfl
          | null => rfl
          | bool _ | number _ | string _ | array _ => rfl
      | null | bool _ | number _ => rfl

theorem pruneObjects_effect {contextJson : Option Json} {value : Json} (hpath : path ≠ "") :
    pruneObjects rt doc path contextJson value =
      (pruneEffect rt contextJson value (rt.gjsonGet doc path)).bind
        (effectAt rt.toLibraries doc path) := by
  unfold pruneObjects pruneEffect
  cases parsePruneObjectsOptions value with
  | error e => rfl
  | ok options =>
      simp only [bind, Except.bind]
      rw [if_neg hpath]
      cases rt.gjsonGet doc path with
      | none => rfl
      | some target =>
          dsimp only
          generalize pruneObjectsNode _ options.recursive (rt.toLibraries.decode target) true = node
          cases node with
          | error e => rfl
          | ok cleaned => rfl

/-- An operation at a path writes what the value there asks for. -/
theorem pathOperation_effect {contextJson : Option Json} {op : ParamOperation}
    (hmode : isPathBasedOperation op.mode = true) (hpath : path ≠ "")
    (hblank : op.mode = "delete" → Text.trimSpace path ≠ "") :
    pathOperation rt contextJson op doc path =
      (operationEffect rt contextJson op (rt.gjsonGet doc path)).bind
        (effectAt rt.toLibraries doc path) := by
  obtain ⟨opPath, mode, value, keepOrigin, opFrom, opTo, conditions, logic⟩ := op
  have hmem := of_decide_eq_true hmode
  simp only [List.mem_cons, List.not_mem_nil, or_false] at hmem
  unfold pathOperation operationEffect
  rcases hmem with rfl | rfl | rfl | rfl | rfl | rfl | rfl | rfl | rfl | rfl | rfl | rfl | rfl | rfl
  · exact if_neg (hblank rfl)
  · by_cases hkeep : keepOrigin ∧ (rt.gjsonGet doc path).isSome
    · show (if _ then _ else _) = (Except.ok (if _ then _ else _)).bind _
      rw [if_pos hkeep, if_pos hkeep]
      rfl
    · show (if _ then _ else _) = (Except.ok (if _ then _ else _)).bind _
      rw [if_neg hkeep, if_neg hkeep]
      rfl
  · exact modifyValue_effect
  · exact modifyValue_effect
  · exact stringOperation_effect
  · exact stringOperation_effect
  · exact stringOperation_effect
  · exact stringOperation_effect
  · exact stringOperation_effect
  · exact stringOperation_effect
  · exact stringOperation_effect
  · exact stringOperation_effect
  · exact stringOperation_effect
  · exact pruneObjects_effect hpath

theorem stringEffect_ne_remove {f : String → Except String (Option String)} (o : Option Json) :
    stringEffect f o ≠ .ok .remove := by
  unfold stringEffect
  split
  · next s =>
    cases f s with
    | error e => exact fun h => nomatch h
    | ok next =>
        cases next with
        | none => exact fun h => nomatch Except.ok.inj h
        | some next => exact fun h => nomatch Except.ok.inj h
  · exact fun h => nomatch h

theorem modifyEffect_ne_remove {value : Json} {keepOrigin isPrepend : Bool} (o : Option Json) :
    modifyEffect rt value keepOrigin isPrepend o ≠ .ok .remove := by
  unfold modifyEffect
  split
  · exact fun h => nomatch Except.ok.inj h
  · exact fun h => nomatch Except.ok.inj h
  · cases value with
    | object _ | null => exact fun h => nomatch Except.ok.inj h
    | bool _ | number _ | string _ | array _ => exact fun h => nomatch h
  · exact fun h => nomatch h

theorem pruneEffect_ne_remove {contextJson : Option Json} {value : Json} (o : Option Json) :
    pruneEffect rt contextJson value o ≠ .ok .remove := by
  intro h
  unfold pruneEffect at h
  obtain ⟨options, -, h⟩ := Checked.ok_bind.mp h
  cases o with
  | none => exact nomatch Except.ok.inj h
  | some target =>
      obtain ⟨cleaned, -, h⟩ := Checked.ok_bind.mp h
      exact nomatch Except.ok.inj h

/-- Only `delete` removes. -/
theorem operationEffect_ne_remove {contextJson : Option Json} {op : ParamOperation}
    (hmode : op.mode ≠ "delete") (o : Option Json) :
    operationEffect rt contextJson op o ≠ .ok .remove := by
  unfold operationEffect
  split
  · next h => exact absurd h hmode
  · by_cases hkeep : op.keepOrigin ∧ o.isSome
    · rw [if_pos hkeep]
      exact fun h => nomatch Except.ok.inj h
    · rw [if_neg hkeep]
      exact fun h => nomatch Except.ok.inj h
  · exact modifyEffect_ne_remove o
  · exact modifyEffect_ne_remove o
  · exact stringEffect_ne_remove o
  · exact stringEffect_ne_remove o
  · exact stringEffect_ne_remove o
  · exact stringEffect_ne_remove o
  · exact stringEffect_ne_remove o
  · exact stringEffect_ne_remove o
  · exact stringEffect_ne_remove o
  · exact stringEffect_ne_remove o
  · exact stringEffect_ne_remove o
  · exact pruneEffect_ne_remove o
  · exact fun h => nomatch h

/-! ### Paths of locations -/

/-- The operation reads the value at its paths. -/
def readsValue (op : ParamOperation) : Bool :=
  op.mode != "delete" && (op.mode != "set" || op.keepOrigin)

/-- The text of a location is read back as this location by the library functions that the
operation calls with it. -/
def ReadsBack (op : ParamOperation) (loc : List String) : Prop :=
  ".".intercalate loc ≠ "" ∧ (op.mode = "delete" → Text.trimSpace (".".intercalate loc) ≠ "") ∧
    sjsonPath (".".intercalate loc) = some (Json.components loc) ∧
      (readsValue op = true → gjsonPath (".".intercalate loc) = some loc)

instance (op : ParamOperation) : DecidablePred (ReadsBack op) :=
  fun _ => inferInstanceAs (Decidable (_ ∧ _ ∧ _ ∧ _))

/-- An operation that does not read the value does the same to every value. -/
theorem operationEffect_const {contextJson : Option Json} {op : ParamOperation}
    (h : readsValue op = false) (o o' : Option Json) :
    operationEffect rt contextJson op o = operationEffect rt contextJson op o' := by
  obtain ⟨opPath, mode, value, keepOrigin, opFrom, opTo, conditions, logic⟩ := op
  unfold readsValue at h
  dsimp only at h
  by_cases hdelete : mode = "delete"
  · subst hdelete
    rfl
  · by_cases hset : mode = "set"
    · subst hset
      have hkeep : keepOrigin = false := by simpa using h
      subst hkeep
      rfl
    · simp [hdelete, hset] at h

theorem map_part_components (loc : List String) :
    (Json.components loc).map Component.part = loc := by
  unfold Json.components
  rw [List.map_map]
  exact List.map_id loc

/-- At the text of a location that is read back, an operation acts at the location. -/
theorem pathOperation_readsBack (hlib : Documented rt.toLibraries) {contextJson : Option Json}
    {op : ParamOperation} {loc : List String} (hmode : isPathBasedOperation op.mode = true)
    (hloc : ReadsBack op loc) :
    pathOperation rt contextJson op doc (".".intercalate loc) =
      Json.actAt (operationEffect rt contextJson op) doc loc := by
  obtain ⟨hempty, hblank, hset, hget⟩ := hloc
  have heffect : operationEffect rt contextJson op (rt.gjsonGet doc (".".intercalate loc)) =
      operationEffect rt contextJson op (Json.getAt doc loc) := by
    cases hreads : readsValue op with
    | false => exact operationEffect_const hreads _ _
    | true => rw [hlib.get doc (hget hreads)]
  rw [pathOperation_effect hmode hempty hblank, heffect]
  unfold Json.actAt
  congr 1
  funext e
  cases e with
  | keep => rfl
  | set v => exact hlib.set doc v hempty hset
  | remove => exact hlib.delete doc hempty hset

/-- The loop over the paths writes what the operation writes at each of them. -/
theorem applyPaths_result {Context : Type} {debugEnabled : Bool} {op : ParamOperation}
    {paths : List String} {s : State Context} :
    (applyPaths rt debugEnabled op s paths).map State.result =
      paths.foldlM (pathOperation rt s.contextJson op) s.result := by
  induction paths generalizing s with
  | nil => rfl
  | cons path paths ih =>
      unfold applyPaths
      rw [List.foldlM_cons]
      cases pathOperation rt s.contextJson op s.result path with
      | error e => rfl
      | ok next =>
          have hresult : ∀ line, (s.write next line).result = next := fun line => by
            unfold State.write State.record
            by_cases hline : line = ""
            · rw [if_pos hline]
            · rw [if_neg hline]
          have hcontext : ∀ line, (s.write next line).contextJson = s.contextJson := fun line => by
            unfold State.write State.record
            by_cases hline : line = ""
            · rw [if_pos hline]
            · rw [if_neg hline]
          show (applyPaths rt debugEnabled op _ paths).map State.result = _
          rw [ih, hresult, hcontext]
          rfl

end effects

/-! ### The expanded paths -/

/-- The segments of a pattern, without the blanks around them. -/
def patternSegments (path : String) : List String := (Text.split path '.').map Text.trimSpace

/-- A segment of a pattern is an index for the expansion exactly if it is one in a path text. -/
def PlainSegment (segment : String) : Prop :=
  segment ≠ "" ∧ (segment = "*" ∨
    ((atoi segment).bind fun i => if i < 0 then none else some i.toNat) = Json.index? segment)

instance : DecidablePred PlainSegment := fun _ => inferInstanceAs (Decidable (_ ∧ (_ ∨ _)))

/-- The expansion of a pattern is the list of the texts of its locations. -/
theorem collectWildcardPaths_eq {segments : List String}
    (h : ∀ segment ∈ segments.map Text.trimSpace, PlainSegment segment) (node : Json)
    (pre : List String) :
    collectWildcardPaths node segments pre =
      (Json.locations node (segments.map Text.trimSpace)).map
        fun loc => ".".intercalate (pre ++ loc) := by
  induction segments generalizing node pre with
  | nil =>
      rw [List.map_nil]
      unfold collectWildcardPaths Json.locations
      rw [List.map_singleton, List.append_nil]
  | cons segment segments ih =>
      rw [List.map_cons] at h ⊢
      obtain ⟨hempty, hindex⟩ := h (Text.trimSpace segment) List.mem_cons_self
      have ih := ih fun s hs => h s (List.mem_cons_of_mem _ hs)
      unfold collectWildcardPaths
      dsimp only
      clear h
      generalize Text.trimSpace segment = part at hempty hindex ⊢
      have hbelow : ∀ (x : Json) (p : String), collectWildcardPaths x segments (pre ++ [p]) =
          ((Json.locations x (segments.map Text.trimSpace)).map (p :: ·)).map
            fun loc => ".".intercalate (pre ++ loc) := by
        intro x p
        rw [ih, List.map_map]
        apply List.map_congr_left
        intro loc _
        rw [List.append_assoc]
        rfl
      rw [if_neg hempty]
      by_cases hstar : part = "*"
      · subst hstar
        rw [if_pos rfl]
        cases node with
        | object ms =>
            rw [Json.locations_members, List.map_flatMap]
            exact List.flatMap_congr fun m _ => hbelow m.2 m.1
        | array items =>
            rw [Json.locations_items, List.map_flatMap]
            exact List.flatMap_congr fun m _ => hbelow m.1 (toString m.2)
        | null | bool _ | number _ | string _ => rfl
      · rw [if_neg hstar]
        have hindex := hindex.resolve_left hstar
        conv_rhs => unfold Json.locations
        rw [if_neg hstar]
        cases node with
        | object ms =>
            dsimp only
            rw [Json.child_object]
            cases segments with
            | nil =>
                rw [if_pos rfl]
                cases Json.first part ms with
                | none => rfl
                | some x => rfl
            | cons segment' segments =>
                rw [if_neg (List.cons_ne_nil _ _)]
                cases Json.first part ms with
                | none => rfl
                | some x => exact hbelow x part
        | array items =>
            dsimp only
            rw [Json.child_array, ← hindex]
            cases atoi part with
            | none => cases segments with | nil => rfl | cons _ _ => rfl
            | some i =>
                rw [Option.bind_some]
                dsimp only
                by_cases hneg : i < 0
                · rw [if_pos hneg, if_pos hneg]
                  cases segments with | nil => rfl | cons _ _ => rfl
                · rw [if_neg hneg, if_neg hneg, Option.bind_some]
                  cases items[i.toNat]? with
                  | none => cases segments with | nil => rfl | cons _ _ => rfl
                  | some x =>
                      dsimp only
                      by_cases hnil : segments = []
                      · subst hnil
                        rw [if_pos rfl]
                        rfl
                      · rw [if_neg hnil]
                        exact hbelow x part
        | null | bool _ | number _ | string _ => cases segments with | nil => rfl | cons _ _ => rfl

theorem foldl_uniq {α : Type} [DecidableEq α] {l unique : List α} (h : (unique ++ l).Nodup) :
    l.foldl (fun unique a => if a ∈ unique then unique else unique ++ [a]) unique =
      unique ++ l := by
  induction l generalizing unique with
  | nil => exact (List.append_nil unique).symm
  | cons a l ih =>
      have hnot : a ∉ unique := fun hmem =>
        (List.nodup_append.mp h).2.2 a hmem a List.mem_cons_self rfl
      rw [List.foldl_cons, if_neg hnot, ih]
      · rw [List.append_assoc]
        rfl
      · rw [List.append_assoc]
        exact h

/-- Locations that are read back are told apart by their texts. -/
theorem intercalate_inj {op : ParamOperation} {loc loc' : List String} (h : ReadsBack op loc)
    (h' : ReadsBack op loc') (heq : ".".intercalate loc = ".".intercalate loc') : loc = loc' := by
  have hparse := h.2.2.1.symm.trans ((congrArg sjsonPath heq).trans h'.2.2.1)
  have hmap := congrArg (List.map Component.part) (Option.some.inj hparse)
  rw [map_part_components, map_part_components] at hmap
  exact hmap

/-- The expansion of a pattern whose locations are read back. -/
theorem expandWildcardPaths_eq {lib : Libraries} {doc : Json} {op : ParamOperation}
    {path : String} (hsegments : ∀ segment ∈ patternSegments path, PlainSegment segment)
    (hlocs : ∀ loc ∈ Json.locations (lib.decode doc) (patternSegments path), ReadsBack op loc) :
    expandWildcardPaths lib doc path =
      (Json.locations (lib.decode doc) (patternSegments path)).map ".".intercalate := by
  unfold expandWildcardPaths
  dsimp only
  rw [collectWildcardPaths_eq hsegments]
  simp only [List.nil_append]
  rw [foldl_uniq]
  · rfl
  · rw [List.nil_append]
    apply List.Nodup.map_on
    · intro loc hloc loc' hloc' heq
      exact intercalate_inj (hlocs loc hloc) (hlocs loc' hloc') heq
    · exact Json.nodup_locations (Json.distinct_decode _ _) _

/-- A wildcard operation whose matched locations are read back. -/
theorem applyPaths_wildcards {Context : Type} {rt : Runtime} (hlib : Documented rt.toLibraries)
    {debugEnabled : Bool} {s : State Context} {op : ParamOperation} {path : String}
    (hmode : isPathBasedOperation op.mode = true) (hwildcard : '*' ∈ path.toList)
    (hsegments : ∀ segment ∈ patternSegments path, PlainSegment segment)
    (hlocs : ∀ loc ∈ Json.locations (rt.toLibraries.decode s.result) (patternSegments path),
      ReadsBack op loc) :
    (applyPaths rt debugEnabled op s (resolveOperationPaths rt.toLibraries s.result path)).map
        State.result =
      Json.actEach rt.rewrite (operationEffect rt s.contextJson op) (patternSegments path)
        s.result := by
  rw [applyPaths_result]
  unfold resolveOperationPaths
  rw [if_pos hwildcard, expandWildcardPaths_eq hsegments hlocs, List.foldlM_map]
  apply Json.foldlM_congr
  intro loc hloc doc
  exact pathOperation_readsBack hlib hmode (hlocs loc hloc)

theorem patternSegments_ne_nil (path : String) : patternSegments path ≠ [] := by
  unfold patternSegments Text.split
  intro h
  exact List.splitOn_ne_nil _ _ (List.map_eq_nil_iff.mp (List.map_eq_nil_iff.mp h))

/-! ### Negative indices -/

/-- The text is one negative index after an array, and the index does not occur before as a
text. -/
structure OneNegativeIndex (path pre digits post : List Char) : Prop where
  text : path = pre ++ '.' :: '-' :: digits ++ post
  only : negativeIndices path = ['-' :: digits]
  firstText : beforeFirst ('-' :: digits) path = pre ++ ['.']

theorem replaceOnce_beforeFirst {pre digits post new : List Char}
    (h : beforeFirst ('-' :: digits) (pre ++ '.' :: '-' :: digits ++ post) = pre ++ ['.']) :
    Text.replaceOnce ('.' :: '-' :: digits) new (pre ++ '.' :: '-' :: digits ++ post) =
      pre ++ new ++ post := by
  induction pre with
  | nil =>
      rw [List.nil_append, List.cons_append]
      unfold Text.replaceOnce
      rw [if_pos]
      · rw [← List.cons_append, List.drop_left]
        rfl
      · rw [List.isPrefixOf_iff_prefix, ← List.cons_append]
        exact List.prefix_append _ _
  | cons c pre ih =>
      rw [List.cons_append, List.cons_append] at h ⊢
      unfold beforeFirst at h
      unfold Text.replaceOnce
      by_cases hstart :
          ('-' :: digits).isPrefixOf (c :: (pre ++ '.' :: '-' :: digits ++ post)) = true
      · rw [if_pos hstart] at h
        exact nomatch h
      · rw [if_neg hstart, List.cons_append] at h
        have hrest := (List.cons.inj h).2
        rw [if_neg, ih hrest]
        · rfl
        · intro hold
          obtain ⟨t, ht⟩ := List.isPrefixOf_iff_prefix.mp hold
          have htail := (List.cons.inj ht).2
          have hpre : ('-' :: digits).isPrefixOf (pre ++ '.' :: '-' :: digits ++ post) = true :=
            List.isPrefixOf_iff_prefix.mpr ⟨t, htail⟩
          -- then the index text would occur before
          cases hlist : pre ++ '.' :: '-' :: digits ++ post with
          | nil => simp at hlist
          | cons d ds =>
              rw [hlist] at hpre hrest
              unfold beforeFirst at hrest
              rw [if_pos hpre] at hrest
              simp at hrest

/-- A negative index counts from the end of the array before it. -/
theorem processNegativeIndex_one {lib : Libraries} {doc : Json} {path : String}
    {pre digits post : List Char} {items : List Json}
    (h : OneNegativeIndex path.toList pre digits post)
    (harray : lib.gjsonGet doc (String.ofList pre) = some (.array items))
    (hpos : 0 < Json.digitsValue digits) (hle : Json.digitsValue digits ≤ items.length) :
    processNegativeIndex lib doc path = String.ofList
      (pre ++ '.' :: (toString (items.length - Json.digitsValue digits)).toList ++ post) := by
  unfold processNegativeIndex
  rw [h.only, List.foldl_cons, List.foldl_nil]
  unfold replaceNegativeIndex
  dsimp only
  rw [h.firstText]
  have hlast : (pre ++ ['.']).getLast? = some '.' := List.getLast?_concat
  rw [if_pos hlast, List.dropLast_concat, harray]
  dsimp only
  rw [List.drop_one, List.tail_cons, if_pos ⟨hpos, hle⟩]
  have hfirst := h.firstText
  rw [h.text] at hfirst ⊢
  exact congrArg String.ofList (replaceOnce_beforeFirst hfirst)

/-- A state without conditions and without an audit. -/
def bareState (doc : Json) : State Unit := ⟨doc, (), none, none, []⟩

/-- A `delete` of a path. -/
def deletion (path : String) : ParamOperation := ⟨path, "delete", .null, false, "", "", [], "OR"⟩

/-- An `append` of a text. -/
def appending (path text : String) : ParamOperation :=
  ⟨path, "append", .string text, false, "", "", [], "OR"⟩

/-- The body after an operation at a path, as a path without negative indices. -/
def afterPaths (op : ParamOperation) (doc : Json) : Except String Json :=
  (applyPaths plainRuntime false op (bareState doc)
    (resolveOperationPaths plainRuntime.toLibraries doc op.path)).map State.result

/-- Two messages below `a`, the second one with a name that starts with `!`, and beside them an
object with two members of one name. -/
def messages : Json :=
  .object [("x", .object [("d", .null), ("d", .null)]), ("a", .array [.object [("b", .string "u")],
    .object [("b", .string "v"), ("!x", .string "y")]])]

/-- Whether a computation returns a body with a value at a location. -/
def hasValue (loc : List String) : Except String Json → Bool
  | .ok doc => (Json.getAt doc loc).isSome
  | .error _ => false

end MaxApi.Override
