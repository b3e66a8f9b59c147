import Mathlib.Tactic.NormNum
import MaxApi.Override.Paths

/-! # Plain overrides

A plain override writes each of its keys as a top-level member of the request, without decoding
the request.  It replaces a write into the decoded map; it does the same as that write when each
key is a literal one (`Literal`) and no written name occurs twice in the request. -/

namespace MaxApi.Override

/-- The loop of `applyOperationsLegacy` over the entries of the map, in the order of the
iteration. -/
def applyOperationsLegacy (lib : Libraries) (doc : Json) :
    List (String × Json) → Except String Json
  | [] => .ok doc
  | (key, value) :: entries => do
      let next ← lib.sjsonSet doc (escapeSjsonLiteralKey key) value
      applyOperationsLegacy lib next entries

/-! ### Members -/

/-- A component behind the colon that makes it a name. -/
def behindColon : List (Char × Bool) → List (Char × Bool)
  | (':', false) :: part => part
  | part => part

/-- The object after a member has been written; `found` is the name that has been looked up for
it. -/
def writeMember (found : Option String) (name : String) (v : Json) (ms : List (String × Json)) :
    List (String × Json) :=
  match found with
  | some l => if l ∈ ms.map Prod.fst then Json.put l v ms else ms ++ [(name, v)]
  | none => ms ++ [(name, v)]

/-- How `sjson` writes a path of one component into an object.  It replaces the member that `gjson`
looks up for the component, or adds one; `lookup` is the name that `gjson` looks up, none for a
value of its own. -/
structure DocumentedMembers (lib : Libraries) (lookup : List (Char × Bool) → Option String) :
    Prop where
  set : ∀ {path : String} {part : List (Char × Bool)} (ms : List (String × Json)) (v : Json),
    path ≠ "" → pathParts path = [part] → isQuery part = false →
      lib.sjsonSet (.object ms) path v = .ok (.object (writeMember (lookup (behindColon part))
        (partName (behindColon part)) v ms))
  set_empty : ∀ doc v : Json, lib.sjsonSet doc "" v = .error "path cannot be empty"
  /-- A query adds no member. -/
  query : ∀ {path : String} {part : List (Char × Bool)} {ms : List (String × Json)} {v : Json},
    pathParts path = [part] → isQuery part = true →
      lib.sjsonSet (.object []) path v = .ok (.object ms) → ms = []
  /-- Only a component that starts with a bracket is looked up under another name. -/
  lookup_name : ∀ part, isQuery part = false → (∀ c ∈ part.head?, c ≠ ('[', false) ∧
    c ≠ ('\x7b', false)) → ∀ l ∈ lookup part, l = partName part

/-! ### Keys -/

/-- The characters that `escapeSjsonLiteralKey` escapes. -/
def isEscaped (c : Char) : Bool := c == '.' || c == '*' || c == '?' || c == '\\'

/-- The component that an escaped key is. -/
def keyPart (key : String) : List (Char × Bool) := key.toList.map fun c => (c, isEscaped c)

/-- A key that is written under its own name. -/
def Literal (lookup : List (Char × Bool) → Option String) (key : String) : Prop :=
  key ≠ "" ∧ key.toList.head? ≠ some ':' ∧ (∀ c ∈ key.toList, c ≠ '|' ∧ c ≠ '#' ∧ c ≠ '@') ∧
    ∀ l ∈ lookup (keyPart key), l = key

instance (lookup : List (Char × Bool) → Option String) : DecidablePred (Literal lookup) :=
  fun key =>
    have := List.decidableBAll (fun c => c ≠ '|' ∧ c ≠ '#' ∧ c ≠ '@') key.toList
    inferInstanceAs (Decidable (_ ∧ _ ∧ _ ∧ _))

theorem characters_escape (cs : List Char) :
    characters false (cs.flatMap fun c =>
      if c = '.' ∨ c = '*' ∨ c = '?' ∨ c = '\\' then ['\\', c] else [c]) =
        cs.map fun c => (c, isEscaped c) := by
  induction cs with
  | nil => rfl
  | cons c cs ih =>
      rw [List.flatMap_cons, List.map_cons, ← ih]
      by_cases hescape : c = '.' ∨ c = '*' ∨ c = '?' ∨ c = '\\'
      · have htrue : isEscaped c = true := by simpa [isEscaped, or_assoc] using hescape
        rw [if_pos hescape, htrue]
        rfl
      · have hfalse : isEscaped c = false := by simpa [isEscaped, and_assoc] using hescape
        rw [if_neg hescape, hfalse, List.singleton_append]
        simp only [not_or] at hescape
        conv_lhs => unfold characters
        rw [if_neg (by decide), if_neg hescape.2.2.2]

/-- An escaped key is one component. -/
theorem pathParts_escape (key : String) :
    pathParts (escapeSjsonLiteralKey key) = [keyPart key] := by
  unfold pathParts escapeSjsonLiteralKey
  rw [String.toList_ofList, characters_escape, List.splitOn_eq_singleton]
  · rfl
  · intro hdot
    obtain ⟨c, -, hc⟩ := List.mem_map.mp hdot
    obtain ⟨rfl, hescape⟩ := Prod.mk.inj hc
    exact absurd hescape (by decide)

theorem partName_keyPart (key : String) : partName (keyPart key) = key := by
  have hmap : (keyPart key).map Prod.fst = key.toList := by
    unfold keyPart
    rw [List.map_map]
    exact List.map_id _
  unfold partName
  rw [hmap, String.ofList_toList]

theorem isQuery_keyPart (key : String) :
    isQuery (keyPart key) = false ↔ ∀ c ∈ key.toList, c ≠ '|' ∧ c ≠ '#' ∧ c ≠ '@' := by
  unfold isQuery keyPart
  rw [List.any_eq_false]
  constructor
  · intro hall c hc
    have hplain := hall (c, isEscaped c) (List.mem_map_of_mem hc)
    refine ⟨?_, ?_, ?_⟩
    all_goals
      rintro rfl
      exact hplain rfl
  · intro hall p hp
    obtain ⟨c, hc, rfl⟩ := List.mem_map.mp hp
    obtain ⟨hpipe, hhash, hat⟩ := hall c hc
    by_cases hescape : isEscaped c = true
    · simp [hescape]
    · have hne : c ≠ '*' ∧ c ≠ '?' := by
        constructor
        all_goals
          rintro rfl
          exact hescape rfl
      simp [isQueryChar, hpipe, hhash, hat, hne.1, hne.2]

theorem behindColon_keyPart {key : String} (h : key.toList.head? ≠ some ':') :
    behindColon (keyPart key) = keyPart key := by
  unfold behindColon keyPart
  split
  · next part heq =>
    exfalso
    apply h
    cases hkey : key.toList with
    | nil =>
        rw [hkey] at heq
        exact nomatch heq
    | cons c cs =>
        rw [hkey, List.map_cons] at heq
        rw [(Prod.mk.inj (List.cons.inj heq).1).1]
        rfl
  · rfl

theorem escape_ne_empty {key : String} (h : key ≠ "") : escapeSjsonLiteralKey key ≠ "" := by
  unfold escapeSjsonLiteralKey
  intro he
  rw [String.ofList_eq_empty_iff, List.flatMap_eq_nil_iff] at he
  apply h
  rw [← String.toList_eq_nil_iff]
  by_contra hne
  obtain ⟨c, hc⟩ := List.exists_mem_of_ne_nil _ hne
  have := he c hc
  split at this
  · simp at this
  · simp at this

/-! ### The write into the map -/

/-- A plain override: its entries in the order of an iteration, with values as a decoder returns
them. -/
structure OverrideMap (lib : Libraries) where
  entries : List (String × Json)
  nodup : (entries.map Prod.fst).Nodup
  decoded : ∀ e ∈ entries, Json.decode lib.rewrite e.2 = e.2

/-- The member of a name in the decoded document. -/
def decodedMember (lib : Libraries) (doc : Json) (k : String) : Option Json :=
  Json.child k (Json.decode lib.rewrite doc)

/-- The override returns an object that decodes to the decoded request with `reqMap[key] = value`
for each entry. -/
def WritesMap (lib : Libraries) (doc : Json) (override : OverrideMap lib) : Prop :=
  ∃ ms, applyOperationsLegacy lib doc override.entries = .ok (.object ms) ∧
    ∀ k, decodedMember lib (.object ms) k =
      (Json.first k override.entries).orElse fun _ => decodedMember lib doc k

section writes

variable {lib : Libraries} {lookup : List (Char × Bool) → Option String}
  {ms : List (String × Json)}

theorem decodedMember_object (lib : Libraries) (ms : List (String × Json)) (k : String) :
    decodedMember lib (.object ms) k = (Json.last k ms).map (Json.decode lib.rewrite) := by
  unfold decodedMember
  rw [Json.decode_object]
  exact (Json.first_canonical _ _).trans (Json.last_decodeMembers _ _ _)

theorem put_of_not_mem {k : String} {v : Json} (h : k ∉ ms.map Prod.fst) :
    Json.put k v ms = ms ++ [(k, v)] := by
  induction ms with
  | nil => rfl
  | cons m ms ih =>
      obtain ⟨l, a⟩ := m
      simp only [List.map_cons, List.mem_cons, not_or] at h
      unfold Json.put
      rw [if_neg fun hl => h.1 hl.symm, ih h.2, List.cons_append]

/-- A key that is not a query is written under its text behind a colon. -/
theorem set_escape (hlib : DocumentedMembers lib lookup) {key : String} (hne : key ≠ "")
    (hquery : isQuery (keyPart key) = false) (v : Json) :
    lib.sjsonSet (.object ms) (escapeSjsonLiteralKey key) v =
      .ok (.object (writeMember (lookup (behindColon (keyPart key)))
        (partName (behindColon (keyPart key))) v ms)) :=
  hlib.set ms v (escape_ne_empty hne) (pathParts_escape key) hquery

/-- A literal key is written, or a member of its name added. -/
theorem set_literal (hlib : DocumentedMembers lib lookup) {key : String}
    (h : Literal lookup key) (v : Json) :
    lib.sjsonSet (.object ms) (escapeSjsonLiteralKey key) v =
      .ok (.object (if (lookup (keyPart key)).isNone then ms ++ [(key, v)]
        else Json.put key v ms)) := by
  obtain ⟨hne, hcolon, hplain, hlookup⟩ := h
  rw [set_escape hlib hne ((isQuery_keyPart key).mpr hplain), behindColon_keyPart hcolon,
    partName_keyPart]
  unfold writeMember
  cases hl : lookup (keyPart key) with
  | none => rfl
  | some l =>
      obtain rfl := hlookup l hl
      dsimp only [Option.isNone_some]
      rw [if_neg Bool.false_ne_true]
      by_cases hmem : l ∈ ms.map Prod.fst
      · rw [if_pos hmem]
      · rw [if_neg hmem, put_of_not_mem hmem]

/-- With literal keys the override writes the members of their names. -/
theorem applyOperationsLegacy_literal (hlib : DocumentedMembers lib lookup)
    {entries : List (String × Json)} (h : ∀ e ∈ entries, Literal lookup e.1) :
    applyOperationsLegacy lib (.object ms) entries =
      .ok (.object (Json.writes (fun k => (lookup (keyPart k)).isNone) entries ms)) := by
  induction entries generalizing ms with
  | nil => rfl
  | cons e entries ih =>
      obtain ⟨key, value⟩ := e
      have hkey := h (key, value) List.mem_cons_self
      unfold applyOperationsLegacy
      rw [set_literal hlib hkey]
      exact ih fun e he => h e (List.mem_cons_of_mem _ he)

/-- With literal keys the override is the write into the map exactly when no key that is looked up
occurs twice in the request, unless its last member has the value already. -/
theorem writesMap_iff (hlib : DocumentedMembers lib lookup) {override : OverrideMap lib}
    (h : ∀ e ∈ override.entries, Literal lookup e.1) :
    WritesMap lib (.object ms) override ↔ ∀ e ∈ override.entries,
      lookup (keyPart e.1) = none ∨ Json.occurrences e.1 ms ≤ 1 ∨
        decodedMember lib (.object ms) e.1 = some e.2 := by
  have hlast : ∀ k, decodedMember lib (.object (Json.writes
      (fun k => (lookup (keyPart k)).isNone) override.entries ms)) k =
      (Json.first k override.entries).elim (decodedMember lib (.object ms) k) fun v =>
        if lookup (keyPart k) = none ∨ Json.occurrences k ms ≤ 1
          then some (Json.decode lib.rewrite v) else decodedMember lib (.object ms) k := by
    intro k
    rw [decodedMember_object, decodedMember_object, Json.last_writes override.nodup]
    cases Json.first k override.entries with
    | none => rfl
    | some v =>
        dsimp only [Option.elim_some]
        simp only [Option.isNone_iff_eq_none]
        by_cases hone : lookup (keyPart k) = none ∨ Json.occurrences k ms ≤ 1
        · rw [if_pos hone, if_pos hone, Option.map_some]
        · rw [if_neg hone, if_neg hone]
  unfold WritesMap
  rw [applyOperationsLegacy_literal hlib h]
  constructor
  · rintro ⟨ms', hms', hmember⟩ ⟨k, v⟩ he
    obtain rfl := (Json.object.inj (Except.ok.inj hms')).symm
    have hk := hmember k
    rw [hlast, Json.first_of_mem override.nodup he] at hk
    by_cases hone : lookup (keyPart k) = none ∨ Json.occurrences k ms ≤ 1
    · exact hone.imp id .inl
    · rw [Option.elim_some, if_neg hone] at hk
      exact .inr (.inr hk)
  · intro hall
    refine ⟨_, rfl, fun k => ?_⟩
    rw [hlast]
    cases hfirst : Json.first k override.entries with
    | none => rfl
    | some v =>
        have he := Json.mem_of_first hfirst
        rw [Option.elim_some]
        by_cases hone : lookup (keyPart k) = none ∨ Json.occurrences k ms ≤ 1
        · rw [if_pos hone, override.decoded (k, v) he]
          rfl
        · rw [if_neg hone]
          simp only [not_or] at hone
          exact ((hall (k, v) he).resolve_left hone.1).resolve_left hone.2

end writes

/-! ### Keys that are not literal -/

/-- The override of one entry. -/
def OverrideMap.single {lib : Libraries} (key : String) (value : Json)
    (h : Json.decode lib.rewrite value = value) : OverrideMap lib where
  entries := [(key, value)]
  nodup := List.nodup_singleton _
  decoded e he := by rw [List.mem_singleton.mp he, h]

section single

variable {lib : Libraries} {lookup : List (Char × Bool) → Option String}
  {ms : List (String × Json)} {key : String}

/-- An override of one entry that leaves no member of its name is not the write into the map. -/
theorem not_writesMap_single (h : ∀ result, lib.sjsonSet (.object ms)
      (escapeSjsonLiteralKey key) .null = .ok (.object result) → Json.last key result = none) :
    ¬ WritesMap lib (.object ms) (OverrideMap.single key .null rfl) := by
  rintro ⟨result, happly, hmember⟩
  have hset : lib.sjsonSet (.object ms) (escapeSjsonLiteralKey key) .null =
      .ok (.object result) := by
    have hstep : (lib.sjsonSet (.object ms) (escapeSjsonLiteralKey key) .null >>= fun next =>
        applyOperationsLegacy lib next []) = .ok (.object result) := happly
    cases hset : lib.sjsonSet (.object ms) (escapeSjsonLiteralKey key) .null with
    | error e =>
        rw [hset] at hstep
        exact nomatch hstep
    | ok next =>
        rw [hset] at hstep
        exact hstep
  have hk := hmember key
  rw [decodedMember_object, h result hset] at hk
  have hfirst : Json.first key (OverrideMap.single key .null rfl : OverrideMap lib).entries =
      some .null := if_pos rfl
  rw [hfirst] at hk
  exact nomatch hk

theorem not_writesMap_emptyKey (hlib : DocumentedMembers lib lookup) :
    ¬ WritesMap lib (.object ms) (OverrideMap.single "" .null rfl) := by
  apply not_writesMap_single
  intro result h
  have hempty : escapeSjsonLiteralKey "" = "" := rfl
  rw [hempty, hlib.set_empty] at h
  exact nomatch h

theorem not_writesMap_query (hlib : DocumentedMembers lib lookup)
    (hquery : isQuery (keyPart key) = true) :
    ¬ WritesMap lib (.object []) (OverrideMap.single key .null rfl) := by
  apply not_writesMap_single
  intro result h
  rw [hlib.query (pathParts_escape key) hquery h]
  rfl

/-- A colon is not part of the written name. -/
theorem not_writesMap_colon (hlib : DocumentedMembers lib lookup) (hne : key ≠ "")
    (hquery : isQuery (keyPart key) = false) (hcolon : key.toList.head? = some ':') :
    ¬ WritesMap lib (.object []) (OverrideMap.single key .null rfl) := by
  apply not_writesMap_single
  intro result h
  rw [set_escape hlib hne hquery] at h
  obtain rfl := Json.object.inj (Except.ok.inj h)
  obtain ⟨cs, hkey⟩ : ∃ cs, key.toList = ':' :: cs := List.head?_eq_some_iff.mp hcolon
  have hpart : behindColon (keyPart key) = cs.map fun c => (c, isEscaped c) := by
    unfold keyPart
    rw [hkey]
    rfl
  have hname : partName (behindColon (keyPart key)) ≠ key := by
    intro he
    have hlist := congrArg (fun s => s.toList.length) he
    rw [hpart] at hlist
    simp [partName, hkey] at hlist
  have hwrite : writeMember (lookup (behindColon (keyPart key)))
      (partName (behindColon (keyPart key))) .null [] =
        [(partName (behindColon (keyPart key)), .null)] := by
    unfold writeMember
    cases lookup (behindColon (keyPart key)) with
    | none => rfl
    | some l => rfl
  rw [hwrite]
  unfold Json.last
  simp [Json.last, hname]

/-- A key that is looked up under another name replaces the member of this name. -/
theorem not_writesMap_other (hlib : DocumentedMembers lib lookup) (hne : key ≠ "")
    (hquery : isQuery (keyPart key) = false) (hcolon : key.toList.head? ≠ some ':') {l : String}
    (hl : lookup (keyPart key) = some l) (hother : l ≠ key) :
    ¬ WritesMap lib (.object [(l, .null)]) (OverrideMap.single key .null rfl) := by
  apply not_writesMap_single
  intro result h
  rw [set_escape hlib hne hquery, behindColon_keyPart hcolon, hl] at h
  obtain rfl := Json.object.inj (Except.ok.inj h)
  unfold writeMember
  dsimp only
  simp [Json.put, Json.last, hother]

end single

/-- **Main.** A plain override with literal keys is the write into the decoded map exactly when no
key that is looked up occurs twice in the request, unless its last member has the value already;
and the literal keys are those that every request without such duplicates has written. -/
theorem legacy_writes_map (lib : Libraries) (lookup : List (Char × Bool) → Option String)
    (hlib : DocumentedMembers lib lookup) :
    (∀ (ms : List (String × Json)) (override : OverrideMap lib),
      (∀ e ∈ override.entries, Literal lookup e.1) →
        (WritesMap lib (.object ms) override ↔ ∀ e ∈ override.entries,
          lookup (keyPart e.1) = none ∨ Json.occurrences e.1 ms ≤ 1 ∨
            decodedMember lib (.object ms) e.1 = some e.2)) ∧
      (∀ key, (∀ ms value h, Json.occurrences key ms ≤ 1 →
        WritesMap lib (.object ms) (OverrideMap.single key value h)) ↔ Literal lookup key) ∧
      ∀ key, (∀ c ∈ key.toList.head?, c ≠ '[' ∧ c ≠ '\x7b') → (Literal lookup key ↔
        key ≠ "" ∧ key.toList.head? ≠ some ':' ∧
          ∀ c ∈ key.toList, c ≠ '|' ∧ c ≠ '#' ∧ c ≠ '@') := by
  refine ⟨fun ms override h => writesMap_iff hlib h, fun key => ⟨fun hall => ?_, ?_⟩, ?_⟩
  · by_contra hnot
    by_cases hne : key = ""
    · subst hne
      exact not_writesMap_emptyKey hlib (hall [] .null rfl (Nat.zero_le 1))
    · cases hquery : isQuery (keyPart key) with
      | true => exact not_writesMap_query hlib hquery (hall [] .null rfl (Nat.zero_le 1))
      | false =>
          by_cases hcolon : key.toList.head? = some ':'
          · exact not_writesMap_colon hlib hne hquery hcolon (hall [] .null rfl (Nat.zero_le 1))
          · apply hnot
            refine ⟨hne, hcolon, (isQuery_keyPart key).mp hquery, fun l hl => ?_⟩
            by_contra hother
            apply not_writesMap_other hlib hne hquery hcolon hl hother
            apply hall
            simp [Json.occurrences, hother]
  · intro hlit ms value h hone
    refine (writesMap_iff hlib ?_).mpr ?_
    · intro e he
      obtain rfl := List.mem_singleton.mp he
      exact hlit
    · intro e he
      obtain rfl := List.mem_singleton.mp he
      exact .inr (.inl hone)
  · intro key hbracket
    refine ⟨fun h => ⟨h.1, h.2.1, h.2.2.1⟩, fun h => ⟨h.1, h.2.1, h.2.2, fun l hl => ?_⟩⟩
    rw [hlib.lookup_name _ ((isQuery_keyPart key).mpr h.2.2) ?_ l hl, partName_keyPart]
    intro c hc
    unfold keyPart at hc
    rw [List.head?_map] at hc
    obtain ⟨d, hd, rfl⟩ := Option.map_eq_some_iff.mp hc
    obtain ⟨hsquare, hcurly⟩ := hbracket d hd
    exact ⟨fun he => hsquare (Prod.mk.inj he).1, fun he => hcurly (Prod.mk.inj he).1⟩

/-! ### A library of members -/

/-- The text behind a selection in which `depth` brackets are open; none if it is not closed. -/
def behindSelection (depth : ℕ) (quoted : Bool) :
    List (Char × Bool) → Option (List (Char × Bool))
  | [] => none
  | (c, escaped) :: text =>
      if escaped then behindSelection depth quoted text
      else if quoted then behindSelection depth (c != '"') text
      else if c == '"' then behindSelection depth true text
      else if c == '[' || c == '(' || c == '\x7b' then behindSelection (depth + 1) false text
      else if c == ']' || c == ')' || c == '\x7d' then
        if depth = 1 then some text else behindSelection (depth - 1) false text
      else behindSelection depth false text

/-- The name that `gjson` looks up for a component: a static value or a selection up to the end is
none, and of a selection that is not closed the empty name is left. -/
def gjsonLookup : List (Char × Bool) → Option String
  | (c, false) :: text =>
      if c == '!' && isStatic text then none
      else if (c == '[' || c == '\x7b') && !text.isEmpty then
        match behindSelection 1 false text with
        | some [] => none
        | some rest => some (partName rest)
        | none => some ""
      else some (partName ((c, false) :: text))
  | part => some (partName part)

/-- The libraries on objects and paths of one component; a query finds nothing. -/
def memberLibraries : Libraries where
  rewrite n := n
  gjsonGet doc path := (locationLibraries fun n => n).gjsonGet doc path
  sjsonSet doc path v :=
    if path = "" then .error "path cannot be empty"
    else match pathParts path, doc with
      | [part], .object ms =>
          if isQuery part then .ok (.object ms)
          else .ok (.object (writeMember (gjsonLookup (behindColon part))
            (partName (behindColon part)) v ms))
      | _, doc => (locationLibraries fun n => n).sjsonSet doc path v
  sjsonDelete doc path := (locationLibraries fun n => n).sjsonDelete doc path

theorem memberLibraries_documented : DocumentedMembers memberLibraries gjsonLookup where
  set ms v hne hpart hquery := by
    show (if _ then _ else _) = _
    rw [if_neg hne, hpart]
    dsimp only
    rw [hquery]
    rfl
  set_empty _ _ := rfl
  query := by
    intro path part ms v hpart hquery h
    have hset : (if path = "" then Except.error "path cannot be empty"
        else match pathParts path, Json.object [] with
          | [part], .object ms =>
              if isQuery part then .ok (.object ms)
              else .ok (.object (writeMember (gjsonLookup (behindColon part))
                (partName (behindColon part)) v ms))
          | _, doc => (locationLibraries fun n => n).sjsonSet doc path v) = .ok (.object ms) := h
    by_cases hempty : path = ""
    · rw [if_pos hempty] at hset
      exact nomatch hset
    · rw [if_neg hempty, hpart] at hset
      dsimp only at hset
      rw [hquery] at hset
      exact (Json.object.inj (Except.ok.inj hset)).symm
  lookup_name := by
    intro part _ hbracket l hl
    rcases part with - | ⟨⟨c, escaped⟩, text⟩
    · exact (Option.some.inj hl).symm
    · cases escaped with
      | true => exact (Option.some.inj hl).symm
      | false =>
          obtain ⟨hsquare, hcurly⟩ := hbracket (c, false) rfl
          have hnot : (c == '[' || c == '\x7b') = false := by
            simp only [ne_eq, Prod.mk.injEq, and_true] at hsquare hcurly
            simp [hsquare, hcurly]
          unfold gjsonLookup at hl
          dsimp only at hl
          rw [hnot] at hl
          split at hl
          · exact nomatch hl
          · exact (Option.some.inj hl).symm

/-- Entries with a dot, with a text that `gjson` takes for a name, a value and a selection. -/
def plainOverride : OverrideMap memberLibraries where
  entries := [("max.tokens", .number 3), ("!x", .bool true), ("!true", .string "on"),
    ("[a]", .array [])]
  nodup := by decide +kernel
  decoded := by
    intro e he
    simp only [List.mem_cons, List.not_mem_nil, or_false] at he
    rcases he with rfl | rfl | rfl | rfl
    all_goals rfl

theorem legacy_writes_map_plain :
    WritesMap memberLibraries (.object [("max.tokens", .number 1), ("!true", .null), ("x", .null),
        ("!true", .number 2)]) plainOverride ∧
      WritesMap memberLibraries (.object [("x", .null)])
        (OverrideMap.single "!x" (.number 3) rfl) := by
  have hlegacy := legacy_writes_map memberLibraries gjsonLookup memberLibraries_documented
  refine ⟨(hlegacy.1 _ plainOverride (by decide +kernel)).mpr ?_,
    (hlegacy.2.1 "!x").mpr (by decide +kernel) [("x", .null)] (.number 3) rfl (by decide)⟩
  intro e he
  have hone : ∀ e ∈ plainOverride.entries, gjsonLookup (keyPart e.1) = none ∨
      Json.occurrences e.1 [("max.tokens", Json.number 1), ("!true", .null), ("x", .null),
        ("!true", .number 2)] ≤ 1 := by decide +kernel
  exact (hone e he).imp id .inl

/-- A request with two members of a name keeps the second one; a key with a leading colon is written
under another name; the empty key is an error. -/
theorem legacy_loses_write :
    ¬ WritesMap memberLibraries (.object [("a", .number 1), ("a", .number 2)])
        (OverrideMap.single "a" (.number 3) rfl) ∧
      ¬ WritesMap memberLibraries (.object []) (OverrideMap.single ":a" .null rfl) ∧
      ¬ WritesMap memberLibraries (.object []) (OverrideMap.single "" .null rfl) := by
  refine ⟨fun h => ?_, not_writesMap_colon memberLibraries_documented (by decide)
    (by decide +kernel) (by decide +kernel), not_writesMap_emptyKey memberLibraries_documented⟩
  have hliteral : ∀ e ∈ (OverrideMap.single "a" (.number 3) rfl :
      OverrideMap memberLibraries).entries, Literal gjsonLookup e.1 := by
    intro e he
    obtain rfl := List.mem_singleton.mp he
    decide +kernel
  have hentry := (writesMap_iff memberLibraries_documented hliteral).mp h ("a", .number 3)
    List.mem_cons_self
  rcases hentry with hown | hone | hsame
  · exact absurd hown (by decide +kernel)
  · exact absurd hone (by decide)
  · rw [decodedMember_object] at hsame
    have hnumber : (2 : ℚ) = 3 := Json.number.inj (Option.some.inj hsame)
    norm_num at hnumber

end MaxApi.Override
