import MaxApi.AuthFlow.Store
import MaxApi.Lib.Dict
import Mathlib.Data.List.Sort

/-! # Telegram authorizations

What Telegram's login widget sends: scalar values, a signature of the sorted `key=value` lines and
the time of the authorization.  A login carries them in the query of the URL, a binding in a JSON
body.  `mac token data` is the signature under the bot token.

The signature covers every value except `hash` and `state`; these are the values an authorization
is identified by (`verifiedValues`). -/

namespace MaxApi.AuthFlows

/-! ### Numbers and hexadecimal text -/

/-- The value of decimal digits. -/
def digitsValue (l : List Char) : Option ℤ :=
  if l ≠ [] ∧ l.all Char.isDigit then
    some (l.foldl (fun n c => 10 * n + ((c.toNat - 48 : ℕ) : ℤ)) 0)
  else none

/-- An optional sign and digits. -/
def signedValue : List Char → Option ℤ
  | '-' :: l => (digitsValue l).map fun n => -n
  | '+' :: l => digitsValue l
  | l => digitsValue l

/-- `strconv.ParseInt(s, 10, 64)`. -/
def parseInt64 (s : String) : Option ℤ :=
  match signedValue s.toList with
  | none => none
  | some n => if -2 ^ 63 ≤ n ∧ n < 2 ^ 63 then some n else none

/-- The value of a hexadecimal digit. -/
def hexDigit : Char → Option ℕ
  | '0' => some 0 | '1' => some 1 | '2' => some 2 | '3' => some 3 | '4' => some 4
  | '5' => some 5 | '6' => some 6 | '7' => some 7 | '8' => some 8 | '9' => some 9
  | 'a' => some 10 | 'b' => some 11 | 'c' => some 12 | 'd' => some 13 | 'e' => some 14
  | 'f' => some 15
  | 'A' => some 10 | 'B' => some 11 | 'C' => some 12 | 'D' => some 13 | 'E' => some 14
  | 'F' => some 15
  | _ => none

/-- The bytes of hexadecimal text. -/
def hexBytes : List Char → Option (List ℕ)
  | [] => some []
  | [_] => none
  | a :: b :: l =>
      match hexDigit a, hexDigit b, hexBytes l with
      | some x, some y, some bytes => some ((16 * x + y) :: bytes)
      | _, _, _ => none

/-- `hex.DecodeString`. -/
def hexDecode (s : String) : Option (List ℕ) := hexBytes s.toList

/-- The lower-case digit of a value. -/
def hexChar (n : ℕ) : Char := "0123456789abcdef".toList.getD n '0'

theorem hexDigit_lower {c : Char} {n : ℕ} (h : hexDigit c = some n) :
    c.toLower = hexChar n ∧ n < 16 ∧ Text.isSpace c = false := by
  unfold hexDigit at h
  split at h
  all_goals first
    | (obtain rfl := Option.some.inj h
       decide)
    | cases h

/-- Two spellings of the same bytes differ in letter case only. -/
theorem hexBytes_lower : ∀ {a b : List Char} {bytes : List ℕ}, hexBytes a = some bytes →
    hexBytes b = some bytes → a.map Char.toLower = b.map Char.toLower
  | [], [], _, _, _ => rfl
  | [], [_], _, _, hb => absurd hb (by simp [hexBytes])
  | [], _ :: _ :: _, bytes, ha, hb => by
      have hnil : bytes = [] := (Option.some.inj ha).symm
      rw [hnil] at hb
      unfold hexBytes at hb
      split at hb <;> simp at hb
  | [_], _, _, ha, _ => absurd ha (by simp [hexBytes])
  | _ :: _ :: _, [_], _, _, hb => absurd hb (by simp [hexBytes])
  | _ :: _ :: _, [], bytes, ha, hb => by
      have hnil : bytes = [] := (Option.some.inj hb).symm
      rw [hnil] at ha
      unfold hexBytes at ha
      split at ha <;> simp at ha
  | a :: a' :: l, b :: b' :: l', bytes, ha, hb => by
      unfold hexBytes at ha hb
      split at ha
      · next x y rest hx hy hrest =>
        split at hb
        · next x' y' rest' hx' hy' hrest' =>
          have hcons := Option.some.inj (ha.trans hb.symm)
          obtain ⟨hhead, htail⟩ := List.cons.inj hcons
          obtain ⟨hax, hxlt, _⟩ := hexDigit_lower hx
          obtain ⟨hay, hylt, _⟩ := hexDigit_lower hy
          obtain ⟨hbx, hxlt', _⟩ := hexDigit_lower hx'
          obtain ⟨hby, hylt', _⟩ := hexDigit_lower hy'
          have hxx : x = x' := by omega
          have hyy : y = y' := by omega
          have ih := hexBytes_lower hrest (htail ▸ hrest')
          rw [List.map_cons, List.map_cons, List.map_cons, List.map_cons, hax, hay, hbx, hby, hxx,
            hyy, ih]
        · simp at hb
      · simp at ha

/-- Hexadecimal text has no white space. -/
theorem hexBytes_not_space : ∀ {l : List Char} {bytes : List ℕ}, hexBytes l = some bytes →
    ∀ c ∈ l, Text.isSpace c = false
  | [], _, _ => fun _ h => absurd h List.not_mem_nil
  | [_], _, h => absurd h (by simp [hexBytes])
  | a :: b :: l, _, h => by
      unfold hexBytes at h
      split at h
      · next x y rest hx hy hrest =>
        intro c hc
        rcases List.mem_cons.mp hc with rfl | hc
        · exact (hexDigit_lower hx).2.2
        · rcases List.mem_cons.mp hc with rfl | hc
          · exact (hexDigit_lower hy).2.2
          · exact hexBytes_not_space hrest c hc
      · simp at h

/-! ### Values -/

/-- `url.Values`. -/
abbrev Params := Dict (List String)

/-- `params.Get`: the first value, or the empty string. -/
def Params.get (params : Params) (key : String) : String :=
  ((params.lookup key).bind List.head?).getD ""

/-- The keys that the signature covers, sorted. -/
def signedKeys (params : Params) : List String :=
  (params.keys.filter fun key => key ≠ "hash" ∧ key ≠ "state").insertionSort fun a b => a ≤ b

/-- The only value of a key. -/
def soleValue (params : Params) (key : String) : Option (String × String) :=
  match params.lookup key with
  | some [value] => some (key, value)
  | _ => none

/-- The values that the signature covers, sorted by key; nothing when a key has several. -/
def verifiedValues (params : Params) : Option (List (String × String)) :=
  (signedKeys params).mapM (soleValue params)

/-- What is signed. -/
def dataCheckString (values : List (String × String)) : String :=
  "\n".intercalate (values.map fun kv => kv.1 ++ "=" ++ kv.2)

def telegramAuthorizationTTL : ℤ := 5 * minute

def telegramClockSkew : ℤ := minute

/-- The time of the authorization is one at which it may be used at `now`. -/
def WithinWindow (authDate now : ℤ) : Prop :=
  authDate * second ≤ now + telegramClockSkew ∧
    now - authDate * second ≤ telegramAuthorizationTTL

instance (authDate now : ℤ) : Decidable (WithinWindow authDate now) := instDecidableAnd

/-- `checkTelegramAuthorizationAt`. -/
def checkTelegramAuthorizationAt (mac : String → String → List ℕ) (params : Params)
    (token : String) (now : ℤ) : Bool :=
  if Text.isBlank token ∨ params.get "id" = "" ∨ params.get "hash" = "" then false
  else match parseInt64 (params.get "auth_date") with
    | none => false
    | some authDate =>
        if WithinWindow authDate now then
          match verifiedValues params with
          | none => false
          | some values =>
              decide (hexDecode (params.get "hash") = some (mac token (dataCheckString values)))
        else false

/-- `normalizeTelegramAssertionHash`; the hashes that pass the check are ASCII. -/
def normalizeTelegramAssertionHash (hash : String) : String :=
  String.ofList ((Text.trimSpace hash).toList.map Char.toLower)

/-- `telegramAssertionExpiry`. -/
def telegramAssertionExpiry (now : ℤ) : ℤ := now + telegramAuthorizationTTL + telegramClockSkew

/-! ### The body of a binding -/

/-- A value of a JSON object: a string as it is decoded, the raw text of other scalars. -/
inductive JsonValue where
  | string (value : String)
  | number (raw : String)
  | boolean (raw : String)
  | null
  | composite
  deriving DecidableEq, Repr

/-- `JsonRawMessageToString` of a scalar. -/
def JsonValue.scalar : JsonValue → Option String
  | .string value => some value
  | .number raw => some raw
  | .boolean raw => some raw
  | .null => none
  | .composite => none

/-- A JSON object, with its fields in the order of the text. -/
abbrev JsonObject := List (String × JsonValue)

/-- The folding under which the decoder compares field names: letter case, and the two runes
outside ASCII that fold to a letter. -/
def foldRune (c : Char) : Char :=
  if c.val = 0x17F then 'S' else if c.val = 0x212A then 'K' else c.toUpper

/-- The decoder stores the key in the field `name`. -/
def NamesField (name key : String) : Prop :=
  key.toList.map foldRune = name.toList.map foldRune

instance (name key : String) : Decidable (NamesField name key) :=
  inferInstanceAs (Decidable (_ = _))

/-- Decode a string field: the last key that names it wins, `null` leaves the field alone. -/
def decodeString (name : String) : String → JsonObject → Option String
  | acc, [] => some acc
  | acc, (key, value) :: body =>
      if NamesField name key then
        match value with
        | .string s => decodeString name s body
        | .null => decodeString name acc body
        | _ => none
      else decodeString name acc body

/-- Decode a field of type `int64`. -/
def decodeInt (name : String) : ℤ → JsonObject → Option ℤ
  | acc, [] => some acc
  | acc, (key, value) :: body =>
      if NamesField name key then
        match value with
        | .number raw => (parseInt64 raw).bind fun n => decodeInt name n body
        | .null => decodeInt name acc body
        | _ => none
      else decodeInt name acc body

/-- The raw fields: the last value of each key. -/
def rawFields (body : JsonObject) : Dict JsonValue :=
  body.foldl (fun m kv => m.insert kv.1 kv.2) ∅

/-- The values of the scalar fields, without the state. -/
def authorizationValue (key : String) (value : JsonValue) : Except String (Option (List String)) :=
  if key = "state" then .ok none
  else match value.scalar with
    | some s => .ok (some [s])
    | none => .error ("Telegram authorization field \"" ++ key ++ "\" must be a scalar value")

/-- A decoded body, with the fields that are used later. -/
structure TelegramAuthPayload where
  id : ℤ
  hash : String
  state : String
  authorizationValues : Params

/-- `telegramAuthPayload.UnmarshalJSON`. -/
def decodePayload (body : JsonObject) : Option TelegramAuthPayload := do
  let id ← decodeInt "id" 0 body
  let _ ← decodeString "first_name" "" body
  let _ ← decodeString "last_name" "" body
  let _ ← decodeString "username" "" body
  let _ ← decodeString "photo_url" "" body
  let _ ← decodeInt "auth_date" 0 body
  let hash ← decodeString "hash" "" body
  let state ← decodeString "state" "" body
  let values ← (Dict.collect authorizationValue (rawFields body)).toOption
  some { id := id, hash := hash, state := state, authorizationValues := values }

/-! ### What the check establishes -/

/-- The time of the authorization, read from the verified values. -/
def authDateOf (values : List (String × String)) : Option ℤ :=
  parseInt64 ((values.lookup "auth_date").getD "")

theorem lookup_mapM {params : Params} (key : String) :
    ∀ {keys : List String} {values : List (String × String)},
      keys.mapM (soleValue params) = some values →
        if key ∈ keys then values.lookup key = some (params.get key) else values.lookup key = none
  | [], values, h => by
      have hnil : values = [] := (Option.some.inj h).symm
      rw [if_neg List.not_mem_nil, hnil]
      rfl
  | k :: keys, values, h => by
      rw [List.mapM_cons] at h
      obtain ⟨kv, hsole, h⟩ := Option.bind_eq_some_iff.mp h
      obtain ⟨rest, hrest, h⟩ := Option.bind_eq_some_iff.mp h
      have hvalues : values = kv :: rest := (Option.some.inj h).symm
      have ih := lookup_mapM key hrest
      have hkv : kv = (k, params.get k) := by
        unfold soleValue at hsole
        split at hsole
        · next value hlookup =>
          unfold Params.get
          rw [hlookup]
          exact (Option.some.inj hsole).symm
        · exact absurd hsole (by simp)
      rw [hvalues, hkv]
      by_cases hk : key = k
      · rw [if_pos (hk ▸ List.mem_cons_self), hk, List.lookup_cons_self]
      · rw [List.lookup_cons, beq_false_of_ne hk]
        by_cases hmem : key ∈ keys
        · rw [if_pos hmem] at ih
          rw [if_pos (List.mem_cons_of_mem k hmem)]
          exact ih
        · rw [if_neg hmem] at ih
          rw [if_neg fun h => (List.mem_cons.mp h).elim hk hmem]
          exact ih

theorem mem_signedKeys {params : Params} {key : String} :
    key ∈ signedKeys params ↔ key ∈ params.keys ∧ key ≠ "hash" ∧ key ≠ "state" := by
  unfold signedKeys
  rw [List.mem_insertionSort, List.mem_filter, decide_eq_true_eq]

/-- A signed value is the value of its key. -/
theorem get_of_verified {params : Params} {values : List (String × String)} {key : String}
    (h : verifiedValues params = some values) (hash : key ≠ "hash") (state : key ≠ "state") :
    params.get key = (values.lookup key).getD "" := by
  have hlookup := lookup_mapM key h
  by_cases hk : key ∈ params.keys
  · rw [if_pos (mem_signedKeys.mpr ⟨hk, hash, state⟩)] at hlookup
    rw [hlookup]
    rfl
  · rw [if_neg fun hm => hk (mem_signedKeys.mp hm).1] at hlookup
    have hnone : params.lookup key = none := AList.lookup_eq_none.mpr hk
    unfold Params.get
    rw [hlookup, hnone]
    rfl

/-- An authorization that passes the check was signed and is used within its window. -/
theorem check_true {mac : String → String → List ℕ} {params : Params} {token : String} {now : ℤ}
    (h : checkTelegramAuthorizationAt mac params token now = true) :
    ∃ values authDate, verifiedValues params = some values ∧ authDateOf values = some authDate ∧
      WithinWindow authDate now ∧ params.get "hash" ≠ "" ∧
      hexDecode (params.get "hash") = some (mac token (dataCheckString values)) := by
  unfold checkTelegramAuthorizationAt at h
  split at h
  · exact absurd h (by simp)
  · next hpresent =>
    split at h
    · exact absurd h (by simp)
    · next authDate hdate =>
      split at h
      · next hwindow =>
        split at h
        · exact absurd h (by simp)
        · next values hvalues =>
          refine ⟨values, authDate, hvalues, ?_, hwindow, ?_, of_decide_eq_true h⟩
          · unfold authDateOf
            rw [← get_of_verified hvalues (by decide) (by decide)]
            exact hdate
          · intro hempty
            exact hpresent (.inr (.inr hempty))
      · exact absurd h (by simp)

/-! ### One claim for all spellings -/

theorem trimSpace_of_not_space {s : String} (h : ∀ c ∈ s.toList, Text.isSpace c = false) :
    Text.trimSpace s = s := by
  have hdrop : s.toList.dropWhile Text.isSpace = s.toList := by
    rw [List.dropWhile_eq_self_iff]
    intro hlen hspace
    rw [h _ (List.getElem_mem hlen)] at hspace
    exact absurd hspace (by decide)
  have hrdrop : s.toList.rdropWhile Text.isSpace = s.toList := by
    rw [List.rdropWhile_eq_self_iff]
    intro hne hspace
    rw [h _ (List.getLast_mem hne)] at hspace
    exact absurd hspace (by decide)
  unfold Text.trimSpace Text.trim
  rw [hdrop, hrdrop, String.ofList_toList]

/-- Hashes of the same bytes are claimed under the same name. -/
theorem normalize_eq {a b : String} {bytes : List ℕ} (ha : hexDecode a = some bytes)
    (hb : hexDecode b = some bytes) :
    normalizeTelegramAssertionHash a = normalizeTelegramAssertionHash b := by
  unfold normalizeTelegramAssertionHash
  rw [trimSpace_of_not_space (hexBytes_not_space ha),
    trimSpace_of_not_space (hexBytes_not_space hb), hexBytes_lower ha hb]

/-! ### The hash of a body -/

/-- The fields that Telegram's widget signs. -/
def telegramFields : List String :=
  ["auth_date", "first_name", "id", "last_name", "photo_url", "username"]

/-- The parameters carry Telegram's own signature: a valid signature covers the fields of the
widget and no others. -/
def SignedByTelegram (mac : String → String → List ℕ) (token : String) (params : Params) : Prop :=
  ∀ values, verifiedValues params = some values →
    hexDecode (params.get "hash") = some (mac token (dataCheckString values)) →
      ∀ key ∈ signedKeys params, key ∈ telegramFields

/-- The decoded hash is the last raw `hash` when no other key names the field. -/
theorem decode_hash {v : JsonValue} {s h : String} (hs : v.scalar = some s) :
    ∀ (body : JsonObject) (acc : String) (m : Dict JsonValue),
      (∀ kv ∈ body, NamesField "hash" kv.1 → kv.1 = "hash") →
        decodeString "hash" acc body = some h →
          (body.foldl (fun m kv => m.insert kv.1 kv.2) m).lookup "hash" = some v →
            h = s ∨ h = acc ∧ m.lookup "hash" = some v
  | [], acc, m, _, hdec, hraw => .inr ⟨(Option.some.inj hdec).symm, hraw⟩
  | (k, val) :: body, acc, m, hnames, hdec, hraw => by
      have ih : ∀ acc, decodeString "hash" acc body = some h →
          h = s ∨ h = acc ∧ (m.insert k val).lookup "hash" = some v := fun acc hd =>
        decode_hash hs body acc (m.insert k val)
          (fun kv hkv => hnames kv (List.mem_cons_of_mem _ hkv)) hd hraw
      unfold decodeString at hdec
      by_cases hk : NamesField "hash" k
      · have hkey : k = "hash" := hnames (k, val) List.mem_cons_self hk
        rw [if_pos hk] at hdec
        have hinsert : (m.insert k val).lookup "hash" = some val := by
          rw [hkey]
          exact AList.lookup_insert m
        split at hdec
        · next s' =>
          rcases ih s' hdec with hdone | ⟨hacc, hlast⟩
          · exact .inl hdone
          · rw [hinsert] at hlast
            obtain rfl := Option.some.inj hlast
            exact .inl (hacc.trans (Option.some.inj hs))
        · rcases ih acc hdec with hdone | ⟨_, hlast⟩
          · exact .inl hdone
          · rw [hinsert] at hlast
            obtain rfl := Option.some.inj hlast
            exact absurd hs (by simp [JsonValue.scalar])
        · exact absurd hdec (by simp)
      · rw [if_neg hk] at hdec
        have hne : "hash" ≠ k := by
          rintro rfl
          exact hk rfl
        rcases ih acc hdec with hdone | ⟨hacc, hlast⟩
        · exact .inl hdone
        · rw [AList.lookup_insert_ne hne] at hlast
          exact .inr ⟨hacc, hlast⟩

theorem mem_keys_foldl {key : String} : ∀ (body : JsonObject) (m : Dict JsonValue),
    key ∈ (body.foldl (fun m kv => m.insert kv.1 kv.2) m).keys ↔
      (∃ kv ∈ body, kv.1 = key) ∨ key ∈ m.keys
  | [], m => by simp
  | kv :: body, m => by
      rw [List.foldl_cons, mem_keys_foldl body, ← AList.mem_keys, AList.mem_insert, AList.mem_keys]
      simp only [List.mem_cons, exists_eq_or_imp, eq_comm (a := key) (b := kv.1)]
      rw [or_left_comm, or_assoc]

/-- A decoded body has the hash its fields name and the values its raw fields hold. -/
theorem decodePayload_some {body : JsonObject} {p : TelegramAuthPayload}
    (h : decodePayload body = some p) :
    decodeString "hash" "" body = some p.hash ∧
      Dict.collect authorizationValue (rawFields body) = .ok p.authorizationValues := by
  unfold decodePayload at h
  simp only [Option.bind_eq_bind, Option.bind_eq_some_iff] at h
  obtain ⟨id, _, _, _, _, _, _, _, _, _, date, _, hash, hdec, state, _, params, hcollect, h⟩ := h
  obtain rfl := Option.some.inj h
  refine ⟨hdec, ?_⟩
  cases hc : Dict.collect authorizationValue (rawFields body) with
  | error e =>
      rw [hc] at hcollect
      exact absurd hcollect (by simp [Except.toOption])
  | ok r =>
      rw [hc] at hcollect
      exact congrArg Except.ok (Option.some.inj hcollect)

/-- Every value of a decoded body was one of its fields. -/
theorem mem_body_of_mem_values {body : JsonObject} {p : TelegramAuthPayload} {key : String}
    (h : decodePayload body = some p) (hk : key ∈ p.authorizationValues.keys) :
    ∃ kv ∈ body, kv.1 = key := by
  obtain ⟨v, hv⟩ := Option.isSome_iff_exists.mp (AList.lookup_isSome.mpr hk)
  obtain ⟨raw, hraw, _⟩ := Dict.exists_of_collect (decodePayload_some h).2 hv
  have hmem : key ∈ (rawFields body).keys := AList.lookup_isSome.mp (hraw ▸ rfl)
  rcases (mem_keys_foldl body ∅).mp hmem with hbody | hempty
  · exact hbody
  · exact absurd hempty (by simp)

/-- The claim of a signed body is made under the hash that was verified. -/
theorem payload_hash {mac : String → String → List ℕ} {token : String} {body : JsonObject}
    {p : TelegramAuthPayload} {values : List (String × String)} (hp : decodePayload body = some p)
    (hsigned : SignedByTelegram mac token p.authorizationValues)
    (hvalues : verifiedValues p.authorizationValues = some values)
    (hhash : p.authorizationValues.get "hash" ≠ "")
    (hmac : hexDecode (p.authorizationValues.get "hash") =
      some (mac token (dataCheckString values))) :
    p.hash = p.authorizationValues.get "hash" := by
  obtain ⟨hdec, hcollect⟩ := decodePayload_some hp
  -- every key of the body is a field of the widget, the hash or the state
  have hkeys : ∀ kv ∈ body, NamesField "hash" kv.1 → kv.1 = "hash" := by
    intro kv hkv hnames
    by_cases hstate : kv.1 = "state"
    · rw [hstate] at hnames
      exact absurd hnames (by decide)
    · by_cases hself : kv.1 = "hash"
      · exact hself
      · have hraw : kv.1 ∈ (rawFields body).keys :=
          (mem_keys_foldl body ∅).mpr (.inl ⟨kv, hkv, rfl⟩)
        obtain ⟨v, hv⟩ := Option.isSome_iff_exists.mp (AList.lookup_isSome.mpr hraw)
        have hone := Dict.collect_some hcollect hv
        have hmem : kv.1 ∈ p.authorizationValues.keys := by
          unfold authorizationValue at hone
          rw [if_neg hstate] at hone
          split at hone
          · have hlookup := (Except.ok.inj hone).symm
            exact AList.lookup_isSome.mp (hlookup ▸ rfl)
          · exact absurd hone (by simp)
        have hfield := hsigned values hvalues hmac kv.1 (mem_signedKeys.mpr ⟨hmem, hself, hstate⟩)
        have hno : ∀ f ∈ telegramFields, ¬ NamesField "hash" f := by decide
        exact absurd hnames (hno _ hfield)
  obtain ⟨value, hlookup⟩ : ∃ value, p.authorizationValues.lookup "hash" = some value := by
    cases hl : p.authorizationValues.lookup "hash" with
    | none =>
        refine absurd ?_ hhash
        unfold Params.get
        rw [hl]
        rfl
    | some value => exact ⟨value, rfl⟩
  obtain ⟨v, hv, hone⟩ := Dict.exists_of_collect hcollect hlookup
  unfold authorizationValue at hone
  rw [if_neg (by decide)] at hone
  split at hone
  · next s hs =>
    have hvalue : value = [s] := (Option.some.inj (Except.ok.inj hone)).symm
    have hget : p.authorizationValues.get "hash" = s := by
      unfold Params.get
      rw [hlookup, hvalue]
      rfl
    rcases decode_hash hs body "" ∅ hkeys hdec hv with hdone | ⟨_, hnone⟩
    · exact hdone.trans hget.symm
    · exact absurd hnone (by simp)
  · exact absurd hone (by simp)

end MaxApi.AuthFlows
