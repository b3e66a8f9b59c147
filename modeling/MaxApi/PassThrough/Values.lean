import MaxApi.PassThrough.Objects

/-! # Pass-through bodies: scanning values

The scanner reads every JSON value (`parseValue_text`), and it handles the members of an object as
their scope says (`handled_plain`, `handled_option`, `handled_content`). -/

namespace MaxApi.PassThrough

open Cuts

/-! ### The heads of values -/

/-- A byte at the head of a value. -/
def StartsValue (b : UInt8) : Prop :=
  b = openBrace ∨ b = byte '[' ∨ b = quote ∨ b = byte 't' ∨ b = byte 'f' ∨ b = byte 'n' ∨
    b = byte '-' ∨ IsDigit b

theorem isValue_head {t : Bytes} (h : IsValue t) : ∃ b r, t = b :: r ∧ StartsValue b := by
  cases h with
  | string h =>
      obtain ⟨r, rfl⟩ := isString_head h
      exact ⟨quote, r, rfl, by unfold StartsValue; simp⟩
  | number h =>
      obtain ⟨-, b, r, rfl, hb⟩ := isNumber_bytes h
      refine ⟨b, r, rfl, ?_⟩
      unfold StartsValue
      rcases hb with hb | hb
      · simp [hb]
      · simp [hb]
  | true => exact ⟨byte 't', _, rfl, by unfold StartsValue; simp⟩
  | false => exact ⟨byte 'f', _, rfl, by unfold StartsValue; simp⟩
  | null => exact ⟨byte 'n', _, rfl, by unfold StartsValue; simp⟩
  | array hspaced hvalues hblank => exact ⟨byte '[', _, rfl, by unfold StartsValue; simp⟩
  | object hspaced hvalues hblank => exact ⟨openBrace, _, rfl, by unfold StartsValue; simp⟩

/-- Digits are none of the bytes outside their range. -/
theorem isDigit_ne {b c : UInt8} (hb : IsDigit b) (hc : ¬ IsDigit c) : b ≠ c := by
  rintro rfl
  exact hc hb

theorem startsValue_solid {b : UInt8} (h : StartsValue b) :
    ¬ IsJSONWhitespace b ∧ b ≠ byte ']' := by
  rcases h with rfl | rfl | rfl | rfl | rfl | rfl | rfl | h
  · decide
  · decide
  · decide
  · decide
  · decide
  · decide
  · decide
  · refine ⟨?_, isDigit_ne h (by decide)⟩
    rintro (hb | hb | hb | hb)
    · exact isDigit_ne h (by decide) hb
    · exact isDigit_ne h (by decide) hb
    · exact isDigit_ne h (by decide) hb
    · exact isDigit_ne h (by decide) hb

theorem isValue_solid {t : Bytes} (h : IsValue t) (r : Bytes) : Solid (t ++ r) := by
  obtain ⟨b, r', rfl, hb⟩ := isValue_head h
  exact solid_cons (startsValue_solid hb).1 _

/-! ### Keys -/

theorem capturedKey_eq_iff {t : Bytes} (h : IsString t) {n : Bytes} (hne : n ≠ [])
    (hn : 12 * n.length + 2 ≤ maxCapturedJSONKeyBytes) :
    capturedKey t = n ↔ (unmarshalString t).getD [] = n := by
  obtain ⟨k, hk, hlength⟩ := unmarshalString_text h
  unfold capturedKey
  rw [hk]
  by_cases hshort : t.length ≤ maxCapturedJSONKeyBytes
  · rw [if_pos hshort]
  · rw [if_neg hshort]
    constructor
    · intro hnil
      exact absurd hnil.symm hne
    · rintro rfl
      have hle : t.length ≤ 12 * k.length + 2 := hlength
      have hk' : 12 * k.length + 2 ≤ maxCapturedJSONKeyBytes := hn
      omega

/-- A key of at most twenty bytes is captured whole. -/
theorem capturedKey_eq_name {t : Bytes} (h : IsString t) {n : Bytes}
    (hn : 1 ≤ n.length ∧ n.length ≤ 20) :
    (capturedKey t = n) = ((unmarshalString t).getD [] = n) := by
  have hmax : maxCapturedJSONKeyBytes = 256 := rfl
  refine propext (capturedKey_eq_iff h (List.ne_nil_of_length_pos hn.1) ?_)
  omega

theorem shouldRemove_captured {t : Bytes} (h : IsString t) (scope : JsonFilterScope)
    (settings : ChannelOtherSettings) :
    shouldRemoveJSONMember scope (capturedKey t) settings =
      shouldRemoveJSONMember scope ((unmarshalString t).getD []) settings := by
  cases scope with
  | none => rfl
  | root =>
      unfold shouldRemoveJSONMember
      simp only [capturedKey_eq_name h (by decide : 1 ≤ (name "service_tier").length ∧ _),
        capturedKey_eq_name h (by decide : 1 ≤ (name "inference_geo").length ∧ _),
        capturedKey_eq_name h (by decide : 1 ≤ (name "speed").length ∧ _),
        capturedKey_eq_name h (by decide : 1 ≤ (name "store").length ∧ _),
        capturedKey_eq_name h (by decide : 1 ≤ (name "safety_identifier").length ∧ _)]
  | streamOptions =>
      unfold shouldRemoveJSONMember
      simp only [capturedKey_eq_name h (by decide : 1 ≤ (name "include_obfuscation").length ∧ _)]

/-! ### Members -/

/-- A reader of values stands behind a value that it has read. -/
def Reads (value : Scanner → Except ScanError Scanner) (t : Bytes) : Prop :=
  ∀ o r, EndsValue r → value ⟨t ++ r, o⟩ = .ok ⟨r, o + t.length⟩

section members

variable {value : Scanner → Except ScanError Scanner}
  {child : Scanner → Except ScanError (ObjectScan × Scanner)} {settings : ChannelOtherSettings}
  {m : Member Bytes}

theorem parseMember_lead (h : m.Spaced) (scope : JsonFilterScope) {r : Bytes} (hr : Solid r)
    (o : ℕ) :
    parseMember value child scope settings ⟨m.lead ++ r, o⟩ =
      parseMemberValue value child scope settings
        (if scope ≠ .none then capturedKey m.key else []) ⟨r, o + m.lead.length⟩ := by
  have hinput : m.lead ++ r = m.key ++ (m.afterKey ++ byte ':' :: (m.beforeValue ++ r)) := by
    unfold Member.lead
    simp only [List.append_assoc, List.cons_append, List.nil_append]
  have hoffset : o + m.key.length + m.afterKey.length + 1 + m.beforeValue.length =
      o + m.lead.length := by
    unfold Member.lead
    simp only [List.length_append, List.length_singleton]
    omega
  unfold parseMember
  rw [hinput, parseString_text h.key]
  show (expectByte (byte ':') (skipWhitespace _) >>= _) = _
  rw [skipWhitespace_blank h.afterKey (solid_cons (by decide) _), expectByte_cons]
  show parseMemberValue value child scope settings _ (skipWhitespace _) = _
  rw [skipWhitespace_blank h.beforeValue hr, hoffset]
  simp only [decide_eq_true_eq]

/-- A member whose value is read, not filtered. -/
theorem found_plain {k : Option Bytes} {o : ℕ} (after : Scanner) (removeMember : Bool)
    (hremove : removeMember = k.isNone) (hk : ∀ v ∈ k, v = m.value) :
    Found k m o ⟨removeMember, [], false, after⟩ where
  removeMember := hremove
  within := within_nil _ _
  left := by
    intro v hv
    rw [remaining_no_ranges, hk v hv]
  unchanged := fun _ => rfl

theorem parseMemberValue_plain {scope : JsonFilterScope} {key : Bytes}
    (hplain : ¬ (scope = .root ∧ key = name "stream_options" ∧
      settings.allowIncludeObfuscation = false))
    (hvalue : Reads value m.value) {r : Bytes} (hr : EndsValue r) (o : ℕ) :
    parseMemberValue value child scope settings key ⟨m.value ++ r, o⟩ =
      .ok ⟨shouldRemoveJSONMember scope key settings, [], false,
        ⟨r, o + m.value.length⟩⟩ := by
  unfold parseMemberValue
  rw [if_neg hplain, hvalue o r hr]
  rfl

/-- A member of an object that is not filtered. -/
theorem handled_plain (h : m.Spaced) (hm : IsValue m.value) (hvalue : Reads value m.value) :
    Handled (parseMember value child .none settings) (some m.value) m where
  spaced := h
  scan := by
    intro o r hr
    refine ⟨_, ?_, rfl, found_plain ⟨r, o + m.lead.length + m.value.length⟩ false rfl ?_⟩
    · rw [parseMember_lead h .none (isValue_solid hm r), parseMemberValue_plain (by simp) hvalue hr]
      rfl
    · intro v hv
      exact (Option.some.inj hv).symm

/-- A member of `stream_options`. -/
theorem handled_option (h : m.Spaced) (hm : IsValue m.value) (hvalue : Reads value m.value) :
    Handled (parseMember value child .streamOptions settings) (keptOption settings m) m where
  spaced := h
  scan := by
    intro o r hr
    refine ⟨_, ?_, rfl, found_plain ⟨r, o + m.lead.length + m.value.length⟩
      (shouldRemoveJSONMember .streamOptions m.decodedKey settings) ?_ ?_⟩
    · rw [parseMember_lead h .streamOptions (isValue_solid hm r),
        parseMemberValue_plain (by simp) hvalue hr, if_pos (by simp),
        shouldRemove_captured h.key]
      rfl
    · unfold keptOption
      cases hremove : shouldRemoveJSONMember .streamOptions m.decodedKey settings with
      | true => rfl
      | false => rfl
    · intro v hv
      unfold keptOption at hv
      split_ifs at hv
      · cases hv
      · exact (Option.some.inj hv).symm

end members

/-! ### Values -/

/-- The items behind the first. -/
def followingItems (items : List Item) : Bytes := items.flatMap fun i => byte ',' :: i.text

section values

variable {value : Scanner → Except ScanError Scanner}

/-- The loop of an array reads its items. -/
theorem parseElements_text {blank : Bytes} (hblank : Blank blank) (r : Bytes) (items : List Item)
    {i : Item} (hspaced : ∀ x ∈ i :: items, Blank x.after)
    (hvalues : ∀ x ∈ i :: items, ∀ o t, EndsValue t →
      value ⟨x.before ++ (x.value ++ t), o⟩ = .ok ⟨t, o + x.before.length + x.value.length⟩)
    {fuel : ℕ} (hfuel : items.length < fuel) (o : ℕ) :
    parseElements value fuel
        ⟨i.text ++ (followingItems items ++ (blank ++ byte ']' :: r)), o⟩ =
      .ok ⟨r, o + (i.text ++ (followingItems items ++ (blank ++ [byte ']']))).length⟩ := by
  induction items generalizing i fuel o with
  | nil =>
      obtain ⟨fuel, rfl⟩ := Nat.exists_eq_succ_of_ne_zero (by omega : fuel ≠ 0)
      have hafter := (hspaced i List.mem_cons_self).append hblank
      have hends : EndsValue (i.after ++ blank ++ byte ']' :: r) :=
        endsValue_blank hafter (by decide) r
      have hinput : i.text ++ (followingItems [] ++ (blank ++ byte ']' :: r)) =
          i.before ++ (i.value ++ (i.after ++ blank ++ byte ']' :: r)) := by
        simp [Item.text, followingItems]
      unfold parseElements
      rw [hinput, hvalues i List.mem_cons_self o _ hends]
      show (readByte (skipWhitespace _) >>= _) = _
      rw [skipWhitespace_blank hafter (solid_cons (by decide) r)]
      show Except.ok _ = _
      congr 2
      simp only [Item.text, followingItems, List.flatMap_nil, List.nil_append, List.length_append,
        List.length_singleton]
      omega
  | cons i' items ih =>
      obtain ⟨fuel, rfl⟩ := Nat.exists_eq_succ_of_ne_zero (by omega : fuel ≠ 0)
      have hfuel' : items.length < fuel := by
        rw [List.length_cons] at hfuel
        omega
      have hafter := hspaced i List.mem_cons_self
      have hfollowing : followingItems (i' :: items) =
          byte ',' :: (i'.text ++ followingItems items) :=
        rfl
      have hends := endsValue_blank hafter (by decide : EndsNumber (byte ','))
        (i'.text ++ (followingItems items ++ (blank ++ byte ']' :: r)))
      have hinput : i.text ++ (followingItems (i' :: items) ++ (blank ++ byte ']' :: r)) =
          i.before ++ (i.value ++ (i.after ++ byte ',' ::
            (i'.text ++ (followingItems items ++ (blank ++ byte ']' :: r))))) := by
        rw [hfollowing]
        simp [Item.text]
      have hrest := ih (fun x hx => hspaced x (List.mem_cons_of_mem _ hx))
        (fun x hx => hvalues x (List.mem_cons_of_mem _ hx)) hfuel'
        (o + i.before.length + i.value.length + i.after.length + 1)
      unfold parseElements
      rw [hinput, hvalues i List.mem_cons_self o _ hends]
      show (readByte (skipWhitespace _) >>= _) = _
      rw [skipWhitespace_blank hafter (solid_cons (by decide) _)]
      show parseElements value fuel _ = _
      rw [hrest, hfollowing]
      congr 2
      simp only [Item.text, List.length_append, List.length_cons, List.length_nil]
      omega

theorem join_cons_items (i : Item) (items : List Item) :
    join ((i :: items).map Item.text) = i.text ++ followingItems items := by
  rw [List.map_cons, join, followingItems, List.flatMap_map]

theorem length_le_followingItems (items : List Item) :
    items.length ≤ (followingItems items).length := by
  induction items with
  | nil => exact le_refl 0
  | cons i items ih =>
      have hfollowing : followingItems (i :: items) =
          byte ',' :: (i.text ++ followingItems items) :=
        rfl
      rw [hfollowing, List.length_cons, List.length_cons, List.length_append]
      omega

/-- The scanning of an array. -/
theorem parseArray_text {items : List Item} {blank : Bytes} (hblank : Blank blank)
    (hspaced : ∀ i ∈ items, Blank i.before ∧ Blank i.after)
    (hheads : ∀ i ∈ items, IsValue i.value)
    (hvalues : ∀ i ∈ items, ∀ before, Blank before → ∀ o t, EndsValue t →
      value ⟨before ++ (i.value ++ t), o⟩ = .ok ⟨t, o + before.length + i.value.length⟩)
    (o : ℕ) (r : Bytes) :
    parseArray value ⟨arrayText items blank ++ r, o⟩ =
      .ok ⟨r, o + (arrayText items blank).length⟩ := by
  cases items with
  | nil =>
      have hinput : arrayText [] blank ++ r = byte '[' :: (blank ++ byte ']' :: r) := by
        simp [arrayText, join]
      have hlength : o + (arrayText [] blank).length = o + 1 + blank.length + 1 := by
        simp [arrayText, join]
        omega
      unfold parseArray
      rw [hinput, expectByte_cons, hlength]
      show (peekByte (skipWhitespace _) >>= _) = _
      rw [skipWhitespace_blank hblank (solid_cons (by decide) r)]
      rfl
  | cons i items =>
      obtain ⟨b, v, hv, hb⟩ := isValue_head (hheads i List.mem_cons_self)
      obtain ⟨hsolid, hclose⟩ := startsValue_solid hb
      have hinput : arrayText (i :: items) blank ++ r = byte '[' :: (i.before ++
          (i.value ++ i.after ++ (followingItems items ++ (blank ++ byte ']' :: r)))) := by
        unfold arrayText
        rw [join_cons_items]
        simp [Item.text]
      -- The blank in front of the first item is skipped before the loop.
      have hfirst : i.value ++ i.after = Item.text ⟨[], i.value, i.after⟩ := rfl
      have hloop := @parseElements_text value blank hblank r items ⟨[], i.value, i.after⟩
        (by
          intro x hx
          rcases List.mem_cons.mp hx with rfl | hx
          · exact (hspaced i List.mem_cons_self).2
          · exact (hspaced x (List.mem_cons_of_mem _ hx)).2)
        (by
          intro x hx o t ht
          rcases List.mem_cons.mp hx with rfl | hx
          · exact hvalues i List.mem_cons_self [] blank_nil o t ht
          · exact hvalues x (List.mem_cons_of_mem _ hx) x.before
              (hspaced x (List.mem_cons_of_mem _ hx)).1 o t ht)
      have hhead : i.value ++ i.after ++ (followingItems items ++ (blank ++ byte ']' :: r)) =
          b :: (v ++ i.after ++ (followingItems items ++ (blank ++ byte ']' :: r))) := by
        rw [hv]
        rfl
      have hfuel : items.length < (i.value ++ i.after ++
          (followingItems items ++ (blank ++ byte ']' :: r))).length + 1 := by
        have hlen := length_le_followingItems items
        simp only [List.length_append]
        omega
      have hrun := hloop hfuel (o + 1 + i.before.length)
      rw [← hfirst] at hrun
      have hpeek : peekByte ⟨i.value ++ i.after ++ (followingItems items ++
          (blank ++ byte ']' :: r)), o + 1 + i.before.length⟩ = .ok b := by
        rw [hhead]
        rfl
      unfold parseArray
      rw [hinput, expectByte_cons]
      show (peekByte (skipWhitespace _) >>= fun next => if next = byte ']' then _ else
        parseElements value ((skipWhitespace _).rest.length + 1) (skipWhitespace _)) = _
      rw [skipWhitespace_blank (hspaced i List.mem_cons_self).1
        (by rw [hhead]; exact solid_cons hsolid _), hpeek]
      show (if b = byte ']' then _ else _) = _
      rw [if_neg hclose, hrun]
      congr 2
      unfold arrayText
      rw [join_cons_items]
      simp only [Item.text, List.length_append, List.length_cons, List.length_nil]
      omega

end values

/-! ### The recursion -/

theorem map_map_id (members : List (Member Bytes)) : members.map (Member.map id) = members :=
  List.map_id members

theorem length_join_mem {ts : List Bytes} {t : Bytes} (h : t ∈ ts) :
    t.length ≤ (join ts).length := by
  induction ts with
  | nil => cases h
  | cons u ts ih =>
      rw [join, List.length_append]
      rcases List.mem_cons.mp h with rfl | h
      · omega
      · obtain ⟨as, bs, rfl⟩ := List.append_of_mem h
        simp only [List.flatMap_append, List.flatMap_cons, List.length_append, List.length_cons]
        omega

theorem length_value_lt {members : List (Member Bytes)} {m : Member Bytes} (h : m ∈ members)
    (blank : Bytes) : m.value.length < (objectText members blank).length := by
  have hjoin := length_join_mem (List.mem_map_of_mem h : m.text ∈ members.map Member.text)
  rw [text_eq] at hjoin
  unfold objectText
  simp only [List.length_append, List.length_cons] at hjoin ⊢
  omega

theorem length_item_lt {items : List Item} {i : Item} (h : i ∈ items) (blank : Bytes) :
    i.value.length < (arrayText items blank).length := by
  have hjoin := length_join_mem (List.mem_map_of_mem h : i.text ∈ items.map Item.text)
  unfold arrayText
  simp only [Item.text, List.length_append, List.length_cons] at hjoin ⊢
  omega

theorem parseValue_blank {before r : Bytes} (hb : Blank before) (hr : Solid r) (fuel o : ℕ) :
    parseValue (fuel + 1) ⟨before ++ r, o⟩ = parseValue (fuel + 1) ⟨r, o + before.length⟩ := by
  unfold parseValue
  rw [skipWhitespace_blank hb hr, skipWhitespace_solid hr]

/-- How the scanner goes on at the head of a value. -/
theorem parseValue_head {b : UInt8} (hb : ¬ IsJSONWhitespace b) (r : Bytes) (fuel o : ℕ) :
    parseValue (fuel + 1) ⟨b :: r, o⟩ =
      if b = openBrace then
        parseObject (parseMember (parseValue fuel) noChild .none noSettings) ⟨b :: r, o⟩ >>=
          fun p => pure p.2
      else if b = byte '[' then parseArray (parseValue fuel) ⟨b :: r, o⟩
      else if b = quote then parseString false ⟨b :: r, o⟩ >>= fun p => pure p.2
      else if b = byte 't' then consumeLiteral (name "true") ⟨b :: r, o⟩
      else if b = byte 'f' then consumeLiteral (name "false") ⟨b :: r, o⟩
      else if b = byte 'n' then consumeLiteral (name "null") ⟨b :: r, o⟩
      else if b = byte '-' ∨ IsDigit b then consumeNumber ⟨b :: r, o⟩
      else throw (.unexpected o) := by
  conv_lhs => unfold parseValue
  rw [skipWhitespace_solid (solid_cons hb r)]
  rfl

/-- The scanner reads every value, with as much fuel as the value is long. -/
theorem parseValue_text {t : Bytes} (h : IsValue t) :
    ∀ fuel, t.length ≤ fuel → ∀ before, Blank before → ∀ o r, EndsValue r →
      parseValue fuel ⟨before ++ (t ++ r), o⟩ = .ok ⟨r, o + before.length + t.length⟩ := by
  induction h with
  | string h =>
      intro fuel hfuel before hbefore o r hr
      obtain ⟨t, rfl⟩ := isString_head h
      obtain ⟨fuel, rfl⟩ := Nat.exists_eq_succ_of_ne_zero (by simp at hfuel; omega : fuel ≠ 0)
      have hstring := parseString_text h false r (o + before.length)
      rw [List.cons_append] at hstring ⊢
      rw [parseValue_blank hbefore (solid_cons (by decide) _), parseValue_head (by decide),
        if_neg (by decide), if_neg (by decide), if_pos rfl, hstring]
      rfl
  | number h =>
      intro fuel hfuel before hbefore o r hr
      obtain ⟨hbytes, b, t, rfl, hb⟩ := isNumber_bytes h
      obtain ⟨fuel, rfl⟩ := Nat.exists_eq_succ_of_ne_zero (by simp at hfuel; omega : fuel ≠ 0)
      have hnumber := numberFrom_text hbytes hr (o + before.length) (Or.inl (by simp) :
        b :: t ≠ [] ∨ false = true)
      have hstart : StartsValue b := by
        unfold StartsValue
        rcases hb with hb | hb
        · simp [hb]
        · simp [hb]
      have hother : b ≠ openBrace ∧ b ≠ byte '[' ∧ b ≠ quote ∧ b ≠ byte 't' ∧ b ≠ byte 'f' ∧
          b ≠ byte 'n' := by
        rcases hb with rfl | hb
        · decide
        · exact ⟨isDigit_ne hb (by decide), isDigit_ne hb (by decide), isDigit_ne hb (by decide),
            isDigit_ne hb (by decide), isDigit_ne hb (by decide), isDigit_ne hb (by decide)⟩
      rw [List.cons_append] at hnumber ⊢
      rw [parseValue_blank hbefore (solid_cons (startsValue_solid hstart).1 _),
        parseValue_head (startsValue_solid hstart).1, if_neg hother.1, if_neg hother.2.1,
        if_neg hother.2.2.1, if_neg hother.2.2.2.1, if_neg hother.2.2.2.2.1,
        if_neg hother.2.2.2.2.2, if_pos hb]
      exact hnumber
  | true =>
      intro fuel hfuel before hbefore o r hr
      obtain ⟨fuel, rfl⟩ :=
        Nat.exists_eq_succ_of_ne_zero (by simp [name] at hfuel; omega : fuel ≠ 0)
      have hliteral := consumeLiteral_text (name "true") r (o + before.length)
      have hhead : name "true" ++ r = byte 't' :: (name "rue" ++ r) := rfl
      rw [hhead] at hliteral ⊢
      rw [parseValue_blank hbefore (solid_cons (by decide) _), parseValue_head (by decide),
        if_neg (by decide), if_neg (by decide), if_neg (by decide), if_pos rfl, hliteral]
  | false =>
      intro fuel hfuel before hbefore o r hr
      obtain ⟨fuel, rfl⟩ :=
        Nat.exists_eq_succ_of_ne_zero (by simp [name] at hfuel; omega : fuel ≠ 0)
      have hliteral := consumeLiteral_text (name "false") r (o + before.length)
      have hhead : name "false" ++ r = byte 'f' :: (name "alse" ++ r) := rfl
      rw [hhead] at hliteral ⊢
      rw [parseValue_blank hbefore (solid_cons (by decide) _), parseValue_head (by decide),
        if_neg (by decide), if_neg (by decide), if_neg (by decide), if_neg (by decide), if_pos rfl,
        hliteral]
  | null =>
      intro fuel hfuel before hbefore o r hr
      obtain ⟨fuel, rfl⟩ :=
        Nat.exists_eq_succ_of_ne_zero (by simp [name] at hfuel; omega : fuel ≠ 0)
      have hliteral := consumeLiteral_text (name "null") r (o + before.length)
      have hhead : name "null" ++ r = byte 'n' :: (name "ull" ++ r) := rfl
      rw [hhead] at hliteral ⊢
      rw [parseValue_blank hbefore (solid_cons (by decide) _), parseValue_head (by decide),
        if_neg (by decide), if_neg (by decide), if_neg (by decide), if_neg (by decide),
        if_neg (by decide), if_pos rfl, hliteral]
  | @array items blank hspaced hvalues hblank ih =>
      intro fuel hfuel before hbefore o r hr
      obtain ⟨fuel, rfl⟩ := Nat.exists_eq_succ_of_ne_zero
        (by simp [arrayText] at hfuel; omega : fuel ≠ 0)
      have hitems : ∀ i ∈ items, ∀ before, Blank before → ∀ o t, EndsValue t →
          parseValue fuel ⟨before ++ (i.value ++ t), o⟩ =
            .ok ⟨t, o + before.length + i.value.length⟩ := by
        intro i hi
        have hlt := length_item_lt hi blank
        exact ih i hi fuel (by omega)
      have harray := parseArray_text hblank hspaced hvalues hitems (o + before.length) r
      have hhead : arrayText items blank ++ r =
          byte '[' :: (join (items.map Item.text) ++ blank ++ [byte ']'] ++ r) := rfl
      rw [hhead] at harray ⊢
      rw [parseValue_blank hbefore (solid_cons (by decide) _), parseValue_head (by decide),
        if_neg (by decide), if_pos rfl, harray]
  | @object members blank hspaced hvalues hblank ih =>
      intro fuel hfuel before hbefore o r hr
      obtain ⟨fuel, rfl⟩ := Nat.exists_eq_succ_of_ne_zero
        (by simp [objectText] at hfuel; omega : fuel ≠ 0)
      have hhandled : ∀ m ∈ members,
          Handled (parseMember (parseValue fuel) noChild .none noSettings) (some m.value)
            (m.map id) := by
        intro m hm
        have hlt := length_value_lt hm blank
        refine handled_plain (hspaced m hm) (hvalues m hm) ?_
        intro o r hr
        exact ih m hm fuel (by omega) [] blank_nil o r hr
      obtain ⟨res, hobject, -, -⟩ :=
        @parseObject_text _ _ id (fun m => some m.value) members hhandled blank hblank
          (o + before.length) r
      rw [map_map_id] at hobject
      have hhead : objectText members blank ++ r =
          openBrace :: (join (members.map Member.text) ++ blank ++ [closeBrace] ++ r) := rfl
      rw [hhead] at hobject ⊢
      rw [parseValue_blank hbefore (solid_cons (by decide) _), parseValue_head (by decide),
        if_pos rfl, hobject]
      rfl

/-- With enough fuel the scanner is a reader of the value. -/
theorem reads_value {t : Bytes} (h : IsValue t) {fuel : ℕ} (hfuel : t.length ≤ fuel) :
    Reads (parseValue fuel) t :=
  fun o r hr => parseValue_text h fuel hfuel [] blank_nil o r hr

end MaxApi.PassThrough
