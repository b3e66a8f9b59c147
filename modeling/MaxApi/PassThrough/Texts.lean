import MaxApi.PassThrough.Grammar
import MaxApi.Lib.Checked

/-! # Pass-through bodies: scanning blanks, strings and numbers

What the scanner does at a text of whitespace, at a string, a literal and a number: it stands behind
the text, and it has captured the decoded key of a string. -/

namespace MaxApi.PassThrough

/-! ### Blanks -/

/-- No whitespace stands at the head. -/
def Solid (r : Bytes) : Prop := ∀ b ∈ r.head?, ¬ IsJSONWhitespace b

theorem solid_cons {b : UInt8} (h : ¬ IsJSONWhitespace b) (r : Bytes) : Solid (b :: r) := by
  intro b' hb
  rwa [← Option.some.inj hb]

theorem blank_nil : Blank [] := by
  intro b hb
  cases hb

theorem Blank.append {t t' : Bytes} (h : Blank t) (h' : Blank t') : Blank (t ++ t') := by
  intro b hb
  rcases List.mem_append.mp hb with hl | hl
  · exact h b hl
  · exact h' b hl

theorem skipWhitespace_solid {r : Bytes} (hr : Solid r) (o : ℕ) :
    skipWhitespace ⟨r, o⟩ = ⟨r, o⟩ := by
  cases r with
  | nil => rfl
  | cons b r =>
      show (if IsJSONWhitespace b then _ else _) = _
      rw [if_neg (hr b rfl)]

theorem skipWhitespace_blank {t r : Bytes} (ht : Blank t) (hr : Solid r) (o : ℕ) :
    skipWhitespace ⟨t ++ r, o⟩ = ⟨r, o + t.length⟩ := by
  induction t generalizing o with
  | nil => exact skipWhitespace_solid hr o
  | cons b t ih =>
      show (if IsJSONWhitespace b then _ else _) = _
      rw [if_pos (ht b List.mem_cons_self)]
      have hrest := ih (fun b' hb => ht b' (List.mem_cons_of_mem _ hb)) (o + 1)
      have hlength : o + (b :: t).length = o + 1 + t.length := by
        rw [List.length_cons]
        omega
      rw [hlength]
      exact hrest

theorem expectByte_cons (b : UInt8) (r : Bytes) (o : ℕ) :
    expectByte b ⟨b :: r, o⟩ = .ok ⟨r, o + 1⟩ := if_pos rfl

/-! ### Strings -/

theorem stringFrom_plain {b : UInt8} (hcontrol : ¬ b < 32) (hquote : b ≠ quote)
    (hbackslash : b ≠ backslash) (r : Bytes) (o : ℕ) (c : Captured) :
    stringFrom (b :: r) o c false = stringFrom r (o + 1) (c.push b) false := by
  conv_lhs => unfold stringFrom
  rw [if_neg Bool.false_ne_true, if_neg hbackslash, if_neg hquote, if_neg hcontrol]

theorem stringFrom_escaped (b : UInt8) (r : Bytes) (o : ℕ) (c : Captured) :
    stringFrom (backslash :: b :: r) o c false =
      stringFrom r (o + 1 + 1) ((c.push backslash).push b) false := by
  conv_lhs => unfold stringFrom
  rw [if_neg Bool.false_ne_true, if_pos rfl]
  conv_lhs => unfold stringFrom
  rw [if_pos rfl]

theorem stringFrom_quote (r : Bytes) (o : ℕ) (c : Captured) :
    stringFrom (quote :: r) o c false = .ok (c.push quote, ⟨r, o + 1⟩) := by
  unfold stringFrom
  rw [if_neg Bool.false_ne_true, if_neg (by decide), if_pos rfl]

/-- Bytes of a range without the quote and the backslash are plain. -/
theorem range_plain {low high b : UInt8} (hlow : 32 ≤ low) (hquote : ¬ (low ≤ quote ∧ quote ≤ high))
    (hbackslash : ¬ (low ≤ backslash ∧ backslash ≤ high)) (h : low ≤ b ∧ b ≤ high) :
    ¬ b < 32 ∧ b ≠ quote ∧ b ≠ backslash := by
  refine ⟨UInt8.not_lt.mpr (UInt8.le_trans hlow h.1), ?_, ?_⟩
  · rintro rfl
    exact hquote h
  · rintro rfl
    exact hbackslash h

theorem hexDigit_plain {b : UInt8} (h : IsHexDigit b) :
    ¬ b < 32 ∧ b ≠ quote ∧ b ≠ backslash := by
  unfold IsHexDigit hexValue at h
  split_ifs at h with hdigit hlower hupper
  · exact range_plain (by decide) (by decide) (by decide) hdigit
  · exact range_plain (by decide) (by decide) (by decide) hlower
  · exact range_plain (by decide) (by decide) (by decide) hupper
  · cases h

def Captured.pushAll (c : Captured) (t : Bytes) : Captured := t.foldl Captured.push c

theorem stringFrom_piece {p : Bytes} (h : IsPiece p) (r : Bytes) (o : ℕ) (c : Captured) :
    stringFrom (p ++ r) o c false = stringFrom r (o + p.length) (c.pushAll p) false := by
  cases h with
  | plain hcontrol hquote hbackslash => exact stringFrom_plain hcontrol hquote hbackslash r o c
  | escape h => exact stringFrom_escaped _ r o c
  | unicode ha hb hc hd =>
      obtain ⟨ha, ha', ha''⟩ := hexDigit_plain ha
      obtain ⟨hb, hb', hb''⟩ := hexDigit_plain hb
      obtain ⟨hc, hc', hc''⟩ := hexDigit_plain hc
      obtain ⟨hd, hd', hd''⟩ := hexDigit_plain hd
      simp only [List.cons_append, List.nil_append]
      rw [stringFrom_escaped, stringFrom_plain ha ha' ha'', stringFrom_plain hb hb' hb'',
        stringFrom_plain hc hc' hc'', stringFrom_plain hd hd' hd'']
      rfl

theorem stringFrom_pieces {pieces : List Bytes} (h : ∀ p ∈ pieces, IsPiece p) (r : Bytes) (o : ℕ)
    (c : Captured) :
    stringFrom (pieces.flatten ++ quote :: r) o c false =
      .ok (c.pushAll (pieces.flatten ++ [quote]), ⟨r, o + pieces.flatten.length + 1⟩) := by
  induction pieces generalizing o c with
  | nil => exact stringFrom_quote r o c
  | cons p pieces ih =>
      have hrest := ih (fun q hq => h q (List.mem_cons_of_mem _ hq)) (o + p.length) (c.pushAll p)
      rw [List.flatten_cons, List.append_assoc, stringFrom_piece (h p List.mem_cons_self), hrest]
      unfold Captured.pushAll
      rw [← List.foldl_append, List.append_assoc, List.length_append]
      congr 3
      omega

/-! ### What is captured -/

theorem pushAll_overflow (raw t : Bytes) :
    (⟨raw, true⟩ : Captured).pushAll t = ⟨raw, true⟩ := by
  induction t with
  | nil => rfl
  | cons b t ih => exact ih

theorem pushAll_within {raw t : Bytes} (h : raw.length + t.length ≤ maxCapturedJSONKeyBytes) :
    (⟨raw, false⟩ : Captured).pushAll t = ⟨raw ++ t, false⟩ := by
  induction t generalizing raw with
  | nil => exact congrArg (fun l => (⟨l, false⟩ : Captured)) (List.append_nil raw).symm
  | cons b t ih =>
      rw [List.length_cons] at h
      have hpush : (⟨raw, false⟩ : Captured).push b = ⟨raw ++ [b], false⟩ := by
        unfold Captured.push
        rw [if_neg Bool.false_ne_true,
          if_neg (by show ¬ maxCapturedJSONKeyBytes ≤ raw.length; omega)]
      have hrest : (⟨raw ++ [b], false⟩ : Captured).pushAll t = ⟨raw ++ [b] ++ t, false⟩ := by
        apply ih
        rw [List.length_append, List.length_singleton]
        omega
      show ((⟨raw, false⟩ : Captured).push b).pushAll t = _
      rw [hpush, hrest, List.append_assoc, List.singleton_append]

theorem pushAll_beyond {raw t : Bytes} (hraw : raw.length ≤ maxCapturedJSONKeyBytes)
    (h : maxCapturedJSONKeyBytes < raw.length + t.length) :
    ((⟨raw, false⟩ : Captured).pushAll t).overflow = true := by
  induction t generalizing raw with
  | nil =>
      rw [List.length_nil] at h
      omega
  | cons b t ih =>
      rw [List.length_cons] at h
      by_cases hfull : maxCapturedJSONKeyBytes ≤ raw.length
      · have hpush : (⟨raw, false⟩ : Captured).push b = ⟨[], true⟩ := by
          unfold Captured.push
          rw [if_neg Bool.false_ne_true, if_pos hfull]
        show (((⟨raw, false⟩ : Captured).push b).pushAll t).overflow = true
        rw [hpush, pushAll_overflow]
      · have hpush : (⟨raw, false⟩ : Captured).push b = ⟨raw ++ [b], false⟩ := by
          unfold Captured.push
          rw [if_neg Bool.false_ne_true, if_neg hfull]
        show (((⟨raw, false⟩ : Captured).push b).pushAll t).overflow = true
        rw [hpush]
        apply ih
        · rw [List.length_append, List.length_singleton]
          omega
        · rw [List.length_append, List.length_singleton]
          omega

/-! ### Decoding -/

theorem parts_plain {b : UInt8} (hcontrol : ¬ b < 32) (hquote : b ≠ quote)
    (hbackslash : b ≠ backslash) (r : Bytes) :
    parts (b :: r) = (parts r).map (Part.byte b :: ·) := by
  conv_lhs => unfold parts
  rw [if_neg hquote, if_neg hbackslash, if_neg hcontrol]
  cases parts r <;> rfl

theorem unescape_u : unescape (byte 'u') = none := by decide +kernel

theorem parts_escape {e b : UInt8} (h : unescape e = some b) (r : Bytes) :
    parts (backslash :: e :: r) = (parts r).map (Part.byte b :: ·) := by
  have hu : e ≠ byte 'u' := by
    intro he
    rw [he, unescape_u] at h
    cases h
  conv_lhs => unfold parts
  rw [if_neg (by decide), if_pos rfl]
  dsimp only
  rw [if_neg hu, h]
  cases parts r <;> rfl

theorem getu4_isSome {a b c d : UInt8} (ha : IsHexDigit a) (hb : IsHexDigit b) (hc : IsHexDigit c)
    (hd : IsHexDigit d) : ∃ n, getu4 a b c d = some n := by
  obtain ⟨x, hx⟩ := Option.isSome_iff_exists.mp ha
  obtain ⟨y, hy⟩ := Option.isSome_iff_exists.mp hb
  obtain ⟨z, hz⟩ := Option.isSome_iff_exists.mp hc
  obtain ⟨w, hw⟩ := Option.isSome_iff_exists.mp hd
  refine ⟨x * 4096 + y * 256 + z * 16 + w, ?_⟩
  unfold getu4
  rw [hx, hy, hz, hw]
  rfl

theorem parts_unicode {a b c d : UInt8} {n : ℕ} (h : getu4 a b c d = some n) (r : Bytes) :
    parts (backslash :: byte 'u' :: a :: b :: c :: d :: r) =
      (parts r).map (Part.code n :: ·) := by
  conv_lhs => unfold parts
  rw [if_neg (by decide), if_pos rfl]
  dsimp only
  rw [if_pos rfl, h]
  cases parts r <;> rfl

/-- A piece of at most six bytes is one part. -/
theorem parts_piece {p : Bytes} (h : IsPiece p) :
    p.length ≤ 6 ∧ ∃ part, ∀ r, parts (p ++ r) = (parts r).map (part :: ·) := by
  cases h with
  | plain hcontrol hquote hbackslash =>
      exact ⟨by simp, _, fun r => parts_plain hcontrol hquote hbackslash r⟩
  | escape h =>
      obtain ⟨b, hb⟩ := Option.isSome_iff_exists.mp h
      exact ⟨by simp, _, fun r => parts_escape hb r⟩
  | unicode ha hb hc hd =>
      obtain ⟨n, hn⟩ := getu4_isSome ha hb hc hd
      exact ⟨by simp, _, fun r => parts_unicode hn r⟩

theorem parts_pieces {pieces : List Bytes} (h : ∀ p ∈ pieces, IsPiece p) :
    ∃ ps, parts (pieces.flatten ++ [quote]) = some ps ∧
      pieces.flatten.length ≤ 6 * ps.length := by
  induction pieces with
  | nil => exact ⟨[], by decide, le_refl 0⟩
  | cons p pieces ih =>
      obtain ⟨ps, hps, hlength⟩ := ih fun q hq => h q (List.mem_cons_of_mem _ hq)
      obtain ⟨hp, part, hpart⟩ := parts_piece (h p List.mem_cons_self)
      refine ⟨part :: ps, ?_, ?_⟩
      · rw [List.flatten_cons, List.append_assoc, hpart, hps]
        rfl
      · rw [List.flatten_cons, List.length_append, List.length_cons]
        omega

theorem length_encodeRune_pos (r : ℕ) : 1 ≤ (EncodeRune r).length := by
  unfold EncodeRune
  split_ifs
  · rw [String.length_utf8EncodeChar]
    exact Char.utf8Size_pos _
  · rw [String.length_utf8EncodeChar]
    exact Char.utf8Size_pos _

/-- At most two parts make up one byte. -/
theorem length_joinParts (ps : List Part) : ps.length ≤ 2 * (joinParts ps).length := by
  induction ps using joinParts.induct with
  | case1 => exact le_refl 0
  | case2 b ps ih =>
      unfold joinParts
      rw [List.length_cons, List.length_cons]
      omega
  | case3 r r' ps r'' h ih =>
      have hrune := length_encodeRune_pos r''
      unfold joinParts
      rw [h]
      dsimp only
      rw [List.length_append, List.length_cons, List.length_cons]
      omega
  | case4 r r' ps h ih =>
      have hrune := length_encodeRune_pos r
      rw [List.length_cons] at ih ⊢
      unfold joinParts
      rw [h]
      dsimp only
      rw [List.length_append]
      rw [List.length_cons]
      omega
  | case5 r ps h ih =>
      have hrune := length_encodeRune_pos r
      have hjoin : joinParts (.code r :: ps) = EncodeRune r ++ joinParts ps := by
        cases ps with
        | nil => rfl
        | cons p ps =>
            cases p with
            | byte b => rfl
            | code r' => exact absurd rfl (h r' ps)
      rw [hjoin, List.length_append, List.length_cons]
      omega

/-- A string decodes, to at least one byte for every twelve. -/
theorem unmarshalString_text {t : Bytes} (h : IsString t) :
    ∃ k, unmarshalString t = some k ∧ t.length ≤ 12 * k.length + 2 := by
  obtain ⟨pieces, hpieces, rfl⟩ := h
  obtain ⟨ps, hps, hlength⟩ := parts_pieces hpieces
  have hjoin := length_joinParts ps
  refine ⟨joinParts ps, ?_, ?_⟩
  · show (if quote = quote then (parts (pieces.flatten ++ [quote])).map joinParts else none) = _
    rw [if_pos rfl, hps]
    rfl
  · rw [List.length_cons, List.length_append, List.length_singleton]
    omega

/-- The text of a key that is captured: empty if the text is too long. -/
def capturedKey (t : Bytes) : Bytes :=
  if t.length ≤ maxCapturedJSONKeyBytes then (unmarshalString t).getD [] else []

theorem parseString_text {t : Bytes} (h : IsString t) (capture : Bool) (r : Bytes) (o : ℕ) :
    parseString capture ⟨t ++ r, o⟩ =
      .ok (if capture then capturedKey t else [], ⟨r, o + t.length⟩) := by
  obtain ⟨k, hk, -⟩ := unmarshalString_text h
  obtain ⟨pieces, hpieces, ht⟩ := h
  have htext : t ++ r = quote :: (pieces.flatten ++ quote :: r) := by
    rw [ht, List.cons_append, List.append_assoc, List.singleton_append]
  have hlength : t.length = 1 + (pieces.flatten ++ [quote]).length := by
    rw [ht, List.length_cons]
    omega
  have hoffset : o + 1 + pieces.flatten.length + 1 = o + t.length := by
    rw [hlength, List.length_append, List.length_singleton]
    omega
  unfold parseString
  rw [htext, expectByte_cons]
  show (stringFrom _ _ _ _ >>= _) = _
  rw [stringFrom_pieces hpieces, hoffset]
  cases capture with
  | false => rfl
  | true =>
      unfold capturedKey
      by_cases hshort : t.length ≤ maxCapturedJSONKeyBytes
      · have hcaptured : (⟨[quote], false⟩ : Captured).pushAll (pieces.flatten ++ [quote]) =
            ⟨t, false⟩ := by
          rw [pushAll_within (by rw [List.length_singleton]; omega), ht]
          rfl
        rw [hcaptured, if_pos rfl, if_pos hshort, hk, ok_then]
        simp [hk]
      · have hcaptured := @pushAll_beyond [quote] (pieces.flatten ++ [quote]) (by decide)
          (by rw [List.length_singleton]; omega)
        rw [if_pos rfl, if_neg hshort]
        show (if !true || _ then _ else _) = _
        rw [hcaptured]
        rfl

/-! ### Literals and numbers -/

theorem consumeLiteral_text (t r : Bytes) (o : ℕ) :
    consumeLiteral t ⟨t ++ r, o⟩ = .ok ⟨r, o + t.length⟩ := by
  induction t generalizing o with
  | nil => rfl
  | cons b t ih =>
      have hlength : o + (b :: t).length = o + 1 + t.length := by
        rw [List.length_cons]
        omega
      unfold consumeLiteral
      rw [List.cons_append, expectByte_cons, hlength]
      exact ih (o + 1)

/-- A value may end in front of it. -/
def EndsValue (r : Bytes) : Prop := ∀ b ∈ r.head?, EndsNumber b

theorem not_numberByte_of_ends {b : UInt8} (h : EndsNumber b) : ¬ IsNumberByte b := by
  rcases h with (rfl | rfl | rfl | rfl) | rfl | rfl | rfl <;> decide

theorem numberFrom_text {t r : Bytes} (ht : ∀ b ∈ t, IsNumberByte b) (hr : EndsValue r)
    (o : ℕ) {consumed : Bool} (h : t ≠ [] ∨ consumed = true) :
    numberFrom (t ++ r) o consumed = .ok ⟨r, o + t.length⟩ := by
  induction t generalizing o consumed with
  | nil =>
      obtain rfl : consumed = true := by simpa using h
      cases r with
      | nil => rfl
      | cons b r =>
          have hb := hr b rfl
          show (if IsNumberByte b then _ else _) = _
          rw [if_neg (not_numberByte_of_ends hb), if_pos hb]
          rfl
  | cons b t ih =>
      have hrest := ih (fun b' hb => ht b' (List.mem_cons_of_mem _ hb)) (o + 1) (Or.inr rfl)
      have hlength : o + (b :: t).length = o + 1 + t.length := by
        rw [List.length_cons]
        omega
      show (if IsNumberByte b then _ else _) = _
      rw [if_pos (ht b List.mem_cons_self), hlength]
      exact hrest

theorem isDigits_bytes {t : Bytes} (h : IsDigits t) : ∀ b ∈ t, IsNumberByte b :=
  fun b hb => Or.inl (h.2 b hb)

/-- A number consists of number bytes, the first of them a sign or a digit. -/
theorem isNumber_bytes {t : Bytes} (h : IsNumber t) :
    (∀ b ∈ t, IsNumberByte b) ∧ ∃ b r, t = b :: r ∧ (b = byte '-' ∨ IsDigit b) := by
  obtain ⟨sign, int, frac, exp, rfl, hsign, hint, hfrac, hexp⟩ := h
  have hzero : IsDigit (byte '0') := by decide
  have hint' : IsDigits int := by
    rcases hint with rfl | ⟨hd, -⟩
    · exact ⟨by simp, by simpa using hzero⟩
    · exact hd
  constructor
  · intro b hb
    simp only [List.mem_append] at hb
    rcases hb with ((hb | hb) | hb) | hb
    · rcases hsign with rfl | rfl
      · cases hb
      · rw [List.mem_singleton.mp hb]
        decide
    · exact isDigits_bytes hint' b hb
    · rcases hfrac with rfl | ⟨ds, hds, rfl⟩
      · cases hb
      · rcases List.mem_cons.mp hb with rfl | hb
        · decide
        · exact isDigits_bytes hds b hb
    · rcases hexp with rfl | ⟨e, s, ds, he, hs, hds, rfl⟩
      · cases hb
      · rcases List.mem_cons.mp hb with rfl | hb
        · rcases he with rfl | rfl
          · decide
          · decide
        · rcases List.mem_append.mp hb with hb | hb
          · rcases hs with rfl | rfl | rfl
            · cases hb
            · rw [List.mem_singleton.mp hb]
              decide
            · rw [List.mem_singleton.mp hb]
              decide
          · exact isDigits_bytes hds b hb
  · rcases hsign with rfl | rfl
    · obtain ⟨hne, hdigits⟩ := hint'
      cases int with
      | nil => exact absurd rfl hne
      | cons b int => exact ⟨b, _, rfl, Or.inr (hdigits b List.mem_cons_self)⟩
    · exact ⟨_, _, rfl, Or.inl rfl⟩

end MaxApi.PassThrough
