import MaxApi.PassThrough.Values
import Mathlib.Data.List.Perm.Basic

/-! # Pass-through bodies: the filtered body

The ranges of a body that is one JSON object leave the object of the members that the channel lets
through; they are merged, and every reader of the filtered body delivers what they leave, whatever
its buffers and the reads of the storage are (`filtered_body`). -/

namespace MaxApi.PassThrough

open Cuts

/-! ### Members of the body -/

section contents

variable {settings : ChannelOtherSettings} {m : Member Content}

theorem shouldRemove_streamOptions :
    shouldRemoveJSONMember .root (name "stream_options") settings = false := by
  unfold shouldRemoveJSONMember
  dsimp only
  rw [if_neg (by decide), if_neg (by decide), if_neg (by decide), if_neg (by decide),
    if_neg (by decide)]

theorem capturedKey_streamOptions {t : Bytes} (h : IsString t) :
    capturedKey t = name "stream_options" ↔ (unmarshalString t).getD [] = name "stream_options" :=
  Iff.of_eq (capturedKey_eq_name h (by decide))

theorem valid_text {c : Content} (h : c.Valid) : IsValue c.text := by
  cases h with
  | object hspaced hvalues hblank => exact .object hspaced hvalues hblank
  | other h hother => exact h

/-- The object at `stream_options` is filtered with the members that may be kept. -/
theorem parseStreamOptions_text {members : List (Member Bytes)} {blank : Bytes}
    (hspaced : ∀ m ∈ members, m.Spaced) (hvalues : ∀ m ∈ members, IsValue m.value)
    (hblank : Blank blank) {fuel : ℕ} (hfuel : (objectText members blank).length ≤ fuel) (o : ℕ)
    (r : Bytes) :
    ∃ c, parseStreamOptions fuel settings ⟨objectText members blank ++ r, o⟩ =
        .ok (c, ⟨r, o + (objectText members blank).length⟩) ∧
      Filtered o (objectText members blank)
        (objectText (keptMembers (keptOption settings) members)
          (trailing (keptOption settings) members blank))
        (keptMembers (keptOption settings) members).length c ∧
      (c.changed = true ∧ c.keptMembers = 0 ↔
        keptMembers (keptOption settings) members = [] ∧ members ≠ []) := by
  have hhandled : ∀ m ∈ members,
      Handled (parseMember (parseValue fuel) noChild .streamOptions settings)
        (keptOption settings m) (m.map id) := by
    intro m hm
    have hlt := length_value_lt hm blank
    exact handled_option (hspaced m hm) (hvalues m hm) (reads_value (hvalues m hm) (by omega))
  have h := parseObject_text hhandled hblank o r
  rw [map_map_id] at h
  exact h

/-- The member `stream_options`, if its value is not an object. -/
theorem parseMemberValue_other {value : Scanner → Except ScanError Scanner}
    {child : Scanner → Except ScanError (ObjectScan × Scanner)} {t r : Bytes} (ht : IsValue t)
    (hother : t.head? ≠ some openBrace) (hvalue : Reads value t)
    (hallow : settings.allowIncludeObfuscation = false) (hr : EndsValue r) (o : ℕ) :
    parseMemberValue value child .root settings (name "stream_options") ⟨t ++ r, o⟩ =
      .ok ⟨false, [], false, ⟨r, o + t.length⟩⟩ := by
  obtain ⟨b, t, rfl, -⟩ := isValue_head ht
  have hb : ¬ b = openBrace := by
    rintro rfl
    exact hother rfl
  unfold parseMemberValue
  rw [shouldRemove_streamOptions, if_pos ⟨rfl, rfl, hallow⟩]
  show (if b = openBrace then _ else value ⟨b :: t ++ r, o⟩ >>= _) = _
  rw [if_neg hb, hvalue o r hr]
  rfl

/-- The member `stream_options`, if its value is an object. -/
theorem parseMemberValue_object {value : Scanner → Except ScanError Scanner}
    {child : Scanner → Except ScanError (ObjectScan × Scanner)} {members : List (Member Bytes)}
    {blank r : Bytes} {o : ℕ} {c : ObjectScan} {after : Scanner}
    (hallow : settings.allowIncludeObfuscation = false)
    (hchild : child ⟨objectText members blank ++ r, o⟩ = .ok (c, after)) :
    parseMemberValue value child .root settings (name "stream_options")
        ⟨objectText members blank ++ r, o⟩ =
      .ok (if c.changed ∧ c.keptMembers = 0 then ⟨true, [], c.changed, after⟩
        else ⟨false, c.ranges, c.changed, after⟩) := by
  unfold parseMemberValue
  rw [shouldRemove_streamOptions, if_pos ⟨rfl, rfl, hallow⟩]
  have hpeek : peekByte ⟨objectText members blank ++ r, o⟩ = .ok openBrace := rfl
  rw [hpeek, ok_then, if_pos rfl, hchild, ok_then]
  dsimp only
  split_ifs <;> rfl

/-- What is found at an object whose members are filtered. -/
theorem found_object {mb : Member Bytes} {members : List (Member Bytes)} {blank : Bytes} {o : ℕ}
    {c : ObjectScan} (after : Scanner) (hmb : mb.value = objectText members blank)
    (hfiltered : Filtered (o + mb.lead.length) (objectText members blank)
      (objectText (keptMembers (keptOption settings) members)
        (trailing (keptOption settings) members blank))
      (keptMembers (keptOption settings) members).length c)
    (hempty : c.changed = true ∧ c.keptMembers = 0 ↔
      keptMembers (keptOption settings) members = [] ∧ members ≠ []) :
    Found ((keptStreamOptions settings (.object members blank)).map Content.text) mb o
      (if c.changed ∧ c.keptMembers = 0 then ⟨true, [], c.changed, after⟩
        else ⟨false, c.ranges, c.changed, after⟩) := by
  unfold keptStreamOptions
  dsimp only
  by_cases hlost : keptMembers (keptOption settings) members = [] ∧ members ≠ []
  · rw [if_pos hlost, if_pos (hempty.mpr hlost)]
    refine ⟨rfl, within_nil _ _, ?_, fun _ => rfl⟩
    intro v hv
    cases hv
  · rw [if_neg hlost, if_neg (mt hempty.mp hlost)]
    refine ⟨rfl, ?_, ?_, hfiltered.unchanged⟩
    · rw [hmb]
      exact hfiltered.within.mono (by omega) (le_refl _)
    · intro v hv
      rw [hmb]
      exact hfiltered.left.trans (Option.some.inj hv)

/-- A member of the body. -/
theorem handled_content (h : m.Spaced) (hm : m.value.Valid) {fuel : ℕ}
    (hfuel : m.value.text.length ≤ fuel) :
    Handled (parseMember (parseValue fuel) (parseStreamOptions fuel settings) .root settings)
      ((keptContent settings m).map Content.text) (m.map Content.text) where
  spaced := ⟨h.before, h.key, h.afterKey, h.beforeValue, h.after⟩
  scan := by
    intro o r hr
    have hspaced : (m.map Content.text).Spaced :=
      ⟨h.before, h.key, h.afterKey, h.beforeValue, h.after⟩
    have hvalue := valid_text hm
    have hreads := reads_value hvalue hfuel
    show ∃ s, parseMember (parseValue fuel) (parseStreamOptions fuel settings) .root settings
        ⟨(m.map Content.text).lead ++ (m.value.text ++ r), o⟩ = .ok s ∧
      s.after = ⟨r, o + m.lead.length + m.value.text.length⟩ ∧
      Found ((keptContent settings m).map Content.text) (m.map Content.text) o s
    rw [parseMember_lead hspaced .root (isValue_solid hvalue r), if_pos (by simp)]
    show ∃ s, parseMemberValue _ _ .root settings (capturedKey m.key)
      ⟨m.value.text ++ r, o + m.lead.length⟩ = .ok s ∧ _
    by_cases hstream : m.decodedKey = name "stream_options" ∧
        settings.allowIncludeObfuscation = false
    · have hcaptured : capturedKey m.key = name "stream_options" :=
        (capturedKey_streamOptions h.key).mpr hstream.1
      have hkept : keptContent settings m = keptStreamOptions settings m.value := by
        unfold keptContent
        rw [hstream.1, shouldRemove_streamOptions, if_neg (by simp), if_pos ⟨rfl, hstream.2⟩]
      have hmvalue : (m.map Content.text).value = m.value.text := rfl
      rw [hkept, hcaptured]
      generalize m.value = content at hm hfuel hvalue hreads hmvalue ⊢
      cases hm with
      | @other text hvalid hother =>
          refine ⟨_, parseMemberValue_other hvalid hother hreads hstream.2 hr _, rfl, ?_⟩
          apply found_plain _ false rfl
          intro v hv
          rw [hmvalue]
          exact (Option.some.inj hv).symm
      | @object members blank hmembers hvalues hblank =>
          obtain ⟨c, hchild, hfiltered, hempty⟩ := @parseStreamOptions_text settings _ _
            hmembers hvalues hblank fuel hfuel (o + m.lead.length) r
          refine ⟨_, parseMemberValue_object hstream.2 hchild, ?_,
            found_object _ hmvalue hfiltered hempty⟩
          split_ifs <;> rfl
    · have hplain : ¬ (JsonFilterScope.root = .root ∧ capturedKey m.key = name "stream_options" ∧
          settings.allowIncludeObfuscation = false) := by
        rintro ⟨-, hkey, hallow⟩
        exact hstream ⟨(capturedKey_streamOptions h.key).mp hkey, hallow⟩
      refine ⟨_, @parseMemberValue_plain _ _ settings (m.map Content.text) .root _ hplain hreads
        _ hr _, rfl, ?_⟩
      rw [shouldRemove_captured h.key]
      unfold keptContent
      rw [if_neg hstream]
      apply found_plain
      · show shouldRemoveJSONMember .root m.decodedKey settings = _
        cases shouldRemoveJSONMember .root m.decodedKey settings with
        | true => rfl
        | false => rfl
      · intro v hv
        split_ifs at hv
        · cases hv
        · exact (Option.some.inj hv).symm

end contents

/-! ### The scanning of the body -/

/-- The members of a body with the texts of their values. -/
def texts (ms : List (Member Content)) : List (Member Bytes) := ms.map (Member.map Content.text)

theorem keptMembers_texts {settings : ChannelOtherSettings} (ms : List (Member Content)) :
    keptMembers (fun m => (keptContent settings m).map Content.text) ms =
      texts (keptMembers (keptContent settings) ms) := by
  unfold keptMembers texts
  rw [List.map_filterMap]
  congr 1
  funext m
  show Option.map _ (Option.map Content.text (keptContent settings m)) = _
  cases keptContent settings m <;> rfl

theorem trailing_texts {settings : ChannelOtherSettings} (ms : List (Member Content))
    (blank : Bytes) :
    trailing (fun m => (keptContent settings m).map Content.text) ms blank =
      trailing (keptContent settings) ms blank := by
  unfold trailing
  cases ms.getLast? with
  | none => rfl
  | some m =>
      dsimp only
      rw [Option.isNone_map]

section scan

variable {settings : ChannelOtherSettings} {ms : List (Member Content)}
  {lead blank trail : Bytes}

/-- A body that is one JSON object. -/
def bodyText (lead : Bytes) (ms : List (Member Content)) (blank trail : Bytes) : Bytes :=
  lead ++ (objectText (texts ms) blank ++ trail)

theorem scan_text (hspaced : ∀ m ∈ ms, m.Spaced) (hvalid : ∀ m ∈ ms, m.value.Valid)
    (hlead : Blank lead) (hblank : Blank blank) (htrail : Blank trail) :
    ∃ ranges, scanPassThroughJSON settings (bodyText lead ms blank trail) =
        .ok (ranges, (bodyText lead ms blank trail).length) ∧
      Within 0 (bodyText lead ms blank trail).length ranges ∧
      remaining ranges 0 (bodyText lead ms blank trail) =
        bodyText lead (keptMembers (keptContent settings) ms)
          (trailing (keptContent settings) ms blank) trail := by
  have hlength : (bodyText lead ms blank trail).length =
      lead.length + ((objectText (texts ms) blank).length + trail.length) := by
    unfold bodyText
    rw [List.length_append, List.length_append]
  have hhandled : ∀ m ∈ ms, Handled (parseMember (parseValue
      ((bodyText lead ms blank trail).length + 1)) (parseStreamOptions
      ((bodyText lead ms blank trail).length + 1) settings) .root settings)
      ((keptContent settings m).map Content.text) (m.map Content.text) := by
    intro m hm
    have hlt : m.value.text.length < (objectText (texts ms) blank).length :=
      length_value_lt (List.mem_map_of_mem hm : m.map Content.text ∈ texts ms) blank
    refine handled_content (hspaced m hm) (hvalid m hm) ?_
    omega
  obtain ⟨c, hrun, hfiltered, -⟩ := parseObject_text hhandled hblank lead.length trail
  rw [keptMembers_texts, trailing_texts] at hfiltered
  have hbrace : ¬ IsJSONWhitespace openBrace := by decide
  have hsolid : Solid (objectText (texts ms) blank ++ trail) := solid_cons hbrace _
  have hskip : skipWhitespace ⟨bodyText lead ms blank trail, 0⟩ =
      ⟨objectText (texts ms) blank ++ trail, lead.length⟩ := by
    have h := skipWhitespace_blank hlead hsolid 0
    rwa [Nat.zero_add] at h
  have heof : requireEOF ⟨trail, lead.length + (objectText (texts ms) blank).length⟩ =
      .ok ⟨[], (bodyText lead ms blank trail).length⟩ := by
    have hnil : Solid [] := by
      intro b hb
      cases hb
    have h := skipWhitespace_blank htrail hnil (lead.length + (objectText (texts ms) blank).length)
    rw [List.append_nil] at h
    unfold requireEOF
    rw [h, hlength, ← Nat.add_assoc]
  have hwithin : Within lead.length (lead.length + (objectText (texts ms) blank).length)
      c.ranges := hfiltered.within.mono (by omega) (le_refl _)
  refine ⟨c.ranges, ?_, ?_, ?_⟩
  · unfold scanPassThroughJSON
    have hpeek : peekByte ⟨objectText (texts ms) blank ++ trail, lead.length⟩ = .ok openBrace :=
      rfl
    have hroot : parseRoot ((bodyText lead ms blank trail).length + 1) settings
        ⟨objectText (texts ms) blank ++ trail, lead.length⟩ =
        .ok (c, ⟨trail, lead.length + (objectText (texts ms) blank).length⟩) := hrun
    dsimp only
    rw [hskip, hpeek, ok_then, if_neg (by simp), hroot, ok_then]
    dsimp only
    rw [heof]
    rfl
  · rw [hlength]
    exact hwithin.mono (by omega) (by omega)
  · have hbefore : remaining c.ranges 0 lead = lead := by
      apply remaining_of_not_covered
      intro i _ hi
      exact hwithin.not_covered (Or.inl (by omega))
    have hbehind : remaining c.ranges (0 + lead.length + (objectText (texts ms) blank).length)
        trail = trail := by
      apply remaining_of_not_covered
      intro i hi _
      exact hwithin.not_covered (Or.inr (by omega))
    have hobject : remaining c.ranges (0 + lead.length) (objectText (texts ms) blank) =
        objectText (texts (keptMembers (keptContent settings) ms))
          (trailing (keptContent settings) ms blank) := by
      rw [Nat.zero_add]
      exact hfiltered.left
    unfold bodyText
    rw [remaining_append, remaining_append, hbefore, hobject, hbehind]

end scan

/-! ### Merged ranges -/

theorem foldlM_mergeRange {size : ℕ} (l : List JsonByteRange) {merged : List JsonByteRange}
    (hl : Within 0 size l) (hmerged : Within 0 size merged)
    (hsorted : l.Pairwise fun r r' => r.start ≤ r'.start)
    (hnext : ∀ last ∈ merged.head?, ∀ r ∈ l, last.start ≤ r.start)
    (hsep : merged.Pairwise fun r r' => r'.stop < r.start) :
    ∃ result, l.foldlM (mergeRange size) merged = .ok result ∧ Within 0 size result ∧
      (result.Pairwise fun r r' => r'.stop < r.start) ∧
      ∀ i, Covered result i ↔ Covered merged i ∨ Covered l i := by
  induction l generalizing merged with
  | nil =>
      refine ⟨merged, rfl, hmerged, hsep, ?_⟩
      intro i
      rw [or_iff_left (not_covered_nil i)]
  | cons r l ih =>
      obtain ⟨-, hr, hsize⟩ := hl r List.mem_cons_self
      obtain ⟨hfirst, hsorted⟩ := List.pairwise_cons.mp hsorted
      have hvalid : ¬ (r.stop ≤ r.start ∨ size < r.stop) := by omega
      have hl' : Within 0 size l := fun x hx => hl x (List.mem_cons_of_mem _ hx)
      have hone : Within 0 size [r] := within_singleton (Nat.zero_le _) hr hsize
      rw [List.foldlM_cons]
      cases merged with
      | nil =>
          have hstep : mergeRange size [] r = .ok [r] := if_neg hvalid
          obtain ⟨result, hrun, hwithin, hpairwise, hcovered⟩ := ih hl' hone hsorted
            (by
              intro last hlast x hx
              rw [← Option.some.inj hlast]
              exact hfirst x hx)
            (List.pairwise_singleton _ _)
          refine ⟨result, ?_, hwithin, hpairwise, ?_⟩
          · rw [hstep]
            exact hrun
          · intro i
            rw [hcovered, or_iff_right (not_covered_nil i), @covered_cons l, covered_singleton]
      | cons last before =>
          obtain ⟨-, hlast, hlastsize⟩ := hmerged last List.mem_cons_self
          have hbefore : Within 0 size before :=
            fun x hx => hmerged x (List.mem_cons_of_mem _ hx)
          have hstart := hnext last rfl r List.mem_cons_self
          have hl'' : ∀ x ∈ l, last.start ≤ x.start := by
            intro x hx
            have hle := hfirst x hx
            omega
          obtain ⟨hlastsep, hbeforesep⟩ := List.pairwise_cons.mp hsep
          by_cases htouch : r.start ≤ last.stop
          · by_cases hbeyond : last.stop < r.stop
            · -- The last range grows to the end of this one.
              have hstep : mergeRange size (last :: before) r =
                  .ok (⟨last.start, r.stop⟩ :: before) := by
                unfold mergeRange
                rw [if_neg hvalid]
                dsimp only
                rw [if_pos htouch, if_pos hbeyond]
              have hgrown : Within 0 size (⟨last.start, r.stop⟩ :: before) := by
                intro x hx
                rcases List.mem_cons.mp hx with rfl | hx
                · exact ⟨Nat.zero_le _, by show last.start < r.stop; omega, hsize⟩
                · exact hbefore x hx
              obtain ⟨result, hrun, hwithin, hpairwise, hcovered⟩ := ih hl' hgrown hsorted
                (by
                  intro x hx
                  rw [← Option.some.inj hx]
                  exact hl'')
                (List.pairwise_cons.mpr ⟨hlastsep, hbeforesep⟩)
              refine ⟨result, ?_, hwithin, hpairwise, ?_⟩
              · rw [hstep]
                exact hrun
              · intro i
                rw [hcovered, covered_cons, covered_cons, @covered_cons l]
                have hunion : (last.start ≤ i ∧ i < r.stop) ↔
                    (last.start ≤ i ∧ i < last.stop) ∨ (r.start ≤ i ∧ i < r.stop) := by omega
                rw [hunion, or_assoc, or_assoc, or_assoc,
                  or_left_comm (a := r.start ≤ i ∧ i < r.stop)]
            · have hstep : mergeRange size (last :: before) r = .ok (last :: before) := by
                unfold mergeRange
                rw [if_neg hvalid]
                dsimp only
                rw [if_pos htouch, if_neg hbeyond]
              obtain ⟨result, hrun, hwithin, hpairwise, hcovered⟩ := ih hl' hmerged hsorted
                (by
                  intro x hx
                  rw [← Option.some.inj hx]
                  exact hl'')
                hsep
              refine ⟨result, ?_, hwithin, hpairwise, ?_⟩
              · rw [hstep]
                exact hrun
              · intro i
                rw [hcovered, covered_cons, @covered_cons l]
                have hinside : (r.start ≤ i ∧ i < r.stop) → last.start ≤ i ∧ i < last.stop := by
                  omega
                constructor
                · rintro (h | h)
                  · exact Or.inl h
                  · exact Or.inr (Or.inr h)
                · rintro (h | h | h)
                  · exact Or.inl h
                  · exact Or.inl (Or.inl (hinside h))
                  · exact Or.inr h
          · have hstep : mergeRange size (last :: before) r = .ok (r :: last :: before) := by
              unfold mergeRange
              rw [if_neg hvalid]
              dsimp only
              rw [if_neg htouch]
            obtain ⟨result, hrun, hwithin, hpairwise, hcovered⟩ :=
              ih hl' (hone.append hmerged) hsorted
                (by
                  intro x hx
                  rw [← Option.some.inj hx]
                  exact hfirst)
                (by
                  refine List.pairwise_cons.mpr ⟨?_, hsep⟩
                  intro x hx
                  rcases List.mem_cons.mp hx with rfl | hx
                  · omega
                  · have hlt := hlastsep x hx
                    omega)
            refine ⟨result, ?_, hwithin, hpairwise, ?_⟩
            · rw [hstep]
              exact hrun
            · intro i
              rw [hcovered, covered_append, covered_singleton, @covered_cons l]
              constructor
              · rintro ((h | h) | h)
                · exact Or.inr (Or.inl h)
                · exact Or.inl h
                · exact Or.inr (Or.inr h)
              · rintro (h | h | h)
                · exact Or.inl (Or.inr h)
                · exact Or.inl (Or.inl h)
                · exact Or.inr h

/-- The merged ranges are separated and cover the same bytes. -/
theorem normalizeJSONRanges_ok {size : ℕ} {ranges : List JsonByteRange}
    (h : Within 0 size ranges) :
    ∃ merged, normalizeJSONRanges ranges size = .ok (merged, size - total merged) ∧
      Separated merged ∧ Within 0 size merged ∧ ∀ i, Covered merged i ↔ Covered ranges i := by
  have hperm : (ranges.mergeSort fun r r' => r.start ≤ r'.start).Perm ranges :=
    List.mergeSort_perm ranges _
  have hsorted : (ranges.mergeSort fun r r' => r.start ≤ r'.start).Pairwise
      fun r r' => r.start ≤ r'.start := by
    have hpairwise := @List.pairwise_mergeSort JsonByteRange (fun r r' => r.start ≤ r'.start)
      (by
        intro a b c hab hbc
        simp only [decide_eq_true_eq] at hab hbc ⊢
        omega)
      (by
        intro a b
        simp only [Bool.or_eq_true, decide_eq_true_eq]
        omega)
      ranges
    simpa using hpairwise
  have hwithin : Within 0 size (ranges.mergeSort fun r r' => r.start ≤ r'.start) :=
    fun r hr => h r (hperm.mem_iff.mp hr)
  obtain ⟨result, hrun, hresult, hpairwise, hcovered⟩ :=
    foldlM_mergeRange _ hwithin (within_nil _ _) hsorted (by simp) .nil
  refine ⟨result.reverse, ?_, ?_, ?_, ?_⟩
  · unfold normalizeJSONRanges
    rw [hrun]
    rfl
  · exact List.pairwise_reverse.mpr hpairwise
  · exact fun r hr => hresult r (List.mem_reverse.mp hr)
  · intro i
    have hreverse : Covered result.reverse i ↔ Covered result i := by
      unfold Covered
      simp only [List.mem_reverse]
    rw [hreverse, hcovered, or_iff_right (not_covered_nil i)]
    unfold Covered
    simp only [hperm.mem_iff]

end MaxApi.PassThrough
