import MaxApi.PassThrough.Texts

/-! # Pass-through bodies: the loop over the members of an object

The loop is followed from the opening brace: what its ranges leave of the text so far are the kept
members, and the comma behind the last of them is pending (`Scanned`).  At the closing brace the
ranges leave an object of the kept members (`parseObject_text`). -/

namespace MaxApi.PassThrough

open Cuts

/-! ### Texts of members -/

/-- A member from its key to its value. -/
def Member.lead {α : Type} (m : Member α) : Bytes :=
  m.key ++ m.afterKey ++ [byte ':'] ++ m.beforeValue

/-- The members behind the first. -/
def followers (members : List (Member Bytes)) : Bytes :=
  members.flatMap fun m => byte ',' :: m.text

section texts

theorem text_eq (m : Member Bytes) :
    m.text = m.before ++ (m.lead ++ (m.value ++ m.after)) := by
  simp only [Member.text, Member.lead, List.append_assoc]

theorem join_cons (m : Member Bytes) (members : List (Member Bytes)) :
    join ((m :: members).map Member.text) = m.text ++ followers members := by
  rw [List.map_cons, join, followers, List.flatMap_map]

theorem join_append {ts : List Bytes} (h : ts ≠ []) (t : Bytes) :
    join (ts ++ [t]) = join ts ++ byte ',' :: t := by
  cases ts with
  | nil => exact absurd rfl h
  | cons u ts =>
      rw [List.cons_append, join, join, List.flatMap_append, List.append_assoc]
      simp

theorem isString_head {t : Bytes} (h : IsString t) : ∃ r, t = quote :: r := by
  obtain ⟨pieces, -, rfl⟩ := h
  exact ⟨_, rfl⟩

theorem lead_head {m : Member Bytes} (h : m.Spaced) (r : Bytes) :
    ∃ r', m.lead ++ r = quote :: r' := by
  obtain ⟨k, hk⟩ := isString_head h.key
  refine ⟨k ++ m.afterKey ++ [byte ':'] ++ m.beforeValue ++ r, ?_⟩
  rw [Member.lead, hk]
  simp

theorem endsValue_blank {t : Bytes} (ht : Blank t) {b : UInt8} (hb : EndsNumber b) (r : Bytes) :
    EndsValue (t ++ b :: r) := by
  intro b' hb'
  cases t with
  | nil => rwa [← Option.some.inj hb']
  | cons c t =>
      rw [← Option.some.inj hb']
      exact Or.inl (ht c List.mem_cons_self)

end texts

/-! ### One member -/

section loop

variable {member : Scanner → Except ScanError MemberScan} {k : Option Bytes}

/-- What the scanning of a member finds, if the value `k` is left of it. -/
structure Found (k : Option Bytes) (m : Member Bytes) (o : ℕ) (s : MemberScan) : Prop where
  removeMember : s.removeMember = k.isNone
  within : Within (o + m.lead.length) (o + m.lead.length + m.value.length) s.childRanges
  left : ∀ v ∈ k, remaining s.childRanges (o + m.lead.length) m.value = v
  unchanged : s.childChanged = false → s.childRanges = []

/-- The scanning of a member goes well, in front of whatever may stand behind a value. -/
structure Handled (member : Scanner → Except ScanError MemberScan) (k : Option Bytes)
    (m : Member Bytes) : Prop where
  spaced : m.Spaced
  scan : ∀ o r, EndsValue r → ∃ s, member ⟨m.lead ++ (m.value ++ r), o⟩ = .ok s ∧
    s.after = ⟨r, o + m.lead.length + m.value.length⟩ ∧ Found k m o s

/-- The position behind the value of a member. -/
def Member.valueEnd (m : Member Bytes) (o : ℕ) : ℕ :=
  o + m.before.length + m.lead.length + m.value.length

theorem length_text (m : Member Bytes) (o : ℕ) :
    m.valueEnd o + m.after.length = o + m.text.length := by
  rw [text_eq]
  simp only [Member.valueEnd, List.length_append]
  omega

/-- One round of the loop: the member starts with a quote, and `d` stands behind it. -/
theorem parseMembers_round {start : Scanner} {s : MemberScan} {r r' : Bytes} {d : UInt8} {e o : ℕ}
    (hquote : skipWhitespace start = ⟨quote :: r', o⟩)
    (hs : member (skipWhitespace start) = .ok s)
    (hbehind : skipWhitespace s.after = ⟨d :: r, e⟩) (fuel : ℕ) (acc : Progress) :
    parseMembers member (fuel + 1) start acc =
      if d = byte ',' then
        parseMembers member fuel ⟨r, e + 1⟩ (acc.add s start.offset s.after.offset e true)
      else if d = closeBrace then
        .ok ((acc.add s start.offset s.after.offset e false).toObjectScan, ⟨r, e + 1⟩)
      else .error (.unexpected e) := by
  have hne : ¬ quote = closeBrace := by decide
  rw [hquote] at hs
  conv_lhs => unfold parseMembers
  simp only [hquote, hs, hbehind, peekByte, readByte, bind, Except.bind, if_neg hne]
  rfl

/-- The loop reads a member and the blank behind it. -/
theorem handled_start {m : Member Bytes} (h : Handled member k m) (o : ℕ) {blank : Bytes}
    (hblank : Blank blank) {d : UInt8} (hd : EndsNumber d) (hsolid : ¬ IsJSONWhitespace d)
    (r : Bytes) :
    ∃ s r', Found k m (o + m.before.length) s ∧ s.after.offset = m.valueEnd o ∧
      skipWhitespace ⟨m.text ++ (blank ++ d :: r), o⟩ = ⟨quote :: r', o + m.before.length⟩ ∧
      member (skipWhitespace ⟨m.text ++ (blank ++ d :: r), o⟩) = .ok s ∧
      skipWhitespace s.after = ⟨d :: r, o + m.text.length + blank.length⟩ := by
  obtain ⟨r', hlead⟩ := lead_head h.spaced (m.value ++ (m.after ++ (blank ++ d :: r)))
  have hskip : skipWhitespace ⟨m.text ++ (blank ++ d :: r), o⟩ =
      ⟨m.lead ++ (m.value ++ (m.after ++ (blank ++ d :: r))), o + m.before.length⟩ := by
    rw [text_eq, List.append_assoc, List.append_assoc, List.append_assoc]
    apply skipWhitespace_blank h.spaced.before
    rw [hlead]
    exact solid_cons (by decide) r'
  have hends : EndsValue (m.after ++ (blank ++ d :: r)) := by
    rw [← List.append_assoc]
    exact endsValue_blank (h.spaced.after.append hblank) hd r
  obtain ⟨s, hs, hafter, hfound⟩ := h.scan (o + m.before.length) _ hends
  refine ⟨s, r', hfound, by rw [hafter]; rfl, by rw [hskip, hlead], by rw [hskip, hs], ?_⟩
  rw [hafter, ← List.append_assoc,
    skipWhitespace_blank (h.spaced.after.append hblank) (solid_cons hsolid r),
    List.length_append, ← length_text m o]
  exact congrArg (Scanner.mk _) (by unfold Member.valueEnd; omega)

/-- One round of the loop, with a comma behind the member. -/
theorem parseMembers_comma {m : Member Bytes} (h : Handled member k m) (fuel o : ℕ) (r : Bytes)
    (acc : Progress) :
    ∃ s, Found k m (o + m.before.length) s ∧
      parseMembers member (fuel + 1) ⟨m.text ++ byte ',' :: r, o⟩ acc =
        parseMembers member fuel ⟨r, o + m.text.length + 1⟩
          (acc.add s o (m.valueEnd o) (o + m.text.length) true) := by
  have hd : EndsNumber (byte ',') := by decide
  have hsolid : ¬ IsJSONWhitespace (byte ',') := by decide
  obtain ⟨s, r', hfound, hend, hquote, hs, hbehind⟩ := handled_start h o blank_nil hd hsolid r
  refine ⟨s, hfound, ?_⟩
  rw [List.nil_append] at hquote hs
  rw [parseMembers_round hquote hs hbehind, if_pos rfl, hend]
  rfl

/-- The last round of the loop. -/
theorem parseMembers_last {m : Member Bytes} (h : Handled member k m) (fuel o : ℕ)
    {blank : Bytes} (hblank : Blank blank) (r : Bytes) (acc : Progress) :
    ∃ s, Found k m (o + m.before.length) s ∧
      parseMembers member (fuel + 1) ⟨m.text ++ (blank ++ closeBrace :: r), o⟩ acc =
        .ok ((acc.add s o (m.valueEnd o) (o + m.text.length + blank.length) false).toObjectScan,
          ⟨r, o + m.text.length + blank.length + 1⟩) := by
  have hd : EndsNumber closeBrace := by decide
  have hsolid : ¬ IsJSONWhitespace closeBrace := by decide
  have hcomma : ¬ closeBrace = byte ',' := by decide
  obtain ⟨s, r', hfound, hend, hquote, hs, hbehind⟩ := handled_start h o hblank hd hsolid r
  refine ⟨s, hfound, ?_⟩
  rw [parseMembers_round hquote hs hbehind, if_neg hcomma, if_pos rfl, hend]

/-! ### The text so far -/

/-- Texts with a comma behind each. -/
def opening (kept : List Bytes) : Bytes := if kept = [] then [] else join kept ++ [byte ',']

theorem join_opening (kept : List Bytes) (t : Bytes) : join (kept ++ [t]) = opening kept ++ t := by
  unfold opening
  by_cases h : kept = []
  · rw [if_pos h, h]
    simp [join]
  · rw [if_neg h, join_append h, List.append_assoc]
    rfl

/-- The loop stands behind the text `P` of an object that starts at `start`, and has kept members
with the texts `kept`. -/
structure Scanned (start : ℕ) (P : Bytes) (kept : List Bytes) (acc : Progress) : Prop where
  opened : P ≠ []
  within : Within (start + 1) (start + P.length) acc.ranges
  count : acc.keptMembers = kept.length
  unchanged : acc.changed = false → acc.ranges = []
  empty : kept = [] → acc.changed = true ∨ P = [openBrace]
  left : (acc.lastKeptComma = none ∧ kept = [] ∧ remaining acc.ranges start P = [openBrace]) ∨
    ∃ P₁ P₂, acc.lastKeptComma = some (start + P₁.length) ∧ P = P₁ ++ byte ',' :: P₂ ∧ kept ≠ [] ∧
      P₁ ≠ [] ∧ remaining acc.ranges start P₁ = openBrace :: join kept ∧
      ¬ Covered acc.ranges (start + P₁.length) ∧
      remaining acc.ranges (start + P₁.length + 1) P₂ = []

section scanned

variable {start : ℕ} {P : Bytes} {kept : List Bytes} {acc : Progress} {m : Member Bytes}
  {s : MemberScan}

theorem scanned_open (start : ℕ) : Scanned start [openBrace] [] ⟨⟨[], 0, false⟩, none⟩ where
  opened := by simp
  within := within_nil _ _
  count := rfl
  unchanged := fun _ => rfl
  empty := fun _ => Or.inr rfl
  left := Or.inl ⟨rfl, rfl, remaining_no_ranges _ _⟩

/-- What is left of the text so far. -/
theorem Scanned.opening (h : Scanned start P kept acc) :
    remaining acc.ranges start P = openBrace :: opening kept := by
  unfold PassThrough.opening
  rcases h.left with ⟨-, hkept, hleft⟩ | ⟨P₁, P₂, -, hP, hkept, -, hleft, hcomma, hempty⟩
  · rw [if_pos hkept, hleft]
  · rw [if_neg hkept, hP, remaining_append, hleft, remaining_uncovered hcomma, hempty]
    rfl

theorem length_pos (h : Scanned start P kept acc) : 1 ≤ P.length :=
  List.length_pos_of_ne_nil h.opened

theorem lead_length_pos (h : m.Spaced) : 1 ≤ m.lead.length := by
  obtain ⟨k, hk⟩ := isString_head h.key
  unfold Member.lead
  rw [hk]
  simp

/-- The ranges with those of a member that is kept. -/
theorem ranges_add_kept {k : Option Bytes} {o' o ve de : ℕ} (hs : Found k m o' s)
    (hkeep : s.removeMember = false) (comma : Bool) :
    (acc.add s o ve de comma).ranges = acc.ranges ++ s.childRanges := by
  unfold Progress.add
  rw [if_neg (by simp [hkeep])]
  cases hchanged : s.childChanged with
  | true => rfl
  | false =>
      rw [hs.unchanged hchanged]
      simp

theorem ranges_add_removed {o ve de : ℕ} (hremove : s.removeMember = true) (comma : Bool) :
    (acc.add s o ve de comma).ranges =
      acc.ranges ++ [if comma then ⟨o, de + 1⟩ else ⟨acc.lastKeptComma.getD o, ve⟩] := by
  unfold Progress.add
  rw [if_pos hremove]

/-- What is left of a member that is kept. -/
theorem remaining_text {k : Option Bytes} {rs : List Range} {o high : ℕ}
    (hs : Found k m (o + m.before.length) s) {v : Bytes} (hv : v ∈ k)
    (hrs : Within high o rs) :
    remaining (rs ++ s.childRanges) o m.text = (m.map fun _ => v).text := by
  have hwithin := hs.within
  have hbefore : remaining (rs ++ s.childRanges) o m.before = m.before := by
    rw [remaining_append_behind hrs (le_refl o)]
    apply remaining_of_not_covered
    intro i _ hi
    exact hwithin.not_covered (Or.inl (by omega))
  have hlead : remaining (rs ++ s.childRanges) (o + m.before.length) m.lead = m.lead := by
    rw [remaining_append_behind hrs (by omega)]
    apply remaining_of_not_covered
    intro i _ hi
    exact hwithin.not_covered (Or.inl (by omega))
  have hvalue : remaining (rs ++ s.childRanges) (o + m.before.length + m.lead.length) m.value =
      v := by
    rw [remaining_append_behind hrs (by omega)]
    exact hs.left v hv
  have hafter : remaining (rs ++ s.childRanges)
      (o + m.before.length + m.lead.length + m.value.length) m.after = m.after := by
    rw [remaining_append_behind hrs (by omega)]
    apply remaining_of_not_covered
    intro i hi _
    exact hwithin.not_covered (Or.inr hi)
  rw [text_eq, remaining_append, remaining_append, remaining_append, hbefore, hlead, hvalue,
    hafter, text_eq]
  rfl

/-- The ranges of a member lie in the part of the text behind `P`. -/
theorem Found.within_text {k : Option Bytes} {o : ℕ}
    (hs : Found k m (o + m.before.length) s) : Within o (o + m.text.length) s.childRanges := by
  have hlength := length_text m o
  unfold Member.valueEnd at hlength
  exact hs.within.mono (by omega) (by omega)

/-- What is left of the text with a member that is kept. -/
theorem remaining_kept {k : Option Bytes} (h : Scanned start P kept acc)
    (hs : Found k m (start + P.length + m.before.length) s) {v : Bytes} (hv : v ∈ k) :
    remaining (acc.ranges ++ s.childRanges) start (P ++ m.text) =
      openBrace :: join (kept ++ [(m.map fun _ => v).text]) := by
  rw [remaining_append, remaining_append_before hs.within_text (le_refl _), h.opening,
    remaining_text hs hv h.within, join_opening]
  rfl

/-- A member that is removed, with a comma behind it. -/
theorem Scanned.removes (h : Scanned start P kept acc) (hremove : s.removeMember = true) (ve : ℕ) :
    Scanned start (P ++ (m.text ++ [byte ','])) kept
      (acc.add s (start + P.length) ve (start + P.length + m.text.length) true) := by
  have hP := length_pos h
  have hlength : (P ++ (m.text ++ [byte ','])).length = P.length + m.text.length + 1 := by
    simp only [List.length_append, List.length_singleton]
    omega
  have hranges : (acc.add s (start + P.length) ve (start + P.length + m.text.length) true).ranges =
      acc.ranges ++ [⟨start + P.length, start + P.length + m.text.length + 1⟩] := by
    rw [ranges_add_removed hremove, if_pos rfl]
  have hrange : Within (start + P.length) (start + P.length + m.text.length + 1)
      [⟨start + P.length, start + P.length + m.text.length + 1⟩] := by
    apply within_singleton
    · exact le_refl _
    · show start + P.length < start + P.length + m.text.length + 1
      omega
    · exact le_refl _
  have hcovered : remaining (acc.ranges ++
      [⟨start + P.length, start + P.length + m.text.length + 1⟩]) (start + P.length)
      (m.text ++ [byte ',']) = [] := by
    apply remaining_of_covered
    intro i hlow hhigh
    rw [List.length_append, List.length_singleton] at hhigh
    exact covered_append.mpr (Or.inr (covered_singleton.mpr ⟨hlow, by show i < _; omega⟩))
  refine ⟨by simp [h.opened], ?_, ?_, ?_, ?_, ?_⟩
  · rw [hranges, hlength]
    exact (h.within.mono (le_refl _) (by omega)).append (hrange.mono (by omega) (by omega))
  · unfold Progress.add
    rw [if_pos hremove]
    exact h.count
  · unfold Progress.add
    rw [if_pos hremove]
    intro hfalse
    cases hfalse
  · intro _
    left
    unfold Progress.add
    rw [if_pos hremove]
  · rw [hranges]
    have hlast : (acc.add s (start + P.length) ve (start + P.length + m.text.length)
        true).lastKeptComma = acc.lastKeptComma := by
      unfold Progress.add
      rw [if_pos hremove]
    rw [hlast]
    rcases h.left with ⟨hnone, hkept, hleft⟩ |
      ⟨P₁, P₂, hsome, hsplit, hkept, hne, hleft, hcomma, hempty⟩
    · left
      refine ⟨hnone, hkept, ?_⟩
      rw [remaining_append, remaining_append_before hrange (le_refl _), hleft, hcovered]
      rfl
    · right
      have hposition : start + P₁.length + 1 + P₂.length = start + P.length := by
        rw [hsplit, List.length_append, List.length_cons]
        omega
      refine ⟨P₁, P₂ ++ (m.text ++ [byte ',']), hsome, ?_, hkept, hne, ?_, ?_, ?_⟩
      · rw [hsplit, List.append_assoc]
        rfl
      · rw [remaining_append_before hrange (by omega), hleft]
      · rw [covered_append, not_or]
        exact ⟨hcomma, hrange.not_covered (Or.inl (by omega))⟩
      · rw [remaining_append, remaining_append_nil hempty, hposition, hcovered]
        rfl

/-- A member that is kept, with a comma behind it. -/
theorem Scanned.keeps {k : Option Bytes} (h : Scanned start P kept acc)
    (hs : Found k m (start + P.length + m.before.length) s) {v : Bytes} (hv : v ∈ k)
    (hkeep : s.removeMember = false) (ve : ℕ) :
    Scanned start (P ++ (m.text ++ [byte ','])) (kept ++ [(m.map fun _ => v).text])
      (acc.add s (start + P.length) ve (start + P.length + m.text.length) true) := by
  have hP := length_pos h
  have hlength : (P ++ (m.text ++ [byte ','])).length = P.length + m.text.length + 1 := by
    simp only [List.length_append, List.length_singleton]
    omega
  have hranges := @ranges_add_kept acc m s k (start + P.length + m.before.length)
    (start + P.length) ve (start + P.length + m.text.length) hs hkeep true
  have hwithin : Within (start + 1) (start + P.length + m.text.length)
      (acc.ranges ++ s.childRanges) :=
    (h.within.mono (le_refl _) (by omega)).append (hs.within_text.mono (by omega) (le_refl _))
  have hnot : ¬ s.removeMember = true := by simp [hkeep]
  refine ⟨by simp [h.opened], ?_, ?_, ?_, by simp, ?_⟩
  · rw [hranges, hlength]
    exact hwithin.mono (le_refl _) (by omega)
  · unfold Progress.add
    rw [if_neg hnot, List.length_append, List.length_singleton, ← h.count]
  · intro hfalse
    rw [hranges]
    unfold Progress.add at hfalse
    rw [if_neg hnot] at hfalse
    obtain ⟨hacc, hchild⟩ := Bool.or_eq_false_iff.mp hfalse
    rw [h.unchanged hacc, hs.unchanged hchild]
    rfl
  · right
    refine ⟨P ++ m.text, [], ?_, by simp, by simp, by simp [h.opened], ?_, ?_, ?_⟩
    · unfold Progress.add
      rw [if_neg hnot, if_pos rfl, List.length_append, Nat.add_assoc]
    · rw [hranges, remaining_kept h hs hv]
    · rw [hranges, List.length_append]
      exact hwithin.not_covered (Or.inr (by omega))
    · rfl

/-! ### The closing brace -/

/-- What the scanning of an object has found: its ranges leave `out` of its text, with `kept`
members. -/
structure Filtered (start : ℕ) (text out : Bytes) (kept : ℕ) (o : ObjectScan) : Prop where
  within : Within (start + 1) (start + text.length) o.ranges
  count : o.keptMembers = kept
  unchanged : o.changed = false → o.ranges = []
  left : remaining o.ranges start text = out

/-- What stands behind the value of a last member. -/
theorem remaining_blank {rs : List Range} {high o : ℕ} (hrs : Within (start + 1) high rs)
    (ho : high ≤ o) (t : Bytes) : remaining rs o t = t := by
  apply remaining_of_not_covered
  intro i hi _
  exact hrs.not_covered (Or.inr (by omega))

/-- A last member that is removed. -/
theorem Scanned.closes_removed (h : Scanned start P kept acc) (hspaced : m.Spaced)
    (hremove : s.removeMember = true) (blank : Bytes) (delimiter : ℕ) :
    Filtered start (P ++ (m.text ++ (blank ++ [closeBrace])))
      (openBrace :: (join kept ++ (m.after ++ blank) ++ [closeBrace])) kept.length
      (acc.add s (start + P.length) (m.valueEnd (start + P.length)) delimiter
        false).toObjectScan := by
  have hP := length_pos h
  have hlead := lead_length_pos hspaced
  have hend : start + P.length < m.valueEnd (start + P.length) := by
    unfold Member.valueEnd
    omega
  have hranges : (acc.add s (start + P.length) (m.valueEnd (start + P.length)) delimiter
      false).ranges =
      acc.ranges ++ [⟨acc.lastKeptComma.getD (start + P.length),
        m.valueEnd (start + P.length)⟩] := by
    rw [ranges_add_removed hremove, if_neg Bool.false_ne_true]
  have hcomma : start + 1 ≤ acc.lastKeptComma.getD (start + P.length) ∧
      acc.lastKeptComma.getD (start + P.length) ≤ start + P.length := by
    rcases h.left with ⟨hnone, -⟩ | ⟨P₁, P₂, hsome, hsplit, -, hne, -⟩
    · rw [hnone]
      exact ⟨by show start + 1 ≤ start + P.length; omega, le_refl _⟩
    · have hP₁ : 1 ≤ P₁.length := List.length_pos_of_ne_nil hne
      have hlen : P.length = P₁.length + (P₂.length + 1) := by
        rw [hsplit, List.length_append, List.length_cons]
      rw [hsome]
      show start + 1 ≤ start + P₁.length ∧ start + P₁.length ≤ start + P.length
      omega
  have hrange : Within (start + 1) (m.valueEnd (start + P.length))
      [⟨acc.lastKeptComma.getD (start + P.length), m.valueEnd (start + P.length)⟩] := by
    apply within_singleton
    · exact hcomma.1
    · show acc.lastKeptComma.getD (start + P.length) < m.valueEnd (start + P.length)
      omega
    · exact le_refl _
  have hwithin : Within (start + 1) (m.valueEnd (start + P.length)) (acc.ranges ++
      [⟨acc.lastKeptComma.getD (start + P.length), m.valueEnd (start + P.length)⟩]) :=
    (h.within.mono (le_refl _) (by omega)).append hrange
  have hlength := length_text m (start + P.length)
  -- The text is cut at the end of the value, up to which all is covered from the comma on.
  have hvalue : remaining (acc.ranges ++
      [⟨acc.lastKeptComma.getD (start + P.length), m.valueEnd (start + P.length)⟩])
      (start + P.length) (m.before ++ m.lead ++ m.value) = [] := by
    apply remaining_of_covered
    intro i hlow hhigh
    rw [List.length_append, List.length_append] at hhigh
    refine covered_append.mpr (Or.inr (covered_singleton.mpr ⟨?_, ?_⟩))
    · show acc.lastKeptComma.getD (start + P.length) ≤ i
      omega
    · show i < m.valueEnd (start + P.length)
      unfold Member.valueEnd
      omega
  have hopened : remaining (acc.ranges ++
      [⟨acc.lastKeptComma.getD (start + P.length), m.valueEnd (start + P.length)⟩]) start P =
      openBrace :: join kept := by
    rcases h.left with ⟨hnone, hkept, hleft⟩ |
      ⟨P₁, P₂, hsome, hsplit, hkept, hne, hleft, hpending, hempty⟩
    · rw [hnone]
      have hbehind : Within (start + P.length) (m.valueEnd (start + P.length))
          [⟨(none : Option ℕ).getD (start + P.length), m.valueEnd (start + P.length)⟩] :=
        within_singleton (le_refl _) hend (le_refl _)
      rw [remaining_append_before hbehind (le_refl _), hleft, hkept]
      rfl
    · rw [hsome]
      have hbehind : Within (start + P₁.length) (m.valueEnd (start + P.length))
          [⟨(some (start + P₁.length)).getD (start + P.length),
            m.valueEnd (start + P.length)⟩] := by
        apply within_singleton (le_refl _) _ (le_refl _)
        show start + P₁.length < m.valueEnd (start + P.length)
        rw [hsome] at hcomma
        have hle : start + P₁.length ≤ start + P.length := hcomma.2
        omega
      rw [hsplit, remaining_append, ← hsplit, remaining_append_before hbehind (le_refl _), hleft,
        remaining_covered, remaining_append_nil hempty, List.append_nil]
      refine covered_append.mpr (Or.inr (covered_singleton.mpr ⟨le_refl _, ?_⟩))
      have hle : start + P₁.length ≤ start + P.length := by
        rw [hsome] at hcomma
        exact hcomma.2
      show start + P₁.length < m.valueEnd (start + P.length)
      omega
  have hsplit : m.text ++ (blank ++ [closeBrace]) =
      (m.before ++ m.lead ++ m.value) ++ (m.after ++ blank ++ [closeBrace]) := by
    rw [text_eq]
    simp only [List.append_assoc]
  refine ⟨?_, ?_, ?_, ?_⟩
  · rw [hranges]
    apply hwithin.mono (le_refl _)
    rw [List.length_append, List.length_append]
    omega
  · unfold Progress.add
    rw [if_pos hremove]
    exact h.count
  · unfold Progress.add
    rw [if_pos hremove]
    intro hfalse
    cases hfalse
  · have hbehind := @remaining_blank start _ _
      (start + P.length + (m.before ++ m.lead ++ m.value).length) hwithin
      (by rw [List.length_append, List.length_append]; unfold Member.valueEnd; omega)
      (m.after ++ blank ++ [closeBrace])
    rw [hranges, hsplit, remaining_append, remaining_append, hopened, hvalue, hbehind]
    simp

/-- A last member that is kept. -/
theorem Scanned.closes_kept {k : Option Bytes} (h : Scanned start P kept acc)
    (hs : Found k m (start + P.length + m.before.length) s) {v : Bytes} (hv : v ∈ k)
    (hkeep : s.removeMember = false) (blank : Bytes) (ve delimiter : ℕ) :
    Filtered start (P ++ (m.text ++ (blank ++ [closeBrace])))
      (openBrace :: (join (kept ++ [(m.map fun _ => v).text]) ++ blank ++ [closeBrace]))
      (kept ++ [(m.map fun _ => v).text]).length
      (acc.add s (start + P.length) ve delimiter false).toObjectScan := by
  have hP := length_pos h
  have hranges := @ranges_add_kept acc m s k (start + P.length + m.before.length)
    (start + P.length) ve delimiter hs hkeep false
  have hwithin : Within (start + 1) (start + P.length + m.text.length)
      (acc.ranges ++ s.childRanges) :=
    (h.within.mono (le_refl _) (by omega)).append (hs.within_text.mono (by omega) (le_refl _))
  have hnot : ¬ s.removeMember = true := by simp [hkeep]
  refine ⟨?_, ?_, ?_, ?_⟩
  · rw [hranges]
    apply hwithin.mono (le_refl _)
    rw [List.length_append, List.length_append]
    omega
  · unfold Progress.add
    rw [if_neg hnot, List.length_append, List.length_singleton, ← h.count]
  · intro hfalse
    rw [hranges]
    unfold Progress.add at hfalse
    rw [if_neg hnot] at hfalse
    obtain ⟨hacc, hchild⟩ := Bool.or_eq_false_iff.mp hfalse
    rw [h.unchanged hacc, hs.unchanged hchild]
    rfl
  · have hbehind := @remaining_blank start _ _ (start + (P ++ m.text).length) hwithin
      (by rw [List.length_append]; omega) (blank ++ [closeBrace])
    rw [hranges, ← List.append_assoc P, remaining_append, remaining_kept h hs hv, hbehind]
    simp

end scanned

/-! ### The whole loop -/

theorem trailing_cons {α β : Type} (e : Member α → Option β) (m m' : Member α)
    (members : List (Member α)) (blank : Bytes) :
    trailing e (m :: m' :: members) blank = trailing e (m' :: members) blank := by
  unfold trailing
  rw [List.getLast?_cons_cons]

theorem keptMembers_removed {α β : Type} {e : Member α → Option β} {m : Member α} (h : e m = none)
    (members : List (Member α)) : keptMembers e (m :: members) = keptMembers e members := by
  unfold keptMembers
  rw [List.filterMap_cons, h]
  rfl

theorem keptMembers_kept {α β : Type} {e : Member α → Option β} {m : Member α} {v : β}
    (h : e m = some v) (members : List (Member α)) :
    keptMembers e (m :: members) = (m.map fun _ => v) :: keptMembers e members := by
  unfold keptMembers
  rw [List.filterMap_cons, h]
  rfl

section run

variable {α : Type} {f : α → Bytes} {edit : Member α → Option Bytes}

/-- The loop from a member to the closing brace. -/
theorem parseMembers_text {start : ℕ} {blank : Bytes} (hblank : Blank blank) (r : Bytes)
    (members : List (Member α)) {m : Member α}
    (hm : ∀ x ∈ m :: members, Handled member (edit x) (x.map f)) {P : Bytes} {kept : List Bytes}
    {acc : Progress} (h : Scanned start P kept acc) {fuel : ℕ} (hfuel : members.length < fuel) :
    ∃ o, parseMembers member fuel
        ⟨(m.map f).text ++ (followers (members.map (Member.map f)) ++ (blank ++ closeBrace :: r)),
          start + P.length⟩ acc =
        .ok (o, ⟨r, start + (P ++ ((m.map f).text ++ (followers (members.map (Member.map f)) ++
          (blank ++ [closeBrace])))).length⟩) ∧
      Filtered start
        (P ++ ((m.map f).text ++
          (followers (members.map (Member.map f)) ++ (blank ++ [closeBrace]))))
        (openBrace :: (join (kept ++ (keptMembers edit (m :: members)).map Member.text) ++
          trailing edit (m :: members) blank ++ [closeBrace]))
        (kept ++ (keptMembers edit (m :: members)).map Member.text).length o ∧
      (kept ++ (keptMembers edit (m :: members)).map Member.text = [] → o.changed = true) := by
  induction members generalizing m P kept acc fuel with
  | nil =>
      obtain ⟨fuel, rfl⟩ := Nat.exists_eq_succ_of_ne_zero (by omega : fuel ≠ 0)
      have hhandled := hm m List.mem_cons_self
      obtain ⟨s, hs, hrun⟩ := parseMembers_last hhandled fuel (start + P.length) hblank r acc
      refine ⟨(acc.add s (start + P.length) ((m.map f).valueEnd (start + P.length))
        (start + P.length + (m.map f).text.length + blank.length) false).toObjectScan, ?_, ?_, ?_⟩
      · show parseMembers member (fuel + 1)
            ⟨(m.map f).text ++ (blank ++ closeBrace :: r), _⟩ acc = _
        rw [hrun]
        simp only [followers, List.map_nil, List.flatMap_nil, List.nil_append, List.length_append,
          List.length_singleton, Nat.add_assoc]
      · cases hedit : edit m with
        | none =>
            have hremove : s.removeMember = true := by rw [hs.removeMember, hedit]; rfl
            have hclose := h.closes_removed hhandled.spaced hremove blank
              (start + P.length + (m.map f).text.length + blank.length)
            have htrailing : trailing edit [m] blank = m.after ++ blank := by
              show (if (edit m).isNone then _ else _) = _
              rw [hedit]
              rfl
            rw [keptMembers_removed hedit, htrailing]
            simpa [keptMembers, followers, Member.map] using hclose
        | some v =>
            have hkeep : s.removeMember = false := by rw [hs.removeMember, hedit]; rfl
            have hclose :=
              h.closes_kept hs hedit hkeep blank ((m.map f).valueEnd (start + P.length))
              (start + P.length + (m.map f).text.length + blank.length)
            have htrailing : trailing edit [m] blank = blank := by
              show (if (edit m).isNone then _ else _) = _
              rw [hedit]
              rfl
            rw [keptMembers_kept hedit, htrailing]
            simpa [keptMembers, followers, Member.map] using hclose
      · intro hnil
        cases hedit : edit m with
        | none =>
            have hremove : s.removeMember = true := by rw [hs.removeMember, hedit]; rfl
            unfold Progress.add
            rw [if_pos hremove]
        | some v =>
            rw [keptMembers_kept hedit] at hnil
            simp at hnil
  | cons m' members ih =>
      obtain ⟨fuel, rfl⟩ := Nat.exists_eq_succ_of_ne_zero (by omega : fuel ≠ 0)
      have hhandled := hm m List.mem_cons_self
      have hrest : ∀ x ∈ m' :: members, Handled member (edit x) (x.map f) :=
        fun x hx => hm x (List.mem_cons_of_mem _ hx)
      have hfuel' : members.length < fuel := by
        rw [List.length_cons] at hfuel
        omega
      have hfollowers : followers ((m' :: members).map (Member.map f)) =
          byte ',' :: ((m'.map f).text ++ followers (members.map (Member.map f))) := rfl
      have hinput : (m.map f).text ++ (followers ((m' :: members).map (Member.map f)) ++
          (blank ++ closeBrace :: r)) =
          (m.map f).text ++ byte ',' ::
            ((m'.map f).text ++ (followers (members.map (Member.map f)) ++
              (blank ++ closeBrace :: r))) := by
        rw [hfollowers, List.cons_append, List.append_assoc]
      have htext :
          P ++ ((m.map f).text ++ (followers ((m' :: members).map (Member.map f)) ++
            (blank ++ [closeBrace]))) =
          P ++ ((m.map f).text ++ [byte ',']) ++
            ((m'.map f).text ++ (followers (members.map (Member.map f)) ++
              (blank ++ [closeBrace]))) := by
        rw [hfollowers]
        simp only [List.append_assoc, List.cons_append, List.nil_append]
      have hoffset : start + P.length + (m.map f).text.length + 1 =
          start + (P ++ ((m.map f).text ++ [byte ','])).length := by
        simp only [List.length_append, List.length_singleton]
        omega
      obtain ⟨s, hs, hrun⟩ := parseMembers_comma hhandled fuel (start + P.length)
        ((m'.map f).text ++
          (followers (members.map (Member.map f)) ++ (blank ++ closeBrace :: r))) acc
      rw [hinput, hrun, htext, hoffset, trailing_cons]
      cases hedit : edit m with
      | none =>
          have hremove : s.removeMember = true := by rw [hs.removeMember, hedit]; rfl
          rw [keptMembers_removed hedit]
          exact ih hrest (h.removes hremove _) hfuel'
      | some v =>
          have hkeep : s.removeMember = false := by rw [hs.removeMember, hedit]; rfl
          rw [keptMembers_kept hedit]
          have hnext :=
            ih hrest (h.keeps hs hedit hkeep ((m.map f).valueEnd (start + P.length))) hfuel'
          rw [List.append_assoc kept] at hnext
          exact hnext

theorem length_le_followers (members : List (Member Bytes)) :
    members.length ≤ (followers members).length := by
  induction members with
  | nil => exact le_refl 0
  | cons m members ih =>
      have hfollowers : followers (m :: members) = byte ',' :: (m.text ++ followers members) := rfl
      rw [hfollowers, List.length_cons, List.length_cons, List.length_append]
      omega

/-- **The scanning of an object.**  Its ranges leave the object of the members that are kept. -/
theorem parseObject_text {members : List (Member α)}
    (hm : ∀ x ∈ members, Handled member (edit x) (x.map f)) {blank : Bytes} (hblank : Blank blank)
    (start : ℕ) (r : Bytes) :
    ∃ o, parseObject member ⟨objectText (members.map (Member.map f)) blank ++ r, start⟩ =
        .ok (o, ⟨r, start + (objectText (members.map (Member.map f)) blank).length⟩) ∧
      Filtered start (objectText (members.map (Member.map f)) blank)
        (objectText (keptMembers edit members) (trailing edit members blank))
        (keptMembers edit members).length o ∧
      (o.changed = true ∧ o.keptMembers = 0 ↔
        keptMembers edit members = [] ∧ members ≠ []) := by
  cases members with
  | nil =>
      refine ⟨⟨[], 0, false⟩, ?_, ?_, ?_⟩
      · have hinput : objectText (([] : List (Member α)).map (Member.map f)) blank ++ r =
            openBrace :: (blank ++ closeBrace :: r) := by
          simp [objectText, join]
        have hlength : start + (objectText (([] : List (Member α)).map (Member.map f))
            blank).length = start + 1 + blank.length + 1 := by
          simp [objectText, join]
          omega
        unfold parseObject
        rw [hinput, expectByte_cons, hlength]
        show parseMembers member _ ⟨blank ++ closeBrace :: r, start + 1⟩ _ = _
        unfold parseMembers
        dsimp only
        rw [skipWhitespace_blank hblank (solid_cons (by decide) r)]
        rfl
      · exact ⟨within_nil _ _, rfl, fun _ => rfl, remaining_no_ranges _ _⟩
      · simp
  | cons m members =>
      have hinput : objectText ((m :: members).map (Member.map f)) blank ++ r =
          openBrace ::
            ((m.map f).text ++ (followers (members.map (Member.map f)) ++
              (blank ++ closeBrace :: r))) := by
        unfold objectText
        rw [List.map_cons, join_cons]
        simp
      have htext : objectText ((m :: members).map (Member.map f)) blank =
          [openBrace] ++
            ((m.map f).text ++ (followers (members.map (Member.map f)) ++
              (blank ++ [closeBrace]))) := by
        unfold objectText
        rw [List.map_cons, join_cons]
        simp
      have hfuel : members.length <
          ((m.map f).text ++ (followers (members.map (Member.map f)) ++
            (blank ++ closeBrace :: r))).length + 1 := by
        have hlen := length_le_followers (members.map (Member.map f))
        rw [List.length_map] at hlen
        simp only [List.length_append]
        omega
      obtain ⟨o, hrun, hfiltered, hempty⟩ :=
        parseMembers_text hblank r members hm (scanned_open start) hfuel
      rw [List.nil_append] at hempty
      refine ⟨o, ?_, ?_, ?_⟩
      · unfold parseObject
        rw [hinput, expectByte_cons, htext]
        exact hrun
      · rw [htext]
        rw [List.nil_append, List.length_map] at hfiltered
        exact hfiltered
      · rw [hfiltered.count, List.nil_append, List.length_map]
        constructor
        · rintro ⟨-, hzero⟩
          exact ⟨List.eq_nil_of_length_eq_zero hzero, by simp⟩
        · rintro ⟨hnil, -⟩
          rw [hnil]
          exact ⟨hempty (by rw [hnil]; rfl), rfl⟩

end run

end loop

end MaxApi.PassThrough
