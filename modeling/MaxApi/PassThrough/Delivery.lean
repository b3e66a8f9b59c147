import MaxApi.PassThrough.Filter

/-! # Pass-through bodies: what a reader delivers

What a reader has still to deliver shrinks by what each read delivers, so that all reads together
deliver the filtered body. -/

namespace MaxApi.PassThrough

open Cuts

/-! ### Reads -/

/-- What a reader has still to deliver. -/
def RangeFilteringReader.pending (r : RangeFilteringReader) : Bytes :=
  remaining r.ranges r.position r.source

/-- The ranges of a reader are separated and lie in what the source has left. -/
structure RangeFilteringReader.Sound (r : RangeFilteringReader) : Prop where
  separated : Separated r.ranges
  within : Within r.position (r.position + r.source.length) r.ranges

/-- A reader that has skipped the ranges at its position. -/
theorem skipRanges_ok (ranges : List JsonByteRange) {position : ℕ} {source : Bytes}
    (hsep : Separated ranges) (hwithin : Within position (position + source.length) ranges) :
    ∃ r, skipRanges ranges position source = .ok r ∧ r.Sound ∧
      r.pending = remaining ranges position source ∧
      ∀ next ∈ r.ranges.head?, r.position < next.start := by
  induction ranges generalizing position source with
  | nil => exact ⟨⟨source, [], position⟩, rfl, ⟨hsep, hwithin⟩, rfl, by simp⟩
  | cons range ranges ih =>
      obtain ⟨hstart, hne, hstop⟩ := hwithin range List.mem_cons_self
      have hahead : ¬ range.stop ≤ position := by omega
      by_cases hat : range.start ≤ position
      · have hsource : ¬ source.length < range.stop - position := by omega
        obtain ⟨r, hr, hsound, hpending, hnext⟩ :=
          ih (List.pairwise_cons.mp hsep).2 (hwithin.tail hsep)
        refine ⟨r, ?_, hsound, ?_, hnext⟩
        · unfold skipRanges
          rw [if_neg hahead, if_pos hat, if_neg hsource, hr]
        · have hzero : range.start - position = 0 := by omega
          rw [hpending, remaining_separated hsep hwithin, hzero]
          rfl
      · refine ⟨⟨source, range :: ranges, position⟩, ?_, ⟨hsep, hwithin⟩, rfl, ?_⟩
        · unfold skipRanges
          rw [if_neg hahead, if_neg hat]
        · intro next hnext
          rw [← Option.some.inj hnext]
          exact Nat.lt_of_not_le hat

/-- What is taken in front of the first range is left. -/
theorem pending_take {r : RangeFilteringReader} (h : r.Sound) {k : ℕ}
    (hk : ∀ next ∈ r.ranges.head?, r.position + k ≤ next.start) :
    r.pending = r.source.take k ++
      (⟨r.source.drop k, r.ranges, r.position + (r.source.take k).length⟩ :
        RangeFilteringReader).pending ∧
    (⟨r.source.drop k, r.ranges, r.position + (r.source.take k).length⟩ :
      RangeFilteringReader).Sound := by
  have htake : (r.source.take k).length ≤ k := by
    rw [List.length_take]
    omega
  have hbefore : ∀ range ∈ r.ranges, r.position + (r.source.take k).length ≤ range.start := by
    intro range hrange
    cases hranges : r.ranges with
    | nil =>
        rw [hranges] at hrange
        cases hrange
    | cons next ranges =>
        have hnext := hk next (by rw [hranges]; rfl)
        have hsep := h.separated
        rw [hranges] at hrange hsep
        rcases List.mem_cons.mp hrange with rfl | hrange
        · omega
        · have hlt := (List.pairwise_cons.mp hsep).1 range hrange
          have hwithin := h.within next (by rw [hranges]; exact List.mem_cons_self)
          omega
  constructor
  · unfold RangeFilteringReader.pending
    conv_lhs => rw [← List.take_append_drop k r.source]
    rw [remaining_append]
    congr 1
    apply remaining_of_not_covered
    rintro i - hi ⟨range, hrange, hstart, -⟩
    have hle := hbefore range hrange
    omega
  · refine ⟨h.separated, ?_⟩
    intro range hrange
    obtain ⟨-, hne, hstop⟩ := h.within range hrange
    refine ⟨hbefore range hrange, hne, ?_⟩
    show range.stop ≤ r.position + (r.source.take k).length + (r.source.drop k).length
    rw [List.length_take, List.length_drop]
    omega

/-- A reader asks for bytes in front of its first range. -/
theorem limit_ok {r : RangeFilteringReader} {len : ℕ} (hlen : ¬ len = 0)
    (hnext : ∀ next ∈ r.ranges.head?, r.position < next.start) :
    1 ≤ r.limit len ∧ ∀ next ∈ r.ranges.head?, r.position + r.limit len ≤ next.start := by
  unfold RangeFilteringReader.limit
  cases hranges : r.ranges with
  | nil =>
      refine ⟨Nat.one_le_iff_ne_zero.mpr hlen, ?_⟩
      intro next hhead
      cases hhead
  | cons first ranges =>
      have hlt := hnext first (by rw [hranges]; rfl)
      dsimp only
      refine ⟨by omega, ?_⟩
      intro next hhead
      obtain rfl : first = next := Option.some.inj hhead
      omega

/-- **One read**: what it delivers is the head of what is pending. -/
theorem read_ok {r : RangeFilteringReader} (h : r.Sound) (len n : ℕ) (early : Bool) :
    ∃ d r', r.read len n early = .ok (d, r') ∧ r'.Sound ∧ r.pending = d.chunk ++ r'.pending ∧
      (d.eof = true → r'.pending = []) ∧
      (1 ≤ len → 1 ≤ n → d.eof = true ∨ d.chunk ≠ []) := by
  by_cases hlen : len = 0
  · refine ⟨⟨[], false⟩, r, ?_, h, rfl, by simp, by omega⟩
    unfold RangeFilteringReader.read
    rw [if_pos hlen]
    rfl
  · obtain ⟨r₁, hr₁, hsound, hpending, hnext⟩ := skipRanges_ok r.ranges h.separated h.within
    obtain ⟨hpos, hbound⟩ := limit_ok hlen hnext
    obtain ⟨htaken, hsound'⟩ := pending_take hsound (k := min n (r₁.limit len)) (by
      intro next hhead
      have hle := hbound next hhead
      omega)
    refine ⟨⟨r₁.source.take (min n (r₁.limit len)),
        decide (r₁.source.drop (min n (r₁.limit len)) = [] ∧ (r₁.source = [] ∨ early = true))⟩,
      ⟨r₁.source.drop (min n (r₁.limit len)), r₁.ranges,
        r₁.position + (r₁.source.take (min n (r₁.limit len))).length⟩, ?_, hsound', ?_, ?_, ?_⟩
    · unfold RangeFilteringReader.read
      rw [if_neg hlen, hr₁, ok_then]
      rfl
    · rw [← htaken, hpending]
      rfl
    · intro heof
      unfold RangeFilteringReader.pending
      dsimp only at heof ⊢
      rw [(of_decide_eq_true heof).1]
      rfl
    · intro _ hn
      by_cases hempty : r₁.source = []
      · left
        apply decide_eq_true
        exact ⟨by rw [hempty, List.drop_nil], Or.inl hempty⟩
      · right
        dsimp only
        intro hnil
        rw [List.take_eq_nil_iff] at hnil
        rcases hnil with hzero | hnil
        · omega
        · exact hempty hnil

/-- What a reader delivers in a list of reads, up to the first that reports the end, and whether
one does.  A read has the length of its buffer and what the storage does. -/
def deliver (r : RangeFilteringReader) :
    List (ℕ × ℕ × Bool) → Except ScanError (Bytes × Bool)
  | [] => return ([], false)
  | (len, n, early) :: reads => do
      let (d, r) ← r.read len n early
      if d.eof then return (d.chunk, true)
      else
        let (rest, eof) ← deliver r reads
        return (d.chunk ++ rest, eof)

/-- All reads together deliver what was pending, if there are enough of them. -/
theorem deliver_ok (reads : List (ℕ × ℕ × Bool)) {r : RangeFilteringReader} (h : r.Sound) :
    ∃ delivered eof, deliver r reads = .ok (delivered, eof) ∧ delivered <+: r.pending ∧
      (eof = true → delivered = r.pending) ∧
      ((∀ read ∈ reads, 1 ≤ read.1 ∧ 1 ≤ read.2.1) → r.pending.length < reads.length →
        eof = true) := by
  induction reads generalizing r with
  | nil =>
      refine ⟨[], false, rfl, List.nil_prefix, by simp, ?_⟩
      intro _ hlt
      exact absurd hlt (Nat.not_lt_zero _)
  | cons read reads ih =>
      obtain ⟨len, n, early⟩ := read
      obtain ⟨d, r', hread, hsound, hpending, heof, hprogress⟩ := read_ok h len n early
      cases hd : d.eof with
      | true =>
          have hall : r.pending = d.chunk := by
            rw [hpending, heof hd, List.append_nil]
          refine ⟨d.chunk, true, ?_, ?_, fun _ => hall.symm, fun _ _ => rfl⟩
          · unfold deliver
            rw [hread, ok_then]
            dsimp only
            rw [if_pos hd]
            rfl
          · exact ⟨[], by rw [List.append_nil, hall]⟩
      | false =>
          obtain ⟨rest, eof, hrest, hprefix, hdone, hend⟩ := ih hsound
          refine ⟨d.chunk ++ rest, eof, ?_, ?_, ?_, ?_⟩
          · unfold deliver
            rw [hread, ok_then]
            dsimp only
            rw [if_neg (by simp [hd]), hrest]
            rfl
          · rw [hpending]
            exact List.prefix_append_right_inj d.chunk |>.mpr hprefix
          · intro he
            rw [hdone he, hpending]
          · intro hreads hlength
            obtain ⟨hlen, hn⟩ := hreads _ List.mem_cons_self
            rcases hprogress hlen hn with he | hchunk
            · rw [hd] at he
              cases he
            · apply hend (fun x hx => hreads x (List.mem_cons_of_mem _ hx))
              have hpos := List.length_pos_of_ne_nil hchunk
              rw [hpending, List.length_append, List.length_cons] at hlength
              omega

/-! ### The body that is passed on -/

section body

variable {settings : ChannelOtherSettings} {ms : List (Member Content)}

theorem keptContent_allowAll (h : settings.AllowAll) (m : Member Content) :
    keptContent settings m = some m.value := by
  obtain ⟨htier, hgeo, hspeed, hstore, hsafety, hobfuscation⟩ := h
  have hremove : shouldRemoveJSONMember .root m.decodedKey settings = false := by
    unfold shouldRemoveJSONMember
    dsimp only
    rw [htier, hgeo, hspeed, hstore, hsafety]
    split_ifs <;> rfl
  unfold keptContent
  rw [hremove, if_neg Bool.false_ne_true, if_neg]
  rintro ⟨-, hfalse⟩
  rw [hobfuscation] at hfalse
  cases hfalse

theorem keptMembers_all {α : Type} {edit : Member α → Option α} {members : List (Member α)}
    (h : ∀ m ∈ members, edit m = some m.value) : keptMembers edit members = members := by
  induction members with
  | nil => rfl
  | cons m members ih =>
      rw [keptMembers_kept (h m List.mem_cons_self),
        ih fun x hx => h x (List.mem_cons_of_mem _ hx)]
      rfl

theorem trailing_all {α : Type} {edit : Member α → Option α} {members : List (Member α)}
    (h : ∀ m ∈ members, edit m = some m.value) (blank : Bytes) :
    trailing edit members blank = blank := by
  unfold trailing
  cases hlast : members.getLast? with
  | none => rfl
  | some m =>
      dsimp only
      rw [h m (List.mem_of_getLast? hlast)]
      rfl

theorem blank_trailing {α β : Type} {edit : Member α → Option β} {members : List (Member α)}
    (hspaced : ∀ m ∈ members, m.Spaced) {blank : Bytes} (hblank : Blank blank) :
    Blank (trailing edit members blank) := by
  unfold trailing
  cases hlast : members.getLast? with
  | none => exact hblank
  | some m =>
      dsimp only
      split_ifs
      · exact (hspaced m (List.mem_of_getLast? hlast)).after.append hblank
      · exact hblank

/-- A kept member is a member with its new value. -/
theorem mem_keptMembers {α β : Type} {edit : Member α → Option β} {members : List (Member α)}
    {k : Member β} (h : k ∈ keptMembers edit members) :
    ∃ m ∈ members, edit m = some k.value ∧ (m.Spaced → k.Spaced) := by
  obtain ⟨m, hm, hk⟩ := List.mem_filterMap.mp h
  obtain ⟨v, hv, rfl⟩ := Option.map_eq_some_iff.mp hk
  exact ⟨m, hm, hv, fun hs => ⟨hs.before, hs.key, hs.afterKey, hs.beforeValue, hs.after⟩⟩

theorem keptContent_valid {m : Member Content} {c : Content} (hm : m.value.Valid)
    (hc : keptContent settings m = some c) : c.Valid := by
  unfold keptContent at hc
  split_ifs at hc
  · generalize m.value = content at hm hc
    cases hm with
    | other hvalid hother =>
        rw [← Option.some.inj hc]
        exact .other hvalid hother
    | object hspaced hvalues hblank =>
        unfold keptStreamOptions at hc
        dsimp only at hc
        split_ifs at hc
        rw [← Option.some.inj hc]
        refine .object ?_ ?_ (blank_trailing hspaced hblank)
        · intro k hk
          obtain ⟨m, hm, -, hs⟩ := mem_keptMembers hk
          exact hs (hspaced m hm)
        · intro k hk
          obtain ⟨m, hm, hv, -⟩ := mem_keptMembers hk
          unfold keptOption at hv
          split_ifs at hv
          rw [← Option.some.inj hv]
          exact hvalues m hm
  · rw [← Option.some.inj hc]
    exact hm

/-- **The filter removes exactly what the channel does not let through.**  A body that is one JSON
object is passed on as it is if no member is lost or changed.  Otherwise its filtered body has the
size of the object of the kept members, with their bytes, and each reader delivers that object,
whatever its buffers are and however the storage splits its reads. -/
theorem filtered_body (settings : ChannelOtherSettings) {lead blank trail : Bytes}
    (hspaced : ∀ m ∈ ms, m.Spaced) (hvalid : ∀ m ∈ ms, m.value.Valid) (hlead : Blank lead)
    (hblank : Blank blank) (htrail : Blank trail) :
    let kept := keptMembers (keptContent settings) ms
    let out := bodyText lead kept (trailing (keptContent settings) ms blank) trail
    ((newPassThroughFilteredBody (bodyText lead ms blank trail) settings = .ok none ∧
        out = bodyText lead ms blank trail) ∨
      ∃ body, newPassThroughFilteredBody (bodyText lead ms blank trail) settings = .ok (some body) ∧
        body.size = out.length ∧
        ∀ reads, ∃ delivered eof, deliver body.newReader reads = .ok (delivered, eof) ∧
          delivered <+: out ∧ (eof = true → delivered = out) ∧
          ((∀ read ∈ reads, 1 ≤ read.1 ∧ 1 ≤ read.2.1) → out.length < reads.length →
            eof = true)) ∧
    (∀ m ∈ kept, m.Spaced ∧ m.value.Valid) ∧ Blank (trailing (keptContent settings) ms blank) := by
  dsimp only
  refine ⟨?_, ?_, blank_trailing hspaced hblank⟩
  · by_cases hall : settings.AllowAll
    · left
      have hkept : ∀ m ∈ ms, keptContent settings m = some m.value :=
        fun m _ => keptContent_allowAll hall m
      refine ⟨if_pos hall, ?_⟩
      rw [keptMembers_all hkept, trailing_all hkept]
    · obtain ⟨ranges, hscan, hwithin, hleft⟩ := @scan_text settings ms lead blank trail
        hspaced hvalid hlead hblank htrail
      by_cases hnone : ranges = []
      · left
        constructor
        · unfold newPassThroughFilteredBody
          rw [if_neg hall, hscan, ok_then]
          dsimp only
          rw [if_neg (by simp), if_pos hnone]
          rfl
        · rw [← hleft, hnone, remaining_no_ranges]
      · right
        obtain ⟨merged, hnormal, hsep, hmerged, hcovered⟩ := normalizeJSONRanges_ok hwithin
        have hsame : remaining merged 0 (bodyText lead ms blank trail) =
            bodyText lead (keptMembers (keptContent settings) ms)
              (trailing (keptContent settings) ms blank) trail := by
          rw [← hleft]
          exact remaining_congr fun i _ _ => hcovered i
        have hsize := length_remaining hsep (l := bodyText lead ms blank trail) (o := 0)
          (by rw [Nat.zero_add]; exact hmerged)
        refine ⟨⟨bodyText lead ms blank trail, merged,
          (bodyText lead ms blank trail).length - total merged⟩, ?_, ?_, ?_⟩
        · unfold newPassThroughFilteredBody
          rw [if_neg hall, hscan, ok_then]
          dsimp only
          rw [if_neg (by simp), if_neg hnone, hnormal]
          rfl
        · rw [hsame] at hsize
          show (bodyText lead ms blank trail).length - total merged = _
          omega
        · intro reads
          have hsound : (⟨bodyText lead ms blank trail, merged, 0⟩ :
              RangeFilteringReader).Sound :=
            ⟨hsep, by rw [Nat.zero_add]; exact hmerged⟩
          have hpending : (⟨bodyText lead ms blank trail, merged, 0⟩ :
              RangeFilteringReader).pending = _ := hsame
          have hdeliver := deliver_ok reads hsound
          rw [hpending] at hdeliver
          exact hdeliver
  · intro k hk
    obtain ⟨m, hm, hv, hs⟩ := mem_keptMembers hk
    exact ⟨hs (hspaced m hm), keptContent_valid (hvalid m hm) hv⟩

end body

/-! ### A body with a member that is removed -/

/-- A channel that lets all members but `store` through. -/
def noStore : ChannelOtherSettings := ⟨true, true, true, true, true, true⟩

/-- A member with plain spelling. -/
def plainMember (key : Bytes) (value : Content) : Member Content :=
  ⟨[], quote :: (key ++ [quote]), [], [byte ' '], value, []⟩

/-- Bytes that stand for themselves in a string. -/
def Plain (key : Bytes) : Prop := ∀ b ∈ key, ¬ b < 32 ∧ b ≠ quote ∧ b ≠ backslash

instance (key : Bytes) : Decidable (Plain key) := List.decidableBAll _ key

def modelMember : Member Content := plainMember (name "model") (.other (name "null"))

def storeMember : Member Content := plainMember (name "store") (.other (name "true"))

theorem parts_plain_key {key : Bytes} (h : Plain key) :
    parts (key ++ [quote]) = some (key.map Part.byte) := by
  induction key with
  | nil => exact if_pos rfl
  | cons b key ih =>
      obtain ⟨hcontrol, hquote, hbackslash⟩ := h b List.mem_cons_self
      rw [List.cons_append, parts_plain hcontrol hquote hbackslash,
        ih fun c hc => h c (List.mem_cons_of_mem _ hc)]
      rfl

theorem joinParts_bytes (key : Bytes) : joinParts (key.map Part.byte) = key := by
  induction key with
  | nil => rfl
  | cons b key ih => exact congrArg (b :: ·) ih

theorem decodedKey_plain {key : Bytes} (h : Plain key) (value : Content) :
    (plainMember key value).decodedKey = key := by
  have hdecode : unmarshalString (quote :: (key ++ [quote])) = some key := by
    show (if quote = quote then (parts (key ++ [quote])).map joinParts else none) = _
    rw [if_pos rfl, parts_plain_key h]
    exact congrArg some (joinParts_bytes key)
  show (unmarshalString (quote :: (key ++ [quote]))).getD [] = key
  rw [hdecode]
  rfl

theorem plainMember_spaced {key : Bytes} (h : Plain key) (value : Content) :
    (plainMember key value).Spaced where
  before := blank_nil
  key := by
    refine ⟨key.map fun b => [b], ?_, ?_⟩
    · intro p hp
      obtain ⟨b, hb, rfl⟩ := List.mem_map.mp hp
      obtain ⟨hcontrol, hquote, hbackslash⟩ := h b hb
      exact .plain hcontrol hquote hbackslash
    · have hflatten : (key.map fun b => [b]).flatten = key := by
        rw [← List.flatMap_def, List.flatMap_singleton']
      rw [hflatten]
      rfl
  afterKey := blank_nil
  beforeValue := by
    intro b hb
    rw [List.mem_singleton.mp hb]
    exact Or.inl rfl
  after := blank_nil

/-- The member `store` and the comma in front of it are cut out. -/
theorem filtered_body_store :
    ∃ body, newPassThroughFilteredBody (bodyText [] [modelMember, storeMember] [] []) noStore =
        .ok (some body) ∧
      ∀ reads, ∃ delivered eof, deliver body.newReader reads = .ok (delivered, eof) ∧
        (eof = true → delivered = bodyText [] [modelMember] [] []) := by
  have hspaced : ∀ m ∈ [modelMember, storeMember], m.Spaced := by
    intro m hm
    rcases List.mem_cons.mp hm with rfl | hm
    · exact plainMember_spaced (by decide) _
    · rw [List.mem_singleton.mp hm]
      exact plainMember_spaced (by decide) _
  have hvalid : ∀ m ∈ [modelMember, storeMember], m.value.Valid := by
    intro m hm
    rcases List.mem_cons.mp hm with rfl | hm
    · exact .other .null (by decide)
    · rw [List.mem_singleton.mp hm]
      exact .other .true (by decide)
  obtain ⟨hbody, -, -⟩ :=
    filtered_body noStore hspaced hvalid blank_nil blank_nil blank_nil
  have hmodel : keptContent noStore modelMember = some modelMember.value := by
    unfold keptContent
    rw [show modelMember.decodedKey = _ from decodedKey_plain (by decide) _, if_neg (by decide),
      if_neg (by decide)]
  have hstore : keptContent noStore storeMember = none := by
    unfold keptContent
    rw [show storeMember.decodedKey = _ from decodedKey_plain (by decide) _, if_pos (by decide)]
  have hkept : keptMembers (keptContent noStore) [modelMember, storeMember] = [modelMember] := by
    rw [keptMembers_kept hmodel, keptMembers_removed hstore]
    rfl
  have htrailing : trailing (keptContent noStore) [modelMember, storeMember] [] = [] := by
    unfold trailing
    rw [List.getLast?_cons_cons, List.getLast?_singleton]
    dsimp only
    rw [hstore]
    rfl
  rw [hkept, htrailing] at hbody
  rcases hbody with ⟨-, hsame⟩ | ⟨body, hbody, -, hdeliver⟩
  · exact absurd (congrArg List.length hsame) (by decide)
  · refine ⟨body, hbody, fun reads => ?_⟩
    obtain ⟨delivered, eof, hrun, -, hdone, -⟩ := hdeliver reads
    exact ⟨delivered, eof, hrun, hdone⟩

end MaxApi.PassThrough
