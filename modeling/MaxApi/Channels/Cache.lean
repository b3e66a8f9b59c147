import MaxApi.Channels.Store
import MaxApi.Lib.Dict
import Mathlib.Data.List.ProdSigma
import Mathlib.Data.List.Sort

/-! # Channels: the lists of the cache

`InitChannelCache` makes, for each group and model, the list of the enabled channels that list
both.  The inner maps are made of the groups of the abilities and filled from the channels, so a
channel of a group that no ability has would be written into a missing map.  What the loops do is
described list by list (`fill_spec`), and when they panic is `fill_eq_none`. -/

namespace MaxApi.Channels

open Relational

/-- `group2model2channels`. -/
abbrev Lists := Dict (Dict (List ℤ))

/-- `group2model2channels[group][model]`. -/
def channelsOf (m : Lists) (group model : String) : List ℤ :=
  ((m.lookup group).bind (·.lookup model)).getD []

/-- An implementation of `sort.Slice` by descending keys; it need not be stable. -/
structure SortSlice where
  sort : (ℤ → ℤ) → List ℤ → List ℤ
  perm : ∀ key l, (sort key l).Perm l
  sorted : ∀ key l, (sort key l).Pairwise fun i j => key j ≤ key i

/-- Insertion sort is one. -/
def insertionSlice : SortSlice where
  sort key l := l.insertionSort fun i j => key j ≤ key i
  perm _ l := List.perm_insertionSort _ l
  sorted key l := by
    have : Std.Total fun i j : ℤ => key j ≤ key i := ⟨fun i j => le_total (key j) (key i)⟩
    have : IsTrans ℤ fun i j : ℤ => key j ≤ key i := ⟨fun _ _ _ hij hjk => le_trans hjk hij⟩
    exact List.pairwise_insertionSort _ l

/-! ### The loops -/

/-- The inner maps: one for each group of the abilities. -/
def innerMaps (abilities : List Ability) : Lists :=
  abilities.foldl (fun m a => m.insert a.group ∅) ∅

/-- The iterations of the loops over the enabled channels, their groups and their models. -/
def iterations (channels : List Channel) : List (String × String × ℤ) :=
  (channels.filter (·.status = ChannelStatusEnabled)).flatMap fun c =>
    (c.groupNames ×ˢ c.modelNames).map fun p => (p.1, p.2, c.id)

/-- Append to `newGroup2model2channels[group][model]`; without an inner map the write panics. -/
def appendChannel (m : Lists) (group model : String) (id : ℤ) : Option Lists :=
  match m.lookup group with
  | none => none
  | some models =>
      some (m.insert group (models.insert model ((models.lookup model).getD [] ++ [id])))

/-- The body of the loops, for each iteration. -/
def fill : List (String × String × ℤ) → Lists → Option Lists
  | [], m => some m
  | (group, model, id) :: l, m => (appendChannel m group model id).bind (fill l)

/-- `newChannelId2channel[id].GetPriority()`. -/
def priorityOf (channels : Table Channel) (id : ℤ) : ℤ :=
  match channels.first? (·.id = id) with
  | some c => c.getPriority
  | none => 0

/-- The sorted lists of the rows read; `none` is a panic. -/
def newLists (slice : SortSlice) (channels : Table Channel) (abilities : List Ability) :
    Option Lists :=
  (fill (iterations channels.rows) (innerMaps abilities)).map
    (Dict.mapValues (Dict.mapValues (slice.sort (priorityOf channels))))

/-- `delete the channel from group2model2channels`: one occurrence in each list. -/
def removeChannel (m : Lists) (id : ℤ) : Lists :=
  Dict.mapValues (Dict.mapValues fun l => l.erase id) m

/-! ### What they do -/

section lemmas

variable {m : Lists} {group model : String}

/-- A change of every list is seen list by list. -/
theorem channelsOf_mapValues {f : List ℤ → List ℤ} (hf : f [] = []) :
    channelsOf (Dict.mapValues (Dict.mapValues f) m) group model =
      f (channelsOf m group model) := by
  unfold channelsOf
  rw [Dict.lookup_mapValues]
  cases m.lookup group with
  | none => exact hf.symm
  | some models =>
      show (((models.mapValues f).lookup model).getD []) = f ((models.lookup model).getD [])
      rw [Dict.lookup_mapValues]
      cases models.lookup model with
      | none => exact hf.symm
      | some l => rfl

theorem channelsOf_removeChannel (id : ℤ) :
    channelsOf (removeChannel m id) group model = (channelsOf m group model).erase id :=
  channelsOf_mapValues rfl

theorem lookup_innerMaps (abilities : List Ability) (g : String) :
    (innerMaps abilities).lookup g =
      if ∃ a ∈ abilities, a.group = g then some ∅ else none := by
  have hall : ∀ (l : List Ability) (m : Lists),
      (l.foldl (fun m a => m.insert a.group ∅) m).lookup g =
        if ∃ a ∈ l, a.group = g then some ∅ else m.lookup g := by
    intro l
    induction l with
    | nil =>
        intro m
        rw [if_neg fun ⟨a, ha, _⟩ => List.not_mem_nil ha]
        rfl
    | cons a l ih =>
        intro m
        rw [List.foldl_cons, ih]
        by_cases hl : ∃ b ∈ l, b.group = g
        · obtain ⟨b, hb, hbg⟩ := hl
          rw [if_pos ⟨b, hb, hbg⟩, if_pos ⟨b, List.mem_cons_of_mem a hb, hbg⟩]
        · rw [if_neg hl]
          by_cases hag : a.group = g
          · rw [if_pos ⟨a, List.mem_cons_self, hag⟩, ← hag]
            exact AList.lookup_insert m
          · rw [AList.lookup_insert_ne fun h => hag h.symm, if_neg]
            rintro ⟨b, hb, hbg⟩
            rcases List.mem_cons.mp hb with rfl | hb
            · exact hag hbg
            · exact hl ⟨b, hb, hbg⟩
  exact hall abilities ∅

theorem channelsOf_innerMaps (abilities : List Ability) :
    channelsOf (innerMaps abilities) group model = [] := by
  unfold channelsOf
  rw [lookup_innerMaps]
  split
  · rfl
  · rfl

/-- What one append does to each list. -/
theorem appendChannel_spec (model : String) (id : ℤ) (h : (m.lookup group).isSome) :
    ∃ m', appendChannel m group model id = some m' ∧
      (∀ g, (m'.lookup g).isSome = (m.lookup g).isSome) ∧
      ∀ g k, channelsOf m' g k =
        channelsOf m g k ++ if group = g ∧ model = k then [id] else [] := by
  obtain ⟨models, hmodels⟩ := Option.isSome_iff_exists.mp h
  unfold appendChannel
  rw [hmodels]
  refine ⟨_, rfl, fun g => ?_, fun g k => ?_⟩
  · by_cases hg : g = group
    · rw [hg, AList.lookup_insert, hmodels]
      rfl
    · rw [AList.lookup_insert_ne hg]
  · unfold channelsOf
    by_cases hg : g = group
    · rw [hg, AList.lookup_insert, hmodels]
      show ((models.insert model _).lookup k).getD [] = (models.lookup k).getD [] ++ _
      by_cases hk : k = model
      · rw [hk, AList.lookup_insert, if_pos ⟨rfl, rfl⟩]
        rfl
      · rw [AList.lookup_insert_ne hk, if_neg fun hkey => hk hkey.2.symm, List.append_nil]
    · rw [AList.lookup_insert_ne hg, if_neg fun hkey => hg hkey.1.symm, List.append_nil]

/-- Where every group has its inner map, the loops append the identifiers in order. -/
theorem fill_spec : ∀ (l : List (String × String × ℤ)) (m : Lists),
    (∀ e ∈ l, (m.lookup e.1).isSome) →
      ∃ m', fill l m = some m' ∧ ∀ g k, channelsOf m' g k =
        channelsOf m g k ++ (l.filter fun e => e.1 = g ∧ e.2.1 = k).map (·.2.2)
  | [], m, _ => ⟨m, rfl, fun g k => (List.append_nil _).symm⟩
  | (group, model, id) :: l, m, h => by
      obtain ⟨m₁, happ, hkeys, hlists⟩ :=
        appendChannel_spec model id (h _ List.mem_cons_self)
      obtain ⟨m', hfill, hrest⟩ := fill_spec l m₁ fun e he => by
        rw [hkeys]
        exact h e (List.mem_cons_of_mem _ he)
      refine ⟨m', ?_, fun g k => ?_⟩
      · unfold fill
        rw [happ]
        exact hfill
      · rw [hrest, hlists, List.append_assoc]
        congr 1
        by_cases hgk : group = g ∧ model = k
        · rw [if_pos hgk, List.filter_cons_of_pos (by simpa using hgk)]
          rfl
        · rw [if_neg hgk, List.filter_cons_of_neg (by simpa using hgk)]
          rfl

/-- The loops panic exactly when a group has no inner map. -/
theorem fill_eq_none : ∀ (l : List (String × String × ℤ)) (m : Lists),
    fill l m = none ↔ ∃ e ∈ l, m.lookup e.1 = none
  | [], m => by
      constructor
      · intro h
        cases h
      · rintro ⟨e, he, _⟩
        exact absurd he List.not_mem_nil
  | (group, model, id) :: l, m => by
      cases hgroup : m.lookup group with
      | none =>
          have happ : appendChannel m group model id = none := by
            unfold appendChannel
            rw [hgroup]
          unfold fill
          rw [happ]
          exact iff_of_true rfl ⟨_, List.mem_cons_self, hgroup⟩
      | some models =>
          obtain ⟨m₁, happ, hkeys, _⟩ := appendChannel_spec model id
            (Option.isSome_iff_exists.mpr ⟨models, hgroup⟩)
          have hnone : ∀ g, m₁.lookup g = none ↔ m.lookup g = none := by
            intro g
            rw [← Option.not_isSome_iff_eq_none, hkeys, Option.not_isSome_iff_eq_none]
          unfold fill
          rw [happ]
          show fill l m₁ = none ↔ _
          rw [fill_eq_none l m₁]
          constructor
          · rintro ⟨e, he, hnil⟩
            exact ⟨e, List.mem_cons_of_mem _ he, (hnone e.1).mp hnil⟩
          · rintro ⟨e, he, hnil⟩
            rcases List.mem_cons.mp he with rfl | he
            · rw [hgroup] at hnil
              cases hnil
            · exact ⟨e, he, (hnone e.1).mpr hnil⟩

end lemmas

/-! ### The lists of a snapshot -/

section snapshot

variable {channels : Table Channel} {group model : String}

theorem mem_iterations {l : List Channel} {id : ℤ} :
    (group, model, id) ∈ iterations l ↔ ∃ c ∈ l, c.status = ChannelStatusEnabled ∧
      group ∈ c.groupNames ∧ model ∈ c.modelNames ∧ c.id = id := by
  unfold iterations
  constructor
  · intro h
    obtain ⟨c, hc, hpair⟩ := List.mem_flatMap.mp h
    obtain ⟨hcl, hstatus⟩ := List.mem_filter.mp hc
    obtain ⟨p, hp, heq⟩ := List.mem_map.mp hpair
    obtain ⟨hg, hm⟩ := List.mem_product.mp hp
    simp only [Prod.mk.injEq] at heq
    refine ⟨c, hcl, of_decide_eq_true hstatus, ?_, ?_, heq.2.2⟩
    · rw [← heq.1]
      exact hg
    · rw [← heq.2.1]
      exact hm
  · rintro ⟨c, hc, hstatus, hg, hm, rfl⟩
    refine List.mem_flatMap.mpr ⟨c, List.mem_filter.mpr ⟨hc, decide_eq_true hstatus⟩, ?_⟩
    exact List.mem_map.mpr ⟨(group, model), List.mem_product.mpr ⟨hg, hm⟩, rfl⟩

/-- No iteration is made twice when no enabled channel lists a group or a model twice. -/
theorem iterations_nodup (h : ∀ c ∈ channels, c.status = ChannelStatusEnabled →
    c.groupNames.Nodup ∧ c.modelNames.Nodup) : (iterations channels.rows).Nodup := by
  unfold iterations
  rw [List.nodup_flatMap]
  constructor
  · intro c hc
    obtain ⟨hrow, hstatus⟩ := List.mem_filter.mp hc
    obtain ⟨hg, hm⟩ := h c hrow (of_decide_eq_true hstatus)
    refine (hg.product hm).map fun p q hpq => ?_
    simp only [Prod.mk.injEq] at hpq
    exact Prod.ext hpq.1 hpq.2.1
  · refine (channels.distinct.filter _).imp ?_
    intro c d hcd e hec hed
    obtain ⟨p, _, rfl⟩ := List.mem_map.mp hec
    obtain ⟨q, _, hqp⟩ := List.mem_map.mp hed
    simp only [Prod.mk.injEq] at hqp
    exact hcd hqp.2.2.symm

/-- Every group of an enabled channel is the group of an ability. -/
def GroupsCovered (channels : Table Channel) (abilities : List Ability) : Prop :=
  ∀ c ∈ channels.rows, c.status = ChannelStatusEnabled →
    ∀ g ∈ c.groupNames, ∃ a ∈ abilities, a.group = g

/-- No enabled channel lists a group or a model twice. -/
def NamesOnce (channels : Table Channel) : Prop :=
  ∀ c ∈ channels.rows, c.status = ChannelStatusEnabled →
    c.groupNames.Nodup ∧ c.modelNames.Nodup

instance (channels : Table Channel) (abilities : List Ability) :
    Decidable (GroupsCovered channels abilities) :=
  inferInstanceAs (Decidable (∀ c ∈ channels.rows, c.status = ChannelStatusEnabled →
    ∀ g ∈ c.groupNames, ∃ a ∈ abilities, a.group = g))

instance (channels : Table Channel) : Decidable (NamesOnce channels) :=
  inferInstanceAs (Decidable (∀ c ∈ channels.rows, c.status = ChannelStatusEnabled →
    c.groupNames.Nodup ∧ c.modelNames.Nodup))

theorem modelNames_ne_nil (c : Channel) : c.modelNames ≠ [] := by
  unfold Channel.modelNames Text.split
  intro h
  exact List.splitOn_ne_nil _ _ (List.map_eq_nil_iff.mp h)

/-- Whether the build panics is whether a group of an enabled channel has no ability. -/
theorem newLists_eq_none (slice : SortSlice) (abilities : List Ability) :
    newLists slice channels abilities = none ↔ ¬ GroupsCovered channels abilities := by
  unfold newLists
  rw [Option.map_eq_none_iff, fill_eq_none]
  constructor
  · rintro ⟨⟨g, k, id⟩, he, hnone⟩ hcovered
    obtain ⟨c, hc, hstatus, hg, _, _⟩ := mem_iterations.mp he
    rw [lookup_innerMaps, if_pos (hcovered c hc hstatus g hg)] at hnone
    cases hnone
  · intro hnot
    unfold GroupsCovered at hnot
    push Not at hnot
    obtain ⟨c, hc, hstatus, g, hg, hmiss⟩ := hnot
    obtain ⟨k, hk⟩ := List.exists_mem_of_ne_nil _ (modelNames_ne_nil c)
    refine ⟨(g, k, c.id), mem_iterations.mpr ⟨c, hc, hstatus, hg, hk, rfl⟩, ?_⟩
    rw [lookup_innerMaps, if_neg]
    rintro ⟨a, ha, hag⟩
    exact hmiss a ha hag

/-- The lists a build makes: sorted by priority, and of the channels that list both names. -/
theorem newLists_spec {slice : SortSlice} {abilities : List Ability} {lists : Lists}
    (h : newLists slice channels abilities = some lists) :
    (channelsOf lists group model).Perm
        (((iterations channels.rows).filter fun e => e.1 = group ∧ e.2.1 = model).map (·.2.2)) ∧
      (channelsOf lists group model).Pairwise
        fun i j => priorityOf channels j ≤ priorityOf channels i := by
  unfold newLists at h
  obtain ⟨m, hfill, rfl⟩ := Option.map_eq_some_iff.mp h
  have hsome : ∀ e ∈ iterations channels.rows,
      ((innerMaps abilities).lookup e.1).isSome := by
    intro e he
    rw [Option.isSome_iff_ne_none]
    intro hnone
    rw [(fill_eq_none _ _).mpr ⟨e, he, hnone⟩] at hfill
    cases hfill
  obtain ⟨m', hfill', hlists⟩ := fill_spec _ _ hsome
  obtain rfl := Option.some.inj (hfill.symm.trans hfill')
  have hnil : slice.sort (priorityOf channels) [] = [] :=
    List.perm_nil.mp (slice.perm _ [])
  rw [channelsOf_mapValues hnil, hlists, channelsOf_innerMaps, List.nil_append]
  exact ⟨slice.perm _ _, slice.sorted _ _⟩

theorem mem_newLists {slice : SortSlice} {abilities : List Ability} {lists : Lists}
    (h : newLists slice channels abilities = some lists) {id : ℤ} :
    id ∈ channelsOf lists group model ↔ ∃ c ∈ channels, c.status = ChannelStatusEnabled ∧
      group ∈ c.groupNames ∧ model ∈ c.modelNames ∧ c.id = id := by
  rw [(newLists_spec h).1.mem_iff]
  constructor
  · intro hmem
    obtain ⟨⟨g, k, j⟩, he, rfl⟩ := List.mem_map.mp hmem
    obtain ⟨hit, hkey⟩ := List.mem_filter.mp he
    obtain ⟨rfl, rfl⟩ := of_decide_eq_true hkey
    exact mem_iterations.mp hit
  · intro hc
    refine List.mem_map.mpr ⟨(group, model, id), List.mem_filter.mpr ⟨?_, ?_⟩, rfl⟩
    · exact mem_iterations.mpr hc
    · exact decide_eq_true ⟨rfl, rfl⟩

theorem newLists_nodup {slice : SortSlice} {abilities : List Ability} {lists : Lists}
    (h : newLists slice channels abilities = some lists) (honce : NamesOnce channels) :
    (channelsOf lists group model).Nodup := by
  rw [(newLists_spec h).1.nodup_iff]
  refine List.Nodup.map_on ?_ ((iterations_nodup honce).filter _)
  rintro ⟨g, k, i⟩ he ⟨g', k', j⟩ he' hij
  obtain ⟨rfl, rfl⟩ := of_decide_eq_true (List.mem_filter.mp he).2
  obtain ⟨hg, hk⟩ := of_decide_eq_true (List.mem_filter.mp he').2
  dsimp only at hg hk hij
  rw [hg, hk, hij]

end snapshot

end MaxApi.Channels
