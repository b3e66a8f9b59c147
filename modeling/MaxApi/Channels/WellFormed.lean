import MaxApi.Channels.Cache
import MaxApi.Channels.MultiKey
import MaxApi.Lib.System

/-! # Channels: the cache under interleaved writes

Every operation on the channels is a call whose statements may be interleaved with those of the
others: `Op` starts a call with its first statement, and `proceed` runs the next statement of a
call under way.  `initChannelCache` reads the channels, then the abilities, and installs the lists
it made of them.

The two reads may disagree, and a row may list a name twice.  `cache_wellFormed` says of the runs
in which no build meets either that the cache never panics and that its lists are those of the
rows read; the two runs after it are the exceptions. -/

namespace MaxApi.Channels

open Relational

/-! ### Calls -/

/-- The rest of a call under way. -/
inductive Call where
  | addAbilities (rows : List Ability)
  | deleteAbilities (channelId : ℤ)
  | updateAbilityStatus (channelId : ℤ) (status : Bool)
  | updateAbilityStatusByTag (tag : String) (status : Bool)
  | updateAbilityByTag (tag : String) (newTag : Option String) (priority : Option ℤ)
      (weight : Option ℕ)
  | getChannelsByTag (tag : String)
  | updateAbilities (channels : List Channel)
  | saveWithoutKey (channel : Channel) (enabled : Option Bool)
  | readAbilities (channels : Table Channel)
  | install (channels : Table Channel) (lists : Lists)

/-- The database, the cache and the calls under way.  `built` are the rows the present lists were
made of, and `removed` the channels that have been taken out of them since. -/
structure World where
  db : Tables
  calls : List Call
  lists : Lists
  channelsIDM : Table Channel
  panicked : Bool
  built : Table Channel
  removed : List ℤ

/-- The process has just started. -/
def start (db : Tables) : World where
  db := db
  calls := []
  lists := ∅
  channelsIDM := .empty
  panicked := false
  built := .empty
  removed := []

/-- The abilities a read returns; a failed read returns none, and its error is not looked at. -/
def World.abilitiesRead (s : World) (failed : Bool) : List Ability :=
  if failed then [] else s.db.abilities.rows

/-- Keep the polling index of a channel that was in the cache before. -/
def keepPollingIndex (old : Table Channel) (c : Channel) : Channel :=
  match old.first? (·.id = c.id) with
  | none => c
  | some o =>
      if c.channelInfo.isMultiKey ∧ c.channelInfo.multiKeyMode = .polling ∧
          o.channelInfo.isMultiKey ∧ o.channelInfo.multiKeyMode = .polling then
        { c with channelInfo :=
            { c.channelInfo with multiKeyPollingIndex := o.channelInfo.multiKeyPollingIndex } }
      else c

theorem keepPollingIndex_id (old : Table Channel) (c : Channel) :
    (keepPollingIndex old c).id = c.id := by
  unfold keepPollingIndex
  split
  · rfl
  · split
    · rfl
    · rfl

/-- The next statement of a call, and what is left of the call. -/
def exec (slice : SortSlice) (s : World) (failed : Bool) : Call → World × Option Call
  | .addAbilities rows =>
      if failed then (s, none)
      else
        ({ s with db := { s.db with
            abilities := createAbilities s.db.abilities (rows.take 50) } },
          if rows.drop 50 = [] then none else some (.addAbilities (rows.drop 50)))
  | .deleteAbilities channelId =>
      if failed then (s, none)
      else
        ({ s with db := { s.db with
            abilities := s.db.abilities.delete (·.channelId = channelId) } }, none)
  | .updateAbilityStatus channelId status =>
      (if failed then s else { s with db := Channels.updateAbilityStatus s.db channelId status },
        none)
  | .updateAbilityStatusByTag tag status =>
      (if failed then s else { s with db := Channels.updateAbilityStatusByTag s.db tag status },
        none)
  | .updateAbilityByTag tag newTag priority weight =>
      (if failed then s
        else { s with db := Channels.updateAbilityByTag s.db tag newTag priority weight }, none)
  | .getChannelsByTag tag =>
      if failed then (s, none)
      else (s, some (.updateAbilities (s.db.channels.rows.filter (·.tag = some tag))))
  | .updateAbilities [] => (s, none)
  | .updateAbilities (c :: channels) =>
      (if failed then s else { s with db := Channels.updateAbilities s.db c },
        some (.updateAbilities channels))
  | .saveWithoutKey c enabled =>
      (if failed then s else { s with db := Channels.saveWithoutKey s.db c },
        enabled.map (.updateAbilityStatus c.id))
  | .readAbilities channels =>
      match newLists slice channels (s.abilitiesRead failed) with
      | none => ({ s with panicked := true }, none)
      | some lists => (s, some (.install channels lists))
  | .install channels lists =>
      ({ s with
        lists := lists
        channelsIDM := channels.update (fun _ => True)
          ⟨keepPollingIndex s.channelsIDM, keeps (keepPollingIndex_id s.channelsIDM)⟩
        built := channels
        removed := [] }, none)

/-- Run the next statement of the call at position `i`. -/
def proceed (slice : SortSlice) (s : World) (i : ℕ) (failed : Bool) : World :=
  match s.calls[i]? with
  | none => s
  | some call =>
      let r := exec slice s failed call
      { r.1 with calls := s.calls.eraseIdx i ++ r.2.toList }

/-- The operations. -/
inductive Op where
  | insert (c : Channel)
  | batchInsertChannels (channels : List Channel)
  | updateFields (id : ℤ) (e : Edit)
  | editChannelByTag (tag : String) (newTag models group : Option String) (priority : Option ℤ)
      (weight : Option ℕ)
  | enableChannelByTag (tag : String)
  | disableChannelByTag (tag : String)
  | batchSetChannelTag (ids : List ℤ) (tag : Option String)
  | delete (id : ℤ)
  | batchDeleteChannels (ids : List ℤ)
  | deleteChannelByStatus (status : ℤ)
  | deleteDisabledChannel
  | updateChannelStatus (id : ℤ) (usingKey : String) (status : ℤ)
  | cacheUpdateChannelStatus (id : ℤ) (status : ℤ)
  | cacheUpdateChannel (c : Channel)
  | initChannelCache (failed : Bool)
  | proceed (i : ℕ) (failed : Bool)

/-- An edit that writes nothing. -/
def Edit.nothing : Edit := ⟨none, none, none, none, none, none, none, none, none, none⟩

/-- A write to the database, and the statements that follow it. -/
def World.write (s : World) (db : Tables) (rest : List Call) : World :=
  { s with db := db, calls := s.calls ++ rest }

/-- `EditChannelByTag`; empty names are zero fields, which are not updated. -/
def editChannelByTag (s : World) (tag : String) (newTag models group : Option String)
    (priority : Option ℤ) (weight : Option ℕ) : World :=
  let moved := newTag.filter (· ≠ tag)
  let models := models.filter (· ≠ "")
  let group := group.filter (· ≠ "")
  let e : Edit := { Edit.nothing with
    tag := moved, models := models, group := group, priority := priority, weight := weight }
  s.write (editChannels s.db (·.tag = some tag) e)
    [if models.isSome || group.isSome then .getChannelsByTag (moved.getD tag)
      else .updateAbilityByTag tag newTag priority weight]

/-- `CacheUpdateChannelStatus`. -/
def cacheUpdateChannelStatus (s : World) (id status : ℤ) : World :=
  let clause : SetClause Channel := ⟨fun c => { c with status := status }, keeps fun _ => rfl⟩
  let s := { s with channelsIDM := s.channelsIDM.update (·.id = id) clause }
  if status = ChannelStatusEnabled then s
  else { s with lists := removeChannel s.lists id, removed := id :: s.removed }

/-- One step. -/
def step (slice : SortSlice) (parseArray : String → Option (List String)) (s : World) : Op → World
  | .insert c =>
      if ∃ d ∈ s.db.channels.rows, d.id = c.id then s
      else s.write { s.db with channels := s.db.channels.insert c } [.addAbilities c.abilityRows]
  | .batchInsertChannels channels => s.write (batchInsertChannels s.db channels) []
  | .updateFields id e => s.write (updateFields s.db id e) []
  | .editChannelByTag tag newTag models group priority weight =>
      editChannelByTag s tag newTag models group priority weight
  | .enableChannelByTag tag =>
      s.write (editChannels s.db (·.tag = some tag)
        { Edit.nothing with status := some ChannelStatusEnabled })
        [.updateAbilityStatusByTag tag true]
  | .disableChannelByTag tag =>
      s.write (editChannels s.db (·.tag = some tag)
        { Edit.nothing with status := some ChannelStatusManuallyDisabled })
        [.updateAbilityStatusByTag tag false]
  | .batchSetChannelTag ids tag => s.write (batchSetChannelTag s.db ids tag) []
  | .delete id =>
      s.write { s.db with channels := s.db.channels.delete (·.id = id) } [.deleteAbilities id]
  | .batchDeleteChannels ids => s.write (batchDeleteChannels s.db ids) []
  | .deleteChannelByStatus status =>
      s.write { s.db with channels := s.db.channels.delete (·.status = status) } []
  | .deleteDisabledChannel =>
      s.write { s.db with channels := s.db.channels.delete fun c =>
        c.status = ChannelStatusAutoDisabled ∨ c.status = ChannelStatusManuallyDisabled } []
  | .updateChannelStatus id usingKey status =>
      match (s.db.channels.first? (·.id = id)).bind
          (statusChange parseArray · usingKey status) with
      | none => s
      | some r =>
          s.write s.db
            [.saveWithoutKey r.1 (if r.2 then some (status = ChannelStatusEnabled) else none)]
  | .cacheUpdateChannelStatus id status => cacheUpdateChannelStatus s id status
  | .cacheUpdateChannel c =>
      { s with channelsIDM := (s.channelsIDM.delete (·.id = c.id)).insert c }
  | .initChannelCache failed =>
      s.write s.db [.readAbilities (if failed then .empty else s.db.channels)]
  | .proceed i failed => proceed slice s i failed

/-! ### Lists of rows read -/

/-- The lists are those of the rows `channels`, without the channels in `removed`. -/
structure ListsOf (lists : Lists) (channels : Table Channel) (removed : List ℤ) : Prop where
  complete : ∀ group model, ∀ c ∈ channels, c.status = ChannelStatusEnabled →
    group ∈ c.groupNames → model ∈ c.modelNames → c.id ∉ removed →
      (channelsOf lists group model).count c.id = 1
  nodup : ∀ group model, (channelsOf lists group model).Nodup
  sorted : ∀ group model, (channelsOf lists group model).Pairwise
    fun i j => priorityOf channels j ≤ priorityOf channels i
  gone : ∀ id ∈ removed, ∀ group model, id ∉ channelsOf lists group model

/-- What a build makes. -/
theorem newLists_listsOf {slice : SortSlice} {channels : Table Channel} {abilities : List Ability}
    {lists : Lists} (h : newLists slice channels abilities = some lists)
    (honce : NamesOnce channels) : ListsOf lists channels [] where
  complete group model c hc hstatus hg hm _ := by
    refine List.count_eq_one_of_mem (newLists_nodup h honce) ?_
    exact (mem_newLists h).mpr ⟨c, hc, hstatus, hg, hm, rfl⟩
  nodup group model := newLists_nodup h honce
  sorted group model := (newLists_spec h).2
  gone id hid := absurd hid List.not_mem_nil

/-- A removal takes one channel out of every list. -/
theorem ListsOf.remove {lists : Lists} {channels : Table Channel} {removed : List ℤ}
    (h : ListsOf lists channels removed) (id : ℤ) :
    ListsOf (removeChannel lists id) channels (id :: removed) where
  complete group model c hc hstatus hg hm hnot := by
    rw [List.mem_cons, not_or] at hnot
    rw [channelsOf_removeChannel, List.count_erase_of_ne hnot.1]
    exact h.complete group model c hc hstatus hg hm hnot.2
  nodup group model := by
    rw [channelsOf_removeChannel]
    exact (h.nodup group model).erase id
  sorted group model := by
    rw [channelsOf_removeChannel]
    exact (h.sorted group model).sublist List.erase_sublist
  gone j hj group model hmem := by
    rw [channelsOf_removeChannel] at hmem
    rcases List.mem_cons.mp hj with rfl | hj
    · exact (h.nodup group model).not_mem_erase hmem
    · exact h.gone j hj group model (List.mem_of_mem_erase hmem)

/-! ### Runs -/

/-- The abilities that a build reads cover the groups of the enabled channels it read, and none of
these lists a name twice. -/
def BuildsCleanly (s : World) : Op → Prop
  | .proceed i failed =>
      match s.calls[i]? with
      | some (.readAbilities channels) =>
          GroupsCovered channels (s.abilitiesRead failed) ∧ NamesOnce channels
      | _ => True
  | _ => True

instance (s : World) : ∀ op, Decidable (BuildsCleanly s op)
  | .proceed i failed => by
      unfold BuildsCleanly
      dsimp only
      split
      · infer_instance
      · exact .isTrue trivial
  | .insert _ | .batchInsertChannels _ | .updateFields _ _ | .editChannelByTag _ _ _ _ _ _
  | .enableChannelByTag _ | .disableChannelByTag _ | .batchSetChannelTag _ _ | .delete _
  | .batchDeleteChannels _ | .deleteChannelByStatus _ | .deleteDisabledChannel
  | .updateChannelStatus _ _ _ | .cacheUpdateChannelStatus _ _ | .cacheUpdateChannel _
  | .initChannelCache _ => .isTrue trivial

/-- A build that is about to install its lists has made them of the rows it read. -/
def Call.Sound : Call → Prop
  | .install channels lists => ListsOf lists channels []
  | _ => True

/-- The invariant of the runs. -/
structure Sound (s : World) : Prop where
  calm : s.panicked = false
  lists : ListsOf s.lists s.built s.removed
  calls : ∀ call ∈ s.calls, call.Sound

variable {slice : SortSlice} {parseArray : String → Option (List String)} {s : World}

theorem Sound.write (h : Sound s) {db : Tables} {rest : List Call} (hrest : ∀ c ∈ rest, c.Sound) :
    Sound (s.write db rest) where
  calm := h.calm
  lists := h.lists
  calls call hcall := by
    rcases List.mem_append.mp hcall with hcall | hcall
    · exact h.calls call hcall
    · exact hrest call hcall

/-- A statement of a call leaves the cache alone, but for those of a build. -/
theorem exec_frame (slice : SortSlice) (s : World) (failed : Bool) {call : Call}
    (hread : ∀ c, call ≠ .readAbilities c)
    (hinstall : ∀ c l, call ≠ .install c l) :
    (exec slice s failed call).1.panicked = s.panicked ∧
      (exec slice s failed call).1.lists = s.lists ∧
      (exec slice s failed call).1.built = s.built ∧
      (exec slice s failed call).1.removed = s.removed ∧
      ∀ c ∈ (exec slice s failed call).2, c.Sound := by
  cases call with
  | readAbilities c => exact absurd rfl (hread c)
  | install c l => exact absurd rfl (hinstall c l)
  | addAbilities rows =>
      unfold exec
      dsimp only
      cases failed with
      | true => simp
      | false =>
          refine ⟨rfl, rfl, rfl, rfl, fun c hc => ?_⟩
          simp only [Bool.false_eq_true, if_false] at hc
          split at hc
          · cases hc
          · obtain rfl := Option.some.inj hc
            trivial
  | updateAbilities channels =>
      cases channels with
      | nil => exact ⟨rfl, rfl, rfl, rfl, fun c hc => absurd hc (by simp [exec])⟩
      | cons c channels =>
          unfold exec
          cases failed <;>
            exact ⟨rfl, rfl, rfl, rfl, fun c hc => by obtain rfl := Option.some.inj hc; trivial⟩
  | getChannelsByTag tag =>
      unfold exec
      cases failed with
      | true => simp
      | false =>
          exact ⟨rfl, rfl, rfl, rfl, fun c hc => by obtain rfl := Option.some.inj hc; trivial⟩
  | saveWithoutKey c enabled =>
      unfold exec
      cases failed <;> cases enabled <;>
        exact ⟨rfl, rfl, rfl, rfl, fun c hc => by cases hc <;> trivial⟩
  | deleteAbilities id => unfold exec; cases failed <;> simp
  | updateAbilityStatus id status => unfold exec; cases failed <;> simp
  | updateAbilityStatusByTag tag status => unfold exec; cases failed <;> simp
  | updateAbilityByTag tag newTag priority weight => unfold exec; cases failed <;> simp

/-- One statement of a call keeps the invariant. -/
theorem Sound.proceed (h : Sound s) {i : ℕ} {failed : Bool}
    (hclean : BuildsCleanly s (.proceed i failed)) : Sound (proceed slice s i failed) := by
  unfold Channels.proceed
  unfold BuildsCleanly at hclean
  dsimp only at hclean
  cases hcall : s.calls[i]? with
  | none => exact h
  | some call =>
      have hmem : call ∈ s.calls := List.mem_of_getElem? hcall
      have hkept : ∀ c ∈ s.calls.eraseIdx i, c.Sound := fun c hc =>
        h.calls c (List.mem_of_mem_eraseIdx hc)
      by_cases hread : ∃ c, call = .readAbilities c
      · obtain ⟨channels, rfl⟩ := hread
        rw [hcall] at hclean
        obtain ⟨hcovered, honce⟩ := hclean
        cases hnew : newLists slice channels (s.abilitiesRead failed) with
        | none => exact absurd hcovered ((newLists_eq_none slice _).mp hnew)
        | some lists =>
            have hexec : exec slice s failed (.readAbilities channels) =
                (s, some (.install channels lists)) := by
              simp only [exec, hnew]
            dsimp only
            rw [hexec]
            refine ⟨h.calm, h.lists, fun c hc => ?_⟩
            rcases List.mem_append.mp hc with hc | hc
            · exact hkept c hc
            · obtain rfl := List.mem_singleton.mp hc
              exact newLists_listsOf hnew honce
      · by_cases hinstall : ∃ c l, call = .install c l
        · obtain ⟨channels, lists, rfl⟩ := hinstall
          refine ⟨h.calm, h.calls _ hmem, fun c hc => ?_⟩
          rcases List.mem_append.mp hc with hc | hc
          · exact hkept c hc
          · exact absurd hc List.not_mem_nil
        · obtain ⟨hcalm, hlists, hbuilt, hremoved, hsound⟩ :=
            exec_frame slice s failed (fun c hc => hread ⟨c, hc⟩)
              fun c l hc => hinstall ⟨c, l, hc⟩
          refine ⟨hcalm.trans h.calm, ?_, fun c hc => ?_⟩
          · dsimp only
            rw [hlists, hbuilt, hremoved]
            exact h.lists
          · rcases List.mem_append.mp hc with hc | hc
            · exact hkept c hc
            · exact hsound c (by simpa using hc)

/-- One step keeps the invariant. -/
theorem Sound.step (h : Sound s) {op : Op} (hclean : BuildsCleanly s op) :
    Sound (step slice parseArray s op) := by
  cases op with
  | proceed i failed => exact h.proceed hclean
  | insert c =>
      unfold Channels.step
      dsimp only
      split
      · exact h
      · exact h.write fun c hc => by obtain rfl := List.mem_singleton.mp hc; trivial
  | updateChannelStatus id usingKey status =>
      unfold Channels.step
      dsimp only
      split
      · exact h
      · exact h.write fun c hc => by obtain rfl := List.mem_singleton.mp hc; trivial
  | editChannelByTag tag newTag models group priority weight =>
      refine h.write fun c hc => ?_
      obtain rfl := List.mem_singleton.mp hc
      split
      · trivial
      · trivial
  | cacheUpdateChannelStatus id status =>
      unfold Channels.step cacheUpdateChannelStatus
      dsimp only
      split
      · exact ⟨h.calm, h.lists, h.calls⟩
      · exact ⟨h.calm, h.lists.remove id, h.calls⟩
  | cacheUpdateChannel c => exact ⟨h.calm, h.lists, h.calls⟩
  | batchInsertChannels channels => exact h.write fun c hc => absurd hc List.not_mem_nil
  | updateFields id e => exact h.write fun c hc => absurd hc List.not_mem_nil
  | batchSetChannelTag ids tag => exact h.write fun c hc => absurd hc List.not_mem_nil
  | batchDeleteChannels ids => exact h.write fun c hc => absurd hc List.not_mem_nil
  | deleteChannelByStatus status => exact h.write fun c hc => absurd hc List.not_mem_nil
  | deleteDisabledChannel => exact h.write fun c hc => absurd hc List.not_mem_nil
  | enableChannelByTag tag =>
      exact h.write fun c hc => by obtain rfl := List.mem_singleton.mp hc; trivial
  | disableChannelByTag tag =>
      exact h.write fun c hc => by obtain rfl := List.mem_singleton.mp hc; trivial
  | delete id => exact h.write fun c hc => by obtain rfl := List.mem_singleton.mp hc; trivial
  | initChannelCache failed =>
      exact h.write fun c hc => by obtain rfl := List.mem_singleton.mp hc; trivial

theorem start_sound (db : Tables) : Sound (start db) where
  calm := rfl
  lists := by
    refine ⟨fun _ _ c hc => absurd hc List.not_mem_nil, fun _ _ => List.nodup_nil,
      fun _ _ => List.Pairwise.nil, fun id hid => absurd hid List.not_mem_nil⟩
  calls call hcall := absurd hcall List.not_mem_nil

/-- **The cache is well formed.**  In a run whose builds read abilities that cover the groups of
the enabled channels, and no enabled channel that lists a name twice, `InitChannelCache` does not
panic; every list has each enabled channel of the rows read that lists both names exactly once, by
descending priority; and a channel that `CacheUpdateChannelStatus` took out is in no list. -/
theorem cache_wellFormed (slice : SortSlice) (parseArray : String → Option (List String))
    (db : Tables) (ops : List Op)
    (h : Transition.Throughout (step slice parseArray) BuildsCleanly (start db) ops) :
    let s := Transition.run (step slice parseArray) (start db) ops
    s.panicked = false ∧ ListsOf s.lists s.built s.removed := by
  have hsound := Transition.throughout_invariant (step slice parseArray)
    (fun _ _ hclean hs => Sound.step hs hclean) ops (start db) h (start_sound db)
  exact ⟨hsound.calm, hsound.lists⟩

/-! ### Runs of one channel -/

/-- A channel of the group `default`. -/
def exampleChannel (models : String) : Channel where
  id := 1
  type := 1
  key := "sk"
  status := ChannelStatusEnabled
  weight := none
  models := models
  group := "default"
  priority := none
  tag := none
  otherSettings := ""
  channelInfo := ⟨false, ∅, 0, .random⟩

/-- A channel is inserted, the cache built, and the channel disabled. -/
def insertThenBuild (models : String) : List Op :=
  [.insert (exampleChannel models), .proceed 0 false, .initChannelCache false, .proceed 0 false,
    .proceed 0 false, .cacheUpdateChannelStatus 1 ChannelStatusAutoDisabled]

theorem cache_wellFormed_insertThenBuild :
    let s := Transition.run (step insertionSlice fun _ => none) (start ⟨.empty, .empty⟩)
      (insertThenBuild "m1,m2")
    s.panicked = false ∧ ListsOf s.lists s.built s.removed :=
  cache_wellFormed insertionSlice (fun _ => none) ⟨.empty, .empty⟩ (insertThenBuild "m1,m2")
    (by decide +kernel)

/-- A build between the two statements of an insert reads a channel without its abilities and
panics; and a channel that lists a model twice stays in the list it was taken out of. -/
theorem cache_not_wellFormed :
    (¬ ∀ (db : Tables) (ops : List Op), db.Consistent →
      (Transition.run (step insertionSlice fun _ => none) (start db) ops).panicked = false) ∧
    ¬ ∀ (db : Tables) (ops : List Op), db.Consistent →
      let s := Transition.run (step insertionSlice fun _ => none) (start db) ops
      ListsOf s.lists s.built s.removed := by
  have hempty : Tables.Consistent ⟨.empty, .empty⟩ := by
    intro a
    refine iff_of_false List.not_mem_nil ?_
    rintro ⟨c, hc, _⟩
    exact List.not_mem_nil hc
  constructor
  · intro h
    have hcalm := h _ [.insert (exampleChannel "m"), .initChannelCache false, .proceed 1 false]
      hempty
    exact absurd hcalm (by decide +kernel)
  · intro h
    have hgone := (h _ (insertThenBuild "m,m") hempty).gone 1 (by decide +kernel) "default" "m"
    exact absurd hgone (by decide +kernel)

end MaxApi.Channels
