import MaxApi.Lib.Table
import MaxApi.Lib.Text
import Mathlib.Data.List.AList

/-! # Channels: rows and abilities

A channel serves the models and the groups that its row lists.  The table of abilities has a row
for each of their pairs, so that the database can choose among the channels of a group and model.
It is derived from the channels, by statements of their own. -/

namespace MaxApi.Channels

open Relational

/-! ### Rows -/

def ChannelStatusEnabled : ℤ := 1

def ChannelStatusManuallyDisabled : ℤ := 2

def ChannelStatusAutoDisabled : ℤ := 3

/-- How the next key of a channel with several keys is chosen. -/
inductive MultiKeyMode where
  | random
  | polling
  | unknown
  deriving DecidableEq, Repr

/-- The column `channel_info`: whether the channel has several keys, and the status of each key by
its index. -/
structure ChannelInfo where
  isMultiKey : Bool
  multiKeyStatusList : AList fun _ : ℕ => ℤ
  multiKeyPollingIndex : ℤ
  multiKeyMode : MultiKeyMode
  deriving DecidableEq

/-- A row of `channels`. -/
structure Channel where
  id : ℤ
  type : ℤ
  key : String
  status : ℤ
  weight : Option ℕ
  models : String
  group : String
  priority : Option ℤ
  tag : Option String
  otherSettings : String
  channelInfo : ChannelInfo
  deriving DecidableEq

/-- `GetPriority`. -/
def Channel.getPriority (c : Channel) : ℤ := c.priority.getD 0

/-- `GetWeight`. -/
def Channel.getWeight (c : Channel) : ℕ := c.weight.getD 0

/-- `strings.Split(channel.Models, ",")`. -/
def Channel.modelNames (c : Channel) : List String := Text.split c.models ','

/-- `strings.Split(channel.Group, ",")`. -/
def Channel.groupNames (c : Channel) : List String := Text.split c.group ','

/-- A row of `abilities`; the column `priority` is 0 where no priority is given. -/
structure Ability where
  group : String
  model : String
  channelId : ℤ
  enabled : Bool
  priority : ℤ
  weight : ℕ
  tag : Option String
  deriving DecidableEq, Repr

instance : Keyed Channel where
  Key := ℤ
  key := Channel.id
  Clash a b := a = b
  clashDec := inferInstance
  clash_refl _ := rfl
  clash_symm := Eq.symm

instance : Keyed Ability where
  Key := String × String × ℤ
  key a := (a.group, a.model, a.channelId)
  Clash a b := a = b
  clashDec := inferInstance
  clash_refl _ := rfl
  clash_symm := Eq.symm

/-- The tables of the channels. -/
structure Tables where
  channels : Table Channel
  abilities : Table Ability

/-! ### Abilities -/

/-- The first element of each key, in order; `abilitySet` is the set of keys seen. -/
def firstOfKeys {α : Type} (key : α → String) : List α → List String → List α
  | [], _ => []
  | a :: l, abilitySet =>
      if key a ∈ abilitySet then firstOfKeys key l abilitySet
      else a :: firstOfKeys key l (key a :: abilitySet)

/-- The ability of a channel for a group and model that it lists. -/
def Channel.ability (c : Channel) (group model : String) : Ability :=
  ⟨group, model, c.id, decide (c.status = ChannelStatusEnabled), c.getPriority, c.getWeight, c.tag⟩

/-- The rows `AddAbilities` and `UpdateAbilities` make of a channel. -/
def Channel.abilityRows (c : Channel) : List Ability :=
  let pairs := c.modelNames.flatMap fun model => c.groupNames.map fun group => (group, model)
  (firstOfKeys (fun p => p.1 ++ "|" ++ p.2) pairs []).map fun p => c.ability p.1 p.2

/-- `Clauses(clause.OnConflict{DoNothing: true}).Create(&chunk)`. -/
def createAbilities (t : Table Ability) (chunk : List Ability) : Table Ability :=
  chunk.foldl Table.insert t

/-- `UpdateAbilities`, in one transaction: delete the rows of the channel and create them again. -/
def updateAbilities (db : Tables) (c : Channel) : Tables :=
  { db with abilities := createAbilities (db.abilities.delete (·.channelId = c.id)) c.abilityRows }

/-- `UpdateAbilityStatus`. -/
def updateAbilityStatus (db : Tables) (channelId : ℤ) (status : Bool) : Tables :=
  let clause : SetClause Ability := ⟨fun a => { a with enabled := status }, keeps fun _ => rfl⟩
  { db with abilities := db.abilities.update (·.channelId = channelId) clause }

/-- `UpdateAbilityStatusByTag`. -/
def updateAbilityStatusByTag (db : Tables) (tag : String) (status : Bool) : Tables :=
  let clause : SetClause Ability := ⟨fun a => { a with enabled := status }, keeps fun _ => rfl⟩
  { db with abilities := db.abilities.update (·.tag = some tag) clause }

/-- `UpdateAbilityByTag`; a weight of zero is a zero field, which is not updated. -/
def updateAbilityByTag (db : Tables) (tag : String) (newTag : Option String) (priority : Option ℤ)
    (weight : Option ℕ) : Tables :=
  let clause : SetClause Ability := ⟨fun a =>
    { a with
      tag := newTag.or a.tag
      priority := priority.getD a.priority
      weight := if weight.getD 0 = 0 then a.weight else weight.getD 0 }, keeps fun _ => rfl⟩
  { db with abilities := db.abilities.update (·.tag = some tag) clause }

/-! ### Edits -/

/-- The columns an edit writes, with their new values. -/
structure Edit where
  type : Option ℤ
  key : Option String
  status : Option ℤ
  weight : Option ℕ
  models : Option String
  group : Option String
  priority : Option ℤ
  tag : Option String
  otherSettings : Option String
  channelInfo : Option ChannelInfo

/-- The row after an edit. -/
def Edit.apply (e : Edit) (c : Channel) : Channel where
  id := c.id
  type := e.type.getD c.type
  key := e.key.getD c.key
  status := e.status.getD c.status
  weight := e.weight.or c.weight
  models := e.models.getD c.models
  group := e.group.getD c.group
  priority := e.priority.or c.priority
  tag := e.tag.or c.tag
  otherSettings := e.otherSettings.getD c.otherSettings
  channelInfo := e.channelInfo.getD c.channelInfo

/-- `updateAbilities`: whether the edit writes one of the `abilityFields`. -/
def Edit.updateAbilities (e : Edit) : Bool :=
  e.models.isSome || e.group.isSome || e.status.isSome || e.priority.isSome || e.weight.isSome ||
    e.tag.isSome

/-- `UPDATE channels SET … WHERE p`. -/
def editChannels (db : Tables) (p : Channel → Prop) [DecidablePred p] (e : Edit) : Tables :=
  { db with channels := db.channels.update p ⟨e.apply, keeps fun _ => rfl⟩ }

/-- `UpdateFields`, in one transaction, which fails when the row is not there. -/
def updateFields (db : Tables) (id : ℤ) (e : Edit) : Tables :=
  let new := editChannels db (·.id = id) e
  match new.channels.first? (·.id = id) with
  | none => db
  | some c => if e.updateAbilities then updateAbilities new c else new

/-- `SaveWithoutKey`: write every column but the key, and create the row when it is not there. -/
def saveWithoutKey (db : Tables) (c : Channel) : Tables :=
  match db.channels.first? (·.id = c.id) with
  | none => { db with channels := db.channels.insert { c with key := "" } }
  | some row =>
      let others := db.channels.delete (·.id = c.id)
      { db with channels := others.insert { c with key := row.key } }

/-- `BatchInsertChannels`, in one transaction. -/
def batchInsertChannels (db : Tables) (channels : List Channel) : Tables :=
  channels.foldl (fun db c => ⟨db.channels.insert c, createAbilities db.abilities c.abilityRows⟩) db

/-- `BatchDeleteChannels`, in one transaction. -/
def batchDeleteChannels (db : Tables) (ids : List ℤ) : Tables :=
  ⟨db.channels.delete (·.id ∈ ids), db.abilities.delete (·.channelId ∈ ids)⟩

/-- `BatchSetChannelTag`; the rows whose abilities are created again are read outside its
transaction. -/
def batchSetChannelTag (db : Tables) (ids : List ℤ) (tag : Option String) : Tables :=
  let clause : SetClause Channel := ⟨fun c => { c with tag := tag }, keeps fun _ => rfl⟩
  (db.channels.rows.filter (·.id ∈ ids)).foldl updateAbilities
    { db with channels := db.channels.update (·.id ∈ ids) clause }

/-- The database is consistent: the abilities are the rows its channels make. -/
def Tables.Consistent (db : Tables) : Prop :=
  ∀ a : Ability, a ∈ db.abilities ↔ ∃ c ∈ db.channels, a ∈ c.abilityRows

end MaxApi.Channels
