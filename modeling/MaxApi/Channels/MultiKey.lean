import MaxApi.Channels.Store

/-! # Channels: several keys

A channel with several keys holds them in one column, and `channel_info` says by index which of
them are disabled.  `parseArray` is the JSON decoder, which the keys of some channels need.  These
are the parts of the functions on keys that touch one row only. -/

namespace MaxApi.Channels

variable (parseArray : String → Option (List String))

/-- `GetKeys`. -/
def Channel.getKeys (c : Channel) : List String :=
  let trimmed := Text.trimSpace c.key
  if c.key = "" then []
  else
    match if Text.hasPrefix trimmed "[" then parseArray trimmed else none with
    | some keys => keys
    | none => Text.split (String.ofList (Text.trim (· == '\n') c.key.toList)) '\n'

/-- `getStatus` of `GetNextEnabledKey`: the status of a key, which is enabled by default. -/
def ChannelInfo.keyStatus (info : ChannelInfo) (idx : ℕ) : ℤ :=
  (info.multiKeyStatusList.lookup idx).getD ChannelStatusEnabled

/-- `hasEnabledMultiKey`. -/
def hasEnabledMultiKey (keys : List String) (info : ChannelInfo) : Bool :=
  (List.range keys.length).any fun i => info.keyStatus i == ChannelStatusEnabled

/-- The new status of the key with index `keyIndex`; enabled keys are not in the list. -/
def ChannelInfo.setKeyStatus (info : ChannelInfo) (keyIndex : ℕ) (status : ℤ) : ChannelInfo :=
  { info with multiKeyStatusList :=
      if status = ChannelStatusEnabled then info.multiKeyStatusList.erase keyIndex
      else info.multiKeyStatusList.insert keyIndex status }

/-- `handlerMultiKeyUpdate`. -/
def handlerMultiKeyUpdate (c : Channel) (usingKey : String) (status : ℤ) : Channel :=
  let keys := c.getKeys parseArray
  if keys = [] then { c with status := status }
  else
    match keys.idxOf? usingKey with
    | none => if usingKey = "" then { c with status := status } else c
    | some keyIndex =>
        let info := c.channelInfo.setKeyStatus keyIndex status
        { c with
          channelInfo := info
          status :=
            if !hasEnabledMultiKey keys info then ChannelStatusAutoDisabled
            else if status = ChannelStatusEnabled then ChannelStatusEnabled
            else c.status }

/-- What `UpdateChannelStatus` makes of the row it read, and `shouldUpdateAbilities`; it returns
early when the row has the status already. -/
def statusChange (c : Channel) (usingKey : String) (status : ℤ) : Option (Channel × Bool) :=
  if c.status = status then none
  else if c.channelInfo.isMultiKey then
    let c' := handlerMultiKeyUpdate parseArray c usingKey status
    some (c', c.status ≠ c'.status)
  else some ({ c with status := status }, true)

end MaxApi.Channels
