import MaxApi.Lib.Cuts
import MaxApi.PassThrough.Keys

/-! # Pass-through bodies: the scanner

A scanner of JSON finds the byte ranges of the members that a channel does not let through.  The
byte that has been peeked stays at the head of `rest`; where the source reports the end of the input
while it skips whitespace, the model reports it at the read that follows. -/

namespace MaxApi.PassThrough

abbrev JsonByteRange := Cuts.Range

inductive JsonFilterScope where
  | none
  | root
  | streamOptions
  deriving DecidableEq

structure ChannelOtherSettings where
  allowServiceTier : Bool
  allowInferenceGeo : Bool
  allowSpeed : Bool
  disableStore : Bool
  allowSafetyIdentifier : Bool
  allowIncludeObfuscation : Bool
  deriving DecidableEq

inductive ScanError where
  | eof
  | unexpected (offset : ℕ)
  | key
  | invalidRange (r : JsonByteRange)
  | sizeChanged (got want : ℕ)
  /-- The recursion is deeper than the fuel, which the length of the body never is. -/
  | exhausted
  deriving DecidableEq

structure Scanner where
  rest : Bytes
  offset : ℕ
  deriving DecidableEq

theorem ok_then {α β : Type} (a : α) (f : α → Except ScanError β) :
    (Except.ok a >>= f) = f a := rfl

/-! ### Bytes -/

def IsJSONWhitespace (b : UInt8) : Prop :=
  b = byte ' ' ∨ b = byte '\t' ∨ b = byte '\r' ∨ b = byte '\n'

instance (b : UInt8) : Decidable (IsJSONWhitespace b) := instDecidableOr

def IsDigit (b : UInt8) : Prop := byte '0' ≤ b ∧ b ≤ byte '9'

instance (b : UInt8) : Decidable (IsDigit b) := instDecidableAnd

/-- A byte of which numbers consist. -/
def IsNumberByte (b : UInt8) : Prop :=
  IsDigit b ∨ b = byte '-' ∨ b = byte '+' ∨ b = byte '.' ∨ b = byte 'e' ∨ b = byte 'E'

instance (b : UInt8) : Decidable (IsNumberByte b) := instDecidableOr

/-- A byte behind a number. -/
def EndsNumber (b : UInt8) : Prop :=
  IsJSONWhitespace b ∨ b = byte ',' ∨ b = byte ']' ∨ b = closeBrace

instance (b : UInt8) : Decidable (EndsNumber b) := instDecidableOr

def peekByte (s : Scanner) : Except ScanError UInt8 :=
  match s.rest with
  | [] => .error .eof
  | b :: _ => .ok b

def readByte (s : Scanner) : Except ScanError (UInt8 × Scanner) :=
  match s.rest with
  | [] => .error .eof
  | b :: rest => .ok (b, ⟨rest, s.offset + 1⟩)

/-- The loop of `skipWhitespace`. -/
def skipFrom : Bytes → ℕ → Scanner
  | [], offset => ⟨[], offset⟩
  | b :: rest, offset =>
      if IsJSONWhitespace b then skipFrom rest (offset + 1) else ⟨b :: rest, offset⟩

def skipWhitespace (s : Scanner) : Scanner := skipFrom s.rest s.offset

def expectByte (expected : UInt8) (s : Scanner) : Except ScanError Scanner := do
  let (value, s) ← readByte s
  if value = expected then return s else throw (.unexpected (s.offset - 1))

def requireEOF (s : Scanner) : Except ScanError Scanner :=
  let s := skipWhitespace s
  match s.rest with
  | [] => .ok s
  | _ :: _ => .error (.unexpected s.offset)

/-! ### Strings, literals and numbers -/

def maxCapturedJSONKeyBytes : ℕ := 256

/-- What is captured of a key: its bytes, and whether they were too many. -/
structure Captured where
  raw : Bytes
  overflow : Bool
  deriving DecidableEq

def Captured.push (c : Captured) (b : UInt8) : Captured :=
  if c.overflow then c
  else if maxCapturedJSONKeyBytes ≤ c.raw.length then ⟨[], true⟩
  else ⟨c.raw ++ [b], false⟩

/-- The loop of `parseString`. -/
def stringFrom : Bytes → ℕ → Captured → Bool → Except ScanError (Captured × Scanner)
  | [], _, _, _ => .error .eof
  | b :: rest, offset, c, escaped =>
      if escaped then stringFrom rest (offset + 1) (c.push b) false
      else if b = backslash then stringFrom rest (offset + 1) (c.push b) true
      else if b = quote then .ok (c.push b, ⟨rest, offset + 1⟩)
      else if b < 32 then .error (.unexpected offset)
      else stringFrom rest (offset + 1) (c.push b) false

/-- The key of a string that is captured; the text of any other string is empty. -/
def parseString (capture : Bool) (s : Scanner) : Except ScanError (Bytes × Scanner) := do
  let s ← expectByte quote s
  let (c, s) ← stringFrom s.rest s.offset ⟨[quote], false⟩ false
  if !capture || c.overflow then return ([], s)
  else
    match unmarshalString c.raw with
    | some key => return (key, s)
    | none => throw .key

def consumeLiteral : Bytes → Scanner → Except ScanError Scanner
  | [], s => .ok s
  | b :: literal, s => do
      let s ← expectByte b s
      consumeLiteral literal s

/-- The loop of `consumeNumber`. -/
def numberFrom : Bytes → ℕ → Bool → Except ScanError Scanner
  | [], offset, consumed => if consumed then .ok ⟨[], offset⟩ else .error .eof
  | b :: rest, offset, _ =>
      if IsNumberByte b then numberFrom rest (offset + 1) true
      else if EndsNumber b then .ok ⟨b :: rest, offset⟩
      else .error (.unexpected offset)

def consumeNumber (s : Scanner) : Except ScanError Scanner := numberFrom s.rest s.offset false

/-! ### Objects -/

def shouldRemoveJSONMember (scope : JsonFilterScope) (key : Bytes)
    (settings : ChannelOtherSettings) : Bool :=
  match scope with
  | .none => false
  | .root =>
      if key = name "service_tier" then !settings.allowServiceTier
      else if key = name "inference_geo" then !settings.allowInferenceGeo
      else if key = name "speed" then !settings.allowSpeed
      else if key = name "store" then settings.disableStore
      else if key = name "safety_identifier" then !settings.allowSafetyIdentifier
      else false
  | .streamOptions => key = name "include_obfuscation" && !settings.allowIncludeObfuscation

/-- What `parseObject` returns: the ranges, the number of kept members and whether a member was
removed or changed. -/
structure ObjectScan where
  ranges : List JsonByteRange
  keptMembers : ℕ
  changed : Bool
  deriving DecidableEq

/-- The variables of the loop of `parseObject`. -/
structure Progress extends ObjectScan where
  lastKeptComma : Option ℕ

/-- One member from its key to the end of its value. -/
structure MemberScan where
  removeMember : Bool
  childRanges : List JsonByteRange
  childChanged : Bool
  after : Scanner

section objects

variable (value : Scanner → Except ScanError Scanner)
  (child : Scanner → Except ScanError (ObjectScan × Scanner))
  (scope : JsonFilterScope) (settings : ChannelOtherSettings)

/-- The part of the loop of `parseObject` from a value on: `value` reads a value, and `child` the
object at `stream_options`. -/
def parseMemberValue (key : Bytes) (s : Scanner) : Except ScanError MemberScan := do
  let removeMember := shouldRemoveJSONMember scope key settings
  if scope = .root ∧ key = name "stream_options" ∧ settings.allowIncludeObfuscation = false then
    let valueStart ← peekByte s
    if valueStart = openBrace then
      let (c, s) ← child s
      if c.changed ∧ c.keptMembers = 0 then return ⟨true, [], c.changed, s⟩
      else return ⟨removeMember, c.ranges, c.changed, s⟩
    else
      let s ← value s
      return ⟨removeMember, [], false, s⟩
  else
    let s ← value s
    return ⟨removeMember, [], false, s⟩

/-- The part of the loop of `parseObject` that reads a member. -/
def parseMember (s : Scanner) : Except ScanError MemberScan := do
  let (key, s) ← parseString (scope ≠ .none) s
  let s ← expectByte (byte ':') (skipWhitespace s)
  parseMemberValue value child scope settings key (skipWhitespace s)

end objects

/-- The variables of the loop after a member.  The member starts at `memberStart` and its value ends
at `valueEnd`; `comma` says whether a comma stands behind it, at `delimiter`. -/
def Progress.add (acc : Progress) (m : MemberScan) (memberStart valueEnd delimiter : ℕ)
    (comma : Bool) : Progress :=
  if m.removeMember then
    { acc with
      changed := true
      ranges := acc.ranges ++
        [if comma then ⟨memberStart, delimiter + 1⟩
          else ⟨acc.lastKeptComma.getD memberStart, valueEnd⟩] }
  else
    { keptMembers := acc.keptMembers + 1
      changed := acc.changed || m.childChanged
      ranges := if m.childChanged then acc.ranges ++ m.childRanges else acc.ranges
      lastKeptComma := if comma then some delimiter else acc.lastKeptComma }

/-- The loop of `parseObject`. -/
def parseMembers (member : Scanner → Except ScanError MemberScan) :
    ℕ → Scanner → Progress → Except ScanError (ObjectScan × Scanner)
  | 0, _, _ => .error .exhausted
  | fuel + 1, start, acc => do
      let s := skipWhitespace start
      let next ← peekByte s
      if next = closeBrace then
        let (_, s) ← readByte s
        return (acc.toObjectScan, s)
      else
        let m ← member s
        let s := skipWhitespace m.after
        let (delimiter, after) ← readByte s
        if delimiter = byte ',' then
          parseMembers member fuel after (acc.add m start.offset m.after.offset s.offset true)
        else if delimiter = closeBrace then
          return ((acc.add m start.offset m.after.offset s.offset false).toObjectScan, after)
        else throw (.unexpected s.offset)

def parseObject (member : Scanner → Except ScanError MemberScan) (s : Scanner) :
    Except ScanError (ObjectScan × Scanner) := do
  let s ← expectByte openBrace s
  parseMembers member (s.rest.length + 1) s ⟨⟨[], 0, false⟩, none⟩

/-! ### Values -/

/-- The loop of `parseArray`. -/
def parseElements (value : Scanner → Except ScanError Scanner) :
    ℕ → Scanner → Except ScanError Scanner
  | 0, _ => .error .exhausted
  | fuel + 1, s => do
      let s ← value s
      let (delimiter, s) ← readByte (skipWhitespace s)
      if delimiter = byte ']' then return s
      else if delimiter = byte ',' then parseElements value fuel s
      else throw (.unexpected (s.offset - 1))

def parseArray (value : Scanner → Except ScanError Scanner) (s : Scanner) :
    Except ScanError Scanner := do
  let s ← expectByte (byte '[') s
  let s := skipWhitespace s
  let next ← peekByte s
  if next = byte ']' then
    let (_, s) ← readByte s
    return s
  else parseElements value (s.rest.length + 1) s

/-- Only members of the body have an object that is filtered itself. -/
def noChild (_ : Scanner) : Except ScanError (ObjectScan × Scanner) := .error .exhausted

/-- The settings of an object that is not filtered. -/
def noSettings : ChannelOtherSettings := ⟨false, false, false, false, false, false⟩

def parseValue : ℕ → Scanner → Except ScanError Scanner
  | 0, _ => .error .exhausted
  | fuel + 1, s => do
      let s := skipWhitespace s
      let next ← peekByte s
      if next = openBrace then
        let (_, s) ← parseObject (parseMember (parseValue fuel) noChild .none noSettings) s
        return s
      else if next = byte '[' then parseArray (parseValue fuel) s
      else if next = quote then
        let (_, s) ← parseString false s
        return s
      else if next = byte 't' then consumeLiteral (name "true") s
      else if next = byte 'f' then consumeLiteral (name "false") s
      else if next = byte 'n' then consumeLiteral (name "null") s
      else if next = byte '-' ∨ IsDigit next then consumeNumber s
      else throw (.unexpected s.offset)

/-- The object at `stream_options`. -/
def parseStreamOptions (fuel : ℕ) (settings : ChannelOtherSettings) (s : Scanner) :
    Except ScanError (ObjectScan × Scanner) :=
  parseObject (parseMember (parseValue fuel) noChild .streamOptions settings) s

/-- The object that is the body. -/
def parseRoot (fuel : ℕ) (settings : ChannelOtherSettings) (s : Scanner) :
    Except ScanError (ObjectScan × Scanner) :=
  parseObject (parseMember (parseValue fuel) (parseStreamOptions fuel settings) .root settings) s

def scanPassThroughJSON (settings : ChannelOtherSettings) (body : Bytes) :
    Except ScanError (List JsonByteRange × ℕ) := do
  let fuel := body.length + 1
  let s := skipWhitespace ⟨body, 0⟩
  let first ← peekByte s
  if first ≠ openBrace then
    let s ← parseValue fuel s
    let s ← requireEOF s
    return ([], s.offset)
  else
    let (o, s) ← parseRoot fuel settings s
    let s ← requireEOF s
    return (o.ranges, s.offset)

/-! ### The filtered body -/

/-- One step of `normalizeJSONRanges`; the merged ranges stand with the last one first. -/
def mergeRange (sourceSize : ℕ) (merged : List JsonByteRange) (current : JsonByteRange) :
    Except ScanError (List JsonByteRange) :=
  if current.stop ≤ current.start ∨ sourceSize < current.stop then
    .error (.invalidRange current)
  else
    match merged with
    | [] => .ok [current]
    | last :: before =>
        if current.start ≤ last.stop then
          .ok (if last.stop < current.stop then ⟨last.start, current.stop⟩ :: before else merged)
        else .ok (current :: merged)

def normalizeJSONRanges (ranges : List JsonByteRange) (sourceSize : ℕ) :
    Except ScanError (List JsonByteRange × ℕ) := do
  let merged ← (ranges.mergeSort fun r r' => r.start ≤ r'.start).foldlM (mergeRange sourceSize) []
  let merged := merged.reverse
  return (merged, sourceSize - Cuts.total merged)

structure FilteredReplayableBody where
  storage : Bytes
  ranges : List JsonByteRange
  size : ℕ
  deriving DecidableEq

/-- The settings let every member through. -/
def ChannelOtherSettings.AllowAll (settings : ChannelOtherSettings) : Prop :=
  settings.allowServiceTier ∧ settings.allowInferenceGeo ∧ settings.allowSpeed ∧
    settings.disableStore = false ∧ settings.allowSafetyIdentifier ∧
    settings.allowIncludeObfuscation

instance (settings : ChannelOtherSettings) : Decidable settings.AllowAll := instDecidableAnd

/-- The filtered body of a storage, or none if it is passed on as it is. -/
def newPassThroughFilteredBody (storage : Bytes) (settings : ChannelOtherSettings) :
    Except ScanError (Option FilteredReplayableBody) :=
  if settings.AllowAll then return none
  else do
    let (ranges, scannedSize) ← scanPassThroughJSON settings storage
    if scannedSize ≠ storage.length then throw (.sizeChanged scannedSize storage.length)
    else if ranges = [] then return none
    else
      let (ranges, filteredSize) ← normalizeJSONRanges ranges storage.length
      return some ⟨storage, ranges, filteredSize⟩

/-! ### Readers -/

structure RangeFilteringReader where
  source : Bytes
  ranges : List JsonByteRange
  position : ℕ
  deriving DecidableEq

def FilteredReplayableBody.newReader (b : FilteredReplayableBody) : RangeFilteringReader :=
  ⟨b.storage, b.ranges, 0⟩

/-- Skips the ranges at the position of a reader; the ranges in front of it are dropped. -/
def skipRanges : List JsonByteRange → ℕ → Bytes → Except ScanError RangeFilteringReader
  | [], position, source => .ok ⟨source, [], position⟩
  | r :: ranges, position, source =>
      if r.stop ≤ position then skipRanges ranges position source
      else if r.start ≤ position then
        if source.length < r.stop - position then .error .eof
        else skipRanges ranges r.stop (source.drop (r.stop - position))
      else .ok ⟨source, r :: ranges, position⟩

/-- What one read delivers, and whether it reports the end. -/
structure Delivery where
  chunk : Bytes
  eof : Bool
  deriving DecidableEq

/-- How many bytes a reader may ask for, into a buffer of `len` bytes. -/
def RangeFilteringReader.limit (r : RangeFilteringReader) (len : ℕ) : ℕ :=
  match r.ranges with
  | [] => len
  | next :: _ => min len (next.start - r.position)

/-- One read into a buffer of `len` bytes.  Of the bytes that it asks for, the source gives at most
`n`; it reports its end at a read that finds nothing, or with the last bytes if it is `early`. -/
def RangeFilteringReader.read (r : RangeFilteringReader) (len n : ℕ) (early : Bool) :
    Except ScanError (Delivery × RangeFilteringReader) :=
  if len = 0 then return (⟨[], false⟩, r)
  else do
    let r ← skipRanges r.ranges r.position r.source
    let chunk := r.source.take (min n (r.limit len))
    let source := r.source.drop (min n (r.limit len))
    return (⟨chunk, source = [] ∧ (r.source = [] ∨ early)⟩,
      ⟨source, r.ranges, r.position + chunk.length⟩)

end MaxApi.PassThrough
