import MaxApi.PassThrough.Scanner

/-! # Pass-through bodies: texts of JSON

The texts of JSON values, and of objects as their members with all the whitespace in them. -/

namespace MaxApi.PassThrough

/-! ### Strings and numbers -/

/-- A text of whitespace. -/
def Blank (t : Bytes) : Prop := ∀ b ∈ t, IsJSONWhitespace b

def IsHexDigit (b : UInt8) : Prop := (hexValue b).isSome

/-- One byte of a string, or one escape. -/
inductive IsPiece : Bytes → Prop
  | plain {b : UInt8} (hcontrol : ¬ b < 32) (hquote : b ≠ quote) (hbackslash : b ≠ backslash) :
      IsPiece [b]
  | escape {e : UInt8} (h : (unescape e).isSome) : IsPiece [backslash, e]
  | unicode {a b c d : UInt8} (ha : IsHexDigit a) (hb : IsHexDigit b) (hc : IsHexDigit c)
      (hd : IsHexDigit d) : IsPiece [backslash, byte 'u', a, b, c, d]

/-- A string with its quotes. -/
def IsString (t : Bytes) : Prop :=
  ∃ pieces : List Bytes, (∀ p ∈ pieces, IsPiece p) ∧ t = quote :: (pieces.flatten ++ [quote])

def IsDigits (t : Bytes) : Prop := t ≠ [] ∧ ∀ b ∈ t, IsDigit b

/-- The digits in front of the point have no leading zero. -/
def IsNumber (t : Bytes) : Prop :=
  ∃ sign int frac exp : Bytes, t = sign ++ int ++ frac ++ exp ∧
    (sign = [] ∨ sign = [byte '-']) ∧
    (int = [byte '0'] ∨ (IsDigits int ∧ int.head? ≠ some (byte '0'))) ∧
    (frac = [] ∨ ∃ ds, IsDigits ds ∧ frac = byte '.' :: ds) ∧
    (exp = [] ∨ ∃ e s ds, (e = byte 'e' ∨ e = byte 'E') ∧
      (s = [] ∨ s = [byte '+'] ∨ s = [byte '-']) ∧ IsDigits ds ∧ exp = e :: (s ++ ds))

/-! ### Members, items and values -/

/-- Texts with commas between them. -/
def join : List Bytes → Bytes
  | [] => []
  | t :: ts => t ++ ts.flatMap fun u => byte ',' :: u

/-- A member of an object with the whitespace around its parts. -/
structure Member (α : Type) where
  before : Bytes
  key : Bytes
  afterKey : Bytes
  beforeValue : Bytes
  value : α
  after : Bytes

section members

variable {α β : Type}

def Member.map (f : α → β) (m : Member α) : Member β :=
  ⟨m.before, m.key, m.afterKey, m.beforeValue, f m.value, m.after⟩

/-- The parts of a member other than its value. -/
structure Member.Spaced (m : Member α) : Prop where
  before : Blank m.before
  key : IsString m.key
  afterKey : Blank m.afterKey
  beforeValue : Blank m.beforeValue
  after : Blank m.after

/-- The key that the text stands for. -/
def Member.decodedKey (m : Member α) : Bytes := (unmarshalString m.key).getD []

end members

def Member.text (m : Member Bytes) : Bytes :=
  m.before ++ m.key ++ m.afterKey ++ [byte ':'] ++ m.beforeValue ++ m.value ++ m.after

def objectText (members : List (Member Bytes)) (blank : Bytes) : Bytes :=
  openBrace :: (join (members.map Member.text) ++ blank ++ [closeBrace])

/-- An item of an array with the whitespace around it. -/
structure Item where
  before : Bytes
  value : Bytes
  after : Bytes

def Item.text (i : Item) : Bytes := i.before ++ i.value ++ i.after

def arrayText (items : List Item) (blank : Bytes) : Bytes :=
  byte '[' :: (join (items.map Item.text) ++ blank ++ [byte ']'])

/-- The texts of JSON values, without whitespace around them. -/
inductive IsValue : Bytes → Prop
  | string {t : Bytes} (h : IsString t) : IsValue t
  | number {t : Bytes} (h : IsNumber t) : IsValue t
  | true : IsValue (name "true")
  | false : IsValue (name "false")
  | null : IsValue (name "null")
  | array {items : List Item} {blank : Bytes}
      (hspaced : ∀ i ∈ items, Blank i.before ∧ Blank i.after)
      (hvalues : ∀ i ∈ items, IsValue i.value) (hblank : Blank blank) :
      IsValue (arrayText items blank)
  | object {members : List (Member Bytes)} {blank : Bytes} (hspaced : ∀ m ∈ members, m.Spaced)
      (hvalues : ∀ m ∈ members, IsValue m.value) (hblank : Blank blank) :
      IsValue (objectText members blank)

/-! ### What is let through -/

/-- The value of a member of the body: the members of an object, or another value. -/
inductive Content where
  | object (members : List (Member Bytes)) (blank : Bytes)
  | other (text : Bytes)

def Content.text : Content → Bytes
  | .object members blank => objectText members blank
  | .other text => text

inductive Content.Valid : Content → Prop
  | object {members : List (Member Bytes)} {blank : Bytes} (hspaced : ∀ m ∈ members, m.Spaced)
      (hvalues : ∀ m ∈ members, IsValue m.value) (hblank : Blank blank) :
      Valid (.object members blank)
  | other {text : Bytes} (h : IsValue text) (hother : text.head? ≠ some openBrace) :
      Valid (.other text)

/-- The whitespace in front of the closing brace, with what stood behind a removed last member. -/
def trailing {α β : Type} (edit : Member α → Option β) (members : List (Member α))
    (blank : Bytes) : Bytes :=
  match members.getLast? with
  | none => blank
  | some m => if (edit m).isNone then m.after ++ blank else blank

section kept

variable (settings : ChannelOtherSettings)

/-- What is left of a member of `stream_options`. -/
def keptOption (m : Member Bytes) : Option Bytes :=
  if shouldRemoveJSONMember .streamOptions m.decodedKey settings then none else some m.value

/-- The members that an edit keeps, with their new values. -/
def keptMembers {α β : Type} (edit : Member α → Option β) (members : List (Member α)) :
    List (Member β) :=
  members.filterMap fun m => (edit m).map fun v => m.map fun _ => v

/-- What is left of a value of `stream_options`: nothing of an object that has lost all members. -/
def keptStreamOptions : Content → Option Content
  | .other text => some (.other text)
  | .object members blank =>
      let kept := keptMembers (keptOption settings) members
      if kept = [] ∧ members ≠ [] then none
      else some (.object kept (trailing (keptOption settings) members blank))

/-- What is left of a member of the body. -/
def keptContent (m : Member Content) : Option Content :=
  if shouldRemoveJSONMember .root m.decodedKey settings then none
  else if m.decodedKey = name "stream_options" ∧ settings.allowIncludeObfuscation = false then
    keptStreamOptions settings m.value
  else some m.value

end kept

end MaxApi.PassThrough
