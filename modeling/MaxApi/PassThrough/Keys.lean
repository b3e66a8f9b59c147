import Mathlib.Data.List.Basic

/-! # Pass-through bodies: the keys of JSON objects

A key is decoded as `encoding/json` decodes a string.  A decoded text is a list of bytes; bytes from
`0x80` on stand for themselves. -/

namespace MaxApi.PassThrough

abbrev Bytes := List UInt8

def byte (c : Char) : UInt8 := c.toUInt8

def quote : UInt8 := byte '\x22'

def backslash : UInt8 := byte '\x5c'

def openBrace : UInt8 := byte '\x7b'

def closeBrace : UInt8 := byte '\x7d'

/-- The bytes of an ASCII name. -/
def name (s : String) : Bytes := s.toList.map byte

/-! ### Escapes -/

def hexValue (b : UInt8) : Option ℕ :=
  if byte '0' ≤ b ∧ b ≤ byte '9' then some (b.toNat - 48)
  else if byte 'a' ≤ b ∧ b ≤ byte 'f' then some (b.toNat - 87)
  else if byte 'A' ≤ b ∧ b ≤ byte 'F' then some (b.toNat - 55)
  else none

def getu4 (a b c d : UInt8) : Option ℕ := do
  return (← hexValue a) * 4096 + (← hexValue b) * 256 + (← hexValue c) * 16 + (← hexValue d)

/-- The byte of an escape of two bytes. -/
def unescape (e : UInt8) : Option UInt8 :=
  if e = quote ∨ e = backslash ∨ e = byte '/' then some e
  else if e = byte 'b' then some 8
  else if e = byte 'f' then some 12
  else if e = byte 'n' then some 10
  else if e = byte 'r' then some 13
  else if e = byte 't' then some 9
  else none

/-- A part of a string: a byte, or the code of an escape `\u`. -/
inductive Part where
  | byte (b : UInt8)
  | code (r : ℕ)
  deriving DecidableEq

/-- The parts of a string behind its opening quote. -/
def parts : Bytes → Option (List Part)
  | [] => none
  | c :: rest =>
      if c = quote then if rest = [] then some [] else none
      else if c = backslash then
        match rest with
        | [] => none
        | e :: rest =>
            if e = byte 'u' then
              match rest with
              | a :: b :: c :: d :: rest => do
                  let r ← getu4 a b c d
                  return .code r :: (← parts rest)
              | _ => none
            else do
              let b ← unescape e
              return .byte b :: (← parts rest)
      else if c < 32 then none
      else do return .byte c :: (← parts rest)

def EncodeRune (r : ℕ) : Bytes :=
  if r.isValidChar then String.utf8EncodeChar (Char.ofNat r)
  else String.utf8EncodeChar (Char.ofNat 0xfffd)

/-- The code of a pair of surrogates. -/
def DecodeRune (r r' : ℕ) : Option ℕ :=
  if 0xd800 ≤ r ∧ r < 0xdc00 ∧ 0xdc00 ≤ r' ∧ r' < 0xe000 then
    some ((r - 0xd800) * 0x400 + (r' - 0xdc00) + 0x10000)
  else none

/-- The bytes of the parts of a string. -/
def joinParts : List Part → Bytes
  | [] => []
  | .byte b :: ps => b :: joinParts ps
  | .code r :: .code r' :: ps =>
      match DecodeRune r r' with
      | some r => EncodeRune r ++ joinParts ps
      | none => EncodeRune r ++ joinParts (.code r' :: ps)
  | .code r :: ps => EncodeRune r ++ joinParts ps

/-- Decodes a JSON string with its quotes. -/
def unmarshalString (raw : Bytes) : Option Bytes :=
  match raw with
  | [] => none
  | c :: rest => if c = quote then (parts rest).map joinParts else none

end MaxApi.PassThrough
