/-
  UTF-8, read strictly.

  Bytes are read one at a time onto a short row of pending bytes.  `classify` says what the row is: one whole
  character, the BEGINNING of one, or bad.  Overlong forms, surrogates and numbers past U+10FFFF are bad as soon
  as the second byte shows it, so a row is never pending in vain.
-/
namespace Leasehold.Text

/-- Why bytes are no text: the place of the first byte that does not fit, how many belong to it, and the reason. -/
structure Misfit where
  first : Nat
  count : Nat
  reason : String
  deriving DecidableEq, Repr

namespace Utf8

/-- What a row of bytes is. -/
inductive Reading where
  | whole (c : Char)
  | beginning
  | bad

/-- A continuation byte: 10xxxxxx. -/
def isContinuation (b : UInt8) : Bool := 0x80 ≤ b && b ≤ 0xbf

/-- The least and the greatest second byte that may follow a lead byte. -/
def secondByteRange (lead : UInt8) : UInt8 × UInt8 :=
  if lead = 0xe0 then (0xa0, 0xbf)
  else if lead = 0xed then (0x80, 0x9f)
  else if lead = 0xf0 then (0x90, 0xbf)
  else if lead = 0xf4 then (0x80, 0x8f)
  else (0x80, 0xbf)

/-- The length of the character that a lead byte opens. -/
def lengthOf? (lead : UInt8) : Option Nat :=
  if lead < 0x80 then some 1
  else if 0xc2 ≤ lead && lead ≤ 0xdf then some 2
  else if 0xe0 ≤ lead && lead ≤ 0xef then some 3
  else if 0xf0 ≤ lead && lead ≤ 0xf4 then some 4
  else none

/-- The bits that a lead byte gives to a character of the length. -/
def leadBits (lead : UInt8) (length : Nat) : Nat :=
  match length with
  | 1 => lead.toNat
  | 2 => lead.toNat % 32
  | 3 => lead.toNat % 16
  | _ => lead.toNat % 8

/-- The number that the lead bits and the continuation bytes spell. -/
def codePoint (lead : Nat) (tail : List UInt8) : Nat :=
  tail.foldl (fun n b => 64 * n + b.toNat % 64) lead

/-- **What a row of bytes is**, given that all of it but the last byte was a beginning. -/
def classify : List UInt8 → Reading
  | [] => .beginning
  | lead :: tail =>
    match lengthOf? lead with
    | none => .bad
    | some length =>
      let secondFits := match tail with
        | [] => true
        | second :: _ => (secondByteRange lead).1 ≤ second && second ≤ (secondByteRange lead).2
      if !secondFits || !(tail.all isContinuation) || length ≤ tail.length then .bad
      else if tail.length + 1 = length then .whole (Char.ofNat (codePoint (leadBits lead length) tail))
      else .beginning

/-- The characters of a row of bytes onto `pending`, which begins at a place; or the misfit. -/
def decodeFrom (place : Nat) (pending : List UInt8) : List UInt8 → Except Misfit (List Char)
  | [] => if pending.isEmpty then .ok [] else .error ⟨place, pending.length, "unexpected end of data"⟩
  | b :: rest =>
    match classify (pending ++ [b]) with
    | .whole c => (decodeFrom (place + pending.length + 1) [] rest).map (c :: ·)
    | .beginning => decodeFrom place (pending ++ [b]) rest
    | .bad =>
      if pending.isEmpty then .error ⟨place, 1, "invalid start byte"⟩
      else .error ⟨place, pending.length, "invalid continuation byte"⟩

/-- The characters of a row of bytes, or the misfit. -/
def decode (bytes : List UInt8) : Except Misfit (List Char) := decodeFrom 0 [] bytes

/-- The characters of a row of bytes onto `pending`, with one mark for each row of bytes that is none. -/
def decodeLossy (pending : List UInt8) : List UInt8 → List Char
  | [] => if pending.isEmpty then [] else ['\ufffd']
  | b :: rest =>
    match classify (pending ++ [b]) with
    | .whole c => c :: decodeLossy [] rest
    | .beginning => decodeLossy (pending ++ [b]) rest
    | .bad =>
      if pending.isEmpty then '\ufffd' :: decodeLossy [] rest
      else '\ufffd' :: match classify [b] with
        | .whole c => c :: decodeLossy [] rest
        | .beginning => decodeLossy [b] rest
        | .bad => '\ufffd' :: decodeLossy [] rest

/-- The bytes of a row of characters. -/
def encode (cs : List Char) : List UInt8 := cs.flatMap String.utf8EncodeChar

/-- Characters are encoded one after the other. -/
theorem encode_append (cs ds : List Char) : encode (cs ++ ds) = encode cs ++ encode ds := List.flatMap_append

/-! ## Samples -/

example : (decode [0x61, 0xc3, 0xa9]).toOption = some ['a', 'é'] := by decide
example : (decode [0xc0, 0x80]).toOption = none := by decide
example : (decode (encode ['锁', '🔒'])).toOption = some ['锁', '🔒'] := by decide

end Utf8
end Leasehold.Text
