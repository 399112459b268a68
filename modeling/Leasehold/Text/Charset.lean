/-
  The character sets a message body may be written in.

  A name is looked up by its words, in small letters: whatever stands between them is one line, and at its ends it is
  dropped.  UTF-8 is the one to use when none is named; Latin-1 reads each byte as its character; ASCII refuses the
  bytes from 128 on; UTF-16 takes its byte order from a mark at the start and is little-endian without one.

  Some names stand for a coding that is no character set at all.  Of all other names, which there are hundreds of,
  whoever looks one up has to say what they stand for (`Codecs`).
-/
import Leasehold.Text.Hex
import Leasehold.Text.Utf8
namespace Leasehold.Text

/-- **A codec**: the characters of bytes, or the words for what does not fit. -/
structure Codec where
  decode : List UInt8 → Except String (List Char)

/-- The codecs that are there besides those of this module, by the spelling of a name that is looked up. -/
abbrev Codecs := String → Option Codec

/-- No other codecs. -/
def Codecs.none : Codecs := fun _ => Option.none

/-- What the name of a codec stands for. -/
inductive CodecName where
  | codec (c : Codec)
  | coding (name : String)
  | unknown

namespace CodecName

/-- The codec that texts are read with, if there is one. -/
def codec? : CodecName → Option Codec
  | codec c => some c
  | _ => none

end CodecName

/-- The character sets known by name. -/
inductive Charset where
  | utf8
  | utf8Marked
  | latin1
  | ascii
  | utf16
  | utf16Little
  | utf16Big
  deriving DecidableEq, Repr

namespace Charset

/-! ## Names -/

/-- Characters of the words of a name. -/
def isWordChar (c : Char) : Bool := c.isAlphanum || c = '.'

/-- The spelling of a name that is looked up. -/
def canonicalName (name : String) : String :=
  let words := (name.toList.splitOnP fun c => !isWordChar c).filter fun word => !word.isEmpty
  String.ofList (['_'].intercalate (words.map fun word => word.map Char.toLower))

/-- The name of something, and what else it is called. -/
structure Names where
  name : String
  aliases : List String

/-- Whether a spelling is one of the names.  A point may stand for the line in what it is called. -/
def Names.include (names : Names) (spelling : String) : Bool :=
  let lined := String.ofList (spelling.toList.map fun c => if c = '.' then '_' else c)
  names.name == spelling || names.aliases.contains spelling || names.aliases.contains lined

/-- The names of the character sets. -/
def charsets : List (Charset × Names) :=
  [(utf8, ⟨"utf_8", ["cp65001", "u8", "utf", "utf8", "utf8_ucs2", "utf8_ucs4"]⟩),
   (utf8Marked, ⟨"utf_8_sig", []⟩),
   (latin1, ⟨"latin_1", ["8859", "cp819", "csisolatin1", "ibm819", "iso8859", "iso8859_1", "iso_8859_1", "iso_8859_1_1987",
     "iso_ir_100", "l1", "latin", "latin1"]⟩),
   (ascii, ⟨"ascii", ["646", "ansi_x3.4_1968", "ansi_x3.4_1986", "ansi_x3_4_1968", "cp367", "csascii", "ibm367", "iso646_us",
     "iso_646.irv_1991", "iso_ir_6", "us", "us_ascii"]⟩),
   (utf16, ⟨"utf_16", ["u16", "utf16"]⟩),
   (utf16Little, ⟨"utf_16_le", ["unicodelittleunmarked", "utf_16le"]⟩),
   (utf16Big, ⟨"utf_16_be", ["unicodebigunmarked", "utf_16be"]⟩)]

/-- Codings that have names like those of charsets and are none, since what they turn bytes into is not text: the name
each goes by, and the names it is known by. -/
def codings : List (String × Names) :=
  [("hex", ⟨"hex_codec", ["hex"]⟩), ("base64", ⟨"base64_codec", ["base64", "base_64"]⟩),
   ("quopri", ⟨"quopri_codec", ["quopri", "quoted_printable", "quotedprintable"]⟩), ("uu", ⟨"uu_codec", ["uu"]⟩),
   ("bz2", ⟨"bz2_codec", ["bz2"]⟩), ("zlib", ⟨"zlib_codec", ["zip", "zlib"]⟩), ("rot-13", ⟨"rot_13", ["rot13"]⟩)]

/-- What a spelling is a name of. -/
def named? {α : Type} (table : List (α × Names)) (spelling : String) : Option α :=
  (table.find? (·.2.include spelling)).map (·.1)

/-- The name that a charset goes by. -/
def label : Charset → String
  | utf8 | utf8Marked => "utf-8"
  | latin1 => "latin-1"
  | ascii => "ascii"
  | utf16 | utf16Little => "utf-16-le"
  | utf16Big => "utf-16-be"

/-! ## UTF-16 -/

/-- The unit of two bytes. -/
def unit16 (big : Bool) (a b : UInt8) : Nat := if big then 256 * a.toNat + b.toNat else a.toNat + 256 * b.toNat

/-- The characters of a row of bytes, two or four bytes each, which begins at a place; or the misfit. -/
def decode16From (big : Bool) (place : Nat) : List UInt8 → Except Misfit (List Char)
  | [] => .ok []
  | [_] => .error ⟨place, 1, "truncated data"⟩
  | a :: b :: rest =>
    let u := unit16 big a b
    if 0xdc00 ≤ u && u ≤ 0xdfff then .error ⟨place, 2, "illegal encoding"⟩
    else if 0xd800 ≤ u && u ≤ 0xdbff then
      match rest with
      | c :: d :: more =>
        let v := unit16 big c d
        if 0xdc00 ≤ v && v ≤ 0xdfff then
          (decode16From big (place + 4) more).map (Char.ofNat (0x10000 + 1024 * (u - 0xd800) + (v - 0xdc00)) :: ·)
        else .error ⟨place, 2, "illegal UTF-16 surrogate"⟩
      | short => .error ⟨place, 2 + short.length, "unexpected end of data"⟩
    else (decode16From big (place + 2) rest).map (Char.ofNat u :: ·)

/-! ## Reading -/

/-- The characters of a row of ASCII bytes; or the misfit. -/
def decodeAscii (bytes : List UInt8) : Except Misfit (List Char) :=
  let fits := bytes.takeWhile (· < 0x80)
  if fits.length = bytes.length then .ok (bytes.map fun b => Char.ofNat b.toNat)
  else .error ⟨fits.length, 1, "ordinal not in range(128)"⟩

/-- **The characters of a body in a charset**, or the misfit. -/
def decode (charset : Charset) (bytes : List UInt8) : Except Misfit (List Char) :=
  match charset with
  | utf8 => Utf8.decode bytes
  | utf8Marked =>
    match bytes with
    | 0xef :: 0xbb :: 0xbf :: rest => Utf8.decode rest
    | _ => Utf8.decode bytes
  | latin1 => .ok (bytes.map fun b => Char.ofNat b.toNat)
  | ascii => decodeAscii bytes
  | utf16 =>
    match bytes with
    | 0xff :: 0xfe :: rest => decode16From false 2 rest
    | 0xfe :: 0xff :: rest => decode16From true 2 rest
    | _ => decode16From false 0 bytes
  | utf16Little => decode16From false 0 bytes
  | utf16Big => decode16From true 0 bytes

/-- The words for a misfit in bytes. -/
def misfitText (charset : Charset) (bytes : List UInt8) (m : Misfit) : String :=
  "'" ++ charset.label ++ "' codec can't decode "
    ++ (if m.count = 1 then
        "byte 0x" ++ String.ofList (hexWide 2 ((bytes.drop m.first).headD 0).toNat) ++ " in position " ++ toString m.first
      else "bytes in position " ++ toString m.first ++ "-" ++ toString (m.first + m.count - 1))
    ++ ": " ++ m.reason

/-- **A charset as a codec.** -/
def codec (charset : Charset) : Codec := ⟨fun bytes => (charset.decode bytes).mapError (charset.misfitText bytes)⟩

/-- **What a name stands for**, where there are other codecs besides. -/
def lookup (others : Codecs) (name : String) : CodecName :=
  let spelling := canonicalName name
  match named? charsets spelling with
  | some charset => .codec charset.codec
  | none => match named? codings spelling with
    | some coding => .coding coding
    | none => match others spelling with
      | some c => .codec c
      | none => .unknown

/-- The words for a coding that was to be used to read a text. -/
def codingText (coding : String) : String :=
  "'" ++ coding ++ "' is not a text encoding; use codecs.decode() to handle arbitrary codecs"

/-! ## Samples -/

example : canonicalName " UTF--8_" = "utf_8" := by decide
example : named? charsets (canonicalName "ISO-8859.1") = some latin1 := by decide
example : named? charsets (canonicalName "utf.8") = none := by decide

end Charset
end Leasehold.Text
