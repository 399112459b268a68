/-
  Names in URLs.

  Three changes of spelling meet when a name travels in a path:

  1. **`encode`** — the sender keeps letters, digits and four marks and writes every other byte of the UTF-8 form
     as a percent sign and two capital hexadecimal digits;
  2. **`tidyPath`** — the sender's URL then unwrites the escapes of characters that a path may show as they are;
  3. **`decodeSafe`, `unwrap`** — the receiver reads escapes back as UTF-8, all but the slash and the percent
     sign, so that an escaped slash splits no segment; once the segment is cut out, those two are read back too.

  An escape that is malformed, or whose bytes are not UTF-8, stays as it was written.
-/
import Leasehold.Text.Hex
import Leasehold.Text.Utf8
namespace Leasehold.Text.Percent

/-! ## Writing -/

/-- ASCII letters, digits and the four marks that are never escaped. -/
def isUnreserved (c : Char) : Bool := c.isAlphanum || c = '_' || c = '.' || c = '-' || c = '~'

/-- A byte as a percent sign and two capital digits. -/
def escapeByte (b : UInt8) : List Char :=
  ['%', hexDigitUpper (b.toNat / 16), hexDigitUpper (b.toNat % 16)]

/-- One character of a name: as it is, or its bytes escaped. -/
def encodeChar (c : Char) : List Char :=
  if isUnreserved c then [c] else (String.utf8EncodeChar c).flatMap escapeByte

/-- **A name as one segment of a path.** -/
def encode (s : String) : String := String.ofList (s.toList.flatMap encodeChar)

/-! ## Tidying a URL -/

/-- Characters that a path shows as they are, though a name in it was escaped. -/
def showsInPath (c : Char) : Bool := isUnreserved c || "@:!$'()*,&=;".toList.contains c

/-- A character that stands in a path without an escape: as it is if it may, else escaped. -/
def tidyChar (c : Char) : List Char :=
  if showsInPath c || c = '/' || c = '+' then [c] else encodeChar c

/-- Unwrites the escapes that need not be there, and writes those that are missing. -/
def tidyChars : List Char → List Char
  | '%' :: h :: l :: rest =>
    match hexValue? h, hexValue? l with
    | some hi, some lo =>
      let c := Char.ofNat (16 * hi + lo)
      if showsInPath c then c :: tidyChars rest else '%' :: h.toUpper :: l.toUpper :: tidyChars rest
    | _, _ => tidyChar '%' ++ tidyChars (h :: l :: rest)
  | c :: rest => tidyChar c ++ tidyChars rest
  | [] => []
termination_by cs => cs.length

/-- Whether a segment is a dot segment: the place itself, or the place above. -/
def resolveSegments : List String → List String → List String
  | done, [] => done
  | done, ["."] => done ++ [""]
  | done, [".."] => done.dropLast ++ [""]
  | done, "." :: rest => resolveSegments done rest
  | done, ".." :: rest => resolveSegments done.dropLast rest
  | done, s :: rest => resolveSegments (done ++ [s]) rest

/-- The path of a URL as the sender shows it: tidied, its dot segments resolved. -/
def tidyPath (path : String) : String :=
  match ((tidyChars path.toList).splitOn '/').map String.ofList with
  | "" :: segments => "/" ++ "/".intercalate (resolveSegments [] segments)
  | segments => "/".intercalate segments

/-! ## Reading -/

/-- The escapes of the pending bytes, as they were written. -/
def rawOf (pending : List (UInt8 × List Char)) : List Char := pending.flatMap (·.2)

/-- A character that came out of an escape; the slash and the percent sign keep an escape. -/
def shownSafe (c : Char) : List Char :=
  if c = '/' then "%2F".toList else if c = '%' then "%25".toList else [c]

/-- Reads escapes back, but for the slash and the percent sign; `pending` holds the escapes of a character that
has begun, each byte with its spelling. -/
def decodeSafeFrom (pending : List (UInt8 × List Char)) : List Char → List Char
  | [] => rawOf pending
  | '%' :: h :: l :: rest =>
    match hexValue? h, hexValue? l with
    | some hi, some lo =>
      let b := UInt8.ofNat (16 * hi + lo)
      let spelled := ['%', h, l]
      match Utf8.classify (pending.map (·.1) ++ [b]) with
      | .whole c => shownSafe c ++ decodeSafeFrom [] rest
      | .beginning => decodeSafeFrom (pending ++ [(b, spelled)]) rest
      | .bad =>
        match Utf8.classify [b] with
        | .whole c => rawOf pending ++ shownSafe c ++ decodeSafeFrom [] rest
        | .beginning => rawOf pending ++ decodeSafeFrom [(b, spelled)] rest
        | .bad => rawOf pending ++ spelled ++ decodeSafeFrom [] rest
    | _, _ => rawOf pending ++ '%' :: decodeSafeFrom [] (h :: l :: rest)
  | c :: rest => rawOf pending ++ c :: decodeSafeFrom [] rest
termination_by cs => cs.length

/-- A path with its escapes read back, but for the slash and the percent sign. -/
def decodeSafe (path : List Char) : List Char := decodeSafeFrom [] path

/-- Reads back the escape of the slash. -/
def unwrapSlash : List Char → List Char
  | '%' :: '2' :: 'F' :: rest => '/' :: unwrapSlash rest
  | c :: rest => c :: unwrapSlash rest
  | [] => []

/-- Reads back the escape of the percent sign. -/
def unwrapPercent : List Char → List Char
  | '%' :: '2' :: '5' :: rest => '%' :: unwrapPercent rest
  | c :: rest => c :: unwrapPercent rest
  | [] => []

/-- The two escapes that `decodeSafe` left in a segment, the slash's first. -/
def unwrap (segment : List Char) : List Char := unwrapPercent (unwrapSlash segment)

end Leasehold.Text.Percent
