/-
  Requests and responses.

  Only what lease records need of HTTP is here: a method, a path, a content type and a body.  A content type says
  two things: whether the body is JSON, and in which charset its characters are written.
-/
import Leasehold.Error
import Leasehold.Text.Charset
import Leasehold.Text.Lowercase
namespace Leasehold.Http

/-- A request. -/
structure Request where
  method : String
  path : String
  contentType : String
  body : List UInt8
  deriving Repr

/-- What a response shows: a text, or the page of the metrics by its lines. -/
inductive Page where
  | text (s : String)
  | metrics (lines : List String)
  deriving Repr

/-- A response. -/
structure Response where
  status : Nat
  contentType : String
  allow : Option String
  page : Page
  deriving Repr

/-! ## Content types -/

/-- The content type of a request or a response with JSON. -/
def jsonType : String := "application/json"

/-- The content type of a response with JSON, its charset told. -/
def jsonUtf8Type : String := "application/json; charset=utf-8"

/-- The content type of a response in words. -/
def plainUtf8Type : String := "text/plain; charset=utf-8"

/-- A text without the blanks and then without the double quotes at its ends. -/
def bareWord (cs : List Char) : List Char :=
  let word := Text.trimBlanks cs
  match word, word.getLast? with
  | q :: rest, some l =>
    if q = Text.doubleQuote && l = Text.doubleQuote && !rest.isEmpty then rest.dropLast else word
  | _, _ => word

/-- The charset that a content type names; a name that is empty names none. -/
def charsetName? (contentType : String) : Option String :=
  ((contentType.toList.splitOn ';').drop 1).findSome? fun cs =>
    let name := Text.lower (String.ofList (Text.trimBlanks (cs.takeWhile (· ≠ '='))))
    let word := bareWord ((cs.dropWhile (· ≠ '=')).drop 1)
    if name = "charset" && !word.isEmpty then some (String.ofList word) else none

/-- Characters of the names of media types. -/
def isTypeChar (c : Char) : Bool := c.isAlphanum || c = '_' || c = '.' || c = '+' || c = '-'

/-- Whether a word `x+json` stands at the front, where `seen` tells that `x` is not empty. -/
def hasJsonSuffix (seen : Bool) : List Char → Bool
  | [] => false
  | c :: rest => (seen && "+json".toList.isPrefixOf (c :: rest)) || (isTypeChar c && hasJsonSuffix true rest)

/-- Whether a content type, in small letters, is one of JSON. -/
def isJsonType (contentType : String) : Bool :=
  let cs := contentType.toList
  "application/".toList.isPrefixOf cs
    && ("json".toList.isPrefixOf (cs.drop 12) || hasJsonSuffix false (cs.drop 12))

/-! ## Bodies -/

/-- A body without the ASCII blanks at its ends. -/
def trimBody (body : List UInt8) : List UInt8 :=
  let blank (b : UInt8) : Bool := Text.isAsciiBlank (Char.ofNat b.toNat)
  ((body.dropWhile blank).reverse.dropWhile blank).reverse

/-- The kind of failure when a body is said to be in a coding that is no charset. -/
def notTextKind : Kind := .other "LookupError"

/-- The JSON of bytes that a codec reads. -/
def readWith (codec : Text.Codec) (bytes : List UInt8) : Except Error Value :=
  match codec.decode bytes with
  | .ok cs => (Json.read cs).mapError Error.document
  | .error words => .error (.raised .undecodable words)

/-- **The JSON of a response**: its content type has to be one of JSON, and a blank body is null.  A charset that is not known,
by the codecs that are there besides, is passed over. -/
def readJson (others : Text.Codecs) (status : Int) (contentType : String) (body : List UInt8) (url : String) :
    Except Error Value :=
  let type := Text.lower contentType
  if !isJsonType type then .error (.contentType status type url)
  else
    let bytes := trimBody body
    if bytes.isEmpty then .ok .null
    else match (charsetName? type).map (Text.Charset.lookup others) with
    | some (.codec codec) => readWith codec bytes
    | some (.coding coding) => .error (.raised notTextKind (Text.Charset.codingText coding))
    | _ => readWith Text.Charset.utf8.codec bytes

/-! ## Samples -/

example : isJsonType "application/json; charset=utf-8" = true := by decide
example : isJsonType "application/vnd.api+json" = true := by decide
example : isJsonType "application/+json" = false := by decide

end Leasehold.Http
