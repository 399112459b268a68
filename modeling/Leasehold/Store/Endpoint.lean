/-
  Where a table service is found.

  A REGION is a label: letters, digits and hyphens, with no hyphen at an end, and not digits alone.  It gives the
  address of its service (`ofRegion`), in the network that the region belongs to.

  Any address may be given instead.  It can be used if its host is a name, made of labels between points, or a number
  between square brackets (`isUsable`); else `fault?` tells why not.
-/
import Leasehold.Error
import Leasehold.Text.Digit
import Leasehold.Text.Lowercase
namespace Leasehold.Endpoint

/-! ## Labels -/

/-- Whether a character may stand in a label: a letter, or a hyphen; and where `scripts` says so, a digit of any script,
or one of the two letters that have a plain one for a capital. -/
def isLabelChar (scripts : Bool) (c : Char) : Bool :=
  c.isAlphanum || c = '-' || (scripts && ((Text.digit? c).isSome || c = 'ı' || c = 'ſ'))

/-- Whether characters are a label, empty or not. -/
def isLabel (scripts : Bool) (cs : List Char) : Bool :=
  cs.all (isLabelChar scripts) && cs.length ≤ 63 && cs.head? != some '-' && cs.getLast? != some '-'

/-- A text without one line feed at its end. -/
def trimLine (cs : List Char) : List Char := if cs.getLast? = some '\n' then cs.dropLast else cs

/-! ## Regions -/

/-- Whether a text names a region; the empty text does. -/
def isRegion (region : String) : Bool :=
  let cs := trimLine region.toList
  isLabel false cs && (cs.isEmpty || !(cs.all Char.isDigit))

/-- A network of regions: how their names begin, and the domain of its services. -/
structure Network where
  front : String
  domain : String

/-- The networks that have a domain of their own. -/
def networks : List Network :=
  [⟨"cn-", "amazonaws.com.cn"⟩, ⟨"us-iso-", "c2s.ic.gov"⟩, ⟨"us-isob-", "sc2s.sgov.gov"⟩,
   ⟨"eu-isoe-", "cloud.adc-e.uk"⟩, ⟨"us-isof-", "csp.hci.ic.gov"⟩, ⟨"eusc-de-", "amazonaws.eu"⟩]

/-- Whether characters are a word, a hyphen and digits. -/
def isPlace (cs : List Char) : Bool :=
  let word := cs.takeWhile Char.isAlphanum
  match cs.dropWhile Char.isAlphanum with
  | '-' :: digits => !word.isEmpty && !digits.isEmpty && digits.all Char.isDigit
  | _ => false

/-- The domain of a region's services. -/
def domainOf (region : String) : String :=
  let cs := trimLine region.toList
  match networks.find? fun n => n.front.toList.isPrefixOf cs && isPlace (cs.drop n.front.length) with
  | some n => n.domain
  | none => "amazonaws.com"

/-- Characters without any row of them that spells a word, after the first few. -/
def strike (word : List Char) : Nat → List Char → List Char
  | _, [] => []
  | skip + 1, _ :: rest => strike word skip rest
  | 0, c :: rest => if word.isPrefixOf (c :: rest) then strike word (word.length - 1) rest else c :: strike word 0 rest

/-- A region without the word for validated cryptography, which may stand in front of its name or behind it. -/
def plainRegion (region : String) : String :=
  String.ofList (strike "-fips".toList 0 (strike "fips-".toList 0 region.toList))

/-- The regions whose usual service is the validated one. -/
def validatedRegions : List String := ["us-gov-east-1", "us-gov-west-1"]

/-- The name of the service in a region: the validated one has a name of its own. -/
def serviceName (region : String) : String :=
  if plainRegion region = region || validatedRegions.contains (plainRegion region) then "dynamodb" else "dynamodb-fips"

/-- **The address of the service in a region.** -/
def ofRegion (region : String) : String :=
  let plain := plainRegion region
  if plain = "local" then "http://localhost:8000"
  else "https://" ++ serviceName region ++ "." ++ plain ++ "." ++ domainOf plain

/-! ## Addresses -/

/-- The part of an address behind its scheme, which is a letter and more letters, digits, and signs. -/
def afterScheme (cs : List Char) : List Char :=
  let scheme := cs.takeWhile (· ≠ ':')
  match scheme, cs.dropWhile (· ≠ ':') with
  | first :: _, ':' :: rest =>
    if first.isAlpha && scheme.all (fun c => c.isAlphanum || c = '+' || c = '-' || c = '.') then rest else cs
  | _, _ => cs

/-- The place that an address names, with everything that may stand around the host: what lies between two slashes and
the path, the query or the fragment. -/
def authority (url : String) : List Char :=
  match afterScheme url.toList with
  | '/' :: '/' :: rest => rest.takeWhile fun c => c ≠ '/' && c ≠ '?' && c ≠ '#'
  | _ => []

/-- What comes after the last character of a kind, or all there is. -/
def afterLast (mark : Char) (cs : List Char) : List Char := (cs.reverse.takeWhile (· ≠ mark)).reverse

/-- The host in a place: between square brackets, or before the port. -/
def hostOf (place : List Char) : List Char :=
  let cs := afterLast '@' place
  match cs.dropWhile (· ≠ '[') with
  | _ :: bracketed => bracketed.takeWhile (· ≠ ']')
  | [] => cs.takeWhile (· ≠ ':')

/-- The pieces between marks. -/
def pieces (mark : Char) (cs : List Char) : List (List Char) :=
  cs.foldr (fun c acc => match acc with
    | piece :: rest => if c = mark then [] :: piece :: rest else (c :: piece) :: rest
    | [] => [[c]]) [[]]

/-- Whether a host is a name: labels between points, one more point at the end or not. -/
def isHostName (cs : List Char) : Bool :=
  let body := if cs.getLast? = some '.' then cs.dropLast else cs
  cs.length ≤ 255 && (pieces '.' body).all fun label => isLabel true label && !label.isEmpty

/-! ## Numbers of hosts -/

/-- Whether characters are one of the eight groups of a long number. -/
def isGroup (cs : List Char) : Bool :=
  1 ≤ cs.length && cs.length ≤ 4
    && cs.all fun c => c.isDigit || "abcdefABCDEF".toList.contains c

/-- Whether characters are a short number: four pieces of one to three digits. -/
def isShortNumber (cs : List Char) : Bool :=
  let parts := pieces '.' cs
  parts.length = 4 && parts.all fun p => 1 ≤ p.length && p.length ≤ 3 && p.all Char.isDigit

/-- How many groups pieces stand for, the last of which may be a short number; none if a piece is no group. -/
def groupCount? (parts : List (List Char)) : Option Nat :=
  match parts.getLast? with
  | none => some 0
  | some final =>
    if !(parts.dropLast.all isGroup) then none
    else if isGroup final then some parts.length
    else if isShortNumber final then some (parts.length + 1)
    else none

/-- The groups between colons; no characters are no groups. -/
def groups (cs : List Char) : List (List Char) := if cs.isEmpty then [] else pieces ':' cs

/-- The characters before and behind the first two colons in a row, if there are any. -/
def splitGap? : List Char → Option (List Char × List Char)
  | ':' :: ':' :: rest => some ([], rest)
  | c :: rest => (splitGap? rest).map fun (before, behind) => (c :: before, behind)
  | [] => none

/-- Whether characters are a long number: eight groups, or fewer around one gap. -/
def isLongNumber (cs : List Char) : Bool :=
  match splitGap? cs with
  | none => groupCount? (groups cs) = some 8
  | some (before, behind) =>
    (groups before).all isGroup
      && match groupCount? (groups behind) with
        | some n => (groups before).length + n ≤ 7
        | none => false

/-- The characters of a zone's name: plain ones, and bytes with a percent sign before them. -/
def isZone : List Char → Bool
  | [] => true
  | '%' :: a :: b :: rest => isGroup [a] && isGroup [b] && isZone rest
  | c :: rest => (c.isAlphanum || "-._~".toList.contains c) && isZone rest

/-- Whether a host is a long number, with the name of a zone or without. -/
def isHostNumber (cs : List Char) : Bool :=
  isLongNumber (cs.takeWhile (· ≠ '%'))
    && match cs.dropWhile (· ≠ '%') with
      | [] => true
      | _ :: zone => !zone.isEmpty && isZone zone

/-- **Whether an address can be used.** -/
def isUsable (url : String) : Bool :=
  let host := (Text.lower (String.ofList (hostOf (authority url)))).toList
  !(url.toList.any fun c => c = '\t' || c = '\r' || c = '\n') && !host.isEmpty && (isHostName host || isHostNumber host)

/-- The characters that are another way to write a sign of an address, alone or with others. -/
def blends : List Char :=
  "\u2047\u2048\u2049\u2100\u2101\u2105\u2106\u2a74\ufe13\ufe16\ufe55\ufe56\ufe5f\ufe6b\uff03\uff0f\uff1a\uff1f\uff20".toList

/-- **Why an address cannot be used**, if it cannot: a bracket stands alone, a sign is written in another way, or the host
is none. -/
def fault? (url : String) : Option ClientFault :=
  let place := authority url
  if url.toList.any fun c => c = '\t' || c = '\r' || c = '\n' then some (.address url)
  else if place.contains '[' != place.contains ']' then some .brackets
  else if place.any blends.contains then some (.blended (String.ofList place))
  else if isUsable url then none
  else some (.address url)

/-! ## Samples -/

example : ofRegion "cn-north-1" = "https://dynamodb.cn-north-1.amazonaws.com.cn" := by decide +kernel
example : isUsable "http://localhost:8000/" = true := by decide +kernel
example : isUsable "https://dynamodb..amazonaws.com" = false := by decide +kernel
example : isUsable "http://[::1]:8000" = true := by decide +kernel

end Leasehold.Endpoint
