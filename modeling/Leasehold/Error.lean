/-
  What can go wrong.

  An `Error` is a CAUSE with its data.  Its words (`message`), its family (`kind`) and the family of what it came
  from (`cause?`) follow from the cause and are decided here and nowhere else.

  1. **`TermsFault`** — the terms asked for a lock make no sense; nothing is sent to a store then;
  2. **`Mismatch`** — a value is of a kind that an operation is not made for;
  3. **`ServerFault`, `TableFault`, `ClientFault`** — what comes of the parties that stores talk to;
  4. **`Error`** — all of these, the protocol's own two refusals, and failed calls wrapped around their causes.
-/
import Leasehold.Error.Kind
import Leasehold.Json.Literal
import Leasehold.Json.Reader
import Leasehold.Time.Timestamp
namespace Leasehold

/-! ## Terms -/

/-- The two deadlines of a lease: free at the latest, and at the earliest. -/
inductive Deadline where
  | atMost
  | atLeast
  deriving DecidableEq, Repr

def Deadline.label : Deadline → String
  | .atMost => "lock_at_most_until"
  | .atLeast => "lock_at_least_until"

/-- Why the terms of a lock are rejected. -/
inductive TermsFault where
  | emptyName
  | ceilingNotPositive (ceiling : Duration)
  | floorNegative (floor : Duration)
  | floorAboveCeiling (floor ceiling : Duration)
  | notATime (deadline : Deadline) (kindName : String)
  | withoutZone (deadline : Deadline)
  | notInFuture (ceiling : Instant)
  | floorAfterCeiling (floor ceiling : Instant)
  | timeoutNotPositive (timeout : Value)
  deriving Repr

def TermsFault.message : TermsFault → String
  | emptyName => "Lock name must be a non-empty string"
  | ceilingNotPositive ceiling => "lock_at_most_for must be positive, got " ++ ceiling.text
  | floorNegative floor => "lock_at_least_for must not be negative, got " ++ floor.text
  | floorAboveCeiling floor ceiling =>
    "lock_at_least_for (" ++ floor.text ++ ") is longer than lock_at_most_for (" ++ ceiling.text ++ ")"
  | notATime deadline kindName => deadline.label ++ " must be a datetime, got " ++ kindName
  | withoutZone deadline => deadline.label ++ " must be timezone-aware"
  | notInFuture ceiling => "lock_at_most_until (" ++ ceiling.timestamp ++ ") is not in the future"
  | floorAfterCeiling floor ceiling =>
    "lock_at_least_until (" ++ floor.timestamp ++ ") is after lock_at_most_until (" ++ ceiling.timestamp ++ ")"
  | timeoutNotPositive timeout => "timeout must be positive, got " ++ timeout.display

/-! ## Values of the wrong kind -/

/-- An operation that a value's kind does not allow. -/
inductive Mismatch where
  | order (sign left right : String)
  | key (kindName : String)
  | addDuration (kindName : String)
  | seconds (kindName : String)
  | urlText
  | fieldOf (kindName : String)
  | membership (kindName : String)
  | number (function kindName : String)
  | missingArguments (function : String) (names : List String)
  | surplusArguments (function takes : String) (given : Nat)
  | unexpectedArgument (function name : String)
  deriving DecidableEq, Repr

/-- The word for a date and time among the kinds of values. -/
def timeKindName : String := "datetime.datetime"

/-- The words for a sum of a value and a duration, which kinds that can be joined refuse in their own way. -/
def Mismatch.sumText (kindName : String) : String :=
  if kindName = "str" || kindName = "list" then
    "can only concatenate " ++ kindName ++ " (not \"datetime.timedelta\") to " ++ kindName
  else "unsupported operand type(s) for +: '" ++ kindName ++ "' and 'datetime.timedelta'"

/-- The words for a field taken out of a value that is no object. -/
def Mismatch.fieldText (kindName : String) : String :=
  if kindName = "str" then "string indices must be integers, not 'str'"
  else if kindName = "list" then "list indices must be integers or slices, not str"
  else "'" ++ kindName ++ "' object is not subscriptable"

/-- Names in quotes, the last two joined by a word. -/
def quotedNames : List String → String
  | [] => ""
  | [a] => "'" ++ a ++ "'"
  | [a, b] => "'" ++ a ++ "' and '" ++ b ++ "'"
  | a :: rest => "'" ++ a ++ "', " ++ quotedNames rest

def Mismatch.message : Mismatch → String
  | order sign left right =>
    "'" ++ sign ++ "' not supported between instances of '" ++ left ++ "' and '" ++ right ++ "'"
  | key kindName => "unhashable type: '" ++ kindName ++ "'"
  | addDuration kindName => sumText kindName
  | seconds kindName => "unsupported type for timedelta seconds component: " ++ kindName
  | urlText => "quote_from_bytes() expected bytes"
  | fieldOf kindName => fieldText kindName
  | membership kindName => "argument of type '" ++ kindName ++ "' is not iterable"
  | number function kindName =>
    if function = "int" then
      "int() argument must be a string, a bytes-like object or a real number, not '" ++ kindName ++ "'"
    else function ++ "() argument must be a string or a real number, not '" ++ kindName ++ "'"
  | missingArguments function names =>
    function ++ "() missing " ++ toString names.length ++ " required positional argument"
      ++ (if names.length = 1 then "" else "s") ++ ": " ++ quotedNames names
  | surplusArguments function takes given =>
    function ++ "() takes " ++ takes ++ " positional arguments but " ++ toString given ++ " were given"
  | unexpectedArgument function name => function ++ "() got an unexpected keyword argument '" ++ name ++ "'"

/-! ## Answers of other parties -/

/-- Why a command of a key-value server fails. -/
inductive ServerFault where
  | wrongType
  | down (reason : String)
  | badArgument (kindName : String)
  | arity (command : String)
  deriving DecidableEq, Repr

def ServerFault.message : ServerFault → String
  | wrongType => "WRONGTYPE Operation against a key holding the wrong kind of value"
  | down reason => reason
  | badArgument kindName =>
    "Invalid input of type: '" ++ kindName ++ "'. Convert to a bytes, string, int or float first."
  | arity command => "wrong number of arguments for '" ++ command ++ "' command"

def ServerFault.kind : ServerFault → Kind
  | wrongType => .serverReply
  | down _ => .serverConnection
  | badArgument _ => .serverArgument
  | arity _ => .serverReply

/-- Why a call of a table service fails: the service rejects it, or it never gets there. -/
inductive TableFault where
  | rejected (code message : Value) (operation : String)
  | endpoint (url : String)
  | credentials
  | readTimeout (url : String)
  | connectTimeout (url : String)
  | region
  | parameters (report : String)
  | waiter (name reason : String)
  deriving Repr

def TableFault.message : TableFault → String
  | rejected code message operation =>
    "An error occurred (" ++ code.display ++ ") when calling the " ++ operation ++ " operation: " ++ message.display
  | endpoint url => "Could not connect to the endpoint URL: \"" ++ url ++ "\""
  | credentials => "Unable to locate credentials"
  | readTimeout url => "Read timeout on endpoint URL: \"" ++ url ++ "\""
  | connectTimeout url => "Connect timeout on endpoint URL: \"" ++ url ++ "\""
  | region => "You must specify a region."
  | parameters report => "Parameter validation failed:\n" ++ report
  | waiter name reason => "Waiter " ++ name ++ " failed: " ++ reason

def TableFault.kind : TableFault → Kind
  | rejected _ _ _ => .rejection
  | endpoint _ => .endpoint
  | credentials => .credentials
  | readTimeout _ => .readTimeout
  | connectTimeout _ => .connectTimeout
  | region => .region
  | parameters _ => .parameters
  | waiter _ _ => .waiter

/-- Why a client of a table service cannot be made: the name of the region, the address, a single bracket in it, a place in
it that hides signs of an address, or the time to wait for a connection makes no sense. -/
inductive ClientFault where
  | regionName (name : String)
  | address (url : String)
  | brackets
  | blended (place : String)
  | timeoutTruth
  | timeoutKind (timeout : Value)
  | timeoutNotPositive (timeout : Value)
  | timeoutTooLarge
  deriving Repr

def ClientFault.message : ClientFault → String
  | regionName name => "Provided region_name '" ++ name ++ "' doesn't match a supported format."
  | address url => "Invalid endpoint: " ++ url
  | brackets => "Invalid IPv6 URL"
  | blended place => "netloc " ++ place ++ " contains invalid characters under NFKC normalization"
  | timeoutTruth => "Timeout cannot be a boolean value. It must be an int, float or None."
  | timeoutKind timeout =>
    "Timeout value connect was " ++ timeout.display ++ ", but it must be an int, float or None."
  | timeoutNotPositive timeout =>
    "Attempted to set connect timeout to " ++ timeout.display
      ++ ", but the timeout cannot be set to a value less than or equal to 0."
  | timeoutTooLarge => "int too large to convert to float"

def ClientFault.kind : ClientFault → Kind
  | regionName _ => .regionName
  | timeoutTooLarge => .overflow
  | _ => .value

/-! ## Files -/

/-- What the system has against a path: nothing is there, it may not be used, it is a directory, or it goes through
something that is none. -/
inductive FileFault where
  | absent
  | denied
  | directory
  | notDirectory
  | tooLong
  deriving DecidableEq, Repr

def FileFault.message : FileFault → String
  | absent => "[Errno 2] No such file or directory"
  | denied => "[Errno 13] Permission denied"
  | directory => "[Errno 21] Is a directory"
  | notDirectory => "[Errno 20] Not a directory"
  | tooLong => "[Errno 36] File name too long"

def FileFault.kind : FileFault → Kind
  | absent => .absent
  | denied => .denied
  | directory => .directory
  | notDirectory => .notDirectory
  | tooLong => .system

/-! ## Texts that are no numbers -/

/-- A text that should have been a number. -/
inductive NumberFault where
  | notWhole (text : String)
  | tooManyDigits (count : Nat)
  | notReal (text : String)
  deriving DecidableEq, Repr

/-- A text as it is quoted when it is no whole number: what is quoted is cut after 200 characters. -/
def NumberFault.cut (text : String) : String := String.ofList ((Text.quoted text).toList.take 200)

def NumberFault.message : NumberFault → String
  | notWhole text => "invalid literal for int() with base 10: " ++ cut text
  | tooManyDigits count =>
    "Exceeds the limit (4300 digits) for integer string conversion: value has " ++ toString count
      ++ " digits; use sys.set_int_max_str_digits() to increase the limit"
  | notReal text => "could not convert string to float: " ++ Text.quoted text

/-! ## All failures -/

/-- Who found that the condition of a write does not hold: the store itself, or a service whose rejection is then the
cause. -/
inductive Judge where
  | store
  | service
  deriving DecidableEq, Repr

/-- What was being done when a call on a store failed. -/
inductive Errand where
  | http (url : String)
  | record (name : Value)
  | server
  | serverConnection
  | table (operation : String)
  deriving Repr

/-- **A failure.** -/
inductive Error where
  | terms (fault : TermsFault)
  | conditionNotMet (name : Value) (judge : Judge)
  | injected
  | refused (status : Int) (reason : Value)
  | unhealthy (state : Value)
  | callFailed (errand : Errand) (cause : Error)
  | releaseFailed (name : String) (timeout : Value) (cause : Error)
  | time (fault : TimeFault)
  | document (fault : Json.Located)
  | missingKey (key : String)
  | noMember (kindName member : String)
  | mismatch (fault : Mismatch)
  | number (fault : NumberFault)
  | server (fault : ServerFault)
  | table (fault : TableFault)
  | contentType (status : Int) (type url : String)
  | unknownBackend (name : String)
  | client (fault : ClientFault)
  | file (fault : FileFault) (path : String)
  | timedOut
  | cancelled
  | raised (kind : Kind) (text : String)
  | raisedFrom (kind : Kind) (text : String) (cause : Kind)
  deriving Repr

namespace Error

/-- The words of a lock that could not be released, with a reason if one is known. -/
def releaseText (name reason : String) : String :=
  "Failed to release lock '" ++ name ++ "'" ++ (if reason = "" then "" else ": " ++ reason)

/-- The words of a condition that does not hold. -/
def conditionText (name : Value) : String := "Condition not met for lock '" ++ name.display ++ "'"

def isTimeout : Error → Bool
  | timedOut => true
  | raised k _ => k == .timeout
  | _ => false

/-- **The words for a failure.** -/
def message : Error → String
  | terms fault => fault.message
  | conditionNotMet name _ => conditionText name
  | injected => "Injected transport failure"
  | refused status reason => "Lease store returned HTTP " ++ toString status ++ ": " ++ reason.display
  | unhealthy state => "Lease store node is " ++ state.display
  | callFailed (.http url) cause =>
    if cause.isTimeout then "Timeout calling " ++ url else "Error calling " ++ url ++ ": " ++ cause.message
  | callFailed (.record name) cause => "Malformed lease record for '" ++ name.display ++ "': " ++ cause.message
  | callFailed .server cause => "Redis error: " ++ cause.message
  | callFailed .serverConnection cause => "Failed to connect to Redis: " ++ cause.message
  | callFailed (.table operation) cause => "DynamoDB " ++ operation ++ " failed: " ++ cause.message
  | releaseFailed name timeout cause =>
    releaseText name (if cause.isTimeout then "timeout after " ++ timeout.display ++ "s" else cause.message)
  | time fault => fault.message
  | document fault => fault.message
  | missingKey key => Text.quoted key
  | noMember kindName member => "'" ++ kindName ++ "' object has no attribute '" ++ member ++ "'"
  | mismatch fault => fault.message
  | number fault => fault.message
  | server fault => fault.message
  | table fault => fault.message
  | contentType status type url =>
    toString status ++ ", message="
      ++ Text.quoted ("Attempt to decode JSON with unexpected mimetype: " ++ type) ++ ", url=" ++ Text.quoted url
  | unknownBackend name => "Unknown lease store backend: " ++ name
  | client fault => fault.message
  | file fault path => fault.message ++ ": " ++ Text.quoted path
  | timedOut => ""
  | cancelled => ""
  | raised _ text => text
  | raisedFrom _ text _ => text

/-- **The family of a failure.** -/
def kind : Error → Kind
  | terms _ => .configuration
  | conditionNotMet _ _ => .conditionNotMet
  | injected => .transport
  | refused _ _ => .transport
  | unhealthy _ => .transport
  | callFailed _ _ => .transport
  | releaseFailed _ _ _ => .release
  | time fault => match fault.kind with
    | .outOfRange => .overflow
    | .malformed => .value
    | .incomparable => .type
  | document fault => match fault.missing with
    | .fewerDigits _ => .value
    | .lessNesting _ => .nesting
    | _ => .document
  | missingKey _ => .key
  | noMember _ _ => .member
  | mismatch _ => .type
  | number _ => .value
  | server fault => fault.kind
  | table fault => fault.kind
  | contentType _ _ _ => .contentType
  | unknownBackend _ => .value
  | client fault => fault.kind
  | file fault _ => fault.kind
  | timedOut => .timeout
  | cancelled => .cancelled
  | raised k _ => k
  | raisedFrom k _ _ => k

/-- The family of the failure that a failure came from. -/
def cause? : Error → Option Kind
  | callFailed _ cause => some cause.kind
  | releaseFailed _ _ cause => some cause.kind
  | conditionNotMet _ .service => some .rejection
  | server (.down _) => some .serverConnection
  | raisedFrom _ _ cause => some cause
  | _ => none

def isA (e : Error) (k : Kind) : Bool := e.kind.isA k

/-- A fault in the data that was handed over: a missing field or member, a wrong kind, a malformed value.  A time out
of range is none. -/
def isDataFault (e : Error) : Bool := e.isA .member || e.isA .key || e.isA .type || e.isA .value

end Error

/-- Lifts a fault of a time. -/
def TimeFault.lift {α : Type} (r : Except TimeFault α) : Except Error α := r.mapError Error.time

end Leasehold
