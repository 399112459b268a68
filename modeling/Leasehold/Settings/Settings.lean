/-
  Settings of a process, and how they are read from environment variables.

  Every setting has a name in capitals, the same as the variable it comes from, and a value that holds when the
  variable is not set.  Whole numbers and the one double are read as numbers; the FIRST text that is none, in the
  order of the fields, is the fault.
-/
import Leasehold.Error
namespace Leasehold

/-- The settings. -/
structure Settings where
  nodeId : Int
  nodeHost : String
  nodePort : Int
  leaseStore : String
  leaseStoreUrl : String
  leaseTable : String
  redisHost : String
  redisPort : Int
  redisDb : Int
  redisKeyPrefix : String
  awsRegion : String
  dynamodbEndpoint : String
  readCapacity : Int
  writeCapacity : Int
  storeTimeout : Value
  lockedBy : String
  logLevel : String
  logFile : String
  deriving Repr

namespace Settings

/-- The settings when nothing is set. -/
def usual : Settings where
  nodeId := 1
  nodeHost := "localhost"
  nodePort := 5000
  leaseStore := "http"
  leaseStoreUrl := "http://localhost:5000"
  leaseTable := "leaselock"
  redisHost := "localhost"
  redisPort := 6379
  redisDb := 0
  redisKeyPrefix := "lease:"
  awsRegion := "us-east-1"
  dynamodbEndpoint := ""
  readCapacity := 1
  writeCapacity := 1
  storeTimeout := .real (Binary64.ofInt 5)
  lockedBy := ""
  logLevel := "INFO"
  logFile := ""

instance : Inhabited Settings := ⟨usual⟩

/-! ## By name -/

/-- Every setting under its name, in order. -/
def entries (s : Settings) : List (String × Value) :=
  [("NODE_ID", .int s.nodeId), ("NODE_HOST", .text s.nodeHost), ("NODE_PORT", .int s.nodePort),
   ("LEASE_STORE", .text s.leaseStore), ("LEASE_STORE_URL", .text s.leaseStoreUrl), ("LEASE_TABLE", .text s.leaseTable),
   ("REDIS_HOST", .text s.redisHost), ("REDIS_PORT", .int s.redisPort), ("REDIS_DB", .int s.redisDb),
   ("REDIS_KEY_PREFIX", .text s.redisKeyPrefix), ("AWS_REGION", .text s.awsRegion),
   ("DYNAMODB_ENDPOINT", .text s.dynamodbEndpoint), ("DYNAMODB_READ_CAPACITY", .int s.readCapacity),
   ("DYNAMODB_WRITE_CAPACITY", .int s.writeCapacity), ("STORE_TIMEOUT", s.storeTimeout), ("LOCKED_BY", .text s.lockedBy),
   ("LOG_LEVEL", .text s.logLevel), ("LOG_FILE", .text s.logFile)]

/-- Puts a value in place of a setting; a name or a kind of value that does not fit changes nothing. -/
def put (s : Settings) (name : String) (v : Value) : Settings :=
  match name, v with
  | "NODE_ID", .int i => { s with nodeId := i }
  | "NODE_HOST", .text t => { s with nodeHost := t }
  | "NODE_PORT", .int i => { s with nodePort := i }
  | "LEASE_STORE", .text t => { s with leaseStore := t }
  | "LEASE_STORE_URL", .text t => { s with leaseStoreUrl := t }
  | "LEASE_TABLE", .text t => { s with leaseTable := t }
  | "REDIS_HOST", .text t => { s with redisHost := t }
  | "REDIS_PORT", .int i => { s with redisPort := i }
  | "REDIS_DB", .int i => { s with redisDb := i }
  | "REDIS_KEY_PREFIX", .text t => { s with redisKeyPrefix := t }
  | "AWS_REGION", .text t => { s with awsRegion := t }
  | "DYNAMODB_ENDPOINT", .text t => { s with dynamodbEndpoint := t }
  | "DYNAMODB_READ_CAPACITY", .int i => { s with readCapacity := i }
  | "DYNAMODB_WRITE_CAPACITY", .int i => { s with writeCapacity := i }
  | "STORE_TIMEOUT", v => { s with storeTimeout := v }
  | "LOCKED_BY", .text t => { s with lockedBy := t }
  | "LOG_LEVEL", .text t => { s with logLevel := t }
  | "LOG_FILE", .text t => { s with logFile := t }
  | _, _ => s

/-! ## From the environment -/

/-- The number that a variable's text spells, where a number stands in the settings. -/
def readEntry (usual : Value) (text : String) : Except Error Value :=
  match usual with
  | .int _ => match Number.readInt text with
    | .ok i => .ok (.int i)
    | .error .malformed => .error (.number (.notWhole text))
    | .error (.tooManyDigits count) => .error (.number (.tooManyDigits count))
  | .real _ => match Number.readReal? text with
    | some x => .ok (.real x)
    | none => .error (.number (.notReal text))
  | _ => .ok (.text text)

/-- **Reads the settings from environment variables.** -/
def ofEnvironment (lookup : String → Option String) : Except Error Settings :=
  usual.entries.foldlM (fun s (name, v) => match lookup name with
    | some text => (readEntry v text).map (s.put name ·)
    | none => .ok s) usual

/-! ## Their display -/

/-- The line that tells about the store in use. -/
def storeLines (s : Settings) : List String :=
  if s.leaseStore = "http" then ["Store URL: " ++ s.leaseStoreUrl]
  else if s.leaseStore = "redis" then
    ["Redis: " ++ s.redisHost ++ ":" ++ toString s.redisPort ++ "/" ++ toString s.redisDb]
  else if s.leaseStore = "dynamodb" then ["DynamoDB: " ++ s.leaseTable ++ " (" ++ s.awsRegion ++ ")"]
  else []

/-- A rule of so many equals signs. -/
def rule (width : Nat) : String := String.ofList (List.replicate width '=')

/-- **The settings as a person reads them.** -/
def display (s : Settings) : String :=
  String.join (([
    "=== Configuration ===",
    "Node ID: " ++ toString s.nodeId,
    "Node Address: " ++ s.nodeHost ++ ":" ++ toString s.nodePort,
    "Lease Store: " ++ s.leaseStore] ++ s.storeLines ++ [
    "Store Timeout: " ++ s.storeTimeout.display ++ "s",
    rule 30]).map (· ++ "\n"))

end Settings
end Leasehold
