/-
  Families of failures.

  Kinds nest: a malformed document is a malformed value, a call that timed out is a failure of the system.  The
  `chain` of a kind lists the kinds it belongs to, its own first; a handler of a kind catches every kind whose
  chain holds it.
-/
namespace Leasehold

/-- A family of failures. -/
inductive Kind where
  -- the lock's own
  | lock
  | configuration
  | conditionNotMet
  | transport
  | release
  -- values
  | member
  | key
  | type
  | value
  | document
  | undecodable
  | nesting
  | overflow
  -- waiting and the system
  | timeout
  | cancelled
  | system
  | absent
  | denied
  | directory
  | notDirectory
  -- calls over HTTP
  | client
  | payload
  | contentType
  -- calls of a key-value server
  | server
  | serverReply
  | serverConnection
  | serverArgument
  -- calls of a table service
  | rejection
  | service
  | endpoint
  | credentials
  | readTimeout
  | connectTimeout
  | region
  | regionName
  | parameters
  | waiter
  -- a task's own
  | other (label : String)
  deriving DecidableEq, Repr

/-- **The kinds a kind belongs to**, from itself to the widest. -/
def Kind.chain : Kind → List Kind
  | .configuration => [.configuration, .lock, .value]
  | .conditionNotMet => [.conditionNotMet, .lock]
  | .transport => [.transport, .lock]
  | .release => [.release, .lock]
  | .document => [.document, .value]
  | .undecodable => [.undecodable, .value]
  | .timeout => [.timeout, .system]
  | .absent => [.absent, .system]
  | .denied => [.denied, .system]
  | .directory => [.directory, .system]
  | .notDirectory => [.notDirectory, .system]
  | .payload => [.payload, .client]
  | .contentType => [.contentType, .client]
  | .serverReply => [.serverReply, .server]
  | .serverConnection => [.serverConnection, .server]
  | .serverArgument => [.serverArgument, .server]
  | .endpoint => [.endpoint, .service]
  | .credentials => [.credentials, .service]
  | .readTimeout => [.readTimeout, .service]
  | .connectTimeout => [.connectTimeout, .service]
  | .region => [.region, .service]
  | .regionName => [.regionName, .service, .value]
  | .parameters => [.parameters, .service]
  | .waiter => [.waiter, .service]
  | k => [k]

/-- Whether a kind is another one or belongs to it. -/
def Kind.isA (k wide : Kind) : Bool := k.chain.contains wide

end Leasehold
