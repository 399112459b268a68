/-
  The parties a client may talk to.

  1. **`NodeParty`** — a lease node: the request travels to its routes, the response back, and its body is read as
     JSON if its content type says so;
  2. **`ScriptedParty`** — one that keeps the calls it gets and gives out replies made up in advance;
  3. **`CannedParty`** — one that answers with whole bodies made up in advance.
-/
import Leasehold.Http.Client
import Leasehold.Http.Node
namespace Leasehold.Http

/-! ## URLs -/

/-- What stands before the first `://` of a URL, and what stands behind it. -/
def cutScheme : List Char → Option (List Char × List Char)
  | ':' :: '/' :: '/' :: rest => some ([], rest)
  | c :: rest => (cutScheme rest).map fun p => (c :: p.1, p.2)
  | [] => none

/-- A URL in its two parts: scheme and host, and path. -/
def splitUrl (url : String) : String × String :=
  match cutScheme url.toList with
  | some (scheme, cs) =>
    let host := cs.takeWhile (· ≠ '/')
    (String.ofList scheme ++ "://" ++ String.ofList host, String.ofList (cs.drop host.length))
  | none => ("", url)

/-- A host in small letters, without the port that its scheme has anyway. -/
def tidyHost (origin : String) : String :=
  let small := Text.lower origin
  let drop (scheme port : String) (s : String) : Option String :=
    if scheme.toList.isPrefixOf s.toList && port.toList.isSuffixOf s.toList then
      some (String.ofList (s.toList.take (s.toList.length - port.length)))
    else none
  ((drop "http://" ":80" small).orElse fun _ => drop "https://" ":443" small).getD small

/-- **A URL as the client sends and shows it**: host and path. -/
def tidyUrl (url : String) : String × String :=
  let (origin, path) := splitUrl url
  (tidyHost origin, Text.Percent.tidyPath (if path = "" then "/" else path))

/-! ## A node -/

/-- A node, and the time its clock shows. -/
structure NodeParty where
  node : LeaseNode
  clock : GivenTime
  deriving Repr

namespace NodeParty

/-- The request that a call becomes. -/
def requestOf (call : Call) (path : String) : Request :=
  { method := call.method
    path
    contentType := jsonType
    body := match call.payload with | some v => Text.Utf8.encode v.write.toList | none => [] }

/-- The bytes of a page. -/
def pageBytes : Page → List UInt8
  | .text s => Text.Utf8.encode s.toList
  | .metrics lines => Text.Utf8.encode (String.join (lines.map (· ++ "\n"))).toList

/-- Does something on the node. -/
def onNode {α : Type} (f : World LeaseNode → World LeaseNode × α) (w : World NodeParty) : World NodeParty × α :=
  let (n, a) := f ⟨w.store.node, w.ledger⟩
  (⟨{ w.store with node := n.store }, n.ledger⟩, a)

/-- **A call on a node.**  A node that does not answer makes the client run out of time.  What is JSON in its answers is in UTF-8,
so it does not matter which codecs the client has. -/
def send (call : Call) (w : World NodeParty) : World NodeParty × Delivery :=
  let (host, path) := tidyUrl call.url
  let (w, outcome) := onNode (LeaseNode.handle w.store.clock (requestOf call path)) w
  (w, match outcome with
    | .answered r => .response r.status (readJson .none r.status r.contentType (pageBytes r.page) (host ++ path))
    | .failed e => .broken e
    | .silent => .broken .timedOut)

/-- A node as the party of a client. -/
def party : Party NodeParty where
  openSession _ p := p
  send := send
  closeSession p := p

end NodeParty

/-! ## Replies made up in advance -/

/-- A reply made up in advance: the exchange breaks down, or a response with its JSON, or one that cannot be read. -/
inductive ScriptedReply where
  | broken (e : Error)
  | response (status : Int) (data : Except Error Value)

/-- Something a scripted party saw. -/
inductive SessionEvent where
  | opened (timeout : Value)
  | called (call : Call)
  | closed
  deriving Repr

/-- The failure when no reply is left. -/
def noReply : Error := .raised .client "no reply"

/-- A scripted party. -/
structure ScriptedParty where
  replies : List ScriptedReply
  events : List SessionEvent

namespace ScriptedParty

def see (event : SessionEvent) (p : ScriptedParty) : ScriptedParty := { p with events := p.events ++ [event] }

/-- **A call on a scripted party**: the next reply is the answer. -/
def send (call : Call) (w : World ScriptedParty) : World ScriptedParty × Delivery :=
  let p := w.store.see (.called call)
  match p.replies with
  | [] => ({ w with store := p }, .broken noReply)
  | .broken e :: rest => ({ w with store := { p with replies := rest } }, .broken e)
  | .response status data :: rest => ({ w with store := { p with replies := rest } }, .response status data)

/-- A scripted party as the party of a client. -/
def party : Party ScriptedParty where
  openSession timeout p := p.see (.opened timeout)
  send := send
  closeSession p := p.see .closed

end ScriptedParty

/-! ## Bodies made up in advance -/

/-- A whole response made up in advance. -/
structure CannedReply where
  status : Int
  body : String
  contentType : String
  deriving Repr

/-- A party that answers with responses made up in advance, and the codecs that the client has besides. -/
structure CannedParty where
  replies : List CannedReply
  codecs : Text.Codecs

namespace CannedParty

/-- **A call on a canned party**: the next response is the answer. -/
def send (call : Call) (w : World CannedParty) : World CannedParty × Delivery :=
  let (host, path) := tidyUrl call.url
  match w.store.replies with
  | [] => (w, .broken noReply)
  | r :: rest =>
    ({ w with store := { w.store with replies := rest } },
      .response r.status (readJson w.store.codecs r.status r.contentType (Text.Utf8.encode r.body.toList) (host ++ path)))

/-- A canned party as the party of a client. -/
def party : Party CannedParty where
  openSession _ p := p
  send := send
  closeSession p := p

end CannedParty
end Leasehold.Http
