import ImagePull.Json.Printer
import ImagePull.Json.Parser
import ImagePull.Json.Strict
import ImagePull.Stream.Producer

/-!
# Requests and replies

The daemon behind a socket is asked by requests, each of which it answers with a
status and a content that may come in pieces. The content may break off, or stay
open without anything more to come.
-/

namespace ImagePull

/-- What a request does. -/
inductive Method where
  | get
  | post
deriving DecidableEq, Repr

/-- A request, with the credential that it carries for a registry. -/
structure Request where
  method : Method := .get
  target : String
  credential : Option Json := none

/-- How the content of a reply ends. -/
inductive Ending where
  | complete
  | broken
  | «open»
deriving DecidableEq, Repr

/-- A reply. -/
structure Reply where
  status : Nat := 200
  pieces : List (List UInt8) := []
  ending : Ending := .complete
deriving DecidableEq, Repr

namespace Reply

/-- Whether a reply grants what was asked. -/
def isSuccess (r : Reply) : Bool :=
  200 ≤ r.status && r.status < 300

/-- Whether a reply grants a query, which also one does that switches protocols or tells
that nothing was modified. -/
def grantsQuery (r : Reply) : Bool :=
  r.isSuccess || r.status = 101 || r.status = 304

/-- The statuses after which no content comes. -/
def bareStatuses : List Nat := [101, 204, 304]

/-- The content. A status that announces none has none. -/
def chunks (r : Reply) : List (List UInt8) :=
  if bareStatuses.contains r.status then [] else r.pieces

/-- The whole content. -/
def content (r : Reply) : List UInt8 :=
  r.chunks.flatten

/-- How the content ends. -/
def contentEnding (r : Reply) : Ending :=
  if bareStatuses.contains r.status then .complete else r.ending

/-- Why a content that breaks off cannot be read to its end. -/
def brokenOff : String := "error reading a body from connection"

/-- The content as it is delivered. -/
def deliveries (r : Reply) : List Stream.Delivery :=
  r.chunks.map .chunk ++ match r.contentEnding with
    | .broken => [.failure brokenOff]
    | _ => []

/-- The standard reasons of statuses. -/
def reasons : List (Nat × String) :=
  [(100, "Continue"), (101, "Switching Protocols"), (102, "Processing"), (200, "OK"),
   (201, "Created"), (202, "Accepted"), (203, "Non Authoritative Information"),
   (204, "No Content"), (205, "Reset Content"), (206, "Partial Content"),
   (207, "Multi-Status"), (208, "Already Reported"), (226, "IM Used"),
   (300, "Multiple Choices"), (301, "Moved Permanently"), (302, "Found"),
   (303, "See Other"), (304, "Not Modified"), (305, "Use Proxy"),
   (307, "Temporary Redirect"), (308, "Permanent Redirect"), (400, "Bad Request"),
   (401, "Unauthorized"), (402, "Payment Required"), (403, "Forbidden"),
   (404, "Not Found"), (405, "Method Not Allowed"), (406, "Not Acceptable"),
   (407, "Proxy Authentication Required"), (408, "Request Timeout"), (409, "Conflict"),
   (410, "Gone"), (411, "Length Required"), (412, "Precondition Failed"),
   (413, "Payload Too Large"), (414, "URI Too Long"), (415, "Unsupported Media Type"),
   (416, "Range Not Satisfiable"), (417, "Expectation Failed"), (418, "I'm a teapot"),
   (421, "Misdirected Request"), (422, "Unprocessable Entity"), (423, "Locked"),
   (424, "Failed Dependency"), (425, "Too Early"), (426, "Upgrade Required"),
   (428, "Precondition Required"), (429, "Too Many Requests"),
   (431, "Request Header Fields Too Large"), (451, "Unavailable For Legal Reasons"),
   (500, "Internal Server Error"), (501, "Not Implemented"), (502, "Bad Gateway"),
   (503, "Service Unavailable"), (504, "Gateway Timeout"),
   (505, "HTTP Version Not Supported"), (506, "Variant Also Negotiates"),
   (507, "Insufficient Storage"), (508, "Loop Detected"), (510, "Not Extended"),
   (511, "Network Authentication Required")]

/-- A status with its standard reason. -/
def statusText (status : Nat) : String :=
  Text.numeral status ++ " " ++ (reasons.lookup status).getD "<unknown status code>"

/-- What a refused pull says: the member `message` of its content if that is an
object that can be read in full, else the content itself. -/
def refusal (r : Reply) : String :=
  let told : Option String := do
    let j ← Json.parse? r.content
    if j.isReadable Json.readableDepth then (← j.lastMember? "message").text? else none
  told.getD (Text.trimmed (Text.Utf8.decodeLossy r.content))

/-- What a refused query says: the field `message` of its content if that is a record
with this field, else the content itself. What is no text in the content is replaced
before it is read. -/
def complaint (r : Reply) : String :=
  let content := Text.Utf8.decodeLossy r.content
  let told : Option String := do
    let fields ← (← Json.parse? (Text.Utf8.bytes content)).fields? ["message"]
    (← fields.lookup "message").text?
  told.getD content

end Reply

/-- The daemon behind a socket: its reply to a request, or why it cannot be asked. -/
structure Daemon where
  answer : Request → Except String Reply

/-- The requests made so far, last first, under what is computed with the answers. -/
abbrev Exchange := StateM (List Request)

/-- Makes a request, which is none if the daemon cannot be asked. -/
def Daemon.ask (d : Daemon) (r : Request) : Exchange (Except String Reply) := do
  let answer := d.answer r
  if answer.toOption.isSome then modify (r :: ·)
  return answer

end ImagePull
