import BunnyGrid.Data.Json.Reader
import BunnyGrid.Program.Sample
import BunnyGrid.Session.Basic
import BunnyGrid.World.Sample

/-! The game over HTTP: one session on the server, and requests that load a map, run and step
programs, and read the state. -/
namespace BunnyGrid.Web

/-- What a request carries. -/
structure Body where
  contentType : String
  text : String

structure Request where
  method : String
  path : String
  body : Option Body := none

/-- What a response carries: a page for people, whose text is not modelled, or data. -/
inductive Content
  | page
  | json (d : Data)

structure Response where
  status : Nat
  content : Content

namespace Response

def contentType (r : Response) : String :=
  match r.content with
  | .page => "text/html; charset=utf-8"
  | .json _ => "application/json"

def ok (d : Data) : Response := ⟨200, .json d⟩

/-- A request that the game rejects. -/
def rejected (message : String) : Response :=
  ⟨400, .json (.record [("success", .bool false), ("error", .text message)])⟩

end Response

/-- The session that all requests share, and its log, the oldest line first. -/
structure Server where
  session : Session
  log : List String := []

/-- The most lines that the log keeps. -/
def maxLogLines : Nat := 200

/-- Whether a content type names JSON, parameters apart. -/
def isJson (contentType : String) : Bool :=
  let mime := Text.trim Text.isBlank (contentType.toList.takeWhile (· ≠ ';'))
  let mime := mime.map Char.toLower
  mime = "application/json".toList ||
    ("application/".toList.isPrefixOf mime && "+json".toList.isSuffixOf mime)

/-- The data that a request carries; null if it carries no readable JSON. A byte-order mark in
front is dropped. -/
def Request.data (r : Request) : Data :=
  match r.body with
  | none => .null
  | some body =>
    if isJson body.contentType then
      let text := match body.text.toList with
        | '\ufeff' :: rest => String.ofList rest
        | _ => body.text
      (Json.read text).toOption.getD .null
    else .null

namespace Server

/-- A server's session on the sample map. -/
def start (stepLimit : Int) : Server :=
  { session := (({ rules := { stepLimit } } : Session).loadBoard .sample).session }

/-- The text of a step limit that is no whole number. -/
structure BadLimit where
  text : String

/-- The message shows at most 200 characters of the quoted text. -/
def BadLimit.message (e : BadLimit) : String :=
  "invalid literal for int() with base 10: " ++
    String.ofList ((Text.quoted e.text).toList.take 200)

/-- A server whose step limit is set by a text, if one is given. -/
def ofSetting? : Option String → Except BadLimit Server
  | none => .ok (start ({} : Rules).stepLimit)
  | some text => ((Numeral.int? text).map fun n => .ok (start n)).getD (.error ⟨text⟩)

/-- Add a line to the log; the oldest lines make room. -/
def addLog (s : Server) (line : String) : Server :=
  let log := s.log ++ [line]
  { s with log := log.drop (log.length - maxLogLines) }

def state (s : Server) : Data := s.session.world?.elim .null World.toData

private def succeeded (fields : List (String × Data)) : Response :=
  .ok (.record (("success", .bool true) :: fields))

/-- Load the map that a request carries; without one, the sample map. An infinite size, position or
limit is no answer that a client gets, but the server's own failure. -/
def postMap (s : Server) (d : Data) : Server × Response :=
  let loaded : Option (Except BoardFault (Reply Unit)) :=
    if d.isPresent then
      match d with
      | .record fields => some (s.session.load (.record fields))
      | _ => none
    else some (.ok (s.session.loadBoard .sample))
  match loaded with
  | none => (s, .rejected "Expected a map descriptor object")
  | some (.error .infinite) => (s, ⟨500, .page⟩)
  | some (.error fault) =>
    (s.addLog s!"Rejected map: {fault.message}", .rejected s!"Invalid map: {fault.message}")
  | some (.ok reply) =>
    let s := { s with session := reply.session }
    let name := s.session.stage.elim "" (·.board.name)
    let s := s.addLog s!"Loaded map '{name}'"
    (s, succeeded [("state", s.state)])

def postReset (s : Server) : Server × Response :=
  let s := { s with session := s.session.reset }
  (s, succeeded [("state", s.state)])

/-- What the game says to programs that do not come in a record. -/
def noProgram : Response := .rejected "Expected a JSON object with a 'program' list"

def postRun (s : Server) : Data → Server × Response
  | .record fields =>
    let reply := s.session.run (.ofData (Data.field "program" fields))
      (.ofData (Data.field "program2" fields))
    let r := reply.value
    let s := { s with session := reply.session }.addLog s!"Run: {r.status.name} ({r.message})"
    (s, succeeded [("result", r.toData), ("state", s.state)])
  | _ => (s, noProgram)

def postStep (s : Server) : Data → Server × Response
  | .record fields =>
    let reply := s.session.step (.ofData (Data.field "program" fields))
    let s := { s with session := reply.session }
    (s, succeeded
      [ ("result", reply.value.toData), ("currentStep", .int s.session.cursor),
        ("state", s.state) ])
  | _ => (s, noProgram)

/-- What a path answers. -/
inductive Route
  | index
  | state
  | samples
  | logs
  | map
  | reset
  | run
  | step
  deriving DecidableEq

namespace Route

def ofPath? : String → Option Route
  | "/" => some .index
  | "/api/state" => some .state
  | "/api/samples" => some .samples
  | "/api/logs" => some .logs
  | "/api/map" => some .map
  | "/api/reset" => some .reset
  | "/api/run" => some .run
  | "/api/step" => some .step
  | _ => none

/-- Whether a route is read, not posted to. -/
def isRead : Route → Bool
  | .index | .state | .samples | .logs => true
  | _ => false

/-- Whether a route takes a method. -/
def allows (r : Route) (method : String) : Bool :=
  method = "OPTIONS" || if r.isRead then method = "GET" || method = "HEAD" else method = "POST"

end Route

/-- Answer on a route. -/
def answer (s : Server) (d : Data) : Route → Server × Response
  | .index => (s, ⟨200, .page⟩)
  | .state => (s, .ok s.state)
  | .samples => (s, .ok (.record Program.samples))
  | .logs => (s, .ok (.list (s.log.map .text)))
  | .map => s.postMap d
  | .reset => s.postReset
  | .run => s.postRun d
  | .step => s.postStep d

/-- Answer a request. An unknown path is not found, and a known one takes only its methods. -/
def handle (s : Server) (r : Request) : Server × Response :=
  let path := String.ofList (r.path.toList.takeWhile (· ≠ '?'))
  match Route.ofPath? path with
  | none => (s, ⟨404, .page⟩)
  | some route =>
    if !route.allows r.method then (s, ⟨405, .page⟩)
    else if r.method = "OPTIONS" then (s, ⟨200, .page⟩)
    else s.answer r.data route

end Server
end BunnyGrid.Web
