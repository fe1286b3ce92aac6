import TableBrowser.Database.Demo
import TableBrowser.Filter.Compile
import TableBrowser.Paging.Encode
import TableBrowser.Web.Failure
import TableBrowser.Web.Route
import TableBrowser.Web.Session
import TableBrowser.Web.Settings

/-!
# The server

A server answers calls over a source of data and a list of sessions.  A call that acts
on a session is prepared first: tables, columns and filter are checked, and nothing
changes.  Then it is executed: the browser of the session takes the action and its
page is fetched.  Other calls may come between the two halves.

The source is asked anew for every call, and each of its answers may be a failure.
-/

namespace TableBrowser.Web

open TableBrowser.Filter (Compiled compile)
open TableBrowser.Paging

structure Server where
  settings : Settings
  sessions : Sessions

/-- An action on a session that passed its checks. -/
structure Plan where
  session : Text
  action : Action
  /-- The filter that was compiled for the action. -/
  compiled? : Option Compiled

/-- An answer to a request: a status and a JSON body, if the body is JSON. -/
structure Response where
  status : Nat
  body? : Option Json

namespace Server

/-- The database for some settings; it holds the demo tables if they ask for them. -/
def openDatabase (settings : Settings) (now : Int) (keys : Database.Demo.Keys) : Database :=
  if settings.demo then (Database.Demo.seed now keys .empty).1 else .empty

def start (settings : Settings) : Server :=
  ⟨settings, []⟩

/-- The session of an id. -/
def require (server : Server) (id : Text) : Except Failure Session :=
  match server.sessions.find? id with
  | some session => .ok session
  | none => .error (.sessionNotFound id)

/-- Notes a request to a session. -/
def touch (server : Server) (now : Nat) (id : Text) : Server :=
  { server with
    sessions := server.sessions.update id fun session => { session with lastActivity := now } }

end Server

/-! ## Questions to the source -/

section

variable (data : DataSource)

/-- The source has a table or view of this name. -/
def requireTable (table : Text) : Except Failure Unit := do
  if !(← (data.hasTable table).mapError .fetch) then throw (.tableNotFound table)

/-- The columns of a table or view. -/
def columnsOf (table : Text) : Except Failure (List Column) := do
  requireTable data table
  (data.columns table).mapError .fetch

/-- The columns that guide a filter for a table; without a table there are none. -/
def columnsFor : Option Text → Except Failure (List Column)
  | some table => columnsOf data table
  | none => .ok []

def compileFor (expression : Text) (table? : Option Text) : Except Failure Compiled := do
  let columns ← columnsFor data table?
  (compile .sqlite columns expression).mapError .filter

/-- Checks the column of an order against the table that is browsed. -/
def checkSort (session : Session) (column : Text) : Except Failure Unit := do
  match session.state.table? with
  | none => return ()
  | some table =>
    let columns ← columnsOf data table
    if columns.any (·.name == column) then return ()
    else
      throw (.invalidRequest
        ("unknown column '" ++ column ++ "' in table '" ++ table ++ "'"))

end

namespace Server

/-- Prepares an intent: checks what it names and gives the action it comes to. -/
def plan (server : Server) (data : DataSource) (id : Text) (intent : Intent) :
    Except Failure Plan := do
  let session ← server.require id
  match intent with
  | .select table =>
    requireTable data table
    return ⟨id, .select table, none⟩
  | .sort column direction =>
    checkSort data session column
    return ⟨id, .sort column direction, none⟩
  | .clearSort => return ⟨id, .clearSort, none⟩
  | .filter expression table? =>
    let compiled ← compileFor data expression (table?.or session.state.table?)
    return ⟨id, .filter compiled.clause, some compiled⟩
  | .clearFilter => return ⟨id, .clearFilter, none⟩
  | .more => return ⟨id, .more, none⟩

def success (members : List (Text × Json)) : Json :=
  .object (("success".toList, Json.bool true) :: members)

/-- What a client is told of a filter that was compiled. -/
def compiledJson (compiled : Compiled) : Json :=
  .object [("whereClause", .string compiled.clause), ("preview", .string compiled.preview)]

/-- The answer to an action that did not fail. -/
def actionJson (outcome : Outcome) (state : State) (compiled? : Option Compiled) : Json :=
  success
    ([("outcome".toList, outcome.toJson), ("state".toList, state.summary)] ++
      optionalMember "filter" compiledJson compiled?)

/-- Puts a state into a session. -/
def putState (server : Server) (id : Text) (state : State) : Server :=
  { server with
    sessions := server.sessions.update id fun session => { session with state := state } }

/-- Runs a plan: the action, and the page it asks for. -/
def execute (server : Server) (data : DataSource) (plan : Plan) :
    Server × Except Failure Json :=
  match server.require plan.session with
  | .error failure => (server, .error failure)
  | .ok session =>
    let (state, result) :=
      Controller.perform server.settings.paging data.page session.state plan.action
    let after := server.putState plan.session state
    match result with
    | .ok outcome => (after, .ok (actionJson outcome state plan.compiled?))
    | .error failure => (after, .error (.fetch failure))

def sessionSummary (now : Nat) (session : Session) : Json :=
  .object [("id", .string session.id), ("age_secs", .ofNat (session.age now)),
    ("last_activity_secs", .ofNat (session.idleTime now)),
    ("active_table", .ofOption .string session.state.table?)]

def columnJson (column : Column) : Json :=
  .object [("name", .string column.name), ("type", .string column.type)]

def tableJson (summary : TableSummary) : Json :=
  .object [("name", .string summary.name), ("rowCount", .ofNat summary.rowCount)]

/-- Makes a session under a fresh id, unless there are as many as allowed. -/
def createSession (server : Server) (now : Nat) (fresh : Text) :
    Server × Except Failure Json :=
  if server.settings.maxSessions ≤ server.sessions.length then
    (server, .error (.tooManySessions server.settings.maxSessions))
  else
    let session : Session := ⟨fresh, now, now, Controller.initial server.settings.paging⟩
    ({ server with sessions := server.sessions ++ [session] },
      .ok (success [("session", .object [("id", .string fresh), ("age_secs", .ofNat 0)])]))

def deleteSession (server : Server) (id : Text) : Server × Except Failure Json :=
  match server.require id with
  | .error failure => (server, .error failure)
  | .ok _ =>
    ({ server with sessions := server.sessions.remove id },
      .ok (success [("message", .string "Session deleted")]))

/-- Ends the sessions that had no request for too long. -/
def expire (server : Server) (now : Nat) : Server :=
  { server with
    sessions := List.filter
      (fun session => !session.isExpired server.settings.sessionTimeout.toNat now)
      server.sessions }

def showSession (server : Server) (now : Nat) (id : Text) : Except Failure Json := do
  let session ← server.require id
  return success [("session", .object [("id", .string session.id),
    ("age_secs", .ofNat (session.age now)), ("browse", session.state.summary)])]

def listSessions (server : Server) (now : Nat) : Json :=
  success [("sessions", .array (List.map (sessionSummary now) server.sessions)),
    ("count", .ofNat server.sessions.length), ("max", .ofNat server.settings.maxSessions)]

def listTables (server : Server) (data : DataSource) : Except Failure Json := do
  let tables ← (data.tables server.settings.paging.timeoutSeconds?).mapError .fetch
  return success [("tables", .array (tables.map tableJson)), ("count", .ofNat tables.length)]

def tableColumns (data : DataSource) (table : Text) : Except Failure Json := do
  let columns ← columnsOf data table
  return success [("table", .string table), ("columns", .array (columns.map columnJson))]

/-- A window over the rows that a session has loaded. -/
def rowsWindow (server : Server) (id : Text) (offset : Nat) (limit? : Option Nat) :
    Except Failure Json := do
  let session ← server.require id
  let state := session.state
  let first := min offset state.rows.length
  let behind := state.rows.drop first
  let shown :=
    match limit? with
    | some limit => behind.take limit
    | none => behind
  return success [("columns", .strings state.columns), ("rows", .array (shown.map .array)),
    ("offset", .ofNat first), ("loadedRows", .ofNat state.offset),
    ("totalCount", .ofNat state.total), ("hasMore", .bool state.hasMore)]

def preview (data : DataSource) (expression : Text) (table? : Option Text) :
    Except Failure Json := do
  let compiled ← compileFor data expression table?
  return success [("whereClause", .string compiled.clause),
    ("preview", .string compiled.preview)]

/-- Takes the running queries of a session out of account. -/
def cancel (server : Server) (id : Text) : Server × Except Failure Json :=
  match server.require id with
  | .error failure => (server, .error failure)
  | .ok session =>
    let state := Controller.cancel session.state
    (server.putState id state,
      .ok (success [("epoch", .ofNat state.epoch), ("state", state.summary)]))

def version : Text := "0.1.0"

def service : Text := "rowscope-studio"

def health (server : Server) : Json :=
  .object [("status", .string "healthy"), ("service", .string service),
    ("version", .string version), ("database", .string server.settings.databaseLabel),
    ("sessions", .object [("active", .ofNat server.sessions.length),
      ("max", .ofNat server.settings.maxSessions)])]

/-- Prepares an intent and executes it at once. -/
def browse (server : Server) (data : DataSource) (id : Text) (intent : Intent) :
    Server × Except Failure Json :=
  match server.plan data id intent with
  | .ok plan => server.execute data plan
  | .error failure => (server, .error failure)

/-- The session whose activity a call is. -/
def addressee? : Call → Option Text
  | .showSession id | .browse id _ | .cancel id | .rows id _ _ => some id
  | _ => none

/-- Answers a call in one go.  `fresh` is the id for a session that it may make. -/
def handle (server : Server) (data : DataSource) (now : Nat) (fresh : Text) (call : Call) :
    Server × Except Failure Json :=
  let server :=
    match addressee? call with
    | some id => server.touch now id
    | none => server
  match call with
  | .health => (server, .ok server.health)
  | .createSession => server.createSession now fresh
  | .listSessions => (server, .ok (server.listSessions now))
  | .showSession id => (server, server.showSession now id)
  | .deleteSession id => server.deleteSession id
  | .listTables => (server, server.listTables data)
  | .tableColumns table => (server, tableColumns data table)
  | .browse id intent => server.browse data id intent
  | .cancel id => server.cancel id
  | .rows id offset limit? => (server, server.rowsWindow id offset limit?)
  | .preview expression table? => (server, preview data expression table?)

/-- The response that reports an answer or a failure. -/
def respond : Except Failure Json → Response
  | .ok body => ⟨200, some body⟩
  | .error failure => ⟨failure.status, some failure.body⟩

/-- Answers a request.  A question for the options is always allowed, so that pages
of other hosts may use the server, and the head of an answer has no body. -/
def serve (server : Server) (data : DataSource) (now : Nat) (fresh : Text)
    (request : Request) : Server × Response :=
  if request.method = .options then (server, ⟨200, none⟩)
  else
    match Call.ofRequest request with
    | .error rejection => (server, ⟨rejection.status, none⟩)
    | .ok call =>
      let (after, result) := server.handle data now fresh call
      let response := respond result
      (after, if request.method = .head then { response with body? := none } else response)

end Server

end TableBrowser.Web
