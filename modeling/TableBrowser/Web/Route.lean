import TableBrowser.Text.Utf8
import TableBrowser.Web.Body
import TableBrowser.Web.MediaType

/-!
# Routes

A request names a resource by its path and what to do with it by its method.  Its
parts are checked in a fixed order: the path, the method, the names in the path,
then the query or the body.  `Call.ofRequest` gives what is asked for, or the
rejection by the first check that fails.

In paths and queries a percent sign with two hexadecimal digits stands for a byte;
any other percent sign stands for itself.  The bytes of a path have to be UTF-8,
while those of a query are read as well as they can be.  In a query a plus sign is
a space.
-/

namespace TableBrowser.Web.Percent

/-- The bytes of a text in which percent signs are decoded. -/
def bytes : Text → List UInt8
  | [] => []
  | '%' :: high :: low :: rest =>
    match Text.hexValue? high, Text.hexValue? low with
    | some h, some l => UInt8.ofNat (16 * h + l) :: bytes rest
    | _, _ => String.utf8EncodeChar '%' ++ bytes (high :: low :: rest)
  | c :: rest => String.utf8EncodeChar c ++ bytes rest

/-- A part of a path. -/
def decode? (t : Text) : Option Text :=
  Text.ofUtf8? (bytes t)

/-- A name or a value of a query. -/
def decodeQueryPart (t : Text) : Text :=
  Text.ofUtf8Lossy (bytes (t.map fun c => if c = '+' then ' ' else c))

/-- The names and values of a query. -/
def queryPairs (query : Text) : List (Text × Text) :=
  ((Text.splitAt '&' query).filter (!·.isEmpty)).map fun part =>
    match Text.splitOnce? '=' part with
    | some (name, value) => (decodeQueryPart name, decodeQueryPart value)
    | none => (decodeQueryPart part, [])

end TableBrowser.Web.Percent

namespace TableBrowser.Web

open TableBrowser.Paging

inductive Method
  | get
  | head
  | post
  | delete
  | options
  | other
  deriving DecidableEq

/-- The method of a word; methods are told apart by letter case. -/
def Method.ofWord (word : Text) : Method :=
  if word = "GET" then .get
  else if word = "HEAD" then .head
  else if word = "POST" then .post
  else if word = "DELETE" then .delete
  else if word = "OPTIONS" then .options
  else .other

structure Request where
  method : Method
  /-- The path and the query, maybe behind a scheme and an authority. -/
  target : Text
  contentType? : Option Text
  body : Text

/-- Why a request is not understood. -/
inductive Rejection
  | noRoute
  | wrongMethod
  | badRequest
  | unsupportedMedia
  | unprocessable
  deriving DecidableEq

def Rejection.status : Rejection → Nat
  | .noRoute => 404
  | .wrongMethod => 405
  | .badRequest => 400
  | .unsupportedMedia => 415
  | .unprocessable => 422

/-- What a session is asked to show. -/
inductive Intent
  | select (table : Text)
  | sort (column : Text) (direction : Direction)
  | clearSort
  | filter (expression : Text) (table? : Option Text)
  | clearFilter
  | more
  deriving DecidableEq

/-- What a request asks for. -/
inductive Call
  | health
  | createSession
  | listSessions
  | showSession (id : Text)
  | deleteSession (id : Text)
  | listTables
  | tableColumns (table : Text)
  | browse (id : Text) (intent : Intent)
  | cancel (id : Text)
  | rows (id : Text) (offset : Nat) (limit? : Option Nat)
  | preview (expression : Text) (table? : Option Text)
  deriving DecidableEq

/-- A resource, with the names in its path as they are written there. -/
inductive Resource
  | health
  | newSession
  | sessions
  | session (id : Text)
  | tables
  | tableColumns (table : Text)
  | sessionTable (id : Text)
  | sessionSort (id : Text)
  | sessionFilter (id : Text)
  | sessionMore (id : Text)
  | sessionCancel (id : Text)
  | sessionRows (id : Text)
  | preview
  deriving DecidableEq

namespace Resource

/-- The parts of a session that have a path of their own. -/
def ofSessionPart? (id part : Text) : Option Resource :=
  if part = "table" then some (.sessionTable id)
  else if part = "sort" then some (.sessionSort id)
  else if part = "filter" then some (.sessionFilter id)
  else if part = "more" then some (.sessionMore id)
  else if part = "cancel" then some (.sessionCancel id)
  else if part = "rows" then some (.sessionRows id)
  else none

/-- The resource of the segments of a path.  A name at the end of a path is not
empty. -/
def ofSegments? : List Text → Option Resource
  | [first] => if first = "health" then some .health else none
  | [api, kind] =>
    if api ≠ "api" then none
    else if kind = "session" then some .newSession
    else if kind = "sessions" then some .sessions
    else if kind = "tables" then some .tables
    else none
  | [api, kind, name] =>
    if api ≠ "api" then none
    else if kind = "session" then if name = [] then none else some (.session name)
    else if kind = "filter" ∧ name = "preview" then some .preview
    else none
  | [api, kind, name, part] =>
    if api ≠ "api" then none
    else if kind = "session" then ofSessionPart? name part
    else if kind = "tables" ∧ part = "columns" then some (.tableColumns name)
    else none
  | _ => none

/-- The resource of a path. -/
def ofPath? (path : Text) : Option Resource :=
  match path with
  | '/' :: rest => ofSegments? (Text.splitAt '/' rest)
  | _ => none

end Resource

namespace Request

/-- The characters of a scheme. -/
def isSchemeChar (c : Char) : Bool :=
  Text.isLetter c || Text.isDigit c || ['+', '-', '.'].contains c

/-- A target without its scheme and authority, if it has them. -/
def withoutAuthority (target : Text) : Text :=
  match target.dropWhile isSchemeChar with
  | ':' :: '/' :: '/' :: rest => rest.dropWhile fun c => c != '/' && c != '?' && c != '#'
  | _ => target

/-- The path and the query of a request, without a fragment. -/
def pathAndQuery (request : Request) : Text × Text :=
  let target := (withoutAuthority request.target).takeWhile (· != '#')
  (Text.splitOnce? '?' target).getD (target, [])

end Request

/-- The name in a path. -/
def decodeName (name : Text) : Except Rejection Text :=
  match Percent.decode? name with
  | some decoded => .ok decoded
  | none => .error .badRequest

/-- The values of a JSON body. -/
def decodeBody (fields : List Body.Field) (request : Request) :
    Except Rejection (List Body.FieldValue) :=
  if request.contentType?.any MediaType.isJson then
    (Body.read fields request.body).mapError fun
      | .malformed => .badRequest
      | .misshapen => .unprocessable
  else .error .unsupportedMedia

/-- A number in a query; at most one value may be given. -/
def queryNumber? (pairs : List (Text × Text)) (name : Text) : Except Rejection (Option Nat) :=
  match (pairs.filter fun pair => pair.1 == name).map (·.2) with
  | [] => .ok none
  | [value] =>
    let digits :=
      match value with
      | '+' :: rest => rest
      | _ => value
    match Text.toNatBelow? UInt64.size digits with
    | some n => .ok (some n)
    | none => .error .badRequest
  | _ => .error .badRequest

namespace Call

def ofFilterBody (build : Text → Option Text → Call) :
    List Body.FieldValue → Except Rejection Call
  | [.text expression, .text table] => .ok (build expression (some table))
  | [.text expression, .noText] => .ok (build expression none)
  | _ => .error .unprocessable

def ofSelectBody (id : Text) : List Body.FieldValue → Except Rejection Call
  | [.text table] => .ok (.browse id (.select table))
  | _ => .error .unprocessable

def ofSortBody (id : Text) : List Body.FieldValue → Except Rejection Call
  | [.text column, .direction direction] => .ok (.browse id (.sort column direction))
  | _ => .error .unprocessable

/-- The window of rows a query asks for. -/
def ofRowsQuery (id query : Text) : Except Rejection Call := do
  let pairs := Percent.queryPairs query
  let offset? ← queryNumber? pairs "offset"
  let limit? ← queryNumber? pairs "limit"
  return .rows id (offset?.getD 0) limit?

/-- What a method asks of a resource. -/
def ofResource (request : Request) (query : Text) (resource : Resource) :
    Except Rejection Call :=
  match resource, request.method with
  | .health, .get => .ok .health
  | .newSession, .post => .ok .createSession
  | .sessions, .get => .ok .listSessions
  | .session id, .get => (decodeName id).map .showSession
  | .session id, .delete => (decodeName id).map .deleteSession
  | .tables, .get => .ok .listTables
  | .tableColumns table, .get => (decodeName table).map .tableColumns
  | .sessionTable id, .post => do
    ofSelectBody (← decodeName id) (← decodeBody Body.selectFields request)
  | .sessionSort id, .post => do
    ofSortBody (← decodeName id) (← decodeBody Body.sortFields request)
  | .sessionSort id, .delete => (decodeName id).map (.browse · .clearSort)
  | .sessionFilter id, .post => do
    let id ← decodeName id
    let build expression table? := Call.browse id (.filter expression table?)
    ofFilterBody build (← decodeBody Body.filterFields request)
  | .sessionFilter id, .delete => (decodeName id).map (.browse · .clearFilter)
  | .sessionMore id, .post => (decodeName id).map (.browse · .more)
  | .sessionCancel id, .post => (decodeName id).map .cancel
  | .sessionRows id, .get => do ofRowsQuery (← decodeName id) query
  | .preview, .post => do ofFilterBody .preview (← decodeBody Body.filterFields request)
  | _, _ => .error .wrongMethod

/-- What a request asks for.  Asking for the head of an answer is checked like
asking for the answer. -/
def ofRequest (request : Request) : Except Rejection Call :=
  let (path, query) := request.pathAndQuery
  let request :=
    if request.method = .head then { request with method := .get } else request
  match Resource.ofPath? path with
  | none => .error .noRoute
  | some resource => ofResource request query resource

end Call

end TableBrowser.Web
