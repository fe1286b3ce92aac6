import Mathlib.Data.List.Forall2
import TableBrowser.Proofs.Web.Plans

/-!
# Requests that are refused

Every check of a request comes before the first change.  So a request that is refused leaves
all sessions with the states they had, and only where a page could not be fetched may the
session that was addressed be in another state.  When a session was last asked for anything
is no part of its state.
-/

namespace TableBrowser.Web

open TableBrowser.Paging

/-! ## Sessions before and after -/

/-- The session is the same, and its state too unless it has the id that is left out. -/
structure Session.Agrees (except? : Option Text) (old new : Session) : Prop where
  id_eq : new.id = old.id
  createdAt_eq : new.createdAt = old.createdAt
  state_eq : except? ≠ some old.id → new.state = old.state

/-- The same sessions in the same order with the same states, one id left out. -/
def Sessions.Agree (except? : Option Text) (before after : Sessions) : Prop :=
  List.Forall₂ (Session.Agrees except?) before after

namespace Sessions

variable {before middle after : Sessions} {except? : Option Text}

theorem Agree.refl (except? : Option Text) (sessions : Sessions) :
    sessions.Agree except? sessions :=
  List.forall₂_same.mpr fun _ _ => ⟨rfl, rfl, fun _ => rfl⟩

theorem Agree.weaken (hagree : before.Agree none after) (except? : Option Text) :
    before.Agree except? after :=
  List.Forall₂.imp (fun _ _ hsame => ⟨hsame.id_eq, hsame.createdAt_eq,
    fun _ => hsame.state_eq (by simp)⟩) hagree

theorem Agree.trans (hfirst : before.Agree except? middle) (hsecond : middle.Agree except? after) :
    before.Agree except? after := by
  induction hfirst generalizing after with
  | nil => exact hsecond
  | cons hold _ ih =>
      cases hsecond with
      | cons hnew hrest =>
          refine .cons ⟨hnew.id_eq.trans hold.id_eq, hnew.createdAt_eq.trans hold.createdAt_eq,
            fun hid => ?_⟩ (ih hrest)
          rw [hnew.state_eq (by rwa [hold.id_eq]), hold.state_eq hid]

/-- An update changes no other sessions than those of its id. -/
theorem agree_update (sessions : Sessions) {id : Text} {change : Session → Session}
    (hchange : ∀ session : Session, session.id = id → session.Agrees except? (change session)) :
    sessions.Agree except? (sessions.update id change) := by
  rw [Agree, update, List.forall₂_map_right_iff, List.forall₂_same]
  intro session _
  split
  · next hid => exact hchange session hid
  · exact ⟨rfl, rfl, fun _ => rfl⟩

end Sessions

/-! ## Error answers -/

/-- The code of an answer that reports a failure; other answers have none. -/
def Response.failureCode? (response : Response) : Option Text :=
  match response.body? with
  | none => none
  | some body =>
    match body.member? "success", (body.member? "error").bind (·.member? "code") with
    | some (.bool false), some (.string code) => some code
    | _, _ => none

/-- The answer is no success, or it has the code of a failure. -/
def Response.IsError (response : Response) : Prop :=
  response.status ≠ 200 ∨ response.failureCode? ≠ none

/-- The codes of checks that fail. -/
def refusalCodes : List Text :=
  ["SESSION_NOT_FOUND", "TOO_MANY_SESSIONS", "TABLE_NOT_FOUND", "INVALID_REQUEST",
    "EMPTY_INPUT", "INVALID_SYNTAX", "UNSUPPORTED_OPERATOR_FOR_DATE_HELPER",
    "NO_VALID_CONDITIONS"]

/-- The codes of pages that could not be fetched. -/
def fetchCodes : List Text :=
  ["TRANSPORT_FAILURE", "BACKEND_QUERY_ERROR", "TIMEOUT"]

theorem code_fetch_mem (failure : FetchFailure) :
    (Failure.fetch failure).code ∈ fetchCodes := by
  rw [fetchCodes, List.mem_cons, List.mem_cons, List.mem_singleton]
  cases failure with
  | transport reason => exact .inl rfl
  | query reason => exact .inr (.inl rfl)
  | timeout seconds => exact .inr (.inr rfl)

theorem not_mem_refusalCodes {code : Text} (hcode : code ∈ fetchCodes) : code ∉ refusalCodes := by
  revert code
  decide +kernel

namespace Server

theorem failureCode?_respond_error (failure : Failure) :
    (respond (.error failure)).failureCode? = some failure.code := by
  simp [respond, Response.failureCode?, Failure.body, Json.member?]

theorem failureCode?_respond_success (members : List (Text × Json)) :
    (respond (.ok (success members))).failureCode? = none := by
  simp [respond, Response.failureCode?, success, Json.member?]

theorem failureCode?_respond_health (server : Server) :
    (respond (.ok server.health)).failureCode? = none := by
  simp [respond, Response.failureCode?, health, Json.member?]

/-! ## Operations -/

variable {server after : Server} {addressee? : Option Text}

/-- A failure leaves all states as they were, or it is a page that could not be fetched for
the addressed session.  A success has no code of a failure. -/
def Fits (server : Server) (addressee? : Option Text)
    (answer : Server × Except Failure Json) : Prop :=
  match answer.2 with
  | .error failure =>
    server.sessions.Agree none answer.1.sessions ∨
      ((∃ fetch, failure = .fetch fetch) ∧ server.sessions.Agree addressee? answer.1.sessions)
  | .ok body => (respond (.ok body)).failureCode? = none

theorem fits_error (server : Server) (addressee? : Option Text) (failure : Failure) :
    server.Fits addressee? (server, .error failure) :=
  .inl (.refl none server.sessions)

theorem fits_success (server after : Server) (addressee? : Option Text)
    (members : List (Text × Json)) : server.Fits addressee? (after, .ok (success members)) :=
  failureCode?_respond_success members

/-- A question changes nothing. -/
theorem fits_question {result : Except Failure Json}
    (hresult : ∀ body, result = .ok body → ∃ members, body = success members) :
    server.Fits addressee? (server, result) := by
  cases result with
  | error failure => exact server.fits_error addressee? failure
  | ok body =>
      obtain ⟨members, rfl⟩ := hresult body rfl
      exact server.fits_success server addressee? members

theorem Fits.of_agree {noted : Server} {answer : Server × Except Failure Json}
    (hagree : server.sessions.Agree none noted.sessions)
    (hfits : noted.Fits addressee? answer) : server.Fits addressee? answer := by
  obtain ⟨after, result⟩ := answer
  cases result with
  | ok body => exact hfits
  | error failure =>
      rcases hfits with hkeeps | ⟨hfetch, hkeeps⟩
      · exact .inl (hagree.trans hkeeps)
      · exact .inr ⟨hfetch, (hagree.weaken addressee?).trans hkeeps⟩

theorem Fits.agree {failure : Failure} (hfits : server.Fits addressee? (after, .error failure)) :
    server.sessions.Agree addressee? after.sessions := by
  rcases hfits with hkeeps | ⟨-, hkeeps⟩
  · exact hkeeps.weaken addressee?
  · exact hkeeps

theorem Fits.agree_none {failure : Failure}
    (hfits : server.Fits addressee? (after, .error failure))
    (hother : ∀ code ∈ fetchCodes, failure.code ≠ code) :
    server.sessions.Agree none after.sessions := by
  rcases hfits with hkeeps | ⟨⟨fetch, rfl⟩, -⟩
  · exact hkeeps
  · exact absurd rfl (hother _ (code_fetch_mem fetch))

theorem agree_touch (server : Server) (now : Nat) (id : Text) :
    server.sessions.Agree none (server.touch now id).sessions :=
  Sessions.agree_update _ fun _ _ => ⟨rfl, rfl, fun _ => rfl⟩

theorem agree_putState (server : Server) (id : Text) (state : State) :
    server.sessions.Agree (some id) (server.putState id state).sessions :=
  Sessions.agree_update _ fun _ hid => ⟨rfl, rfl, fun hother => absurd (by rw [hid]) hother⟩

theorem execute_fits (server : Server) (data : DataSource) (plan : Plan) :
    server.Fits (some plan.session) (server.execute data plan) := by
  rw [execute]
  split
  · exact server.fits_error _ _
  · dsimp only
    split
    · exact server.fits_success _ _ _
    · next fetch _ => exact .inr ⟨⟨fetch, rfl⟩, server.agree_putState _ _⟩

theorem browse_fits (server : Server) (data : DataSource) (id : Text) (intent : Intent) :
    server.Fits (some id) (server.browse data id intent) := by
  rw [browse]
  split
  · next plan hplan =>
      obtain ⟨session, -, hsession, -⟩ := plan_eq_ok hplan
      rw [← hsession]
      exact server.execute_fits data plan
  · exact server.fits_error _ _

theorem createSession_fits (server : Server) (now : Nat) (fresh : Text) :
    server.Fits addressee? (server.createSession now fresh) := by
  rw [createSession]
  split
  · exact server.fits_error _ _
  · exact server.fits_success _ _ _

theorem deleteSession_fits (server : Server) (id : Text) :
    server.Fits addressee? (server.deleteSession id) := by
  rw [deleteSession]
  split
  · exact server.fits_error _ _
  · exact server.fits_success _ _ _

theorem cancel_fits (server : Server) (id : Text) :
    server.Fits addressee? (server.cancel id) := by
  rw [cancel]
  split
  · exact server.fits_error _ _
  · exact server.fits_success _ _ _

/-- The server once it has noted who calls. -/
def noted (server : Server) (now : Nat) (call : Call) : Server :=
  match Server.addressee? call with
  | some id => server.touch now id
  | none => server

theorem agree_noted (server : Server) (now : Nat) (call : Call) :
    server.sessions.Agree none (server.noted now call).sessions := by
  rw [noted]
  split
  · exact server.agree_touch now _
  · exact .refl none server.sessions

theorem handle_fits (server : Server) (data : DataSource) (now : Nat) (fresh : Text)
    (call : Call) :
    server.Fits (Server.addressee? call) (server.handle data now fresh call) := by
  refine Fits.of_agree (server.agree_noted now call) ?_
  cases call with
  | health => exact server.failureCode?_respond_health
  | createSession => exact server.createSession_fits now fresh
  | deleteSession id => exact server.deleteSession_fits id
  | browse id intent => exact (server.touch now id).browse_fits data id intent
  | cancel id => exact (server.touch now id).cancel_fits id
  | listSessions => exact server.fits_success _ _ _
  | showSession id | listTables | tableColumns table | rows id offset limit?
  | preview expression table? =>
      refine fits_question fun body hbody => ?_
      obtain ⟨_, -, hmembers⟩ := exists_of_bind_eq_ok hbody
      cases hmembers
      exact ⟨_, rfl⟩

end Server

/-! ## Questions -/

/-- The call shows something and changes no session. -/
def Call.isQuestion : Call → Bool
  | .createSession | .deleteSession _ | .browse _ _ | .cancel _ => false
  | _ => true

theorem Server.agree_of_isQuestion (server : Server) (data : DataSource) (now : Nat)
    (fresh : Text) {call : Call} (hquestion : call.isQuestion = true) :
    server.sessions.Agree none (server.handle data now fresh call).1.sessions := by
  have hnoted := server.agree_noted now call
  cases call with
  | createSession | deleteSession id | browse id intent | cancel id => cases hquestion
  | health | listSessions | showSession id | listTables | tableColumns table
  | rows id offset limit? | preview expression table? => exact hnoted

theorem Call.isQuestion_of_ofRowsQuery {id query : Text} {call : Call}
    (hcall : ofRowsQuery id query = .ok call) : call.isQuestion = true := by
  obtain ⟨_, -, hcall⟩ := exists_of_bind_eq_ok hcall
  obtain ⟨_, -, hcall⟩ := exists_of_bind_eq_ok hcall
  cases hcall
  rfl

theorem Call.isQuestion_of_decodeName {name : Text} {call : Call} {build : Text → Call}
    (hbuild : ∀ id, (build id).isQuestion = true)
    (hcall : (decodeName name).map build = .ok call) : call.isQuestion = true := by
  cases hname : decodeName name with
  | error rejection =>
      rw [hname] at hcall
      cases hcall
  | ok id =>
      rw [hname] at hcall
      cases hcall
      exact hbuild id

theorem Call.isQuestion_of_get {request : Request} {query : Text} {resource : Resource}
    {call : Call} (hget : request.method = .get)
    (hcall : ofResource request query resource = .ok call) : call.isQuestion = true := by
  rw [ofResource.eq_def, hget] at hcall
  cases resource with
  | health | sessions | tables =>
      cases hcall
      rfl
  | session id => exact isQuestion_of_decodeName (fun _ => rfl) hcall
  | tableColumns table => exact isQuestion_of_decodeName (fun _ => rfl) hcall
  | sessionRows id =>
      obtain ⟨_, -, hrows⟩ := exists_of_bind_eq_ok hcall
      exact isQuestion_of_ofRowsQuery hrows
  | newSession | sessionTable id | sessionSort id | sessionFilter id | sessionMore id
  | sessionCancel id | preview => cases hcall

/-- What only the head is asked for is a question. -/
theorem Call.isQuestion_of_head {request : Request} {call : Call}
    (hhead : request.method = .head) (hcall : ofRequest request = .ok call) :
    call.isQuestion = true := by
  simp only [ofRequest, if_pos hhead] at hcall
  split at hcall
  · cases hcall
  · exact isQuestion_of_get rfl hcall

/-! ## Answers to requests -/

/-- The session that a request is addressed to. -/
def Request.addressee? (request : Request) : Option Text :=
  match Call.ofRequest request with
  | .ok call => Server.addressee? call
  | .error _ => none

namespace Server

variable {server after : Server} {data : DataSource} {now : Nat} {fresh : Text}
  {request : Request} {response : Response}

/-- An answer without a body comes with no change, and every other answer reports a result. -/
theorem serve_cases (hserve : server.serve data now fresh request = (after, response)) :
    (server.sessions.Agree none after.sessions ∧ response.failureCode? = none) ∨
      ∃ result, server.Fits request.addressee? (after, result) ∧ response = respond result := by
  rw [serve] at hserve
  split at hserve
  · cases hserve
    exact .inl ⟨.refl none server.sessions, rfl⟩
  · split at hserve
    · cases hserve
      exact .inl ⟨.refl none server.sessions, rfl⟩
    · next call hcall =>
        dsimp only at hserve
        split at hserve
        · next hhead =>
            -- Without a body the code is not seen, but a head is asked of questions only.
            cases hserve
            exact .inl ⟨server.agree_of_isQuestion data now fresh
              (Call.isQuestion_of_head hhead hcall), rfl⟩
        · cases hserve
          refine .inr ⟨(server.handle data now fresh call).2, ?_, rfl⟩
          rw [Request.addressee?, hcall]
          exact server.handle_fits data now fresh call

/-- Whatever the source answers, a response with the code of a failed check leaves all sessions
with their states.  So does every other error that has no code of a failed fetch, and with
such a code the addressed session alone may be in another state. -/
theorem serve_error_agrees (server : Server) (data : DataSource) (now : Nat) (fresh : Text)
    (request : Request) {after : Server} {response : Response}
    (hserve : server.serve data now fresh request = (after, response)) :
    (∀ code ∈ refusalCodes, response.failureCode? = some code →
        server.sessions.Agree none after.sessions) ∧
      (response.IsError → server.sessions.Agree request.addressee? after.sessions) ∧
      (response.IsError → (∀ code ∈ fetchCodes, response.failureCode? ≠ some code) →
        server.sessions.Agree none after.sessions) := by
  rcases serve_cases hserve with ⟨hagree, -⟩ | ⟨result, hfits, rfl⟩
  · exact ⟨fun _ _ _ => hagree, fun _ => hagree.weaken _, fun _ _ => hagree⟩
  · cases result with
    | ok body =>
        have hsuccess : ¬ (respond (.ok body)).IsError := not_or.mpr ⟨not_not.mpr rfl,
          not_not.mpr hfits⟩
        refine ⟨fun code _ hcode => ?_, fun herror => absurd herror hsuccess,
          fun herror => absurd herror hsuccess⟩
        cases hcode.symm.trans hfits
    | error failure =>
        have hcode := failureCode?_respond_error failure
        refine ⟨fun code hmem hsame => hfits.agree_none ?_, fun _ => hfits.agree,
          fun _ hother => hfits.agree_none ?_⟩
        · rintro _ hfetch rfl
          rw [hcode, Option.some.injEq] at hsame
          exact not_mem_refusalCodes hfetch (hsame ▸ hmem)
        · intro code hmem hsame
          exact hother code hmem (by rw [hcode, hsame])

/-- The first of two sessions browses a table. -/
def browsed : Server :=
  ⟨⟨"127.0.0.1", 8080, none, false, 3600, 2, Config.standard⟩,
    [⟨"first", 0, 0, { State.idle 500 1 with table? := some "orders".toList }⟩,
      ⟨"second", 0, 0, State.idle 500 0⟩]⟩

/-- A source with one table, whose pages come too late. -/
def slowOrders : DataSource where
  hasTable table := .ok (table == "orders".toList)
  columns _ := .ok [⟨"id", "INTEGER"⟩]
  page _ _ := .error (.timeout 30)
  tables _ := .error (.timeout 30)

/-- A request to order the rows of the first session by a column. -/
def sortBy (column : Text) : Request :=
  ⟨.post, "/api/session/first/sort", some "application/json",
    "\x7b\"column\":\"" ++ column ++ "\"\x7d"⟩

/-- An order by an unknown column changes nothing.  An order whose page comes too late has
changed the session by then, and no other one. -/
theorem serve_slowSort_agrees :
    ((browsed.serve slowOrders 7 "third" (sortBy "total")).2.failureCode? =
        some "INVALID_REQUEST".toList ∧
      browsed.sessions.Agree none
        (browsed.serve slowOrders 7 "third" (sortBy "total")).1.sessions) ∧
    (browsed.serve slowOrders 7 "third" (sortBy "id")).2.failureCode? = some "TIMEOUT".toList ∧
      browsed.sessions.Agree (some "first".toList)
        (browsed.serve slowOrders 7 "third" (sortBy "id")).1.sessions ∧
      (browsed.serve slowOrders 7 "third" (sortBy "id")).1.sessions.map (·.state.epoch) =
        [2, 0] := by
  have hrefused : (browsed.serve slowOrders 7 "third" (sortBy "total")).2.failureCode? =
      some "INVALID_REQUEST".toList := by decide +kernel
  have hlate : (browsed.serve slowOrders 7 "third" (sortBy "id")).2.failureCode? =
      some "TIMEOUT".toList := by decide +kernel
  have herror : (browsed.serve slowOrders 7 "third" (sortBy "id")).2.IsError :=
    .inr (by rw [hlate]; exact Option.some_ne_none _)
  have haddressee : (sortBy "id").addressee? = some "first".toList := by decide +kernel
  refine ⟨⟨hrefused, ?_⟩, hlate, ?_, by decide +kernel⟩
  · exact (serve_error_agrees browsed slowOrders 7 "third" (sortBy "total") rfl).1 _
      (by decide +kernel) hrefused
  · exact haddressee ▸
      (serve_error_agrees browsed slowOrders 7 "third" (sortBy "id") rfl).2.1 herror

end Server

end TableBrowser.Web
