import TableBrowser.Proofs.Web.Locality
import TableBrowser.Proofs.Web.Refusals

/-!
# Visits to a server

A server takes requests one after another.  What it answers to a request that is addressed
to a session depends on this session, on the settings and on what the source answers, and the
requests that do not concern the session leave it as it is.  So servers that agree on a
session keep agreeing when one of them has such other visits in between.

A visit brings the answers of the source along.  They may be any answers, of the queries that
failed or came too late as well, and another visit may be answered otherwise.
-/

namespace TableBrowser.Web

open TableBrowser.Paging

/-- A request with what the source answers to its questions, the second in which it comes and
the id for a session it may make. -/
structure Visit where
  data : DataSource
  now : Nat
  fresh : Text
  request : Request

namespace Visit

/-- What is understood of the request. -/
def call? (visit : Visit) : Option Call :=
  (Call.ofRequest visit.request).toOption

def creates (visit : Visit) : Bool :=
  visit.call? = some .createSession

/-- The visit is addressed to the session of the id, or asks to make it. -/
def concerns (id : Text) (visit : Visit) : Bool :=
  visit.request.session? = some id || (visit.creates && visit.fresh = id)

end Visit

/-- A visit with its response and the server on either side. -/
structure Exchange where
  before : Server
  visit : Visit
  response : Response
  after : Server

namespace Exchange

/-- The same visit has the same response and leaves the session of the id the same. -/
structure SameFor (id : Text) (left right : Exchange) : Prop where
  visit : left.visit = right.visit
  response : left.response = right.response
  session : left.after.sessions.find? id = right.after.sessions.find? id

end Exchange

/-- The response to a request that comes to this result. -/
def Request.report (request : Request) (result : Except Failure Json) : Response :=
  if request.method = .head then { Server.respond result with body? := none }
  else Server.respond result

namespace Server

def receive (server : Server) (visit : Visit) : Server × Response :=
  server.serve visit.data visit.now visit.fresh visit.request

/-- The server behind some visits. -/
def receiveAll (server : Server) (visits : List Visit) : Server :=
  visits.foldl (fun server visit => (server.receive visit).1) server

def exchanges (server : Server) : List Visit → List Exchange
  | [] => []
  | visit :: visits =>
    ⟨server, visit, (server.receive visit).2, (server.receive visit).1⟩ ::
      exchanges (server.receive visit).1 visits

variable {server left right : Server} {visit : Visit} {visits : List Visit} {id : Text}
variable {call : Call}

/-! ## One visit -/

theorem ofRequest_of_call? (hcall : visit.call? = some call) :
    Call.ofRequest visit.request = .ok call := by
  rw [Visit.call?] at hcall
  cases hread : Call.ofRequest visit.request with
  | error rejection =>
      rw [hread] at hcall
      cases hcall
  | ok found =>
      rw [hread] at hcall
      cases hcall
      rfl

theorem receive_of_call? (server : Server) (hcall : visit.call? = some call) :
    server.receive visit = ((server.handle visit.data visit.now visit.fresh call).1,
      visit.request.report (server.handle visit.data visit.now visit.fresh call).2) := by
  have hread := ofRequest_of_call? hcall
  rw [receive, serve, if_neg (Call.not_options_of_ofRequest hread), hread]
  rfl

/-- What is not understood is answered alike by all servers. -/
theorem receive_of_call?_none (hcall : visit.call? = none) :
    ∃ response, ∀ server : Server, server.receive visit = (server, response) := by
  rw [Visit.call?] at hcall
  cases hread : Call.ofRequest visit.request with
  | ok call =>
      rw [hread] at hcall
      cases hcall
  | error rejection =>
      by_cases hoptions : visit.request.method = .options
      · exact ⟨⟨200, none⟩, fun server => by rw [receive, serve, if_pos hoptions]⟩
      · exact ⟨⟨rejection.status, none⟩, fun server => by
          rw [receive, serve, if_neg hoptions, hread]⟩

theorem session?_of_call? (hcall : visit.call? = some call) :
    call.session? = visit.request.session? :=
  Call.session?_of_ofRequest (ofRequest_of_call? hcall)

theorem call?_eq_createSession (hcreates : visit.creates = true) :
    visit.call? = some .createSession := by
  simpa [Visit.creates] using hcreates

/-- A session is asked for by its whole response. -/
theorem receive_of_creates (server : Server) (hcreates : visit.creates = true) :
    server.receive visit = ((server.createSession visit.now visit.fresh).1,
      respond (server.createSession visit.now visit.fresh).2) := by
  have hcall := call?_eq_createSession hcreates
  have hhead : visit.request.method ≠ .head := by
    intro hhead
    cases Call.isQuestion_of_head hhead (ofRequest_of_call? hcall)
  rw [server.receive_of_call? hcall, Request.report, if_neg hhead]
  rfl

/-- The sessions behind a visit are those that its call may leave behind. -/
theorem receive_leaves (server : Server) (visit : Visit) :
    ∃ sessions, (server.receive visit).1 = { server with sessions := sessions } ∧
      (sessions = server.sessions ∨
        ∃ call, visit.call? = some call ∧ server.Leaves visit.fresh call sessions) := by
  cases hcall : visit.call? with
  | none =>
      obtain ⟨response, hresponse⟩ := receive_of_call?_none hcall
      exact ⟨server.sessions, by rw [hresponse], .inl rfl⟩
  | some call =>
      obtain ⟨sessions, hafter, hleaves⟩ :=
        server.handle_leaves visit.data visit.now visit.fresh call
      refine ⟨sessions, ?_, .inr ⟨call, rfl, hleaves⟩⟩
      rw [server.receive_of_call? hcall, hafter]

theorem session?_ne_of_creates (hcreates : visit.creates = true) :
    visit.request.session? = none := by
  rw [← session?_of_call? (call?_eq_createSession hcreates)]
  rfl

namespace AgreeOn

/-- A visit that does not concern the session is not felt by it. -/
theorem receive_left (hagree : left.AgreeOn id right) (hother : visit.concerns id = false) :
    (left.receive visit).1.AgreeOn id right := by
  rw [Visit.concerns, Bool.or_eq_false_iff, decide_eq_false_iff_not] at hother
  obtain ⟨hsession, hmade⟩ := hother
  obtain ⟨sessions, hafter, hleaves⟩ := left.receive_leaves visit
  rw [hafter]
  refine ⟨hagree.settings, ?_⟩
  rcases hleaves with rfl | ⟨call, hcall, hleaves⟩
  · exact hagree.session
  · rw [← hagree.session]
    apply hleaves.find?_of_ne
    · rwa [session?_of_call? hcall]
    · rintro rfl hfresh
      simp [Visit.creates, hcall, hfresh] at hmade

/-- A visit to the session goes alike on both sides. -/
theorem receive (hagree : left.AgreeOn id right) (hsession : visit.request.session? = some id) :
    (left.receive visit).2 = (right.receive visit).2 ∧
      (left.receive visit).1.AgreeOn id (right.receive visit).1 := by
  cases hcall : visit.call? with
  | none =>
      obtain ⟨response, hresponse⟩ := receive_of_call?_none hcall
      rw [hresponse, hresponse]
      exact ⟨rfl, hagree⟩
  | some call =>
      obtain ⟨hresult, hafter⟩ := hagree.handle visit.data visit.now visit.fresh
        ((session?_of_call? hcall).trans hsession)
      rw [left.receive_of_call? hcall, right.receive_of_call? hcall, hresult]
      exact ⟨rfl, hafter⟩

end AgreeOn

/-! ## Many visits -/

theorem exchanges_append (server : Server) (front back : List Visit) :
    server.exchanges (front ++ back) =
      server.exchanges front ++ (server.receiveAll front).exchanges back := by
  induction front generalizing server with
  | nil => rfl
  | cons visit front ih => exact congrArg _ (ih (server.receive visit).1)

/-- An exchange starts where the visits before it have led. -/
theorem exists_of_exchanges_eq {front back : List Exchange} {exchange : Exchange}
    (hexchanges : server.exchanges visits = front ++ exchange :: back) :
    ∃ earlier later, visits = earlier ++ exchange.visit :: later ∧
      exchange.before = server.receiveAll earlier ∧
      exchange.before.receive exchange.visit = (exchange.after, exchange.response) ∧
      back = exchange.after.exchanges later := by
  induction visits generalizing server front with
  | nil => cases front <;> cases hexchanges
  | cons visit visits ih =>
      cases front with
      | nil =>
          rw [exchanges, List.nil_append, List.cons.injEq] at hexchanges
          obtain ⟨rfl, rfl⟩ := hexchanges
          exact ⟨[], visits, rfl, rfl, rfl, rfl⟩
      | cons first front =>
          rw [exchanges, List.cons_append, List.cons.injEq] at hexchanges
          obtain ⟨earlier, later, rfl, hbefore, hreceive, hback⟩ := ih hexchanges.2
          exact ⟨visit :: earlier, later, rfl, hbefore, hreceive, hback⟩

theorem exists_of_mem_exchanges {exchange : Exchange}
    (hmem : exchange ∈ server.exchanges visits) :
    ∃ earlier later, visits = earlier ++ exchange.visit :: later ∧
      exchange.before = server.receiveAll earlier ∧
      exchange.before.receive exchange.visit = (exchange.after, exchange.response) := by
  obtain ⟨front, back, hexchanges⟩ := List.append_of_mem hmem
  obtain ⟨earlier, later, hvisits, hbefore, hreceive, -⟩ := exists_of_exchanges_eq hexchanges
  exact ⟨earlier, later, hvisits, hbefore, hreceive⟩

/-- As long as no visit makes the session, servers that agree on it stay in agreement. -/
theorem AgreeOn.exchanges (hagree : left.AgreeOn id right)
    (hvisits : ∀ visit ∈ visits, visit.creates = true → visit.fresh ≠ id) :
    List.Forall₂ (Exchange.SameFor id)
        ((left.exchanges visits).filter fun exchange => exchange.visit.concerns id)
        (right.exchanges (visits.filter (Visit.concerns id))) ∧
      (left.receiveAll visits).AgreeOn id
        (right.receiveAll (visits.filter (Visit.concerns id))) := by
  induction visits generalizing left right with
  | nil => exact ⟨.nil, hagree⟩
  | cons visit visits ih =>
      have hrest : ∀ later ∈ visits, later.creates = true → later.fresh ≠ id :=
        fun later hlater => hvisits later (List.mem_cons_of_mem _ hlater)
      rw [Server.exchanges]
      cases hconcerns : visit.concerns id with
      | false =>
          simp only [List.filter_cons, hconcerns, Bool.false_eq_true, if_false]
          exact ih (hagree.receive_left hconcerns) hrest
      | true =>
          simp only [List.filter_cons, hconcerns, if_true]
          have hsession : visit.request.session? = some id := by
            rw [Visit.concerns, Bool.or_eq_true, decide_eq_true_eq] at hconcerns
            rcases hconcerns with hsession | hmade
            · exact hsession
            · rw [Bool.and_eq_true, decide_eq_true_eq] at hmade
              exact absurd hmade.2 (hvisits visit List.mem_cons_self hmade.1)
          obtain ⟨hresponse, hafter⟩ := hagree.receive hsession
          obtain ⟨hsame, hend⟩ := ih hafter hrest
          exact ⟨.cons ⟨rfl, hresponse, hafter.session⟩ hsame, hend⟩

end Server

end TableBrowser.Web
