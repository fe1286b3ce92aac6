import Mathlib.Data.List.Nodup
import TableBrowser.Proofs.Web.Visits

/-!
# Sessions do not see one another

All sessions share a server.  Still, what a session is answered and the state it is in are
what they would be if nothing had been asked of the server but to make this session and what
was addressed to it.  The other sessions are felt only in that they fill the server up, and
a session that was deleted stays unknown.
-/

namespace TableBrowser.Web

open TableBrowser.Paging

namespace Exchange

/-- A session is made under the id. -/
structure Makes (id : Text) (exchange : Exchange) : Prop where
  creates : exchange.visit.creates = true
  fresh : exchange.visit.fresh = id
  status : exchange.response.status = 200

/-- The session of the id is deleted. -/
structure Deletes (id : Text) (exchange : Exchange) : Prop where
  call : exchange.visit.call? = some (.deleteSession id)
  status : exchange.response.status = 200

end Exchange

namespace Server

variable {server left right : Server} {visit : Visit} {visits : List Visit} {id : Text}
variable {call : Call}

/-! ## The visit that makes a session -/

theorem createSession_of_full (hfull : server.settings.maxSessions ≤ server.sessions.length)
    (now : Nat) (fresh : Text) :
    server.createSession now fresh =
      (server, .error (.tooManySessions server.settings.maxSessions)) := by
  rw [createSession, if_pos hfull]

theorem createSession_of_room (hroom : server.sessions.length < server.settings.maxSessions)
    (now : Nat) (fresh : Text) :
    server.createSession now fresh =
      ({ server with
          sessions := server.sessions ++
            [⟨fresh, now, now, Controller.initial server.settings.paging⟩] },
        .ok (success [("session",
          .object [("id", .string fresh), ("age_secs", .ofNat 0)])])) := by
  rw [createSession, if_neg (Nat.not_le.mpr hroom)]

theorem room_of_status (hcreates : visit.creates = true)
    (hstatus : (server.receive visit).2.status = 200) :
    server.sessions.length < server.settings.maxSessions := by
  by_contra hfull
  rw [server.receive_of_creates hcreates,
    createSession_of_full (Nat.le_of_not_lt hfull)] at hstatus
  cases hstatus

/-- The session is made on a full server as on one without sessions. -/
theorem AgreeOn.receive_creation (hagree : left.AgreeOn id right)
    (hempty : right.sessions = []) (hcreates : visit.creates = true) (hfresh : visit.fresh = id)
    (hstatus : (left.receive visit).2.status = 200) :
    (left.receive visit).2 = (right.receive visit).2 ∧
      (left.receive visit).1.AgreeOn id (right.receive visit).1 := by
  have hleft := room_of_status hcreates hstatus
  have hright : right.sessions.length < right.settings.maxSessions := by
    rw [hempty, ← hagree.settings]
    exact Nat.zero_lt_of_lt hleft
  have hnone : left.sessions.find? id = none := by
    rw [hagree.session, hempty]
    rfl
  rw [left.receive_of_creates hcreates, right.receive_of_creates hcreates,
    createSession_of_room hleft, createSession_of_room hright]
  refine ⟨rfl, hagree.settings, ?_⟩
  rw [Sessions.find?_concat_self hfresh hnone,
    Sessions.find?_concat_self hfresh (hagree.session ▸ hnone), hagree.settings]

theorem receive_sessions_eq_nil (hempty : server.sessions = [])
    (hcreates : visit.creates = false) : (server.receive visit).1.sessions = [] := by
  obtain ⟨sessions, hafter, hleaves⟩ := server.receive_leaves visit
  rw [hafter]
  rcases hleaves with rfl | ⟨call, hcall, hleaves⟩
  · exact hempty
  · cases hleaves with
    | kept | refused => exact hempty
    | updated | removed =>
        rw [hempty]
        rfl
    | made => simp [Visit.creates, hcall] at hcreates

theorem receiveAll_sessions_eq_nil (hempty : server.sessions = [])
    (hcreates : ∀ visit ∈ visits, visit.creates = false) :
    (server.receiveAll visits).sessions = [] := by
  induction visits generalizing server with
  | nil => exact hempty
  | cons visit visits ih =>
      exact ih (receive_sessions_eq_nil hempty (hcreates visit List.mem_cons_self))
        fun later hlater => hcreates later (List.mem_cons_of_mem _ hlater)

/-- An id is given to one session only. -/
theorem fresh_ne_of_nodup {front back : List Visit} (hcreates : visit.creates = true)
    (hfresh : (((front ++ visit :: back).filter Visit.creates).map (·.fresh)).Nodup) :
    ∀ other ∈ front ++ back, other.creates = true → other.fresh ≠ visit.fresh := by
  rw [List.filter_append, List.filter_cons_of_pos hcreates, List.map_append, List.map_cons,
    List.nodup_middle, List.nodup_cons, ← List.map_append, ← List.filter_append] at hfresh
  intro other hother hmakes hsame
  exact hfresh.1 (List.mem_map.mpr ⟨other, List.mem_filter.mpr ⟨hother, hmakes⟩, hsame⟩)

/-! ## Unknown sessions -/

theorem find?_touch (server : Server) (now : Nat) (id : Text) :
    (server.touch now id).sessions.find? id =
      (server.sessions.find? id).map fun session => { session with lastActivity := now } :=
  Sessions.find?_update_self fun _ => rfl

theorem handle_of_find?_none (hnone : server.sessions.find? id = none) (data : DataSource)
    (now : Nat) (fresh : Text) (hcall : call.session? = some id) :
    (server.handle data now fresh call).2 = .error (.sessionNotFound id) := by
  have hrequire : server.require id = .error (.sessionNotFound id) := by rw [require, hnone]
  have htouch : (server.touch now id).require id = .error (.sessionNotFound id) := by
    simp only [require, find?_touch, hnone, Option.map_none]
  cases call with
  | health | createSession | listSessions | listTables | tableColumns | preview => cases hcall
  | deleteSession other =>
      cases hcall
      simp only [handle, addressee?, deleteSession, hrequire]
  | browse other intent =>
      cases hcall
      simp only [handle, addressee?, browse, plan, htouch]
      rfl
  | cancel other =>
      cases hcall
      simp only [handle, addressee?, cancel, htouch]
  | showSession other =>
      cases hcall
      simp only [handle, addressee?, showSession, htouch]
      rfl
  | rows other offset limit? =>
      cases hcall
      simp only [handle, addressee?, rowsWindow, htouch]
      rfl

theorem receive_find?_none (hnone : server.sessions.find? id = none)
    (hvisit : visit.creates = true → visit.fresh ≠ id) :
    (server.receive visit).1.sessions.find? id = none := by
  obtain ⟨sessions, hafter, hleaves⟩ := server.receive_leaves visit
  rw [hafter]
  rcases hleaves with rfl | ⟨call, hcall, hleaves⟩
  · exact hnone
  · cases hleaves with
    | kept | refused => exact hnone
    | @updated _ other change _ hchange =>
        by_cases hid : other = id
        · subst hid
          rw [Sessions.find?_update_self hchange, hnone]
          rfl
        · rw [Sessions.find?_update_of_ne hchange hid, hnone]
    | @removed other =>
        by_cases hid : other = id
        · subst hid
          exact Sessions.find?_remove_self _ _
        · rw [Sessions.find?_remove_of_ne hid, hnone]
    | made _ hid =>
        rw [Sessions.find?_concat_of_ne (hid ▸ hvisit (by simp [Visit.creates, hcall])), hnone]

theorem receiveAll_find?_none (hnone : server.sessions.find? id = none)
    (hvisits : ∀ visit ∈ visits, visit.creates = true → visit.fresh ≠ id) :
    (server.receiveAll visits).sessions.find? id = none := by
  induction visits generalizing server with
  | nil => exact hnone
  | cons visit visits ih =>
      exact ih (receive_find?_none hnone (hvisits visit List.mem_cons_self))
        fun later hlater => hvisits later (List.mem_cons_of_mem _ hlater)

/-! ## The number of sessions -/

theorem receive_length_le (hlength : server.sessions.length ≤ server.settings.maxSessions)
    (visit : Visit) :
    (server.receive visit).1.settings = server.settings ∧
      (server.receive visit).1.sessions.length ≤ server.settings.maxSessions := by
  obtain ⟨sessions, hafter, hleaves⟩ := server.receive_leaves visit
  rw [hafter]
  rcases hleaves with rfl | ⟨call, -, hleaves⟩
  · exact ⟨rfl, hlength⟩
  · exact ⟨rfl, hleaves.length_le hlength⟩

theorem receiveAll_length_le (hlength : server.sessions.length ≤ server.settings.maxSessions)
    (visits : List Visit) :
    (server.receiveAll visits).settings = server.settings ∧
      (server.receiveAll visits).sessions.length ≤ server.settings.maxSessions := by
  induction visits generalizing server with
  | nil => exact ⟨rfl, hlength⟩
  | cons visit visits ih =>
      obtain ⟨hsettings, hafter⟩ := receive_length_le hlength visit
      rw [← hsettings] at hafter ⊢
      exact ih hafter

/-- A session is refused exactly by a full server, and then nothing happens. -/
theorem receive_creation_cases (hcreates : visit.creates = true)
    (hlength : server.sessions.length ≤ server.settings.maxSessions) :
    (server.sessions.length = server.settings.maxSessions ∧
        server.receive visit =
          (server, respond (.error (.tooManySessions server.settings.maxSessions)))) ∨
      (server.sessions.length < server.settings.maxSessions ∧
        (server.receive visit).2.status = 200) := by
  rw [server.receive_of_creates hcreates]
  rcases Nat.lt_or_eq_of_le hlength with hroom | hfull
  · rw [createSession_of_room hroom]
    exact .inr ⟨hroom, rfl⟩
  · rw [createSession_of_full (Nat.le_of_eq hfull.symm)]
    exact .inl ⟨hfull, rfl⟩

/-! ## Runs of a server -/

/-- What sessions of a run have to do with one another. -/
structure Isolated (settings : Settings) (visits : List Visit) :
    Prop where
  /-- A session that is made is answered as if there were no others. -/
  alone : ∀ id, (∃ exchange ∈ (start settings).exchanges visits, exchange.Makes id) →
    List.Forall₂ (Exchange.SameFor id)
      (((start settings).exchanges visits).filter
        fun exchange => exchange.visit.concerns id)
      ((start settings).exchanges (visits.filter (Visit.concerns id)))
  /-- A visit that does not concern a session leaves it as it is. -/
  unseen : ∀ id, ∀ exchange ∈ (start settings).exchanges visits,
    exchange.visit.concerns id = false →
    exchange.after.sessions.find? id = exchange.before.sessions.find? id
  /-- There are never more sessions than allowed. -/
  bounded : ∀ exchange ∈ (start settings).exchanges visits,
    exchange.after.sessions.length ≤ settings.maxSessions
  /-- A session is refused exactly if there are as many as allowed, and nothing changes. -/
  refused : ∀ exchange ∈ (start settings).exchanges visits,
    exchange.visit.creates = true →
    (exchange.before.sessions.length = settings.maxSessions ∧
        exchange.response = respond (.error (.tooManySessions settings.maxSessions)) ∧
        exchange.after = exchange.before) ∨
      (exchange.before.sessions.length < settings.maxSessions ∧
        exchange.Makes exchange.visit.fresh)
  /-- A session that was deleted is unknown to all later requests. -/
  gone : ∀ id front deletion back,
    (start settings).exchanges visits = front ++ deletion :: back →
    deletion.Deletes id → ∀ later ∈ back, later.visit.call?.isSome = true →
    later.visit.request.session? = some id →
    later.response = later.visit.request.report (.error (.sessionNotFound id))

theorem AgreeOn.refl (server : Server) (id : Text) : server.AgreeOn id server :=
  ⟨rfl, rfl⟩

theorem concerns_of_makes {exchange : Exchange} (hmakes : exchange.Makes id) :
    exchange.visit.concerns id = true := by
  simp [Visit.concerns, hmakes.creates, hmakes.fresh]

/-- A session that is made goes on as it would alone. -/
theorem exchanges_sameFor (settings : Settings)
    (hfresh : ((visits.filter Visit.creates).map (·.fresh)).Nodup) {exchange : Exchange}
    (hmem : exchange ∈ (start settings).exchanges visits)
    (hmakes : exchange.Makes id) :
    List.Forall₂ (Exchange.SameFor id)
      (((start settings).exchanges visits).filter
        fun exchange => exchange.visit.concerns id)
      ((start settings).exchanges (visits.filter (Visit.concerns id))) := by
  obtain ⟨earlier, later, rfl, hbefore, hreceive⟩ := exists_of_mem_exchanges hmem
  have hothers := fresh_ne_of_nodup hmakes.creates hfresh
  rw [hmakes.fresh] at hothers
  have hearlier : ∀ visit ∈ earlier, visit.creates = true → visit.fresh ≠ id :=
    fun visit hvisit => hothers visit (List.mem_append_left _ hvisit)
  have hlater : ∀ visit ∈ later, visit.creates = true → visit.fresh ≠ id :=
    fun visit hvisit => hothers visit (List.mem_append_right _ hvisit)
  obtain ⟨hsameBefore, hagree⟩ :=
    (AgreeOn.refl (start settings) id).exchanges hearlier
  -- Before the session is made, the visits that are kept make no session at all.
  have hempty : ((start settings).receiveAll
      (earlier.filter (Visit.concerns id))).sessions = [] := by
    apply receiveAll_sessions_eq_nil rfl
    intro visit hvisit
    obtain ⟨hvisit, hconcerns⟩ := List.mem_filter.mp hvisit
    by_contra hcreates
    rw [Bool.not_eq_false] at hcreates
    simp [Visit.concerns, session?_ne_of_creates hcreates, hearlier visit hvisit hcreates]
      at hconcerns
  have hstatus : ((start settings).receiveAll earlier |>.receive
      exchange.visit).2.status = 200 := by
    rw [← hbefore, hreceive]
    exact hmakes.status
  obtain ⟨hresponse, hmade⟩ :=
    hagree.receive_creation hempty hmakes.creates hmakes.fresh hstatus
  obtain ⟨hsameAfter, -⟩ := hmade.exchanges hlater
  simp only [exchanges_append, exchanges, List.filter_append, List.filter_cons,
    concerns_of_makes hmakes, if_true]
  exact List.rel_append hsameBefore (.cons ⟨rfl, hresponse, hmade.session⟩ hsameAfter)

theorem receive_of_find?_none (hnone : server.sessions.find? id = none)
    (hunderstood : visit.call?.isSome = true) (hsession : visit.request.session? = some id) :
    (server.receive visit).2 = visit.request.report (.error (.sessionNotFound id)) := by
  obtain ⟨call, hcall⟩ := Option.isSome_iff_exists.mp hunderstood
  rw [server.receive_of_call? hcall, handle_of_find?_none hnone _ _ _
    ((session?_of_call? hcall).trans hsession)]

theorem find?_deleteSession (server : Server) (id : Text) :
    (server.deleteSession id).1.sessions.find? id = none := by
  rw [deleteSession, require]
  cases hfound : server.sessions.find? id with
  | none => exact hfound
  | some session => exact Sessions.find?_remove_self _ _

theorem receive_of_deletes {exchange : Exchange} (hdeletes : exchange.Deletes id)
    (hreceive : exchange.before.receive exchange.visit = (exchange.after, exchange.response)) :
    exchange.before.sessions.find? id ≠ none ∧ exchange.after.sessions.find? id = none := by
  constructor
  · intro hnone
    have hstatus := hdeletes.status
    have hunknown := handle_of_find?_none hnone exchange.visit.data exchange.visit.now
      exchange.visit.fresh (show (Call.deleteSession id).session? = some id from rfl)
    rw [exchange.before.receive_of_call? hdeletes.call, hunknown, Prod.mk.injEq] at hreceive
    rw [← hreceive.2, Request.report] at hstatus
    split at hstatus <;> cases hstatus
  · rw [exchange.before.receive_of_call? hdeletes.call, Prod.mk.injEq] at hreceive
    rw [← hreceive.1]
    exact exchange.before.find?_deleteSession id

/-- A session is deleted after it was made, and its id is not given again. -/
theorem response_of_deletes (settings : Settings)
    (hfresh : ((visits.filter Visit.creates).map (·.fresh)).Nodup)
    {front back : List Exchange} {deletion later : Exchange}
    (hexchanges : (start settings).exchanges visits = front ++ deletion :: back)
    (hdeletes : deletion.Deletes id) (hlater : later ∈ back)
    (hunderstood : later.visit.call?.isSome = true)
    (hsession : later.visit.request.session? = some id) :
    later.response = later.visit.request.report (.error (.sessionNotFound id)) := by
  obtain ⟨earlier, rest, rfl, hbefore, hreceive, rfl⟩ := exists_of_exchanges_eq hexchanges
  obtain ⟨hknown, hunknown⟩ := receive_of_deletes hdeletes hreceive
  obtain ⟨made, hmade, hcreates, hid⟩ :
      ∃ made ∈ earlier, made.creates = true ∧ made.fresh = id := by
    by_contra hnever
    refine hknown (hbefore ▸ receiveAll_find?_none rfl fun visit hvisit hcreates hid => ?_)
    exact hnever ⟨visit, hvisit, hcreates, hid⟩
  have hnever : ∀ visit ∈ rest, visit.creates = true → visit.fresh ≠ id := by
    obtain ⟨before, after, rfl⟩ := List.append_of_mem hmade
    rw [List.append_assoc, List.cons_append] at hfresh
    intro visit hvisit hagain
    rw [← hid]
    apply fresh_ne_of_nodup hcreates hfresh visit _ hagain
    simp [hvisit]
  obtain ⟨between, _, rfl, hstart, hanswer⟩ := exists_of_mem_exchanges hlater
  have hstill : later.before.sessions.find? id = none := by
    rw [hstart]
    exact receiveAll_find?_none hunknown
      fun visit hvisit => hnever visit (List.mem_append_left _ hvisit)
  rw [← receive_of_find?_none hstill hunderstood hsession, hanswer]

theorem before_of_mem_exchanges {settings : Settings}
    {exchange : Exchange} (hmem : exchange ∈ (start settings).exchanges visits) :
    exchange.before.settings = settings ∧
      exchange.before.sessions.length ≤ settings.maxSessions := by
  obtain ⟨earlier, _, _, hbefore, _⟩ := exists_of_mem_exchanges hmem
  rw [hbefore]
  have hstart : (start settings).sessions.length ≤ settings.maxSessions :=
    Nat.zero_le _
  exact receiveAll_length_le hstart earlier

def twoAtMost : Settings :=
  ⟨"127.0.0.1", 8080, none, false, 3600, 2, Config.standard⟩

/-- What a database with one table answers to queries that end in this way. -/
def orders (ending : Ending) : DataSource :=
  (Database.mk [.table ⟨"orders", [⟨"id", "INTEGER"⟩], [[.integer 1]], none⟩] []).connection.source
    ⟨fun _ => 0, ending⟩

/-- Two sessions are made and a third one is refused; both select a table, but the first one's
page comes too late.  Then the first session is deleted and asked for again. -/
def twoSessions : List Visit :=
  let body : Text := "\x7b\"table\":\"orders\"\x7d"
  let json : Option Text := some "application/json"
  [⟨orders .done, 0, "first", ⟨.post, "/api/session", none, []⟩⟩,
    ⟨orders .done, 1, "second", ⟨.post, "/api/session", none, []⟩⟩,
    ⟨orders .done, 2, "third", ⟨.post, "/api/session", none, []⟩⟩,
    ⟨orders .late, 3, "unused", ⟨.post, "/api/session/first/table", json, body⟩⟩,
    ⟨orders .done, 4, "unused", ⟨.post, "/api/session/second/table", json, body⟩⟩,
    ⟨orders .done, 5, "unused", ⟨.delete, "/api/session/first", none, []⟩⟩,
    ⟨orders .done, 6, "unused", ⟨.get, "/api/session/first", none, []⟩⟩,
    ⟨orders .done, 7, "unused", ⟨.get, "/api/session/second/rows", none, []⟩⟩]

end Server

end TableBrowser.Web
