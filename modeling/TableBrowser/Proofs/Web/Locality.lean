import TableBrowser.Proofs.Web.Addressing

/-!
# What a call reads and what it changes

A call about a session reads the settings, the source of the data and this session, and changes
this session only.  Other calls change no session that is there; the only thing they may do is to
make another one.  No call changes the settings.
-/

namespace TableBrowser.Web

open TableBrowser.Paging

namespace Sessions

variable {sessions : Sessions} {id other : Text} {change : Session → Session}

theorem find?_update_self (hchange : ∀ session, (change session).id = session.id) :
    (sessions.update id change).find? id = (sessions.find? id).map change := by
  induction sessions with
  | nil => rfl
  | cons session sessions ih =>
      simp only [update, find?, List.map_cons] at ih ⊢
      by_cases hid : session.id = id
      · rw [if_pos hid, List.find?_cons_of_pos (by simp [hchange, hid]),
          List.find?_cons_of_pos (by simp [hid])]
        rfl
      · rw [if_neg hid, List.find?_cons_of_neg (by simp [hid]),
          List.find?_cons_of_neg (by simp [hid]), ih]

theorem find?_update_of_ne (hchange : ∀ session, (change session).id = session.id)
    (hne : other ≠ id) : (sessions.update other change).find? id = sessions.find? id := by
  induction sessions with
  | nil => rfl
  | cons session sessions ih =>
      simp only [update, find?, List.map_cons] at ih ⊢
      by_cases hid : session.id = id
      · have hother : session.id ≠ other := fun hsame => hne (hsame.symm.trans hid)
        rw [if_neg hother, List.find?_cons_of_pos (by simp [hid]),
          List.find?_cons_of_pos (by simp [hid])]
      · have hchanged : (if session.id = other then change session else session).id ≠ id := by
          split
          · rwa [hchange]
          · exact hid
        rw [List.find?_cons_of_neg (by simpa using hchanged),
          List.find?_cons_of_neg (by simp [hid]), ih]

theorem find?_remove_self (sessions : Sessions) (id : Text) :
    (sessions.remove id).find? id = none := by
  simp [find?, remove, List.find?_eq_none]

theorem find?_remove_of_ne (hne : other ≠ id) :
    (sessions.remove other).find? id = sessions.find? id := by
  rw [remove, find?, find?, List.find?_filter]
  congr 1
  funext session
  by_cases hid : session.id = id <;> simp [hid, hne.symm]

theorem find?_concat_of_ne {session : Session} (hne : session.id ≠ id) :
    (sessions ++ [session]).find? id = sessions.find? id := by
  simp [find?, List.find?_append, hne]

theorem find?_concat_self {session : Session} (hid : session.id = id)
    (hnone : sessions.find? id = none) :
    (sessions ++ [session]).find? id = some session := by
  rw [find?] at hnone ⊢
  simp [List.find?_append, hnone, hid]

theorem update_update (sessions : Sessions) (id : Text) (first second : Session → Session)
    (hfirst : ∀ session, (first session).id = session.id) :
    (sessions.update id first).update id second =
      sessions.update id fun session => second (first session) := by
  simp only [update, List.map_map]
  apply List.map_congr_left
  intro session _
  by_cases hid : session.id = id <;> simp [hid, hfirst]

end Sessions

namespace Server

variable {server left right : Server} {now : Nat} {fresh id : Text} {call : Call}
  {data : DataSource}

/-! ## What a call changes -/

/-- The sessions that a call may leave behind. -/
inductive Leaves (server : Server) (fresh : Text) : Call → Sessions → Prop
  | kept {call : Call} : call ≠ .createSession → Leaves server fresh call server.sessions
  | updated {call : Call} {id : Text} {change : Session → Session} :
      call.session? = some id → (∀ session, (change session).id = session.id) →
      Leaves server fresh call (server.sessions.update id change)
  | removed {id : Text} : Leaves server fresh (.deleteSession id) (server.sessions.remove id)
  | refused : server.settings.maxSessions ≤ server.sessions.length →
      Leaves server fresh .createSession server.sessions
  | made {session : Session} : server.sessions.length < server.settings.maxSessions →
      session.id = fresh →
      Leaves server fresh .createSession (server.sessions ++ [session])

theorem leaves_touch (hcall : call.session? = some id) :
    server.Leaves fresh call (server.touch now id).sessions :=
  .updated hcall fun _ => rfl

theorem leaves_putState (hcall : call.session? = some id) (state : State) :
    server.Leaves fresh call ((server.touch now id).putState id state).sessions := by
  have htwice := server.sessions.update_update id
    (fun session => { session with lastActivity := now })
    (fun session => { session with state := state }) fun _ => rfl
  simp only [putState, touch, htwice]
  exact .updated hcall fun _ => rfl

theorem createSession_leaves (server : Server) (now : Nat) (fresh : Text) :
    ∃ sessions, (server.createSession now fresh).1 = { server with sessions := sessions } ∧
      server.Leaves fresh .createSession sessions := by
  rw [createSession]
  split
  · next hfull => exact ⟨_, rfl, .refused hfull⟩
  · next hroom => exact ⟨_, rfl, .made (Nat.lt_of_not_le hroom) rfl⟩

theorem deleteSession_leaves (server : Server) (fresh id : Text) :
    ∃ sessions, (server.deleteSession id).1 = { server with sessions := sessions } ∧
      server.Leaves fresh (.deleteSession id) sessions := by
  rw [deleteSession]
  split
  · exact ⟨_, rfl, .kept (by simp)⟩
  · exact ⟨_, rfl, .removed⟩

theorem cancel_leaves (server : Server) (now : Nat) (fresh id : Text) :
    ∃ sessions, ((server.touch now id).cancel id).1 = { server with sessions := sessions } ∧
      server.Leaves fresh (.cancel id) sessions := by
  rw [cancel]
  split
  · exact ⟨_, rfl, leaves_touch rfl⟩
  · exact ⟨_, rfl, leaves_putState rfl _⟩

theorem browse_leaves (server : Server) (data : DataSource) (now : Nat) (fresh id : Text)
    (intent : Intent) :
    ∃ sessions,
      ((server.touch now id).browse data id intent).1 = { server with sessions := sessions } ∧
      server.Leaves fresh (.browse id intent) sessions := by
  rw [browse]
  split
  · next plan hplan =>
      obtain ⟨session, hrequire, hsession, -⟩ := plan_eq_ok hplan
      rw [execute, hsession, hrequire]
      dsimp only
      split <;> exact ⟨_, rfl, leaves_putState rfl _⟩
  · exact ⟨_, rfl, leaves_touch rfl⟩

/-- The settings stay as they are. -/
theorem handle_leaves (server : Server) (data : DataSource) (now : Nat) (fresh : Text)
    (call : Call) :
    ∃ sessions, (server.handle data now fresh call).1 = { server with sessions := sessions } ∧
      server.Leaves fresh call sessions := by
  cases call with
  | createSession => exact server.createSession_leaves now fresh
  | deleteSession id => exact server.deleteSession_leaves fresh id
  | cancel id => exact server.cancel_leaves now fresh id
  | browse id intent => exact server.browse_leaves data now fresh id intent
  | showSession id | rows id offset limit? => exact ⟨_, rfl, leaves_touch rfl⟩
  | health | listSessions | listTables | tableColumns | preview =>
      exact ⟨_, rfl, .kept (by simp)⟩

/-- A session that the call is not about and that it does not make stays as it is. -/
theorem Leaves.find?_of_ne {sessions : Sessions} (hleaves : server.Leaves fresh call sessions)
    (hcall : call.session? ≠ some id) (hfresh : call = .createSession → fresh ≠ id) :
    sessions.find? id = server.sessions.find? id := by
  cases hleaves with
  | kept | refused => rfl
  | updated hother hchange =>
      exact Sessions.find?_update_of_ne hchange fun hsame => hcall (hsame ▸ hother)
  | removed => exact Sessions.find?_remove_of_ne fun hsame => hcall (congrArg some hsame)
  | made _ hid => exact Sessions.find?_concat_of_ne (hid ▸ hfresh rfl)

theorem Leaves.length_le {sessions : Sessions} (hleaves : server.Leaves fresh call sessions)
    (hlength : server.sessions.length ≤ server.settings.maxSessions) :
    sessions.length ≤ server.settings.maxSessions := by
  cases hleaves with
  | kept | refused => exact hlength
  | updated => exact Nat.le_trans (Nat.le_of_eq (List.length_map _)) hlength
  | removed => exact Nat.le_trans (List.length_filter_le _ _) hlength
  | made hroom => simpa using Nat.succ_le_of_lt hroom

/-! ## What a call reads -/

/-- The servers have the same settings and the same session of an id. -/
structure AgreeOn (id : Text) (left right : Server) : Prop where
  settings : left.settings = right.settings
  session : left.sessions.find? id = right.sessions.find? id

namespace AgreeOn

theorem update (hagree : left.AgreeOn id right) {change : Session → Session}
    (hchange : ∀ session, (change session).id = session.id) :
    AgreeOn id { left with sessions := left.sessions.update id change }
      { right with sessions := right.sessions.update id change } where
  settings := hagree.settings
  session := by
    rw [Sessions.find?_update_self hchange, Sessions.find?_update_self hchange, hagree.session]

theorem touch (hagree : left.AgreeOn id right) (now : Nat) :
    (left.touch now id).AgreeOn id (right.touch now id) :=
  hagree.update fun _ => rfl

theorem putState (hagree : left.AgreeOn id right) (state : State) :
    (left.putState id state).AgreeOn id (right.putState id state) :=
  hagree.update fun _ => rfl

theorem require (hagree : left.AgreeOn id right) : left.require id = right.require id := by
  simp only [Server.require, hagree.session]

theorem plan (hagree : left.AgreeOn id right) (data : DataSource) (intent : Intent) :
    left.plan data id intent = right.plan data id intent := by
  rw [Server.plan, Server.plan, hagree.require]

theorem execute (hagree : left.AgreeOn id right) (data : DataSource) {plan : Plan}
    (hplan : plan.session = id) :
    (left.execute data plan).2 = (right.execute data plan).2 ∧
      (left.execute data plan).1.AgreeOn id (right.execute data plan).1 := by
  rw [Server.execute, Server.execute, hplan, hagree.require, hagree.settings]
  cases right.require id with
  | error failure => exact ⟨rfl, hagree⟩
  | ok session =>
      dsimp only
      split <;> exact ⟨rfl, hagree.putState _⟩

theorem browse (hagree : left.AgreeOn id right) (data : DataSource) (intent : Intent) :
    (left.browse data id intent).2 = (right.browse data id intent).2 ∧
      (left.browse data id intent).1.AgreeOn id (right.browse data id intent).1 := by
  rw [Server.browse, Server.browse, hagree.plan]
  cases hplan : right.plan data id intent with
  | error failure => exact ⟨rfl, hagree⟩
  | ok plan =>
      obtain ⟨_, -, hsession, -⟩ := plan_eq_ok hplan
      exact hagree.execute data hsession

theorem cancel (hagree : left.AgreeOn id right) :
    (left.cancel id).2 = (right.cancel id).2 ∧
      (left.cancel id).1.AgreeOn id (right.cancel id).1 := by
  rw [Server.cancel, Server.cancel, hagree.require]
  cases right.require id with
  | error failure => exact ⟨rfl, hagree⟩
  | ok session => exact ⟨rfl, hagree.putState _⟩

theorem deleteSession (hagree : left.AgreeOn id right) :
    (left.deleteSession id).2 = (right.deleteSession id).2 ∧
      (left.deleteSession id).1.AgreeOn id (right.deleteSession id).1 := by
  rw [Server.deleteSession, Server.deleteSession, hagree.require]
  cases right.require id with
  | error failure => exact ⟨rfl, hagree⟩
  | ok session =>
      refine ⟨rfl, hagree.settings, ?_⟩
      rw [Sessions.find?_remove_self, Sessions.find?_remove_self]

/-- A call about a session is answered alike by servers that agree on the session, over the
same source. -/
theorem handle (hagree : left.AgreeOn id right) (data : DataSource) (now : Nat) (fresh : Text)
    (hcall : call.session? = some id) :
    (left.handle data now fresh call).2 = (right.handle data now fresh call).2 ∧
      (left.handle data now fresh call).1.AgreeOn id (right.handle data now fresh call).1 := by
  have htouch := hagree.touch now
  cases call with
  | health | createSession | listSessions | listTables | tableColumns | preview => cases hcall
  | deleteSession other =>
      cases hcall
      exact hagree.deleteSession
  | browse other intent =>
      cases hcall
      exact htouch.browse data intent
  | cancel other =>
      cases hcall
      exact htouch.cancel
  | showSession other =>
      cases hcall
      refine ⟨?_, htouch⟩
      simp only [Server.handle, addressee?, showSession, htouch.require]
  | rows other offset limit? =>
      cases hcall
      refine ⟨?_, htouch⟩
      simp only [Server.handle, addressee?, rowsWindow, htouch.require]

end AgreeOn

end Server

end TableBrowser.Web
