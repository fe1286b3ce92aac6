import TableBrowser.Paging.Controller

/-!
# Sessions

A session is a browser of its own over the shared database.  Sessions are kept in
the order in which they were made.
-/

namespace TableBrowser.Web

open TableBrowser.Paging

structure Session where
  id : Text
  /-- The second in which the session was made. -/
  createdAt : Nat
  /-- The second of its last request. -/
  lastActivity : Nat
  state : State

namespace Session

def age (session : Session) (now : Nat) : Nat :=
  now - session.createdAt

/-- Seconds without a request. -/
def idleTime (session : Session) (now : Nat) : Nat :=
  now - session.lastActivity

def isExpired (session : Session) (timeout now : Nat) : Bool :=
  timeout < session.idleTime now

end Session

abbrev Sessions := List Session

namespace Sessions

def find? (sessions : Sessions) (id : Text) : Option Session :=
  List.find? (·.id == id) sessions

/-- Changes the session of an id. -/
def update (sessions : Sessions) (id : Text) (change : Session → Session) : Sessions :=
  List.map (fun session => if session.id = id then change session else session) sessions

def remove (sessions : Sessions) (id : Text) : Sessions :=
  List.filter (·.id != id) sessions

end Sessions

end TableBrowser.Web
