import TableBrowser.Web.Server

/-!
# What a plan comes to

A plan is made for the session that was asked for, and only after the checks of its intent:
a table to select exists, the column of an order belongs to the table that is browsed, and a
filter compiles with the columns of its table.
-/

namespace TableBrowser.Web

open TableBrowser.Paging (State)

theorem exists_of_bind_eq_ok {ε α β : Type} {first : Except ε α} {next : α → Except ε β} {b : β}
    (hbind : first >>= next = .ok b) : ∃ a, first = .ok a ∧ next a = .ok b := by
  cases first with
  | error failure => cases hbind
  | ok a => exact ⟨a, rfl, hbind⟩

namespace Server

variable {server : Server} {data : DataSource} {id : Text} {session : Session} {intent : Intent}
  {plan : Plan}

theorem require_eq_ok (hrequire : server.require id = .ok session) :
    session ∈ server.sessions ∧ session.id = id := by
  rw [require] at hrequire
  split at hrequire
  · next found hfound =>
      cases hrequire
      exact ⟨List.mem_of_find?_eq_some hfound, by simpa using List.find?_some hfound⟩
  · cases hrequire

/-- A session that was given a state has that state. -/
theorem state_of_require_putState {state : State}
    (hrequire : (server.putState id state).require id = .ok session) : session.state = state := by
  obtain ⟨hmem, hid⟩ := require_eq_ok hrequire
  obtain ⟨old, -, rfl⟩ := List.mem_map.mp hmem
  by_cases hold : old.id = id
  · rw [if_pos hold]
  · rw [if_neg hold] at hid
    exact absurd hid hold

/-- The checks of an intent hold for a session, and the action is what the intent comes to. -/
def Grants (data : DataSource) (session : Session) (plan : Plan) : Intent → Prop
  | .select table => requireTable data table = .ok () ∧ plan.action = .select table
  | .sort column direction =>
    checkSort data session column = .ok () ∧ plan.action = .sort column direction
  | .clearSort => plan.action = .clearSort
  | .filter expression table? =>
    ∃ compiled, compileFor data expression (table?.or session.state.table?) = .ok compiled ∧
      plan.action = .filter compiled.clause
  | .clearFilter => plan.action = .clearFilter
  | .more => plan.action = .more

theorem plan_eq_ok (hplan : server.plan data id intent = .ok plan) :
    ∃ session, server.require id = .ok session ∧ plan.session = id ∧
      Grants data session plan intent := by
  obtain ⟨session, hrequire, hchecks⟩ := exists_of_bind_eq_ok hplan
  refine ⟨session, hrequire, ?_⟩
  cases intent with
  | select table =>
      obtain ⟨⟨⟩, hcheck, hrest⟩ := exists_of_bind_eq_ok hchecks
      cases hrest
      exact ⟨rfl, hcheck, rfl⟩
  | sort column direction =>
      obtain ⟨⟨⟩, hcheck, hrest⟩ := exists_of_bind_eq_ok hchecks
      cases hrest
      exact ⟨rfl, hcheck, rfl⟩
  | clearSort =>
      cases hchecks
      exact ⟨rfl, rfl⟩
  | filter expression table? =>
      obtain ⟨compiled, hcompile, hrest⟩ := exists_of_bind_eq_ok hchecks
      cases hrest
      exact ⟨rfl, compiled, hcompile, rfl⟩
  | clearFilter =>
      cases hchecks
      exact ⟨rfl, rfl⟩
  | more =>
      cases hchecks
      exact ⟨rfl, rfl⟩

end Server

end TableBrowser.Web
