import TableBrowser.Proofs.Web.Plans

/-!
# The session a request is addressed to

Whom a request is addressed to is told by its path alone, also if its method or its body are
not understood.  A request that is understood asks for something of the session in its path.
-/

namespace TableBrowser.Web

theorem exists_of_map_eq_ok {ε α β : Type} {first : Except ε α} {build : α → β} {b : β}
    (hmap : first.map build = .ok b) : ∃ a, first = .ok a ∧ build a = b := by
  cases first with
  | error failure => cases hmap
  | ok a =>
      cases hmap
      exact ⟨a, rfl, rfl⟩

/-- The session that a call is about. -/
def Call.session? : Call → Option Text
  | .showSession id | .deleteSession id | .browse id _ | .cancel id | .rows id _ _ => some id
  | .health | .createSession | .listSessions | .listTables | .tableColumns _ | .preview _ _ =>
    none

/-- The session in the path of a resource, as it is written there. -/
def Resource.session? : Resource → Option Text
  | .session id | .sessionTable id | .sessionSort id | .sessionFilter id | .sessionMore id
  | .sessionCancel id | .sessionRows id => some id
  | .health | .newSession | .sessions | .tables | .tableColumns _ | .preview => none

/-- The session that a request is addressed to. -/
def Request.session? (request : Request) : Option Text :=
  ((Resource.ofPath? request.pathAndQuery.1).bind Resource.session?).bind fun name =>
    (decodeName name).toOption

namespace Call

variable {request : Request} {call : Call} {name : Text}

theorem session?_of_bind {next : Text → Except Rejection Call}
    (hnext : ∀ id call, next id = .ok call → call.session? = some id)
    (hcall : decodeName name >>= next = .ok call) :
    call.session? = (decodeName name).toOption := by
  obtain ⟨id, hname, hcall⟩ := exists_of_bind_eq_ok hcall
  rw [hname, hnext id call hcall]
  rfl

theorem session?_of_map {build : Text → Call} (hbuild : ∀ id, (build id).session? = some id)
    (hcall : (decodeName name).map build = .ok call) :
    call.session? = (decodeName name).toOption := by
  obtain ⟨id, hname, rfl⟩ := exists_of_map_eq_ok hcall
  rw [hname, hbuild id]
  rfl

theorem session?_of_ofSelectBody {id : Text} {values : List Body.FieldValue}
    (hcall : ofSelectBody id values = .ok call) : call.session? = some id := by
  rw [ofSelectBody.eq_def] at hcall
  split at hcall <;> cases hcall
  rfl

theorem session?_of_ofSortBody {id : Text} {values : List Body.FieldValue}
    (hcall : ofSortBody id values = .ok call) : call.session? = some id := by
  rw [ofSortBody.eq_def] at hcall
  split at hcall <;> cases hcall
  rfl

theorem session?_of_ofFilterBody {build : Text → Option Text → Call} {session? : Option Text}
    {values : List Body.FieldValue}
    (hbuild : ∀ expression table?, (build expression table?).session? = session?)
    (hcall : ofFilterBody build values = .ok call) : call.session? = session? := by
  rw [ofFilterBody.eq_def] at hcall
  split at hcall <;> cases hcall <;> exact hbuild _ _

theorem session?_of_ofRowsQuery {id query : Text} (hcall : ofRowsQuery id query = .ok call) :
    call.session? = some id := by
  obtain ⟨_, -, hcall⟩ := exists_of_bind_eq_ok hcall
  obtain ⟨_, -, hcall⟩ := exists_of_bind_eq_ok hcall
  cases hcall
  rfl

theorem session?_of_ofResource {query : Text} {resource : Resource}
    (hcall : ofResource request query resource = .ok call) :
    call.session? = resource.session?.bind fun name => (decodeName name).toOption := by
  rw [ofResource.eq_def] at hcall
  cases resource with
  | health | newSession | sessions | tables =>
      cases hmethod : request.method <;> rw [hmethod] at hcall <;> cases hcall
      rfl
  | session id =>
      cases hmethod : request.method <;> rw [hmethod] at hcall
      case get | delete => exact session?_of_map (fun _ => rfl) hcall
      all_goals cases hcall
  | tableColumns table =>
      cases hmethod : request.method <;> rw [hmethod] at hcall
      case get =>
        obtain ⟨_, -, rfl⟩ := exists_of_map_eq_ok hcall
        rfl
      all_goals cases hcall
  | sessionTable id =>
      cases hmethod : request.method <;> rw [hmethod] at hcall
      case post =>
        refine session?_of_bind (fun id call hcall => ?_) hcall
        obtain ⟨_, -, hcall⟩ := exists_of_bind_eq_ok hcall
        exact session?_of_ofSelectBody hcall
      all_goals cases hcall
  | sessionSort id =>
      cases hmethod : request.method <;> rw [hmethod] at hcall
      case post =>
        refine session?_of_bind (fun id call hcall => ?_) hcall
        obtain ⟨_, -, hcall⟩ := exists_of_bind_eq_ok hcall
        exact session?_of_ofSortBody hcall
      case delete => exact session?_of_map (fun _ => rfl) hcall
      all_goals cases hcall
  | sessionFilter id =>
      cases hmethod : request.method <;> rw [hmethod] at hcall
      case post =>
        refine session?_of_bind (fun id call hcall => ?_) hcall
        obtain ⟨_, -, hcall⟩ := exists_of_bind_eq_ok hcall
        exact session?_of_ofFilterBody (fun _ _ => rfl) hcall
      case delete => exact session?_of_map (fun _ => rfl) hcall
      all_goals cases hcall
  | sessionMore id | sessionCancel id =>
      cases hmethod : request.method <;> rw [hmethod] at hcall
      case post => exact session?_of_map (fun _ => rfl) hcall
      all_goals cases hcall
  | sessionRows id =>
      cases hmethod : request.method <;> rw [hmethod] at hcall
      case get =>
        exact session?_of_bind (fun id call hcall => session?_of_ofRowsQuery hcall) hcall
      all_goals cases hcall
  | preview =>
      cases hmethod : request.method <;> rw [hmethod] at hcall
      case post =>
        obtain ⟨_, -, hcall⟩ := exists_of_bind_eq_ok hcall
        exact session?_of_ofFilterBody (fun _ _ => rfl) hcall
      all_goals cases hcall

/-- What is understood of a request is about the session that it is addressed to. -/
theorem session?_of_ofRequest (hcall : ofRequest request = .ok call) :
    call.session? = request.session? := by
  rw [ofRequest] at hcall
  dsimp only at hcall
  rw [Request.session?]
  split at hcall
  · cases hcall
  · next resource hresource =>
      rw [hresource]
      exact session?_of_ofResource hcall

/-- A question for the options is no call. -/
theorem not_options_of_ofRequest (hcall : ofRequest request = .ok call) :
    request.method ≠ .options := by
  intro hoptions
  rw [ofRequest] at hcall
  dsimp only at hcall
  split at hcall
  · cases hcall
  · next resource hresource =>
      rw [hoptions, if_neg (by decide), ofResource.eq_def, hoptions] at hcall
      cases resource <;> cases hcall

end Call

end TableBrowser.Web
