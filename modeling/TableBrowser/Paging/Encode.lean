import TableBrowser.Paging.Controller

/-!
# Requests and outcomes in JSON

The form in which requests, outcomes and states are handed to clients.  Parts of
a request that are not set are left out.
-/

namespace TableBrowser.Paging

def optionalMember {α : Type} (name : Text) (encode : α → Json) :
    Option α → List (Text × Json)
  | none => []
  | some value => [(name, encode value)]

def Direction.toJson (direction : Direction) : Json :=
  .string direction.keyword

def SortOrder.toJson (sort : SortOrder) : Json :=
  .object [("column", .string sort.column), ("direction", sort.direction.toJson)]

def PageRequest.toJson (request : PageRequest) : Json :=
  let always : List (Text × Json) :=
    [("requestEpoch", .ofNat request.epoch), ("limit", .ofNat request.limit),
      ("offset", .ofNat request.offset)]
  .object (always ++
    optionalMember "orderBy" .string request.orderBy? ++
    optionalMember "orderDirection" Direction.toJson request.direction? ++
    optionalMember "whereClause" .string request.clause? ++
    optionalMember "timeoutSeconds" .ofNat request.timeoutSeconds?)

def Outcome.toJson : Outcome → Json
  | .applied rows => .object [("outcome", .string "applied"), ("rows", .ofNat rows)]
  | .superseded => .object [("outcome", .string "superseded")]
  | .skipped => .object [("outcome", .string "skipped")]

def Phase.toJson : Phase → Json
  | .idle => .string "idle"
  | .loading => .string "loading"
  | .loadingMore => .string "loading_more"
  | .ready => .string "ready"

/-- The state without its rows, as a client shows it. -/
def State.summary (state : State) : Json :=
  .object
    [("phase", state.phase.toJson),
      ("activeTable", .ofOption .string state.table?),
      ("columns", .strings state.columns),
      ("loadedRows", .ofNat state.offset),
      ("totalCount", .ofNat state.total),
      ("hasMore", .bool state.hasMore),
      ("chunkSize", .ofNat state.pageSize),
      ("epoch", .ofNat state.epoch),
      ("isLoading", .bool state.isLoading),
      ("isLoadingMore", .bool state.isLoadingMore),
      ("sort", .ofOption SortOrder.toJson state.sort?),
      ("whereClause", .ofOption .string state.clause?)]

end TableBrowser.Paging
