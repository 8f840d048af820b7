import JobPlatform.Runtime.Endpoints

/-!
Contract: the metrics of the API process, from `application/shared/metrics.py`.

Owns:
- the routes of `create_app`, and the label `_route_template` gives a request;
- what `PrometheusMiddleware.dispatch` records, by how the handling of the request ended;
- the tables its label values are taken from.

Does not own the libraries under it. The route the router left in the scope is part of the request;
the methods the HTTP parser admits and the exception classes that exist are those of `ApiServer`.
-/

namespace JobPlatform.Runtime

open JobPlatform.Foundation JobPlatform.Store

/-- The metrics of the API. -/
inductive ApiMetric where
  | httpRequests
  | httpDuration
  | httpInFlight
  | appErrors
deriving DecidableEq

/-- The routes of `create_app`; the first four are those FastAPI adds by itself. -/
inductive Route where
  | openapi
  | docs
  | oauthRedirect
  | redoc
  | health
  | ready
  | metrics
  | listCustomers
  | createCustomer
  | createJob
  | getJob
deriving DecidableEq

def Route.path : Route → String
  | openapi => "/openapi.json"
  | docs => "/docs"
  | oauthRedirect => "/docs/oauth2-redirect"
  | redoc => "/redoc"
  | health => "/health"
  | ready => "/ready"
  | metrics => "/metrics"
  | listCustomers => "/customers"
  | createCustomer => "/customers"
  | createJob => "/jobs"
  | getJob => "/jobs/{job_id}"

/-- A request: its method, the route in its scope after routing, its body and its correlation id. -/
structure HttpRequest where
  method : String
  route : Option Route
  body : PyJson
  correlationId : Option HeaderValue

/-- `_route_template`. -/
def routeTemplate (request : HttpRequest) : String :=
  match request.route with
  | some route => if route.path = "" then "unmatched" else route.path
  | none => "unmatched"

/-- How `call_next` ended. An error that is no `Exception`, such as a cancellation, is not
counted in `APP_ERRORS`. -/
inductive Handling where
  | response (statusCode : Nat)
  | raised (error : Exn)
  | cancelled

/-- `response.status_code`, or 500 when there is no response. -/
def Handling.statusCode : Handling → Nat
  | response statusCode => statusCode
  | raised _ => 500
  | cancelled => 500

/-- The status class of a status code, as the middleware writes it. -/
def statusClass (statusCode : Nat) : String := toString (statusCode / 100) ++ "xx"

/-- A metric and its label values. -/
abbrev ApiRecord := ApiMetric × List String

/-- What `PrometheusMiddleware.dispatch` records before it calls the application. -/
def dispatchStart (request : HttpRequest) : List ApiRecord :=
  [(.httpInFlight, [request.method, "unmatched"])]

/-- What it records afterwards. -/
def dispatchEnd (request : HttpRequest) (handling : Handling) : List ApiRecord :=
  (match handling with
    | .raised error => [(.appErrors, [routeTemplate request, error.typeName])]
    | _ => []) ++
  [(.httpRequests, [request.method, routeTemplate request, statusClass handling.statusCode]),
    (.httpDuration, [request.method, routeTemplate request]),
    (.httpInFlight, [request.method, "unmatched"])]

/-! ### The tables -/

/-- The libraries under the API: the methods the HTTP parser admits, and the names of the exception
classes that exist in the process. -/
structure ApiServer where
  methods : List String
  errorTypes : List String
  post : "POST" ∈ methods

/-- Status codes have three digits and begin with 1 to 5; an exception is of an existing class. -/
def ApiServer.Allows (server : ApiServer) : Handling → Prop
  | .response statusCode => 100 ≤ statusCode ∧ statusCode < 600
  | .raised error => error.typeName ∈ server.errorTypes
  | .cancelled => True

/-- Every value `_route_template` can return. -/
def routeLabels : List String :=
  ["unmatched", "/openapi.json", "/docs", "/docs/oauth2-redirect", "/redoc", "/health", "/ready",
    "/metrics", "/customers", "/jobs", "/jobs/{job_id}"]

def statusClasses : List String := ["1xx", "2xx", "3xx", "4xx", "5xx"]

/-- The label values a metric of the API may carry. -/
def apiTable (server : ApiServer) : ApiMetric → List (List String)
  | .httpRequests => server.methods.flatMap fun method => routeLabels.flatMap fun route =>
      statusClasses.map fun statusClass => [method, route, statusClass]
  | .httpDuration => server.methods.flatMap fun method => routeLabels.map fun route =>
      [method, route]
  | .httpInFlight => server.methods.map fun method => [method, "unmatched"]
  | .appErrors => routeLabels.flatMap fun route => server.errorTypes.map fun errorType =>
      [route, errorType]

section Tables

variable {server : ApiServer} {request : HttpRequest} {handling : Handling}

/-- The label is the template of a route, never the path that was asked for. -/
theorem routeTemplate_mem (request : HttpRequest) : routeTemplate request ∈ routeLabels := by
  unfold routeTemplate routeLabels
  cases request.route with
  | none => simp
  | some route => cases route <;> simp [Route.path]

theorem statusClass_mem {statusCode : Nat} (least : 100 ≤ statusCode) (most : statusCode < 600) :
    statusClass statusCode ∈ statusClasses := by
  have digit : statusCode / 100 = 1 ∨ statusCode / 100 = 2 ∨ statusCode / 100 = 3 ∨
      statusCode / 100 = 4 ∨ statusCode / 100 = 5 := by omega
  unfold statusClass
  rcases digit with isDigit | isDigit | isDigit | isDigit | isDigit <;> rw [isDigit] <;> decide

theorem statusClass_of_allowed (allowed : server.Allows handling) :
    statusClass handling.statusCode ∈ statusClasses := by
  cases handling with
  | response statusCode => exact statusClass_mem allowed.1 allowed.2
  | raised error =>
      show statusClass 500 ∈ statusClasses
      decide
  | cancelled => decide

theorem dispatchStart_mem (admitted : request.method ∈ server.methods) :
    ∀ record ∈ dispatchStart request, record.2 ∈ apiTable server record.1 := by
  intro record member
  rw [List.mem_singleton.mp member]
  exact List.mem_map.mpr ⟨_, admitted, rfl⟩

/-- Whatever becomes of an admitted request, its labels are in the tables. -/
theorem dispatchEnd_mem (admitted : request.method ∈ server.methods)
    (allowed : server.Allows handling) :
    ∀ record ∈ dispatchEnd request handling, record.2 ∈ apiTable server record.1 := by
  have route := routeTemplate_mem request
  have isClass := statusClass_of_allowed allowed
  have always : ∀ record ∈ ([(.httpRequests, [request.method, routeTemplate request,
      statusClass handling.statusCode]), (.httpDuration, [request.method,
      routeTemplate request]), (.httpInFlight, [request.method, "unmatched"])] : List ApiRecord),
      record.2 ∈ apiTable server record.1 := by
    simp only [List.forall_mem_cons]
    refine ⟨?_, ?_, ?_, List.forall_mem_nil _⟩
    · apply List.mem_flatMap.mpr ⟨_, admitted, _⟩
      apply List.mem_flatMap.mpr ⟨_, route, _⟩
      exact List.mem_map.mpr ⟨_, isClass, rfl⟩
    · apply List.mem_flatMap.mpr ⟨_, admitted, _⟩
      exact List.mem_map.mpr ⟨_, route, rfl⟩
    · exact List.mem_map.mpr ⟨_, admitted, rfl⟩
  intro record member
  rcases List.mem_append.mp member with failed | recorded
  · cases handling with
    | raised error =>
        rw [List.mem_singleton.mp failed]
        apply List.mem_flatMap.mpr ⟨_, route, _⟩
        exact List.mem_map.mpr ⟨_, allowed, rfl⟩
    | response => cases failed
    | cancelled => cases failed
  · exact always record recorded

end Tables

end JobPlatform.Runtime
