import JudgeQueue.Config
import JudgeQueue.Http.Endpoint
/-!
# Routes

A route is a pattern of path segments and the endpoints behind it, one a
method. The first route whose pattern a path matches is the one that
answers. A segment of the pattern is fixed or a parameter; a parameter at
the end of a path is not empty.
-/

namespace JudgeQueue

namespace Http

/-- A segment of a pattern. -/
inductive Segment
  | fixed (text : String)
  | parameter
deriving DecidableEq, Repr

/-- What answers at a path. -/
inductive Handler
  | health
  | endpoint (e : Endpoint)

/-- A pattern with a handler for each method. -/
structure Route where
  pattern : List Segment
  handlers : List (Method × Handler)

namespace Route

/-- The pattern of a text in which a star stands for a parameter. -/
def patternOf (text : String) : List Segment :=
  (Split.text '/' text).map fun s => if s = "*" then .parameter else .fixed s

/-- A route below the root of the interface. -/
def of (text : String) (handlers : List (Method × Endpoint)) : Route :=
  ⟨patternOf ("/api/v1" ++ text), handlers.map fun (m, e) => (m, .endpoint e)⟩

/-- The parameters of a path, undecoded, if it matches the pattern. -/
def parameters? : List Segment → List String → Option (List String)
  | [], [] => some []
  | [.parameter], [s] => if s.isEmpty then none else some [s]
  | .fixed t :: pattern, s :: path => if s = t then parameters? pattern path else none
  | .parameter :: pattern, s :: path => (parameters? pattern path).map (s :: ·)
  | _, _ => none

/-- The routes of judgehosts. -/
def judgehosts : List Route := [
  of "/judgehosts" [(.post, .register)],
  of "/judgehosts/*/next-judging" [(.post, .nextJudging)],
  of "/judgehosts/*/judgings/*/next-testcase" [(.post, .nextTestcase)],
  of "/judgehosts/*/judgings/*/compilation" [(.put, .compilation)],
  of "/judgehosts/*/judgings/*/runs" [(.post, .runs)],
  of "/judgehosts/*/internal-errors" [(.post, .reportError)],
  of "/judgehosts/*/testcases/*/*" [(.get, .testcaseContent)]]

/-- The routes of submissions and rejudgings. -/
def rejudgings : List Route := [
  of "/submissions/*/judgings" [(.post, .enqueue)],
  of "/submissions/*/rejudge" [(.post, .rejudge)],
  of "/rejudgings" [(.post, .createRejudging)],
  of "/rejudgings/batch" [(.post, .batchRejudge)],
  of "/rejudgings/*" [(.get, .getRejudging)],
  of "/rejudgings/*/apply" [(.post, .applyRejudging)],
  of "/rejudgings/*/cancel" [(.post, .cancelRejudging)]]

/-- The routes of administration. -/
def administration : List Route := [
  of "/internal-errors" [(.get, .listErrors)],
  of "/internal-errors/*" [(.put, .resolveError)],
  of "/admin/judgehosts" [(.get, .listJudgehosts)],
  of "/admin/judgehosts/*" [(.put, .setJudgehost)],
  of "/admin/problems/*/judging" [(.put, .setProblem)],
  of "/admin/languages/*/judging" [(.put, .setLanguage)],
  of "/admin/judgings/*/return-to-queue" [(.post, .returnToQueue)],
  of "/admin/judgings/*/runs/*/*" [(.get, .runOutput)],
  of "/admin/statistics/*" [(.get, .statistics)],
  of "/admin/statistics/*/rebuild" [(.post, .rebuildStatistics)],
  of "/admin/testcases/*" [(.delete, .deleteTestcase)]]

/-- All routes. -/
def all : List Route :=
  ⟨patternOf "/api/v1/health", [(.get, .health)]⟩ :: judgehosts ++ rejudgings ++ administration

/-- The route of a path, with the parameters. -/
def find? (segments : List String) : Option (Route × List String) :=
  all.findSome? fun route => (parameters? route.pattern segments).map fun ps => (route, ps)

/-- The handler of a method. -/
def handler? (route : Route) (m : Method) : Option Handler :=
  (route.handlers.find? fun h => h.1 = m).map (·.2)

end Route

/-- The version that the service reports. -/
def version : String := "0.1.0"

/-- The report that the service is up. -/
def health (config : Config) : Response :=
  ⟨200, .json (.object [
    ("status", .text "healthy"),
    ("version", .text version),
    ("store", .text config.database.backend.name)])⟩

/-- What comes of a request: the response, the world after it, and the
events it published. -/
structure Exchange where
  response : Response
  world : World
  events : List Event := []

/-- Does what a request asks for. -/
def Endpoint.perform (e : Endpoint) (ctx : Context) (w : World) (input : e.Input) : Exchange :=
  let outcome := (e.operation input).perform ctx w
  let response := match outcome.answer with
    | .ok a => e.respond input a
    | .error cause => .ofError cause
  ⟨response, outcome.world, outcome.events⟩

/-- What comes of a request to a handler. -/
def Handler.perform (h : Handler) (config : Config) (ctx : Context) (w : World)
    (parameters : List String) (request : Request) : Exchange :=
  match h with
  | .health => ⟨Http.health config, w, []⟩
  | .endpoint e =>
    match parameters.mapM Percent.decode? with
    | none => ⟨.refusal 400, w, []⟩
    | some parameters =>
      match e.read parameters request with
      | .error response => ⟨response, w, []⟩
      | .ok input => e.perform ctx w input

/-- What comes of a request. A request for the head of a resource is treated
as one for the resource, and answered without a body. -/
def serve (config : Config) (ctx : Context) (w : World) (request : Request) : Exchange :=
  match Route.find? request.target.segments with
  | none => ⟨⟨404, .empty⟩, w, []⟩
  | some (route, parameters) =>
    let method := if request.method = .head then .get else request.method
    match route.handler? method with
    | none => ⟨⟨405, .empty⟩, w, []⟩
    | some handler =>
      let exchange := handler.perform config ctx w parameters request
      if request.method = .head then
        { exchange with response := exchange.response.withoutBody }
      else exchange

end Http

end JudgeQueue
