import JudgeQueue.Error
import JudgeQueue.Http.Target
import JudgeQueue.Json.Draft
/-!
# HTTP requests and responses

What a client sends and what it gets. An error of the service has its own
body; a request that reaches no operation is refused in plain text.
-/

namespace JudgeQueue

namespace Http

/-- The methods that requests are told apart by. -/
inductive Method
  | get
  | post
  | put
  | delete
  | head
  | other (name : String)
deriving DecidableEq, Repr

/-- The method of a name. -/
def Method.ofName : String → Method
  | "GET" => .get
  | "POST" => .post
  | "PUT" => .put
  | "DELETE" => .delete
  | "HEAD" => .head
  | name => .other name

/-- A request. -/
structure Request where
  method : Method
  target : Target
  contentType : Option String
  body : Json.Document

/-- The body of a response. -/
inductive Body
  | empty
  | plain
  | json (value : Json)
  | error (cause : Error)

/-- A response. -/
structure Response where
  status : Nat
  body : Body

/-- The report of an error to a client, with a wording of its own choice. -/
def errorReport (cause : Error) (message : Json) : Json :=
  .object [("error", .object [("code", .text cause.code), ("message", message)])]

namespace Response

/-- A refusal in plain text. -/
def refusal (status : Nat) : Response :=
  ⟨status, .plain⟩

/-- The report of an error. -/
def ofError (e : Error) : Response :=
  ⟨e.status, .error e⟩

/-- The response without its body. -/
def withoutBody (r : Response) : Response :=
  { r with body := .empty }

end Response

end Http

end JudgeQueue
