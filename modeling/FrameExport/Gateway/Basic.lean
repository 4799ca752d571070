import FrameExport.Gateway.Address
import FrameExport.Gateway.Order
import FrameExport.Json.Literal
import FrameExport.Json.Reader
import FrameExport.Rendering
import FrameExport.Text.Encoding

/-!
# The gateway

The gateway answers requests over HTTP: it puts exports into the queue, tells how a task of the
queue is doing, and renders a design file that is sent along.  `Gateway.serve` gives the response to
a request together with what is done with the queue, which is at most one thing.

A file of the wrong structure is refused; one with values that cannot be used is an internal error,
and so is a refusal that would have to hold a double that is not finite.  What a task left is told
with null in place of such doubles, unless it is nested too deeply.  The names and states that the
queue gives are told only if they are texts.
-/

namespace FrameExport.Gateway

/-! ### Requests -/

/-- A request as it arrives; one without a body has no bytes there. -/
structure Request where
  method : String
  address : String
  body : ByteArray

/-- What a path leads to. -/
inductive Route where
  | health
  | order
  | task (id : String)
  | render
  /-- One of the pages on which the gateway describes itself. -/
  | documentation
deriving DecidableEq, Repr

namespace Route

/-- The paths of the pages on which the gateway describes itself. -/
def documentationPaths : List String :=
  ["/openapi.json", "/docs", "/docs/oauth2-redirect", "/redoc"]

/-- A path without the line break that may stand at its end. -/
def withoutBreak (path : List Char) : List Char :=
  if path.getLast? = some '\n' then path.dropLast else path

/-- The route with a fixed path. -/
def ofFixedPath? (path : String) : Option Route :=
  match path with
  | "/healthz" => some .health
  | "/export" => some .order
  | "/render" => some .render
  | path => if documentationPaths.contains path then some .documentation else none

/-- The route that asks for a task: its path has a page and one segment more, which names it. -/
def ofTaskPath? (path : List Char) : Option Route :=
  match Path.splitAtSlashes path with
  | [[], page, id] =>
    if String.ofList page = "task" ∧ id ≠ [] then some (.task (String.ofList id)) else none
  | _ => none

/-- The route of a path that is written without a slash at its end. -/
def ofPath? (path : List Char) : Option Route :=
  (ofFixedPath? (String.ofList (withoutBreak path))).or (ofTaskPath? path)

/-- How often a request is sent on before the one who sends it gives up. -/
def sendingsOn : Nat := 20

/-- The route that a path leads to when a request may still be sent on some times.  A path that
leads nowhere because of the slashes at its end is sent on without them, and what is sent on is
taken as an address once more. -/
def follow? (sendings : Nat) (path : List Char) : Option Route :=
  match ofPath? path, sendings with
  | some route, _ => some route
  | none, 0 => none
  | none, sendings + 1 =>
    let shorter := (path.reverse.dropWhile (· == '/')).reverse
    if (ofPath? shorter).isSome then follow? sendings (Address.path (String.ofList shorter))
    else none

/-- The route that an address leads to. -/
def find? (address : String) : Option Route := follow? sendingsOn (Address.path address)

/-- The methods that a route is asked with. -/
def methods : Route → List String
  | .health | .task _ => ["GET"]
  | .order | .render => ["POST"]
  | .documentation => ["GET", "HEAD"]

end Route

/-! ### Responses -/

/-- What a response holds. -/
inductive Content where
  | json (value : Json)
  | text (value : String)
deriving Repr

/-- The answer to a request. -/
structure Response where
  status : Nat
  content : Content
deriving Repr

namespace Response

/-- The response that gives an object. -/
def object (fields : Fields) : Response := ⟨200, .json (.obj fields)⟩

/-- The response that tells why a request is refused. -/
def refusal (status : Nat) (detail : Json) : Response := ⟨status, .json (.obj [("detail", detail)])⟩

/-- There is nothing at the address. -/
def notFound : Response := refusal 404 (.str "Not Found")

/-- The address is not asked with this method. -/
def methodNotAllowed : Response := refusal 405 (.str "Method Not Allowed")

/-- The body cannot be read at all. -/
def unreadableBody : Response := refusal 400 (.str "There was an error parsing the body")

/-- The body has problems. -/
def ofProblems (problems : List Problem) : Response :=
  refusal 422 (.arr (problems.map Problem.toJson))

/-- Answering failed. -/
def internalError : Response := ⟨500, .text "Internal Server Error"⟩

/-- The response as far as it can be sent: only finite doubles can be written. -/
def sendable (response : Response) : Response :=
  match response.content with
  | .json v => if v.isFinite then response else internalError
  | .text _ => response

/-- The response without what it holds, as it is given to those who ask for the status only. -/
def bare (response : Response) : Response := { response with content := .text "" }

end Response

/-! ### The queue -/

/-- What a task left. -/
inductive TaskResult where
  | value (value : Json)
  /-- It failed with an error of this text. -/
  | raised (message : String)
deriving Repr

/-- What the queue knows about a task. -/
structure TaskRecord where
  state : Json
  result : TaskResult
deriving Repr

/-- The queue as the gateway sees it. -/
structure Queue where
  /-- The task that the next order becomes. -/
  nextTask : Json
  record : String → TaskRecord

/-- What a request does with the queue. -/
inductive QueueUse where
  | enqueued (order : Order)
  | looked (task : String)
deriving DecidableEq, Repr

/-! ### Answers -/

/-- How deeply what a task left may be nested. -/
def maxDepth : Nat := 256

/-- The result of a task in a state: what a task that succeeded left, if it is an object; null
stands for the doubles that cannot be written. -/
def TaskResult.answer (state : String) (result : TaskResult) : Json :=
  match state, result with
  | "SUCCESS", .value (.obj fields) => (Json.obj fields).finite
  | _, _ => .null

/-- The error of a task in a state: the text of what a task that failed left. -/
def TaskResult.error (state : String) (result : TaskResult) : Json :=
  match state, result with
  | "FAILURE", .value v => .str (String.ofList v.shown)
  | "FAILURE", .raised message => .str message
  | _, _ => .null

/-- The response about a task. -/
def taskResponse (record : TaskRecord) : Response :=
  match record.state with
  | .str state =>
    let answer := record.result.answer state
    if answer.depth ≤ maxDepth then
      .object [("status", .str state), ("result", answer), ("error", record.result.error state)]
    else .internalError
  | _ => .internalError

/-- A text without a byte order mark in front. -/
def withoutMark (text : String) : String :=
  match text.toList with
  | c :: cs => if c.toNat = 0xFEFF then String.ofList cs else text
  | [] => text

/-- The value that a body holds, or the response to a body that cannot be used. -/
def readBody (body : ByteArray) : Except Response Json :=
  if body.isEmpty then .error (.ofProblems [⟨.missing, .body, .null⟩])
  else
    match Text.decode body with
    | none => .error .unreadableBody
    | some text =>
      match Json.read (withoutMark text) with
      | .ok v => .ok v
      | .error (.malformed n) => .error (.ofProblems [⟨.malformed, .offset n, .obj []⟩])
      | .error .tooManyDigits => .error .unreadableBody

/-- The response to a value that is to be rendered. -/
def renderResponse (body : Json) : Response :=
  match body with
  | .obj _ =>
    match Rendering.ofJson body with
    | .ok rendering => .object [("html", .str rendering.html), ("css", .str rendering.css)]
    | .error (.structural e) => .refusal 422 (.str e.message)
    | .error (.fault _) => .internalError
  | v => .ofProblems [⟨.notAnObject, .body, v⟩]

/-- The response to a value that is to be exported, and what is done with the queue. -/
def exportResponse (queue : Queue) (body : Json) : Response × Option QueueUse :=
  match Order.ofJson body with
  | .ok order =>
    let response := match queue.nextTask with
      | .str task => .object [("task_id", .str task)]
      | _ => .internalError
    (response, some (.enqueued order))
  | .error problems => (.ofProblems problems, none)

/-- The answer on a route that is asked with one of its methods. -/
def answer (queue : Queue) (body : ByteArray) : Route → Response × Option QueueUse
  | .health => (.object [("status", .str "ok")], none)
  | .documentation => (⟨200, .text ""⟩, none)
  | .task id => (taskResponse (queue.record id), some (.looked id))
  | .order =>
    match readBody body with
    | .ok v => exportResponse queue v
    | .error response => (response, none)
  | .render =>
    match readBody body with
    | .ok v => (renderResponse v, none)
    | .error response => (response, none)

/-- The response to a request, and what is done with the queue. -/
def serve (queue : Queue) (request : Request) : Response × Option QueueUse :=
  let method := request.method.map Char.toUpper
  match Route.find? request.address with
  | some route =>
    if route.methods.contains method then
      let (response, use) := answer queue request.body route
      (response.sendable, use)
    else (refused method .methodNotAllowed, none)
  | none => (refused method .notFound, none)
where
  /-- Those who ask for the status only are refused without a word. -/
  refused (method : String) (response : Response) : Response :=
    if method = "HEAD" then response.bare else response

end FrameExport.Gateway
