import FrameExport.Json.Reader
import FrameExport.Service.Backoff
import FrameExport.Session

/-!
# The client of the service

The service gives the design file for a key to those who have a token.  `Client.fetch` asks for it.
A response that says that the service is busy or broken, or no response at all, is followed by a
pause and another request while attempts are left; the last reply counts.
-/

namespace FrameExport

/-- How the service is asked.  All settings but the address are values that nobody has checked. -/
structure Client where
  token : Json
  baseUrl : String
  attempts : Json
  backoff : Json
  timeout : Json
deriving Repr

namespace Client

/-- A client with a token and otherwise the usual settings. -/
def standard (token : Option String) : Client where
  token := (token.map Json.str).getD .null
  baseUrl := "https://api.figma.com/v1"
  attempts := .int 3
  backoff := .double (Decimal.toDouble false ⟨3, -1⟩)
  timeout := .double (.ofNat 30)

/-! ### Errors -/

/-- There is no token. -/
def noToken : ServiceError :=
  ⟨401, "FIGMA_TOKEN environment variable is not set. Get a personal access token from Figma."⟩

/-- No response came. -/
def unreachable (message : String) : ServiceError := ⟨502, "Kunde inte nå Figma-API: " ++ message⟩

/-- The service refuses. -/
def refused (status : Int) (body : String) : ServiceError :=
  ⟨status, String.ofList
    ("Figma API error ".toList ++ intDigits status ++ ':' :: ' ' :: body.toList.take 300)⟩

/-- The response is no JSON. -/
def notJson : ServiceError := ⟨502, "Figma API svarade inte med giltig JSON"⟩

/-- The response is JSON but no object. -/
def notAnObject : ServiceError := ⟨502, "Figma API svarade med oväntad JSON-typ"⟩

/-! ### Requests -/

/-- The address of the file with a key. -/
def url (client : Client) (key : String) : String :=
  String.ofList ((client.baseUrl.toList.reverse.dropWhile (· == '/')).reverse)
    ++ "/files/" ++ key

/-- How many requests a number of attempts allows, which is one at least; a truth value counts as
one or zero.  No double above one is a number of attempts. -/
def attemptCount : Json → Except Fault Nat
  | .int n => .ok (max 1 n.toNat)
  | .bool _ => .ok 1
  | .double x => if (x - .one).clampBelowZero = .zero then .ok 1 else .error .notCounted
  | v => .error (.notCompared v.kind)

/-- Whether a status says that asking again may help. -/
def isRetryable (status : Int) : Bool := status == 429 || (500 ≤ status && status < 600)

/-- The action that sends a request; the next reply answers it. -/
def send (request : Request) : Action Reply := do
  let s ← get
  let (reply, rest) := match s.replies with
    | reply :: rest => (reply, rest)
    | [] => (.unreachable "", [])
  set { s with replies := rest, requests := s.requests ++ [request] }
  return reply

/-- The next random draw; when no more are given, it is one half. -/
def draw : Action Double := do
  let s ← get
  match s.draws with
  | [] => return .half
  | x :: rest =>
    set { s with draws := rest }
    return x

/-- The action that pauses after an attempt. -/
def pauseAfter (client : Client) (attempt : Nat) : Action Unit := do
  let length ← Action.ofExcept
    ((Backoff.pause client.backoff attempt (← draw)).mapError .value)
  modify fun s => { s with pauses := s.pauses ++ [length] }

/-- The reply that counts, when `left` attempts may follow the one with the given number. -/
def exchange (client : Client) (request : Request) : (left attempt : Nat) → Action Reply
  | 0, _ => send request
  | left + 1, attempt => do
    match ← send request with
    | .response status body =>
      if isRetryable status then
        Action.report [.statusRetry]
        client.pauseAfter attempt
        exchange client request left (attempt + 1)
      else return .response status body
    | .unreachable _ =>
      Action.report [.networkRetry]
      client.pauseAfter attempt
      exchange client request left (attempt + 1)

/-! ### Fetching -/

/-- The file that a response holds. -/
def readResponse (status : Int) (body : String) : Except ServiceError Fields :=
  if status ≠ 200 then .error (refused status body)
  else
    match Json.read body with
    | .ok (.obj file) => .ok file
    | .ok _ => .error notAnObject
    | .error _ => .error notJson

/-- The action that asks for the file with a key. -/
def fetch (client : Client) (key : String) : Action Json := do
  if client.token.isTruthy then
    let request : Request := ⟨client.url key, client.token, client.timeout⟩
    let attempts ← Action.ofExcept ((attemptCount client.attempts).mapError .value)
    match ← client.exchange request (attempts - 1) 1 with
    | .unreachable message =>
      Action.report [.networkFailed]
      Action.fail (.service (unreachable message))
    | .response status body =>
      Action.report [.responded]
      return .obj (← Action.ofExcept ((readResponse status body).mapError .service))
  else Action.fail (.service noToken)

end Client

end FrameExport
