import DblService.Service.Service

/-!
# The client

`dblclient::Session` on one connection of the service.  A request is written to the
socket as the text of a JSON value; the answer is read up to its end marker.  Other
connections are served meanwhile.
-/

namespace DblService.Dblclient

open Framework Service

structure ServiceRequest where
  cmd : String
  params : Json := .null

namespace ServiceRequest

def setParameter (req : ServiceRequest) (name value : String) : ServiceRequest :=
  { req with params := req.params.set name (.string value) }

def payload (req : ServiceRequest) : Json :=
  ((Json.object []).set "command" (.string req.cmd)).set "data" req.params

end ServiceRequest

structure ServiceResponse where
  data : Json := .null
  isOk : Bool
  errorMsg : String := ""

def ServiceResponse.parse (env : Env) (rawResponse : String) : Except Exc ServiceResponse :=
  match env.parseJson rawResponse with
  | none => pure { isOk := false }
  | some data => do
    let success ← env.get data "success"
    let isOk ← env.asBool success
    if isOk then
      pure { data, isOk }
    else
      let errorMsg ← env.get data "error_message"
      let errorMsg ← env.asString errorMsg
      pure { data, isOk, errorMsg }

/-- What `async_read_until` gives back without the end marker. -/
def untilEof : List Char → List Char
  | '\r' :: '\n' :: _ => []
  | c :: cs => c :: untilEof cs
  | [] => []

/-- What happens at the service until a request of the client is served. -/
structure Turn where
  before : List Event := []
  status : Status := {}
  ambient : Ambient := {}

structure Session where
  connection : Nat
  error : String := ""

structure Peers where
  session : Session
  service : Service

abbrev Code (α : Type) := ExceptT Exc (StateM Peers) α

def Code.start {α : Type} (p : Code α) (peers : Peers) : Except Exc α × Peers := p.run.run peers

def Turn.arrival (env : Env) (config : Config) (turn : Turn) (w : Service) : Service :=
  (runEvents (step env config) turn.before w).2

namespace Session

variable (env : Env) (config : Config)

/-- One exchange: one read of the service returns the whole request, and the answer is written at
once.  A longer request is cut (`Service.serveAll_long`), and a longer answer is sent from a
string that is gone (`respond`). -/
def execute (turn : Turn) (req : ServiceRequest) : Code ServiceResponse :=
  ExceptT.mk fun peers =>
    let answered := step env config
      (.request peers.session.connection (env.styled req.payload) turn.status turn.ambient)
      (turn.arrival env config peers.service)
    let response := match answered.1 with
      | none => .error (.runtime "Read failed (connection closed)")
      | some raw => ServiceResponse.parse env (String.ofList (untilEof raw.toList))
    (response, { peers with service := answered.2 })

def setError (response : ServiceResponse) : Code Unit :=
  modify fun peers => { peers with session.error := response.errorMsg }

def orThrow {α : Type} (r : Except Exc α) : Code α := ExceptT.mk (pure r)

/-- The common beginning of `authenticate` and `set_service_password`: without a token they
return false. -/
def withToken (turn : Turn) (body : String → Code Bool) : Code Bool := do
  let response ← execute env config turn { cmd := "get_token" }
  setError response
  if response.isOk then
    let data ← orThrow (env.get response.data "data")
    let token ← orThrow (env.get data "token")
    let token ← orThrow (env.asString token)
    if token ≠ "" then
      body token
    else
      pure false
  else
    pure false

def authRequest (passwd token : String) : ServiceRequest :=
  ({ cmd := "auth" } : ServiceRequest).setParameter "hash" (env.md5 (env.md5 passwd ++ token))

def authenticate (turns : Turn × Turn) (passwd : String) : Code Bool :=
  withToken env config turns.1 fun token => do
    let response ← execute env config turns.2 (authRequest env passwd token)
    setError response
    pure response.isOk

def passwdRequest (passwd token : String) : ServiceRequest :=
  let passwdHash := env.md5 passwd
  let hashedToken := env.md5 (passwdHash ++ token)
  (({ cmd := "set_service_password" } : ServiceRequest).setParameter
    "password_hash" passwdHash).setParameter "token_hash" hashedToken

def setServicePassword (turns : Turn × Turn) (passwd : String) : Code Bool :=
  withToken env config turns.1 fun token => do
    let response ← execute env config turns.2 (passwdRequest env passwd token)
    setError response
    pure response.isOk

end Session

end DblService.Dblclient
