import Bourse.Exchange
import Bourse.Report
import Bourse.Notify
import Bourse.Http.Mime
import Bourse.Http.Form
import Bourse.Text.Blank
import Bourse.Text.Integer
import Bourse.Decode.Text
/-!
# The HTTP service

The exchange served over HTTP. Routes:

* `GET /` and `GET /health`: fixed texts;
* `POST /login {username, udp_port?}` and `POST /logout`;
* `POST /orders/limit|stop {side,size,price}` (201) and `POST /orders/market {side,size}`;
* `GET /orders/{id}` and `DELETE /orders/{id}`;
* `GET /depth?levels=N` (1 to 1000, default 100);
* `GET /history/{MMYYYY}`: daily summaries keyed by the day of the month.

Every route but the first three needs a session: an `Authorization` header of visible
ASCII, `Bearer ` and then the user's name (blanks around it ignored), the user logged in.
That check runs before the request's path, query or body is read.

An unknown path is 404 and a known path with another method 405, both without a body;
`OPTIONS` is answered 200 on any path (cross-origin preflight), and `HEAD` is served like
`GET` without the body. Failures of the exchange are JSON bodies
`{"success":false,"error","message"}`; requests that cannot be read get plain-text refusals
naming what was wrong with the body, path or query.
-/

namespace Bourse

namespace Http

open Json Decode

/-- A response: status, content type when there is a body type, and body text. -/
structure Response where
  status : Nat
  contentType : Option String
  body : String
  deriving DecidableEq, Repr

namespace Response

/-- A plain-text response. -/
def plain (status : Nat) (body : String) : Response :=
  { status, contentType := some "text/plain; charset=utf-8", body }

/-- A JSON response. -/
def json (status : Nat) (v : Value) : Response :=
  { status, contentType := some "application/json", body := v.compact }

/-- A response without a body. -/
def bare (status : Nat) : Response := { status, contentType := none, body := "" }

end Response

/-- A failure reported as a JSON body. -/
inductive ApiError where
  | unauthorized (message : String)
  | badRequest (message : String)
  | conflict (message : String)
  | order (e : OrderError)
  | history (e : MonthError)

namespace ApiError

/-- The status and error code of a failure. -/
def statusCode : ApiError → Nat × String
  | unauthorized _ => (401, "UNAUTHORIZED")
  | badRequest _ => (400, "BAD_REQUEST")
  | conflict _ => (409, "CONFLICT")
  | order .invalidSize | order .invalidPrice => (400, "INVALID_ORDER")
  | order (.notFound _) => (404, "ORDER_NOT_FOUND")
  | order (.notOwner _) => (403, "NOT_OWNER")
  | order (.alreadyExecuted _) => (409, "ALREADY_EXECUTED")
  | history _ => (400, "INVALID_MONTH")

/-- The message of a failure. -/
def message : ApiError → String
  | unauthorized m => "Unauthorized: " ++ m
  | badRequest m => "Bad request: " ++ m
  | conflict m => "Conflict: " ++ m
  | order e => e.message
  | history e => e.message

/-- The response of a failure. -/
def response (e : ApiError) : Response :=
  let (status, code) := e.statusCode
  .json status (.object [("success", .bool false), ("error", .string code),
    ("message", .string e.message)])

end ApiError

/-- The state behind the routes: the exchange, the notifier and the client's address. -/
structure Service where
  exchange : Exchange
  notifier : Notifier
  peer : Net.SocketAddr

/-- Handling a request: a refusal is the response to give. -/
abbrev Handling := Except Response

/-- The text of the root route. -/
def welcome : String :=
  "CROSS exchange API - POST /login to start a session, POST /orders/\x7blimit,market,stop\x7d " ++
  "to trade, DELETE /orders/\x7bid\x7d to cancel, GET /history/\x7bMMYYYY\x7d for daily prices"

/-- Whether a header value is visible ASCII (tab allowed). -/
def visibleAscii (s : String) : Bool :=
  s.toList.all fun c => c = '\t' ∨ (32 ≤ c.toNat ∧ c.toNat < 127)

/-- The refusal of a request without a valid session. -/
def unauthorized (message : String) : Handling α := throw (ApiError.unauthorized message).response

/-- The logged-in user a request speaks for. -/
def sessionUser (svc : Service) (req : Request) : Handling String := do
  let raw ← match req.header? "authorization" with
    | some v => if visibleAscii v then pure v else unauthorized "Missing Authorization header"
    | none => unauthorized "Missing Authorization header"
  let cs := raw.toList
  if cs.take 7 != "Bearer ".toList then unauthorized "Invalid Authorization header format"
  let user := trimBlanks (String.ofList (cs.drop 7))
  if user.isEmpty then unauthorized "Invalid Authorization header format"
  if !svc.exchange.sessions.isLoggedIn user then unauthorized "User not logged in"
  return user

/-- The body of a request read as a shape. -/
def jsonBody (req : Request) (shape : Shape) : Handling Datum := do
  let typed := match req.header? "content-type" with
    | some t => visibleAscii t && isJson t
    | none => false
  if !typed then throw (.plain 415 "Expected request with `Content-Type: application/json`")
  match Decode.text .slice shape req.body with
  | .ok d => return d
  | .error e =>
    if e.fault.isData then
      throw (.plain 422 ("Failed to deserialize the JSON body into the target type: " ++
        e.textWithPath))
    else throw (.plain 400 ("Failed to parse the request body as JSON: " ++ e.textWithPath))

/-- A path parameter, decoded. -/
def pathText (seg key : String) : Handling String :=
  match decodeSegment seg with
  | some s => .ok s
  | none => .error (.plain 400 ("Invalid URL: Invalid UTF-8 in `" ++ key ++ "`"))

/-- A path parameter read as a word. -/
def pathWord (seg key : String) : Handling UInt64 := do
  let s ← pathText seg key
  match readWord s with
  | .ok n => return n
  | .error _ => throw (.plain 400 ("Invalid URL: Cannot parse `" ++ s ++ "` to a `u64`"))

/-- The depth requested by a query: the last pair named `levels`, 100 without one. -/
def depthLevels (query : Option String) : Handling Nat := do
  let refuse := fun m => throw (.plain 400 ("Failed to deserialize query string: " ++ m))
  let step := fun (seen : Option Nat) (kv : String × String) =>
    if kv.1 = "levels" then
      match seen with
      | some _ => refuse "duplicate field `levels`"
      | none =>
        match readUnsigned (Nat.pow 2 64) kv.2 with
        | .ok n => pure (some n)
        | .error e => refuse ("levels: " ++ e.message)
    else pure seen
  let found ← List.foldlM step none (formPairs (query.getD ""))
  return found.getD 100

/-- The shape of a login body. -/
def loginShape : Shape :=
  .record "LoginRequest" [("username", .text), ("udp_port", .optional .port)]

/-- The shape of a limit or stop order body. -/
def placeShape : Shape :=
  .record "AddOrderRequest" [("side", Side.shape), ("size", .word), ("price", .word)]

/-- The shape of a market order body. -/
def marketShape : Shape := .record "MarketOrderRequest" [("side", Side.shape), ("size", .word)]

/-- The refusal for data that does not have the shape it was read with; reading never
produces such data. -/
def misread : Response := .bare 500

/-- A side from its tag datum. -/
def sideOf (d : Datum) : Handling Side :=
  match d with
  | .tag i => match Side.ofIndex i with
    | some s => .ok s
    | none => .error misread
  | _ => .error misread

/-- The JSON of an optional session time. -/
def sessionValue (s : Option UInt64) : Value := .wordOr s

/-- An order id as a signed 64-bit number. -/
def signedId (id : UInt64) : Value :=
  if id.toNat < Nat.pow 2 63 then .word id else .number (.negative ((id.toNat : Int) - Int.pow 2 64))

namespace Service

/-- The service with a fresh exchange. -/
def new (exchange : Exchange) (notifier : Notifier) (peer : Net.SocketAddr) : Service :=
  { exchange, notifier, peer }

/-- Replaces the exchange. -/
def withExchange (svc : Service) (e : Exchange) : Service := { svc with exchange := e }

/-- `POST /login`. -/
def login (svc : Service) (req : Request) : Handling (Service × Response) := do
  let d ← jsonBody req loginShape
  let (name, port) ← match d with
    | .record [.text u, .some (.word p)] => pure (u, some p)
    | .record [.text u, _] => pure (u, none)
    | _ => throw misread
  let user := trimBlanks name
  if user.isEmpty then throw (ApiError.badRequest "Username is required").response
  let (sessions, started) := svc.exchange.sessions.tryLogin user svc.exchange.clock
  let some now := started | throw (ApiError.conflict "User already logged in").response
  let notifier := match port with
    | some p => svc.notifier.register user (svc.peer.withPort p.toNat)
    | none => svc.notifier
  let exchange := { svc.exchange with sessions }
  return ({ svc with exchange, notifier },
    .json 200 (.object [("success", .bool true), ("message", .string "Login successful"),
      ("session_token", .string user), ("session", .word now)]))

/-- `POST /logout`. -/
def logout (svc : Service) (req : Request) : Handling (Service × Response) := do
  let user ← sessionUser svc req
  let (sessions, _) := svc.exchange.sessions.logout user
  let exchange := { svc.exchange with sessions }
  return ({ svc with exchange, notifier := svc.notifier.unregister user },
    .json 200 (.object [("success", .bool true), ("message", .string "Logout successful")]))

/-- `POST /orders/limit` and `POST /orders/stop`. -/
def place (isStop : Bool) (svc : Service) (req : Request) : Handling (Service × Response) := do
  let user ← sessionUser svc req
  let (side, size, price) ← match ← jsonBody req placeShape with
    | .record [s, .word size, .word price] => pure (← sideOf s, size, price)
    | _ => throw misread
  let placed := if isStop then svc.exchange.stop side size price user
    else svc.exchange.limit side size price user
  match placed with
  | .ok a e =>
    return (svc.withExchange e, .json 201 (.object [("success", .bool true),
      ("order_id", .word a.value), ("session", sessionValue a.session)]))
  | .error err _ => throw (ApiError.order err).response

/-- `POST /orders/market`: fills are notified; a miss is a normal answer. -/
def market (svc : Service) (req : Request) : Handling (Service × Response) := do
  let user ← sessionUser svc req
  let (side, size) ← match ← jsonBody req marketShape with
    | .record [s, .word size] => pure (← sideOf s, size)
    | _ => throw misread
  match svc.exchange.market side size user with
  | .ok (a, fills) e =>
    let body := match a.value with
      | some id => .object [("success", .bool true), ("order_id", signedId id),
          ("session", sessionValue a.session)]
      | none => .object [("success", .bool false), ("order_id", .number (.negative (-1))),
          ("session", sessionValue a.session)]
    return ({ svc with exchange := e, notifier := svc.notifier.notifyAll fills }, .json 200 body)
  | .error err _ => throw (ApiError.order err).response

/-- `DELETE /orders/{id}`. -/
def cancel (seg : String) (svc : Service) (req : Request) : Handling (Service × Response) := do
  let user ← sessionUser svc req
  let id ← pathWord seg "id"
  match svc.exchange.cancel id user with
  | .ok a e =>
    return (svc.withExchange e, .json 200 (.object [("success", .bool true),
      ("order_id", .word a.value), ("session", sessionValue a.session)]))
  | .error err _ => throw (ApiError.order err).response

/-- `GET /orders/{id}`. -/
def getOrder (seg : String) (svc : Service) (req : Request) : Handling (Service × Response) := do
  let _ ← sessionUser svc req
  let id ← pathWord seg "id"
  match svc.exchange.order? id with
  | some o => return (svc, .json 200 (.object (o.members ++ [("executed", .bool o.executed)])))
  | none => throw (ApiError.order (.notFound id)).response

/-- `GET /depth`. -/
def depth (svc : Service) (req : Request) : Handling (Service × Response) := do
  let _ ← sessionUser svc req
  let levels ← depthLevels req.uri.query
  if levels = 0 ∨ levels > 1000 then
    throw (ApiError.badRequest "levels must be between 1 and 1000").response
  return (svc, .json 200 (svc.exchange.book.depth levels).toValue)

/-- `GET /history/{month}`. -/
def history (seg : String) (svc : Service) (req : Request) : Handling (Service × Response) := do
  let user ← sessionUser svc req
  let month ← pathText seg "month"
  match svc.exchange.priceHistory month user with
  | .ok days e =>
    return (svc.withExchange e,
      .json 200 (.object (days.map fun d => (toString d.day, d.toValue))))
  | .error err _ => throw (ApiError.history err).response

end Service

/-- The routes. -/
inductive Route where
  | root
  | health
  | login
  | logout
  | limit
  | market
  | stop
  | order (seg : String)
  | depth
  | history (seg : String)
  deriving DecidableEq, Repr

/-- The parameter segment after a prefix: non-empty and without `/`. -/
def segmentAfter (pre path : List Char) : Option String :=
  if path.take pre.length = pre then
    let seg := path.drop pre.length
    if seg.isEmpty || seg.contains '/' then none else some (String.ofList seg)
  else none

/-- The route of a path. -/
def Route.ofPath (path : String) : Option Route :=
  match path with
  | "/" => some .root
  | "/health" => some .health
  | "/login" => some .login
  | "/logout" => some .logout
  | "/orders/limit" => some .limit
  | "/orders/market" => some .market
  | "/orders/stop" => some .stop
  | "/depth" => some .depth
  | _ =>
    let cs := path.toList
    match segmentAfter "/orders/".toList cs with
    | some seg => some (.order seg)
    | none => (segmentAfter "/history/".toList cs).map .history

/-- The handler of a route for a method, when the route has one. -/
def Route.handler : Route → String → Option (Service → Request → Handling (Service × Response))
  | .root, "GET" => some fun svc _ => .ok (svc, .plain 200 welcome)
  | .health, "GET" => some fun svc _ => .ok (svc, .plain 200 "OK")
  | .login, "POST" => some Service.login
  | .logout, "POST" => some Service.logout
  | .limit, "POST" => some (Service.place false)
  | .stop, "POST" => some (Service.place true)
  | .market, "POST" => some Service.market
  | .order seg, "GET" => some (Service.getOrder seg)
  | .order seg, "DELETE" => some (Service.cancel seg)
  | .depth, "GET" => some Service.depth
  | .history seg, "GET" => some (Service.history seg)
  | _, _ => none

namespace Service

/-- Answers a request. -/
def handle (svc : Service) (req : Request) : Service × Response :=
  if req.method = "OPTIONS" then (svc, .bare 200)
  else
    match Route.ofPath req.uri.path with
    | none => (svc, .bare 404)
    | some r =>
      let headOnly := req.method = "HEAD"
      match r.handler (if headOnly then "GET" else req.method) with
      | none => (svc, .bare 405)
      | some h =>
        let (svc', resp) := match h svc req with
          | .ok r => r
          | .error resp => (svc, resp)
        (svc', if headOnly then { resp with body := "" } else resp)

/-- Ends idle sessions and forgets their users' addresses; returns the users. -/
def sweep (svc : Service) : Service × List String :=
  let (sessions, users) := svc.exchange.sessions.expireIdle svc.exchange.clock
  let exchange := { svc.exchange with sessions }
  ({ svc with exchange, notifier := users.foldl Notifier.unregister svc.notifier }, users)

end Service

end Http

end Bourse
