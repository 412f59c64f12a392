import EventPipeline.Connector.Client
import EventPipeline.Connector.Memory
import EventPipeline.Text.Blank
import EventPipeline.Text.Casing
import EventPipeline.Value.Quoted

/-!
# Polling a server

A source that sends requests to a server, one after the other with a rest in between. A good
answer with a JSON body is an event, whatever the body is; every other answer, and a request that
fails, is sent as an error, and the polling goes on. Such a source never announces an end.
-/

namespace EventPipeline

/-- What becomes of a request. -/
inductive HttpAnswer where
  /-- A status and a JSON body. -/
  | body (status : Int) (v : Value)
  /-- A status and a body that is no JSON, with what is wrong with it. -/
  | badBody (status : Int) (words : Text)
  /-- No answer, for a reason. -/
  | broken (words : Text)
  deriving DecidableEq

/-- A source that polls a server. -/
structure HttpSource where
  /-- The address. -/
  url : Text
  /-- The method of the requests. -/
  method : Text
  /-- Headers of the requests. -/
  headers : Table Text Text
  /-- How long to rest after each request, in milliseconds. -/
  interval : Value
  /-- How long to wait for an answer, in milliseconds. -/
  timeout : Value
  /-- The answers to come; nothing if there is no client. -/
  answers : Option (List HttpAnswer)
  /-- A session is open. -/
  session : Bool
  /-- The calls to the client. -/
  calls : List ClientCall

namespace HttpSource

/-- The interval in a configuration, under either of its two names. -/
def intervalOf (config : Fields) : Except Failure Value :=
  let given := (config.find? "interval_ms").getD ((config.find? "interval").getD (.int 1000))
  match given with
  | .number n =>
    if Number.less n (.int 0) then .error refuse else .ok given
  | _ => .error refuse
where
  refuse : Failure := .plain .value "HTTP source 'interval_ms' must be a number >= 0"

/-- The headers in a configuration, with keys and values as texts. -/
def headersOf (config : Fields) : Except Failure (Table Text Text) :=
  let given := (config.find? "headers").getD .null
  if given.isFilled then
    match given with
    | .object fields => .ok (fields.foldl (fun t (k, v) => t.set k.shown v.shown) [])
    | _ => .error (.plain .value "HTTP source 'headers' must be an object")
  else .ok []

/-- The source of a configuration. -/
def ofConfig (config : Fields) : Except Failure HttpSource := do
  let url ← match config.find? "url" with
    | some (.text t) => if Text.isBlank t then throw noUrl else pure t
    | _ => throw noUrl
  let interval ← intervalOf config
  let headers ← headersOf config
  let method := ((config.find? "method").getD (.text "GET")).shown.upper
  return ⟨url, method, headers, interval, (config.find? "timeout_ms").getD (.int 30000), none, false, []⟩
where
  noUrl : Failure := .plain .value "HTTP source requires a url"

/-- The failure of a source without a client. -/
def noClient : Failure :=
  .plain .runtime "HTTP source requires aiohttp (pip install 'streamsynth[http]')"

/-- A status that stands for success. -/
def isGood (status : Int) : Bool := 200 ≤ status && status < 300

/-- The failure of an answer with another status. -/
def statusFailure (s : HttpSource) (status : Int) : Failure :=
  .structured (.source (some "http")) ("HTTP error: " ++ Text.ofInt status)
    [("url", s.url), ("status", .int status)] none none

/-- The failure of a request for a reason. -/
def requestFailure (s : HttpSource) (reason : Failure) : Failure :=
  .structured (.source (some "http")) ("HTTP request failed: " ++ reason.message)
    [("url", s.url), ("exception_class", reason.name)] none (some reason.asCause)

/-- What an answer amounts to. -/
def outcomeOf (s : HttpSource) : HttpAnswer → Except Failure Value
  | .body status v => if isGood status then .ok v else .error (s.statusFailure status)
  | .badBody status words =>
    .error (if isGood status then s.requestFailure (.plain .value words) else s.statusFailure status)
  | .broken words => .error (s.requestFailure (.plain .connection words))

/-- The next move of the loop. -/
def advance (running : Bool) (p : Progress) (s : HttpSource) : Advance HttpSource :=
  match p with
  | .resting _ => restThen s.interval s .head
  | .asked =>
    match s.answers with
    | none | some [] => ⟨.wait, s, .asked⟩
    | some (a :: later) =>
      match s.outcomeOf a with
      | .ok v => ⟨.data v, { s with answers := some later }, .resting none⟩
      | .error f => ⟨.error f, { s with answers := some later }, .resting none⟩
  | _ =>
    if running then
      ⟨.pause .answer, { s with calls := s.calls ++ [.request s.method s.url] }, .asked⟩
    else ⟨.leave, s, .head⟩

/-- Opens a session, unless one is open. -/
def openSession (s : HttpSource) : Except Failure Unit × HttpSource :=
  if s.session then (.ok (), s)
  else if s.answers.isNone then (.error noClient, s)
  else (.ok (), { s with session := true })

/-- Closes the session if one is open. -/
def closeSession (s : HttpSource) : HttpSource :=
  if s.session then { s with session := false, calls := s.calls ++ [.closeSession] } else s

instance : Feed HttpSource where
  connect := openSession
  advance _ := advance
  disconnect s := (.ok (), s.closeSession)
  endsOnStop _ _ := false

end HttpSource

end EventPipeline
