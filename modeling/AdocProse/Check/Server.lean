import AdocProse.Check.Checker
import AdocProse.Check.Error
import AdocProse.Check.Query
import AdocProse.Check.Response
import AdocProse.System.Session

/-!
The engine that asks a server. One request is sent; a reply that is no success is an error with the
status and the body.
-/

namespace AdocProse.Server

def request (r : CheckRequest) (target : String) : Request where
  method := "POST"
  target := target
  userAgent := "languagetool-asciidoc/0.1.0"
  contentType := some "application/x-www-form-urlencoded"
  body := Utf8.encode (Form.encode (Query.form r))

def findings (reply : Option Reply) : Except CheckError (List Finding) :=
  match reply with
  | none => .error .http
  | some reply =>
    let body := Utf8.decodeLossy reply.body
    if reply.isSuccess then (Response.findings body).mapError CheckError.response
    else .error (.status reply.status body)

def engine (w : Surroundings) (server : String) (r : CheckRequest) :
    Action CheckError (List Finding) := do
  let (reply, events) := w.exchange (Query.endpoint server) (request r)
  Action.record events
  Action.ofExcept (findings reply)

end AdocProse.Server
