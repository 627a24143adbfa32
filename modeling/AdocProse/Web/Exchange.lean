import AdocProse.Web.Url

/-!
One request to a server and its reply.
-/

namespace AdocProse

structure Request where
  method : String
  target : String
  userAgent : String
  contentType : Option String
  body : List UInt8
  deriving DecidableEq

structure Reply where
  status : Nat
  body : List UInt8
  deriving DecidableEq

namespace Reply

/-- Statuses whose replies have no body: another protocol follows, there is nothing to send, or the
client has it. -/
def bodyless : List Nat :=
  [101, 204, 304]

/-- What a client receives. The other statuses below 200 only announce a reply, and those of four
digits are none. -/
def received (r : Reply) : Option Reply :=
  if bodyless.contains r.status then some ⟨r.status, []⟩
  else if r.status < 200 ∨ 1000 ≤ r.status then none
  else some r

def isSuccess (r : Reply) : Bool :=
  200 ≤ r.status && r.status < 300

def isFailure (r : Reply) : Bool :=
  400 ≤ r.status && r.status < 600

end Reply

end AdocProse
