import TestLibuv.EndToEnd
import TestLibuv.Programs

/-!
# The server that sends back

The programs of `TestServer.cpp` and `TestClient.cpp` at the two ends of a connection, number `n` of
those the server takes. The server's program makes one call only, the `Send` of the package
callback. The packets of an `AfterRecv` are parsed first here, and their callbacks run behind it,
one a step: they touch neither the parser nor the packets, and until the last has returned the
server's thread does nothing else. The connection brings the client the bytes `uv_write` took on
handles that have it, in order, as far as they have come and cut in any way.
-/

namespace TestLibuv

open CMem

namespace TestTcpSvrFunc

/-- The callback given to `OnTcpClientRecvCBEvent`, given what `uv_write` returns: the session that
sent back and the server behind it. -/
def echo (s : CTcpServer) (pNetPacket : List UInt8) (pSession : Option ℕ) (res : ℤ) :
    Except CallFault (ℕ × CTcpServer) :=
  match recv pNetPacket with
  | .error f => .error (.memory f)
  | .ok (_, buffer) => do
    let (a, _) ← s.follow pSession
    let s ← CTcpClientSession.send s a buffer res
    return (a, s)

/-- The callbacks of libuv are all that the program's server does: it calls none of these. -/
def uses : CTcpServer.Label → Bool
  | .close _ | .shutDown _ | .send .. | .broadcast .. => false
  | _ => true

end TestTcpSvrFunc

/-- A call of `Send` by the package callback: the session, and what `uv_write` took, if it did, with
the connection of the handle. -/
structure EchoCall where
  session : ℕ
  took : Option (Option ℕ × List UInt8)
  deriving DecidableEq, Repr

/-- The two ends, the package callbacks that wait at the server with the sessions they are given,
those that have run, and the chunks the client's parser has taken. -/
structure Echo extends Link where
  pending : List (List UInt8 × Option ℕ)
  calls : List EchoCall
  received : List (List UInt8)

namespace Echo

/-- Both ends at the start. -/
def start (clientHead : UInt32) (clientid : ℤ) (packhead : UInt32) : Echo where
  toLink := .start clientHead clientid packhead
  pending := []
  calls := []
  received := []

/-- A step of the two ends, or the next package callback, given what `uv_write` returns. -/
inductive Label
  | link (l : Link.Label)
  | callback (res : ℤ)
  deriving DecidableEq, Repr

/-- What `uv_write` took from one state to the next, with the connection of the handle. -/
def tookOf (s s' : CTcpServer) : Option (Option ℕ × List UInt8) :=
  (s'.writes.drop s.writes.length).head?.map fun r =>
    ((s'.ctxs.cells r.1).bind TcpSessionCtx.conn, r.2)

/-- The buffers the server sent on a connection. -/
def outgoing (w : Echo) (n : ℕ) : List (List UInt8) :=
  w.calls.filterMap fun c => c.took.bind fun r => if r.1 = some n then some r.2 else none

/-- The package callback that a callback of the server is. -/
def packageCb : ServerCb → Option (List UInt8 × Option ℕ)
  | .recv packet session => some (packet, session)
  | _ => none

/-- The chunk that comes with a step of the client. -/
def chunk : Link.Label → List (List UInt8)
  | .client (.afterRecv data) => if data = [] then [] else [data]
  | _ => []

/-- The server's thread is in the package callbacks till the last has returned. -/
def admits (w : Echo) : Link.Label → Bool
  | .server l => w.pending.isEmpty && TestTcpSvrFunc.uses l
  | _ => true

/-- One step, the client's connection being number `n` of the server's. -/
def step (n : ℕ) (w : Echo) : Label → Option Echo
  | .link l =>
    if w.admits l then
      (w.toLink.step n l).bind fun link =>
        let came := w.received ++ chunk l
        -- TCP: what has come is a prefix of what was sent
        if came.flatten <+: (w.outgoing n).flatten then some { w with
          toLink := link
          pending := w.pending ++
            (link.server.callbacks.drop w.server.callbacks.length).filterMap packageCb
          received := if link.client.fault then w.received else came }
        else none
    else none
  | .callback res =>
    match w.pending with
    | [] => none
    | (packet, session) :: rest =>
      if w.server.fault.isSome then none
      else match TestTcpSvrFunc.echo w.server packet session res with
        | .error f => some { w with server := w.server.settle (.error f) }
        | .ok (a, server) => some { w with
          server
          pending := rest
          calls := w.calls ++ [⟨a, tookOf w.server server⟩] }

/-- The packets of the waiting callbacks of a session. -/
def pendingOf (w : Echo) (a : ℕ) : List (List UInt8) :=
  w.pending.filterMap fun p => if p.2 = some a then some p.1 else none

/-- The callbacks of a session that have run. -/
def callsOf (w : Echo) (a : ℕ) : List EchoCall := w.calls.filter (·.session = a)

end Echo

end TestLibuv
