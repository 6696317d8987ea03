import TestLibuv.TcpClient
import TestLibuv.TcpServer

/-!
# A client and a server

A `CTcpClient` and a `CTcpServer` at the two ends of a TCP connection, number `n` of those the
server takes. A thread that calls `Send` makes its checks in one step and pushes its event in
another, and anything can happen between the two. The connection brings the server the bytes
`uv_write` took from the client, in order, as far as they have come and cut in any way; what the
server's other connections bring is open.
-/

namespace TestLibuv

namespace CTcpClient

/-- The buffers `uv_write` took. -/
def written (s : CTcpClient) : List (List UInt8) :=
  (s.writeCalls.filter fun c => c.2 = 0).map Prod.fst

/-- The checks of `Send`. -/
def admits (s : CTcpClient) : Bool :=
  !(s.isWaitClosed || s.connectStatus ≠ .connected) && s.looper

theorem send_eq (s : CTcpClient) (buff : List UInt8) :
    s.send buff = if s.admits then (buff.length, s.pushSend buff) else (0, s) := by
  unfold send admits
  by_cases hw : s.isWaitClosed = true <;> by_cases hc : s.connectStatus = .connected <;>
    by_cases hl : s.looper = true <;> simp [hw, hc, hl]

end CTcpClient

/-- The two ends, and the buffers of the `Send`s that have made their checks and not pushed yet. -/
structure Link where
  client : CTcpClient
  server : CTcpServer
  sending : List (List UInt8)

namespace Link

/-- A client just attached and a server that listens. -/
def start (clientHead : UInt32) (clientid : ℤ) (packhead : UInt32) : Link where
  client := .attached clientHead clientid
  server := .started packhead
  sending := []

/-- A part of a `Send`, or a step at one end. -/
inductive Label
  | sendChecks (buff : List UInt8)
  | sendPushes (i : ℕ)
  | client (l : CTcpClient.Label)
  | server (l : CTcpServer.Label)
  deriving DecidableEq, Repr

/-- One step, the client's connection being number `n` of the server's. -/
def step (n : ℕ) (w : Link) : Label → Option Link
  | .sendChecks buff =>
    if w.client.admits then some { w with sending := w.sending ++ [buff] } else none
  | .sendPushes i => w.sending[i]?.map fun buff =>
    { w with client := w.client.pushSend buff, sending := w.sending.eraseIdx i }
  | .client l => (w.client.step l).map fun client => { w with client }
  | .server l => (w.server.step l).bind fun server =>
    -- TCP: what has come is a prefix of what was written
    if (server.chunksOf n).flatten <+: w.client.written.flatten then some { w with server }
    else none

end Link

end TestLibuv
