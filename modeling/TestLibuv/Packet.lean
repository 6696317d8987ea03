import TestLibuv.Lib.CMem
import TestLibuv.Lib.While
import TestLibuv.Lib.Framing

/-!
# `Packet.h`

The packet format, the events of the looper's queue, and `PacketSync`, the parser each
connection's bytes go through. `OnRecvData` is the source's loop, with its `int` and `uint32_t`
arithmetic as on Win32 and every access to `read_data` checked; a call gives nothing when the loop
never exits. What the loop did with the bytes is kept as a log of segments: the packets it removed
and the blocks its bad-header branch threw away.
-/

namespace TestLibuv

open CMem While Framing

def netPackageHeadlen : UInt32 := 3 * 4

def defPackHeadFlag : UInt32 := 0xD532D532

def packBufferSize : ℕ := 1024 * 4

/-- `struct PackHeader` with its payload, whose length is an `int`. -/
structure NetPacket where
  flag : UInt32
  type : UInt32
  data : List UInt8
  length_data : data.length < 2 ^ 31

namespace NetPacket

def dataSize (p : NetPacket) : UInt32 := .ofNat p.data.length

/-- The packed bytes of the header, then the payload. -/
def bytes (p : NetPacket) : List UInt8 :=
  u32Bytes p.flag ++ (u32Bytes p.type ++ (u32Bytes p.dataSize ++ p.data))

end NetPacket

def packetData (clientId : ℤ) (data : List UInt8) (h : data.length < 2 ^ 31) : List UInt8 :=
  NetPacket.bytes ⟨defPackHeadFlag, toU32 clientId, data, h⟩

/-! ## The events -/

inductive UvEventType
  | connect
  | write
  | close
  | shutdown
  | broadcast
  deriving DecidableEq, Repr

/-- `struct UvEvent`, `_data` naming an object of type `Obj` and `_addr` the bytes of a
`struct sockaddr`. -/
structure UvEvent (Obj : Type*) where
  type : UvEventType
  buff : Option (List UInt8)
  size : ℤ
  list : List ℤ
  addr : List UInt8
  data : Option Obj
  deriving DecidableEq, Repr

/-- The `_size` bytes of `_buff`, which the handlers copy. -/
def UvEvent.bytes {Obj : Type*} (e : UvEvent Obj) : List UInt8 :=
  (e.buff.getD []).take (toU32 e.size).toNat

/-- `CreateUvEvent`, whose `size` is an `int`. -/
def createUvEvent {Obj : Type*} (type : UvEventType) (pBuff : Option (List UInt8)) :
    UvEvent Obj :=
  let event : UvEvent Obj :=
    { type, buff := none, size := 0, list := [], addr := malloc 16, data := none }
  match pBuff with
  | some b => { event with buff := some b, size := ofU32 (.ofNat b.length) }
  | none => event

@[simp] theorem createUvEvent_type {Obj : Type*} (type : UvEventType)
    (pBuff : Option (List UInt8)) : (createUvEvent type pBuff : UvEvent Obj).type = type := by
  rcases pBuff <;> rfl

/-! ## The buffers -/

/-- `uv_buf_t`, with the block behind `base`. -/
structure UvBuf where
  base : List UInt8
  len : UInt32
  deriving DecidableEq, Repr

/-- Room for `need` bytes in the buffer. -/
def UvBuf.reserve (b : UvBuf) (need : UInt32) : UvBuf :=
  if b.len < need then ⟨realloc b.base need.toNat, need⟩ else b

/-- `struct write_param`: `buf_`, and what `write_req_.data` names. -/
structure WriteParam (Obj : Type*) where
  buf : UvBuf
  data : Option Obj
  deriving DecidableEq, Repr

def allocWriteParam {Obj : Type*} (size : ℤ) : WriteParam Obj :=
  ⟨⟨malloc (toU32 size).toNat, toU32 size⟩, none⟩

/-! ## `PacketSync` -/

/-- `class PacketSync`; of `_func_package_cb` whether it is set. -/
structure PacketSync where
  readData : UvBuf
  realPacketLen : ℤ
  head : UInt32
  funcPackageCb : Bool
  deriving DecidableEq, Repr

/-- The locals of the loop of `OnRecvData`, with what it has done so far. -/
structure RecvLoop where
  sync : PacketSync
  hasPack : Bool
  log : List (Segment UInt8)
  deriving DecidableEq, Repr

namespace RecvLoop

/-- `hasPack && real_packet_len > NET_PACKAGE_HEADLEN`, a comparison of unsigned numbers. -/
def guard (l : RecvLoop) : Bool :=
  l.hasPack && decide (netPackageHeadlen < toU32 l.sync.realPacketLen)

/-- One iteration of the loop of `OnRecvData`. -/
def body (l : RecvLoop) : Except Fault RecvLoop := do
  let p := l.sync
  let headFlag ← loadU32 p.readData.base 0
  if headFlag = p.head then
    let realDataLen := toU32 p.realPacketLen
    let packSize := (← loadU32 p.readData.base 8) + netPackageHeadlen
    if packSize ≤ realDataLen then
      let left := toU32 p.realPacketLen - packSize
      let base ← memmove p.readData.base packSize.toNat left.toNat
      return { l with
        sync := { p with readData := { p.readData with base }, realPacketLen := ofU32 left }
        log := l.log ++ [.frame (p.readData.base.take packSize.toNat)] }
    else
      return { l with hasPack := false }
  else
    return { l with
      sync := { p with realPacketLen := 0 }
      log := l.log ++ [.dropped (p.readData.base.take p.realPacketLen.toNat)] }

end RecvLoop

namespace PacketSync

/-- `PacketSync::PacketSync`; `_head` is indeterminate. -/
def new : PacketSync :=
  { readData := ⟨malloc packBufferSize, .ofNat packBufferSize⟩, realPacketLen := 0, head := 0,
    funcPackageCb := false }

def init (p : PacketSync) (packhead : UInt32) : PacketSync := { p with head := packhead }

def onPackageCBEvent (p : PacketSync) : PacketSync := { p with funcPackageCb := true }

/-- The head of `OnRecvData`: make room and append the bytes received. -/
def store (p : PacketSync) (data : List UInt8) : Except Fault PacketSync := do
  let need ← intAdd p.realPacketLen data.length
  let buf := p.readData.reserve (toU32 need)
  let base ← memcpy buf.base p.realPacketLen data
  return { p with readData := { buf with base }, realPacketLen := need }

/-- `PacketSync::OnRecvData`: nothing if its loop never exits. The iterations that go on lower
`real_packet_len` unless none will ever end, so its value and one more are enough to tell. -/
def onRecvData (p : PacketSync) (data : List UInt8) :
    Option (Except Fault (PacketSync × List (Segment UInt8))) :=
  match p.store data with
  | .error e => some (.error e)
  | .ok q =>
    (whileFuel RecvLoop.guard RecvLoop.body (q.realPacketLen.toNat + 1) ⟨q, true, []⟩).map
      fun r => r.map fun l => (l.sync, l.log)

/-- `OnRecvData` called on chunk after chunk. -/
def feed : PacketSync → List (List UInt8) →
    Option (Except Fault (PacketSync × List (Segment UInt8)))
  | p, [] => some (.ok (p, []))
  | p, c :: cs =>
    match p.onRecvData c with
    | some (.ok (q, log)) => (q.feed cs).map fun r => r.map fun l => (l.1, log ++ l.2)
    | r => r

/-- `real_packet_len + len` fits an `int` at each of the calls. -/
def Fits : PacketSync → List (List UInt8) → Prop
  | _, [] => True
  | p, c :: cs => p.realPacketLen + c.length < 2 ^ 31
      ∧ ∀ q log, p.onRecvData c = some (.ok (q, log)) → q.Fits cs

/-- The first `real_packet_len` bytes of `read_data`. -/
def buffered (p : PacketSync) : List UInt8 := p.readData.base.take p.realPacketLen.toNat

/-- The packets passed to `_func_package_cb` while the loop did what the log says. -/
def delivered (p : PacketSync) (log : List (Segment UInt8)) : List (List UInt8) :=
  if p.funcPackageCb then frames log else []

/-- What feeding chunk after chunk comes to for the user: the packets delivered, a fault, or a call
that does not return. -/
def outcome (p : PacketSync) (cs : List (List UInt8)) :
    Option (Except Fault (List (List UInt8))) :=
  (p.feed cs).map fun r => r.map fun l => l.1.delivered l.2

/-- A parser constructed, given its callback and `Init`'ed, as `AcceptConnection` and
`AttachLooper` leave that of a new context. -/
def fresh (head : UInt32) : PacketSync := (new.onPackageCBEvent).init head

/-- The calls a `PacketSync` takes. -/
inductive Call
  | onPackageCBEvent
  | init (packhead : UInt32)
  | onRecvData (data : List UInt8)
  deriving DecidableEq, Repr

/-- The parser after a call, where it returns. -/
def call (p : PacketSync) : Call → Option PacketSync
  | .onPackageCBEvent => some p.onPackageCBEvent
  | .init packhead => some (p.init packhead)
  | .onRecvData data =>
    match p.onRecvData data with
    | some (.ok (q, _)) => some q
    | _ => none

end PacketSync

end TestLibuv
