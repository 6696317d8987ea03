import TestLibuv.Packet

/-!
# `TestServer.cpp` and `TestClient.cpp`

What the receive callbacks of the two programs copy. A packet comes as the block the library
allocates for it, a datagram as the bytes of the read buffer that were received. A callback gives
`szRecvData` as it prints it, and that of the TCP server the buffer it sends back as well.
-/

namespace TestLibuv

open CMem

/-- The `dataSize` field and the `data` behind it, as a callback reads them. -/
def packetFields (pNetPacket : List UInt8) : Except Fault (UInt32 × List UInt8) := do
  let dataSize ← loadU32 pNetPacket 8
  let data ← loadN (pNetPacket.drop 12) dataSize.toNat
  return (dataSize, data)

/-- `std::memcpy` to `szRecvData`, which has 1024 bytes. -/
def copyRecvData (src : List UInt8) : Except Fault (List UInt8) := memcpy (malloc 1024) 0 src

namespace TestTcpSvrFunc

/-- The buffer sent back, a `std::string` resized to a `size_t`. -/
def sendBack (pNetPacket : List UInt8) (dataSize : UInt32) (data : List UInt8) :
    Except Fault (List UInt8) := do
  let packSize := ofU32 (dataSize + netPackageHeadlen)
  let head ← loadN pNetPacket netPackageHeadlen.toNat
  let buffer ← memcpy (malloc (toU32 packSize).toNat) 0 head
  memcpy buffer 12 data

/-- The callback given to `OnTcpClientRecvCBEvent`. -/
def recv (pNetPacket : List UInt8) : Except Fault (List UInt8 × List UInt8) := do
  let (dataSize, data) ← packetFields pNetPacket
  let szRecvData ← copyRecvData data
  let buffer ← sendBack pNetPacket dataSize data
  return (szRecvData, buffer)

end TestTcpSvrFunc

namespace TestTcpClientFunc

/-- The callback given to `OnRecvCBEvent`. -/
def recv (pNetPacket : List UInt8) : Except Fault (List UInt8) := do
  let (_, data) ← packetFields pNetPacket
  copyRecvData data

end TestTcpClientFunc

namespace TestUdpSvrFunc

/-- The callback given to `OnRecvCBEvent`; what it sends back is what it was given. -/
def recv (buffer : List UInt8) : Except Fault (List UInt8 × List UInt8) := do
  let szRecvData ← copyRecvData buffer
  return (szRecvData, buffer)

end TestUdpSvrFunc

namespace TestUdpClientFunc

/-- The callback given to `OnRecvCBEvent`. -/
def recv (buff : List UInt8) : Except Fault (List UInt8) := copyRecvData buff

end TestUdpClientFunc

end TestLibuv
