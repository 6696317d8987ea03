import TestLibuv.Proofs.RoundTrip
import TestLibuv.Proofs.Segmentation
import TestLibuv.Proofs.Isolation
import TestLibuv.Proofs.Shutdown
import TestLibuv.Proofs.InitRace
import TestLibuv.Proofs.ConnectOutcome
import TestLibuv.Proofs.Reconnect
import TestLibuv.Proofs.SessionLifetime
import TestLibuv.Proofs.SessionIsolation
import TestLibuv.Proofs.MessageOrder
import TestLibuv.Proofs.ConnectFailure
import TestLibuv.Proofs.WrappedSize
import TestLibuv.Proofs.RingFifo
import TestLibuv.Proofs.ContextOwnership
import TestLibuv.Proofs.IdleContexts
import TestLibuv.Proofs.CloseCallback
import TestLibuv.Proofs.WriteParams
import TestLibuv.Proofs.LooperClose
import TestLibuv.Proofs.Broadcast
import TestLibuv.Proofs.PacketWait
import TestLibuv.Proofs.ByteConservation
import TestLibuv.Proofs.ReceiveBuffer
import TestLibuv.Proofs.ShutdownRequest
import TestLibuv.Proofs.UdpDestination
import TestLibuv.Proofs.RecvCallbacks
import TestLibuv.Proofs.Teardown
import TestLibuv.Proofs.RingInvariant
import TestLibuv.Proofs.SessionIds
import TestLibuv.Proofs.PoolCaps
import TestLibuv.Proofs.HeapRuns
import TestLibuv.Proofs.TimerAlive
import TestLibuv.Proofs.HandleWalk
import TestLibuv.Proofs.AsyncSettle
import TestLibuv.Proofs.EchoOrder
import TestLibuv.Proofs.TcpSettle
import TestLibuv.Proofs.InetRoundTrip
