import OmniPaxosKV.TransSys
import OmniPaxosKV.Replay
import OmniPaxosKV.Slots
import OmniPaxosKV.Tokens
import OmniPaxosKV.Channels
import OmniPaxosKV.Framing
import OmniPaxosKV.Varint
import OmniPaxosKV.Common
import OmniPaxosKV.Store
import OmniPaxosKV.KvSnapshot
import OmniPaxosKV.Server
import OmniPaxosKV.Crash
import OmniPaxosKV.Recovery
import OmniPaxosKV.Writers
import OmniPaxosKV.Linearize
import OmniPaxosKV.JepsenClient
import OmniPaxosKV.TestClient
import OmniPaxosKV.Tracking
import OmniPaxosKV.ClientLoop
import OmniPaxosKV.Shim
import OmniPaxosKV.ServerNetwork
import OmniPaxosKV.ConnectionTasks
import OmniPaxosKV.ClientNetwork
import OmniPaxosKV.Backpressure
import OmniPaxosKV.StartSignals
import OmniPaxosKV.Cluster
import OmniPaxosKV.Routing
import OmniPaxosKV.EndToEnd
import OmniPaxosKV.JepsenRun
import OmniPaxosKV.PeerMesh
import OmniPaxosKV.PeerDialing
import OmniPaxosKV.Replicas
import OmniPaxosKV.Execution
import OmniPaxosKV.Handshake
import OmniPaxosKV.ServerLoop
import OmniPaxosKV.LoopRefines
import OmniPaxosKV.LoopRuns
import OmniPaxosKV.LoopDrives
import OmniPaxosKV.LoopSignals
import OmniPaxosKV.ServerCluster
