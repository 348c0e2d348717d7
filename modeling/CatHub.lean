import CatHub.Systems.Execution
import CatHub.Systems.Line
import CatHub.WinKeyer.Protocol
import CatHub.WinKeyer.Broker
import CatHub.WinKeyer.BrokerEffect
import CatHub.WinKeyer.Conservation
import CatHub.WinKeyer.Ownership
import CatHub.WinKeyer.StreamOrder
import CatHub.Ptt.Manager
import CatHub.Radio.State
import CatHub.Ptt.Sessions
import CatHub.Ptt.Cutoff
import CatHub.WinKeyer.Actor
import CatHub.WinKeyer.ActorCalls
import CatHub.WinKeyer.Disconnect
import CatHub.WinKeyer.Departure
import CatHub.WinKeyer.Ceiling
import CatHub.WinKeyer.Station
import CatHub.WinKeyer.Interlock
import CatHub.WinKeyer.Course
import CatHub.WinKeyer.Representation
import CatHub.WinKeyer.Decisions
import CatHub.WinKeyer.Turns
import CatHub.WinKeyer.Maintenance
import CatHub.WinKeyer.HostSession
import CatHub.WinKeyer.Settlement
import CatHub.WinKeyer.Endpoint
import CatHub.WinKeyer.Privacy
import CatHub.WinKeyer.Completion
import CatHub.Systems.Registers
import CatHub.WinKeyer.Freshness
import CatHub.WinKeyer.Replay
import CatHub.WinKeyer.Foreground
import CatHub.WinKeyer.Cancellation
import CatHub.WinKeyer.Admission
import CatHub.WinKeyer.Refusal
import CatHub.WinKeyer.PotSpeed
import CatHub.WinKeyer.Echo
import CatHub.WinKeyer.Alike
import CatHub.WinKeyer.AlikeActors
import CatHub.Radio.Ts590
import CatHub.Radio.Transceiver
import CatHub.Radio.Fidelity
import CatHub.Radio.Split
import CatHub.Radio.Suppression
import CatHub.Systems.Outbox
import CatHub.Radio.Broadcast
import CatHub.WinKeyer.ProfileIsolation
import CatHub.Systems.Program
import CatHub.Systems.Words
import CatHub.Radio.Hamlib
import CatHub.Radio.Backend
import CatHub.Radio.Rigctld
import CatHub.Radio.Downstream
import CatHub.Radio.Bridge
import CatHub.Radio.Probes
import CatHub.Dialect.Session
import CatHub.Dialect.Kenwood
import CatHub.Dialect.HamlibNet
import CatHub.Dialect.Authorization
import CatHub.Dialect.ReadThrough
import CatHub.Dialect.ModeWrite
import CatHub.Dialect.RawKeying
import CatHub.Dialect.SingleVfo
import CatHub.Dialect.SingleVfoNet
import CatHub.Dialect.Resync
import CatHub.Radio.Framer
import CatHub.Dialect.SerialEndpoint
import CatHub.Dialect.Idempotence
import CatHub.Dialect.RitXit
import CatHub.Dialect.AutoInfo
import CatHub.Dialect.Desk
import CatHub.Dialect.Retarget
import CatHub.Systems.Endless
import CatHub.Systems.Feed
import CatHub.Radio.Transport
import CatHub.Radio.Attribution
import CatHub.Systems.Bytes
import CatHub.Systems.Table
import CatHub.VirtualSerial.Protocol
import CatHub.VirtualSerial.RoundTrip
import CatHub.Systems.Framing
import CatHub.VirtualSerial.Decoder
import CatHub.Daemon.Config
import CatHub.Daemon.Ports
import CatHub.Daemon.Migration
import CatHub.Daemon.Safekeeping
import CatHub.Daemon.RuntimeInfo
import CatHub.Radio.Narrow
import CatHub.Dialect.FrameWidth
import CatHub.WinKeyer.HostGrammar
import CatHub.WinKeyer.TypedText
import CatHub.Dialect.Extended
import CatHub.Radio.SchedulerLoop
import CatHub.Radio.Fairness
import CatHub.WinKeyer.ReadPath
import CatHub.WinKeyer.Handover
import CatHub.WinKeyer.Brokerage
import CatHub.WinKeyer.BufferEdits
import CatHub.Dialect.ModeRace
import CatHub.Radio.Power
import CatHub.Radio.Decomposition
import CatHub.Dialect.PowerReadings
import CatHub.Dialect.Polling
import CatHub.Dialect.Mirror
import CatHub.Dialect.HamlibConnection
import CatHub.Dialect.Chained
import CatHub.Systems.Waiting
import CatHub.WinKeyer.Turnover
import CatHub.Systems.Typestate
import CatHub.WinKeyer.TypedClients
import CatHub.WinKeyer.TypedIsolation
import CatHub.Radio.Reconnection
import CatHub.Radio.Poller
import CatHub.WinKeyer.Reconnect
import CatHub.Dialect.Cascade
