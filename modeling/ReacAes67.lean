import ReacAes67.Shared.Endian
import ReacAes67.Shared.Mealy
import ReacAes67.Shared.SampleBlock
import ReacAes67.Frame
import ReacAes67.RtpL24
import ReacAes67.MediaClock
import ReacAes67.Plc
import ReacAes67.Pipeline
import ReacAes67.PcmStream
import ReacAes67.GaplessStream
import ReacAes67.SlotFidelity
import ReacAes67.SlotOrder
import ReacAes67.Shared.Windows
import ReacAes67.Shared.CInt
import ReacAes67.Packetizer
import ReacAes67.DantePath
import ReacAes67.ChannelIsolation
import ReacAes67.Shared.MaskedIndex
import ReacAes67.Shared.BoundedFifo
import ReacAes67.Ring
import ReacAes67.RingInterleaving
import ReacAes67.Shared.BoundedLoop
import ReacAes67.Shared.FileStream
import ReacAes67.PcapSource
import ReacAes67.PcapReplay
import ReacAes67.PcapTermination
import ReacAes67.CaptureLoops
import ReacAes67.Sample24
import ReacAes67.Shared.FixedPoint
import ReacAes67.Shared.HistoryRing
import ReacAes67.BurstGain
import ReacAes67.LastFrame
import ReacAes67.ConcealmentBounds
import ReacAes67.RingOps
import ReacAes67.Shared.OwnSteps
import ReacAes67.RingCalls
import ReacAes67.RingContract
import ReacAes67.SourceNode
import ReacAes67.ReacTx
import ReacAes67.SinkNode
import ReacAes67.Statistics
import ReacAes67.Sdp
import ReacAes67.Announcement
import ReacAes67.RtpRoundTrip
import ReacAes67.DriftWindows
import ReacAes67.Relock
import ReacAes67.FlowTable
import ReacAes67.PcapTruncation
import ReacAes67.TaiClock
import ReacAes67.SdpGrammar
import ReacAes67.SapGrammar
import ReacAes67.SapHash
import ReacAes67.SapFlows
import ReacAes67.CommandLine
import ReacAes67.Shared.Handles
import ReacAes67.UbusStats
import ReacAes67.Process
import ReacAes67.PlainProcess
import ReacAes67.ListenService
import ReacAes67.PlainDelivery
import ReacAes67.DanteProcess
import ReacAes67.DanteDelivery
import ReacAes67.Destinations
import ReacAes67.Daemon
import ReacAes67.DaemonRuns
import ReacAes67.Discovery
import ReacAes67.OpenWrtService
import ReacAes67.Shared.Fields
import ReacAes67.CrossVerify
import ReacAes67.ReacPw
import ReacAes67.PwProgress
import ReacAes67.ReacPwMain
import ReacAes67.Loopback
import ReacAes67.ReplayPacing
