import AlprGate.Library.Transition
import AlprGate.Library.BoundedQueue
import AlprGate.Library.PendingWrites
import AlprGate.Library.KeyedTable
import AlprGate.Library.Selection
import AlprGate.Library.Ranking
import AlprGate.Library.LengthPrefix
import AlprGate.Library.PartialMap
import AlprGate.Library.KeysetPaging
import AlprGate.Library.SnapshotFanout
import AlprGate.Library.JsonValue
import AlprGate.Library.WrappingClock
import AlprGate.Library.FloatValue
import AlprGate.Library.ProtoWire
import AlprGate.Library.Transactions
import AlprGate.Library.CText
import AlprGate.Library.Runs
import AlprGate.Library.JsonDocument
import AlprGate.Library.Verdicts
import AlprGate.Library.Tally
import AlprGate.Library.Backoff
import AlprGate.Library.Progress
import AlprGate.Firmware.Drivers
import AlprGate.Firmware.StateMachine
import AlprGate.Firmware.Controller
import AlprGate.Firmware.ControllerSteps
import AlprGate.Firmware.ControllerInvariant
import AlprGate.Firmware.ControllerTimers
import AlprGate.Firmware.BeamInterlock
import AlprGate.Firmware.LimitSafety
import AlprGate.Firmware.BeamLatch
import AlprGate.Firmware.BeamReversal
import AlprGate.Firmware.TimerProvenance
import AlprGate.Firmware.CommandTracker
import AlprGate.Firmware.CommandCompletion
import AlprGate.Firmware.TrackerVerdicts
import AlprGate.Firmware.TrackedGate
import AlprGate.Firmware.GrpcFraming
import AlprGate.Firmware.FrameReassembly
import AlprGate.Firmware.FramingBounds
import AlprGate.Firmware.Outbound
import AlprGate.Firmware.ControlClient
import AlprGate.Firmware.CompletionAcks
import AlprGate.Firmware.TrackerDeadline
import AlprGate.Firmware.WireState
import AlprGate.Firmware.OtaManifest
import AlprGate.Firmware.ManifestDocument
import AlprGate.Firmware.OtaUpdater
import AlprGate.Firmware.ImageCoverage
import AlprGate.Firmware.UpdateTasks
import AlprGate.Firmware.UpdateAcks
import AlprGate.Firmware.UpdateRestart
import AlprGate.Firmware.CommandDecoding
import AlprGate.Firmware.HexDecoding
import AlprGate.Firmware.UpdateProgress
import AlprGate.Firmware.Debounce
import AlprGate.Firmware.Reconnect
import AlprGate.Firmware.SessionOpening
import AlprGate.Firmware.StatusLed
import AlprGate.Server.Broadcaster
import AlprGate.Server.ControlSessions
import AlprGate.Server.SessionSteps
import AlprGate.Server.SessionTurns
import AlprGate.Server.CommandDelivery
import AlprGate.Server.Reconnects
import AlprGate.Server.BusMoves
import AlprGate.Server.BroadcastRuns
import AlprGate.Server.BroadcastOrder
import AlprGate.Server.BroadcastStop
import AlprGate.Server.SessionBus
import AlprGate.Server.CommandRetention
import AlprGate.Server.Allowlist
import AlprGate.Server.AllowlistHistory
import AlprGate.Server.AllowlistListing
import AlprGate.Server.AllowlistMap
import AlprGate.Server.AllowlistScan
import AlprGate.Server.AllowlistFaults
import AlprGate.Server.TimeWindows
import AlprGate.Server.Fusion
import AlprGate.Server.FusionHistory
import AlprGate.Server.FusionLadder
import AlprGate.Server.Respelling
import AlprGate.Server.StreamIsolation
import AlprGate.Server.Dispatch
import AlprGate.Server.DispatchProvenance
import AlprGate.Server.Lockdown
import AlprGate.Server.WireConfidence
import AlprGate.Server.WireLimits
import AlprGate.Server.CtcDecode
import AlprGate.Server.CropBoxes
import AlprGate.Server.ScenarioSource
import AlprGate.Server.ScenarioDocument
import AlprGate.Server.ScenarioReplay
import AlprGate.Server.DetectionCalls
import AlprGate.Server.VisionDaemon
import AlprGate.Server.VisionDelivery
import AlprGate.Server.PlatePipeline
import AlprGate.Simulation.VirtualGate
import AlprGate.Simulation.VirtualTravel
import AlprGate.Simulation.FirmwareWiring
import AlprGate.Simulation.GateMirror
import AlprGate.Simulation.MirrorRuns
import AlprGate.Simulation.SimClient
import AlprGate.Simulation.SimAcks
import AlprGate.Simulation.SimHandshake
import AlprGate.Dashboard.EventCache
import AlprGate.Dashboard.StatusSnapshot
import AlprGate.Dashboard.LiveFeed
import AlprGate.Dashboard.StreamResume
import AlprGate.Dashboard.StreamBooks
import AlprGate.Dashboard.StreamDelivery
import AlprGate.Dashboard.StreamShutdown
import AlprGate.Dashboard.JsonMapping
import AlprGate.Dashboard.AdminSessions
import AlprGate.Dashboard.AllowlistRequests
import AlprGate.Dashboard.DailyWindows
import AlprGate.Dashboard.Credentials
