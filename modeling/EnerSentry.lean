import EnerSentry.Lib.Runs
import EnerSentry.Lib.Timer
import EnerSentry.Lib.Ownership
import EnerSentry.Lib.Laps
import EnerSentry.Lib.Packing
import EnerSentry.Lib.KeyedTable
import EnerSentry.Lib.Sweep
import EnerSentry.Lib.Recent
import EnerSentry.Lib.Ledger
import EnerSentry.Lib.CyclicCells
import EnerSentry.Business.DeviceSboGuard
import EnerSentry.Business.SboStateMachine
import EnerSentry.Business.SboTransitions
import EnerSentry.Business.SboOccupancy
import EnerSentry.Business.SboPairing
import EnerSentry.Business.SboSafety
import EnerSentry.Business.SboLink
import EnerSentry.Business.AlarmEntities
import EnerSentry.Business.AlarmEngine
import EnerSentry.Business.AlarmTransitions
import EnerSentry.Business.AlarmAgreement
import EnerSentry.Business.StormQueue
import EnerSentry.Business.StormDetection
import EnerSentry.Business.AlarmDebounce
import EnerSentry.Datahub.AlarmTables
import EnerSentry.Business.AlarmRecordStore
import EnerSentry.Business.AlarmPersistence
import EnerSentry.Business.AlarmLifeCycle
import EnerSentry.Business.AlarmStatus
import EnerSentry.Business.RestartIsolation
import EnerSentry.Business.Suppression
import EnerSentry.Datahub.RingBuffer
import EnerSentry.Datahub.RangeQuery
import EnerSentry.Datahub.L1SnapshotStore
import EnerSentry.Datahub.CriticalSwapFile
import EnerSentry.Datahub.BlackBoxManager
import EnerSentry.Datahub.DownSampler
import EnerSentry.Datahub.HistoryTables
import EnerSentry.Datahub.L2HistoryStore
import EnerSentry.Protocol.ModbusFrame
import EnerSentry.Protocol.ParseAgreement
import EnerSentry.Protocol.StreamAccumulator
import EnerSentry.Protocol.Resynchronisation
import EnerSentry.Protocol.ModbusEngine
import EnerSentry.Protocol.WriteRequest
import EnerSentry.Protocol.TransactionPairing
import EnerSentry.Protocol.FailedWrites
import EnerSentry.Protocol.RingContents
import EnerSentry.Protocol.RingTwins
import EnerSentry.Protocol.RingProbes
import EnerSentry.Protocol.Reconnection
import EnerSentry.Protocol.PollScheduler
import EnerSentry.Protocol.PointTable
import EnerSentry.App.PollSegments
import EnerSentry.App.PollDriver
import EnerSentry.App.PollTransitions
import EnerSentry.App.PollAttribution
import EnerSentry.App.DuePoll
import EnerSentry.App.PendingPoll
import EnerSentry.App.PollProgress
import EnerSentry.App.EnerSentryApp
import EnerSentry.App.SboLoop
import EnerSentry.App.SboAddressing
import EnerSentry.App.HistoryPath
import EnerSentry.Sim.ModbusDispatch
import EnerSentry.Sim.SlaveTransport
import EnerSentry.Sim.ReadRoundTrip
import EnerSentry.Sim.RequestDecoding
import EnerSentry.Sim.FaultInjector
import EnerSentry.Sim.FaultCoverage
import EnerSentry.Sim.RegisterBank
import EnerSentry.Sim.PointGenerator
import EnerSentry.Sim.GeneratedCells
import EnerSentry.Sim.BankInterleaving
import EnerSentry.Lib.Crc
import EnerSentry.Lib.Overwriting
import EnerSentry.App.CircuitBreaker
import EnerSentry.Sim.WriteEffects
import EnerSentry.Sim.FaultInterference
import EnerSentry.Protocol.Checksum
import EnerSentry.Protocol.Chunking
import EnerSentry.Sim.RtuSlavePort
import EnerSentry.Datahub.WindowAccounts
import EnerSentry.Datahub.GranularityIsolation
import EnerSentry.Datahub.FlushAccounts
import EnerSentry.Lib.Timeline
import EnerSentry.Lib.Gregorian
import EnerSentry.Datahub.MonthCalendar
import EnerSentry.Datahub.HistoryQuery
import EnerSentry.Lib.Newest
import EnerSentry.Datahub.AlarmQuery
import EnerSentry.Datahub.SwapRing
import EnerSentry.Datahub.BlackBoxWindow
import EnerSentry.App.AlarmCapture
import EnerSentry.Business.AuthManager
import EnerSentry.Business.SessionSafety
import EnerSentry.Business.GuessBudget
import EnerSentry.Protocol.BreakerInvariant
import EnerSentry.Lib.Turns
import EnerSentry.Protocol.SchedulerOrder
import EnerSentry.Business.BusinessStateMachine
import EnerSentry.Business.StationMode
import EnerSentry.Business.PointIndex
import EnerSentry.Lib.TreeRows
import EnerSentry.Lib.SwapRemove
import EnerSentry.Datahub.DataBus
import EnerSentry.Datahub.Subscriptions
import EnerSentry.Datahub.CallbackSafety
import EnerSentry.Lib.GuardedReads
import EnerSentry.Protocol.ResponseGrammar
import EnerSentry.Protocol.TransportGuess
import EnerSentry.Protocol.RingRepresentation
import EnerSentry.Protocol.ByteReassembly
import EnerSentry.Lib.Binary64
import EnerSentry.App.EngineeringValue
import EnerSentry.Sim.ScenarioFile
import EnerSentry.Sim.ScenarioScript
import EnerSentry.Sim.SimulatorEngine
import EnerSentry.Sim.ScenarioTiming
import EnerSentry.Sim.ScenarioExpansion
import EnerSentry.Sim.ScenarioRecovery
import EnerSentry.Sim.ScenarioVerdict
import EnerSentry.Channel.TcpChannel
import EnerSentry.Channel.ReconnectLiveness
import EnerSentry.Sim.ModbusTcpServer
import EnerSentry.Sim.DescriptorOwnership
import EnerSentry.Lib.Trail
import EnerSentry.Datahub.RingConsumers
import EnerSentry.Lib.Smear
import EnerSentry.Datahub.SnapshotPolicy
import EnerSentry.Datahub.PolicyRouting
import EnerSentry.Lib.ByteImage
import EnerSentry.Datahub.SwapLayout
import EnerSentry.Datahub.SwapFlush
import EnerSentry.Lib.Approach
import EnerSentry.Sim.RecoveryRamp
import EnerSentry.Sim.RecoveryTarget
import EnerSentry.Lib.Streaks
import EnerSentry.Protocol.LinkHistory
import EnerSentry.Protocol.SchedulerFairness
import EnerSentry.Protocol.HalfDuplex
import EnerSentry.App.PollTimers
import EnerSentry.App.SegmentPlan
import EnerSentry.Lib.Numerals
import EnerSentry.Sim.Json
import EnerSentry.Protocol.PointTableFile
import EnerSentry.Protocol.PointTableIndexes
import EnerSentry.Lib.FloatingValues
import EnerSentry.Sim.RecoveryEnds
import EnerSentry.Lib.Sampling
import EnerSentry.Ui.RenderDownsampler
import EnerSentry.Ui.SeriesShape
import EnerSentry.Business.AlarmRuleLoader
import EnerSentry.Business.AuditLog
import EnerSentry.Business.UserTable
import EnerSentry.Lib.Csv
import EnerSentry.Ui.CsvWriter
import EnerSentry.Datahub.RingSizing
import EnerSentry.Lib.CellMemory
import EnerSentry.Lib.Refinement
import EnerSentry.Sim.RemoteMemory
import EnerSentry.Sim.SlaveEmulator
import EnerSentry.Sim.RemoteSession
import EnerSentry.Sim.ReadYourWrites
import EnerSentry.Sim.ClientStream
import EnerSentry.Sim.PipelinedSession
import EnerSentry.Sim.LoadedSimTable
import EnerSentry.Sim.SimConfig
import EnerSentry.Sim.Station
import EnerSentry.App.PolledTable
import EnerSentry.App.ClosedLoop
import EnerSentry.Lib.BoundedQueue
import EnerSentry.App.SampleBridge
import EnerSentry.App.AcquisitionLine
import EnerSentry.Lib.Drift
import EnerSentry.Lib.Interpolation
import EnerSentry.Sim.BatteryPhysics
import EnerSentry.Sim.RequestStream
import EnerSentry.App.ControlPath
import EnerSentry.App.ControlSafety
import EnerSentry.App.ControlOrder
