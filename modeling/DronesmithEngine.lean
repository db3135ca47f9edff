import DronesmithEngine.LabelledRuns
import DronesmithEngine.BinaryHeap
import DronesmithEngine.GoRuntime
import DronesmithEngine.GoEffects
import DronesmithEngine.BufferedIO
import DronesmithEngine.GoBytes
import DronesmithEngine.Checksums
import DronesmithEngine.PQueue
import DronesmithEngine.CommandQueueOrder
import DronesmithEngine.MavlinkX25
import DronesmithEngine.MavlinkDialect
import DronesmithEngine.MavlinkPacket
import DronesmithEngine.MavlinkFrame
import DronesmithEngine.MavlinkStream
import DronesmithEngine.MavlinkFailures
import DronesmithEngine.MavlinkCorruption
import DronesmithEngine.FmulinkRelay
import DronesmithEngine.FmulinkOutput
import DronesmithEngine.MavlinkMessages
import DronesmithEngine.MavlinkEnums
import DronesmithEngine.VehicleApi
import DronesmithEngine.CommandQueue
import DronesmithEngine.Dequeue
import DronesmithEngine.Vehicle
import DronesmithEngine.CommandSteps
import DronesmithEngine.CommandRuns
import DronesmithEngine.AcceptedCommands
import DronesmithEngine.HandlerInterleaving
import DronesmithEngine.VehicleShortPackets
import DronesmithEngine.ApiService
import DronesmithEngine.ApiRejections
import DronesmithEngine.ConcurrentSends
import DronesmithEngine.CloudCommands
import DronesmithEngine.CommandLifecycle
import DronesmithEngine.CommandReplies
import DronesmithEngine.RcOverride
import DronesmithEngine.RWMutex
import DronesmithEngine.QueueLocking
import DronesmithEngine.VehicleInit
import DronesmithEngine.InitGate
import DronesmithEngine.ParamCounts
import DronesmithEngine.FlightSyncer
import DronesmithEngine.Crc16
import DronesmithEngine.Dronedp
import DronesmithEngine.DronedpFrames
import DronesmithEngine.CloudLink
import DronesmithEngine.CloudSessions
import DronesmithEngine.SyncerListeners
import DronesmithEngine.FlightLogs
import DronesmithEngine.TermLauncher
import DronesmithEngine.Base64
import DronesmithEngine.Pem
import DronesmithEngine.Store
import DronesmithEngine.PQueueRuns
import DronesmithEngine.ParamCompleteness
import DronesmithEngine.StoreOperations
import DronesmithEngine.OutputLinks
import DronesmithEngine.OutputRequests
import DronesmithEngine.CloudUplink
import DronesmithEngine.FlightRecords
import DronesmithEngine.SessionReplies
import DronesmithEngine.ByteLayout
import DronesmithEngine.GeneratedCode
import DronesmithEngine.MavlinkGenerator
import DronesmithEngine.MessageRoundTrips
import DronesmithEngine.FlightModes
import DronesmithEngine.MsgManager
import DronesmithEngine.SessionTimeout
import DronesmithEngine.ParamLookup
import DronesmithEngine.ParamNames
import DronesmithEngine.ApiRouting
import DronesmithEngine.SystemLog
import DronesmithEngine.SetupRequests
import DronesmithEngine.GeneratorStages
import DronesmithEngine.DialectLists
import DronesmithEngine.EnumConstants
import DronesmithEngine.UploadHandles
import DronesmithEngine.OutputSets
import DronesmithEngine.CommandOps
import DronesmithEngine.MapRanges
import DronesmithEngine.LowerCaseKeys
import DronesmithEngine.WifiRequests
import DronesmithEngine.Regexes
import DronesmithEngine.LinkAddresses
import DronesmithEngine.FlightScans
import DronesmithEngine.VehicleOnline
import DronesmithEngine.CommandService
import DronesmithEngine.RelayDelivery
import DronesmithEngine.StreamBroker
import DronesmithEngine.CommandResponse
import DronesmithEngine.LinkStatus
import DronesmithEngine.SocketRounds
import DronesmithEngine.SetupCredentials
