import EbpfNids.Library.Runs
import EbpfNids.Library.TwoRuns
import EbpfNids.Library.BoundedMap
import EbpfNids.Library.SharedMap
import EbpfNids.Library.Cursor
import EbpfNids.Library.BitTable
import EbpfNids.Library.Endian
import EbpfNids.Library.Greedy
import EbpfNids.Library.Decimal
import EbpfNids.Library.Framing
import EbpfNids.Library.Snapshots
import EbpfNids.Library.Draws
import EbpfNids.Library.Paths
import EbpfNids.Library.Loops
import EbpfNids.Library.Ledger
import EbpfNids.Library.SelfSync
import EbpfNids.Library.Quantile
import EbpfNids.Library.Window
import EbpfNids.DataPlane.Frame
import EbpfNids.DataPlane.Detectors
import EbpfNids.DataPlane.Firewall
import EbpfNids.DataPlane.SynFlood
import EbpfNids.DataPlane.SynRate
import EbpfNids.DataPlane.PortScan
import EbpfNids.DataPlane.RingLoss
import EbpfNids.DataPlane.CpuSpread
import EbpfNids.DataPlane.Isolation
import EbpfNids.DataPlane.RealHeader
import EbpfNids.DataPlane.Accounting
import EbpfNids.DataPlane.Verdicts
import EbpfNids.DataPlane.PassedFrames
import EbpfNids.DataPlane.Machine
import EbpfNids.DataPlane.Interleaving
import EbpfNids.Net.Address
import EbpfNids.Net.Blocks
import EbpfNids.Control.BlacklistCtl
import EbpfNids.Control.MapCleaner
import EbpfNids.Loader.FlowCache
import EbpfNids.Loader.StatsPass
import EbpfNids.Loader.Lines
import EbpfNids.Loader.Clients
import EbpfNids.Loader.Config
import EbpfNids.Loader.StartUp
import EbpfNids.Loader.MainLoop
import EbpfNids.Loader.ReportedRates
import EbpfNids.Loader.TwoLoaders
import EbpfNids.Loader.ConfigGrammar
import EbpfNids.Loader.Reload
import EbpfNids.Loader.ConfigPath
import EbpfNids.Loader.PassOnce
import EbpfNids.Loader.ClientTable
import EbpfNids.Loader.ConfigLines
import EbpfNids.Loader.ConfigNames
import EbpfNids.Loader.Interval
import EbpfNids.Loader.CacheGrowth
import EbpfNids.Backend.PyText
import EbpfNids.Backend.Utf8
import EbpfNids.Backend.Json
import EbpfNids.Backend.Beginnings
import EbpfNids.Backend.Stripped
import EbpfNids.Backend.Messages
import EbpfNids.Backend.SocketLoop
import EbpfNids.Backend.Chunks
import EbpfNids.Backend.Inference
import EbpfNids.Backend.AlertApi
import EbpfNids.Backend.StatsApi
import EbpfNids.Backend.Locations
import EbpfNids.Wire.RoundTrip
import EbpfNids.Wire.JsonLines
import EbpfNids.Training.Reservoir
import EbpfNids.Training.WebRules
import EbpfNids.Training.Merge
import EbpfNids.Demo.Alerts
import EbpfNids.Dashboard.Toasts
import EbpfNids.Dashboard.Refresh
import EbpfNids.DataPlane.ScanAccusation
import EbpfNids.Library.Refinement
import EbpfNids.Library.Relay
import EbpfNids.Library.Requests
import EbpfNids.Library.Table
import EbpfNids.Backend.SerialHistory
import EbpfNids.Backend.AlertNumbers
import EbpfNids.Wire.Arrivals
import EbpfNids.Wire.Pipeline
import EbpfNids.Backend.ClientLoop
import EbpfNids.Wire.Reconnects
import EbpfNids.DataPlane.SynMachine
import EbpfNids.Library.Places
import EbpfNids.Loader.Host
import EbpfNids.Loader.HostRuns
import EbpfNids.Dashboard.ToastTimes
import EbpfNids.Dashboard.Connection
import EbpfNids.Control.CleanerRuns
import EbpfNids.DataPlane.Accesses
import EbpfNids.DataPlane.Races
import EbpfNids.Dashboard.AlertRows
import EbpfNids.Wire.Screen
import EbpfNids.Training.WebSamples
import EbpfNids.Demo.Page
import EbpfNids.DataPlane.Detections
import EbpfNids.Wire.AlertCounts
