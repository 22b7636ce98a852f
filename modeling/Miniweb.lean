import Miniweb.Lib.Transition
import Miniweb.Lib.FreeStack
import Miniweb.Lib.Ring
import Miniweb.Lib.Exclusive
import Miniweb.Lib.SlotTable
import Miniweb.Lib.StampedSlots
import Miniweb.Lib.SlotScan
import Miniweb.Lib.CString
import Miniweb.Lib.Decimal
import Miniweb.Lib.Message
import Miniweb.Lib.HeaderSection
import Miniweb.Lib.MessageStream
import Miniweb.Lib.Path
import Miniweb.Lib.Template
import Miniweb.Lib.Json
import Miniweb.Lib.JsonPrefix
import Miniweb.Lib.JsonWidth
import Miniweb.Lib.UpTo
import Miniweb.Lib.Output
import Miniweb.Lib.Printf
import Miniweb.Lib.UrlEncoded
import Miniweb.Lib.Getopt
import Miniweb.Lib.BubbleSort
import Miniweb.Lib.Rounding
import Miniweb.Lib.Lines
import Miniweb.Lib.Fields
import Miniweb.Lib.Least
import Miniweb.Lib.Entities
import Miniweb.Lib.Firsts
import Miniweb.Lib.Published
import Miniweb.Net.ConnectionPool
import Miniweb.ConnectionPoolProofs
import Miniweb.Net.WorkQueue
import Miniweb.WorkQueueProofs
import Miniweb.Lib.Tally
import Miniweb.Net.ServerRun
import Miniweb.ServerRunProofs
import Miniweb.Core.Conf
import Miniweb.ConfProofs
import Miniweb.ConfLinesProofs
import Miniweb.Net.Worker
import Miniweb.RequestLineProofs
import Miniweb.ConnectionHeaderProofs
import Miniweb.Net.Session
import Miniweb.SessionProofs
import Miniweb.KeepAliveProofs
import Miniweb.Net.Server
import Miniweb.ServerOwnership
import Miniweb.ServerDescriptors
import Miniweb.ServerSteps
import Miniweb.ServerProofs
import Miniweb.Net.ServerLog
import Miniweb.SessionRuns
import Miniweb.ServerFollows
import Miniweb.ServerSessions
import Miniweb.AdmissionProofs
import Miniweb.Core.Heartbeat
import Miniweb.HeartbeatProofs
import Miniweb.HeartbeatTiming
import Miniweb.HeartbeatTable
import Miniweb.HeartbeatThreads
import Miniweb.HeartbeatShutdown
import Miniweb.Core.HeartbeatClock
import Miniweb.HeartbeatClockProofs
import Miniweb.HeartbeatWaitProofs
import Miniweb.Modules.Sampling
import Miniweb.SamplingProofs
import Miniweb.SampleRingProofs
import Miniweb.Modules.Packages
import Miniweb.PackagesProofs
import Miniweb.EscapeProofs
import Miniweb.PackagesJsonProofs
import Miniweb.PackagesRingProofs
import Miniweb.Router.UrlRegistry
import Miniweb.UrlRegistryProofs
import Miniweb.Router.Router
import Miniweb.RouterProofs
import Miniweb.Router.StaticHandler
import Miniweb.StaticProofs
import Miniweb.Router.HtmlEscape
import Miniweb.HtmlEscapeProofs
import Miniweb.Http.RequestHeader
import Miniweb.RequestHeaderProofs
import Miniweb.Http.Utils
import Miniweb.QueryProofs
import Miniweb.Http.Subprocess
import Miniweb.SubprocessProofs
import Miniweb.Http.ResponsePool
import Miniweb.ResponsePoolProofs
import Miniweb.Http.Response
import Miniweb.ResponseProofs
import Miniweb.Http.ResponseIo
import Miniweb.ResponseIoProofs
import Miniweb.Http.ResponseStream
import Miniweb.ResponseStreamProofs
import Miniweb.Http.FileCache
import Miniweb.FileCacheProofs
import Miniweb.FileCacheAdmission
import Miniweb.Http.SendFile
import Miniweb.SendFileProofs
import Miniweb.Render.TemplateCache
import Miniweb.TemplateCacheProofs
import Miniweb.Render.TemplateRender
import Miniweb.TemplateRenderProofs
import Miniweb.Router.ViewHandler
import Miniweb.ViewProofs
import Miniweb.ViewTransparency
import Miniweb.Router.InitRoutes
import Miniweb.InitRoutesProofs
import Miniweb.Modules.ManRender
import Miniweb.ManRenderProofs
import Miniweb.OverstrikeProofs
import Miniweb.Modules.ManFileCache
import Miniweb.ManFileCacheProofs
import Miniweb.Modules.ManQuery
import Miniweb.Modules.ManIndex
import Miniweb.ManIndexProofs
import Miniweb.Modules.ManRequest
import Miniweb.ManRequestProofs
import Miniweb.ManPathProofs
import Miniweb.Modules.ManSearch
import Miniweb.Modules.ManApi
import Miniweb.ManApiProofs
import Miniweb.Router.Handlers
import Miniweb.HandlersProofs
import Miniweb.ServedStreamProofs
import Miniweb.ArgumentProofs
import Miniweb.Modules.Networking
import Miniweb.NetworkingProofs
import Miniweb.Modules.NetworkingRoutes
import Miniweb.NetworkingRoutesProofs
import Miniweb.Modules.NetworkingSample
import Miniweb.NetworkingSampleProofs
import Miniweb.NetworkingDocumentProofs
import Miniweb.Modules.NetworkingSnapshot
import Miniweb.NetworkingSnapshotProofs
import Miniweb.Modules.MetricsJson
import Miniweb.MetricsJsonProofs
import Miniweb.Modules.MetricsProcess
import Miniweb.MetricsProcessProofs
import Miniweb.Modules.MetricsSnapshot
import Miniweb.MetricsSnapshotProofs
import Miniweb.MetricsHistoryProofs
import Miniweb.MetricsFreshnessProofs
import Miniweb.Storage.SqliteDb
import Miniweb.CatalogProofs
