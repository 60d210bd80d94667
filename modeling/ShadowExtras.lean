import ShadowExtras.Browser.Completion
import ShadowExtras.Browser.ConnectionTable
import ShadowExtras.Browser.Connections
import ShadowExtras.Browser.EmbeddedObjects
import ShadowExtras.Echo.EchoPair
import ShadowExtras.FileTransfer.Cdf
import ShadowExtras.FileTransfer.CdfFile
import ShadowExtras.FileTransfer.ContentLength
import ShadowExtras.FileTransfer.DownloadBudget
import ShadowExtras.FileTransfer.DownloadCompletes
import ShadowExtras.FileTransfer.DownloadSpecs
import ShadowExtras.FileTransfer.DownloadStatistics
import ShadowExtras.FileTransfer.DownloadTimes
import ShadowExtras.FileTransfer.FileServerEvents
import ShadowExtras.FileTransfer.FileServerIsolation
import ShadowExtras.FileTransfer.FileServerReports
import ShadowExtras.FileTransfer.FileServerRuns
import ShadowExtras.FileTransfer.FilegetterBuffer
import ShadowExtras.FileTransfer.FilegetterReply
import ShadowExtras.FileTransfer.FilegetterWatch
import ShadowExtras.FileTransfer.RequestCuts
import ShadowExtras.FileTransfer.RequestRoundTrip
import ShadowExtras.FileTransfer.ServiceFilegetterRuns
import ShadowExtras.FileTransfer.SocksHandshake
import ShadowExtras.Foundation.Fallible
import ShadowExtras.Foundation.Ranking
import ShadowExtras.Foundation.Socket
import ShadowExtras.Foundation.SortedInsert
import ShadowExtras.Foundation.TextFile
import ShadowExtras.Ping.PingRecords
import ShadowExtras.Ping.PingSegments
import ShadowExtras.Replay.Completeness
import ShadowExtras.Replay.DrainLoop
import ShadowExtras.Replay.PayloadBounds
import ShadowExtras.Replay.Payloads
import ShadowExtras.Replay.Rotation
import ShadowExtras.Replay.Selection
import ShadowExtras.Replay.WaitingTime
import ShadowExtras.TorControl.AttachedStreams
import ShadowExtras.TorControl.CircuitIds
import ShadowExtras.TorControl.DataBlock
import ShadowExtras.TorControl.ModuleSetup
import ShadowExtras.TorControl.ParserBounds
import ShadowExtras.TorControl.PingToken
import ShadowExtras.TorControl.Registration
import ShadowExtras.TorControl.ReplyParser
import ShadowExtras.TorControl.Segmentation
import ShadowExtras.TorControl.SendBuffer
import ShadowExtras.TorControl.SetupOnce
import ShadowExtras.TorControl.TimeWindows
import ShadowExtras.Torrent.AuthorityDirectory
import ShadowExtras.Torrent.BlockAccounting
import ShadowExtras.Torrent.BlockExchange
import ShadowExtras.Torrent.BlockMoves
import ShadowExtras.Torrent.BlockProtocol
import ShadowExtras.Torrent.Client
import ShadowExtras.Torrent.ClientNodes
import ShadowExtras.Torrent.Fillers
import ShadowExtras.Torrent.Plugin
import ShadowExtras.Torrent.Shutdown
import ShadowExtras.Torrent.Sizes
import ShadowExtras.Web.BrowserLoads
import ShadowExtras.Web.BrowserPageDone
import ShadowExtras.Web.ByteTotals
import ShadowExtras.Web.ConnectionLimit
import ShadowExtras.Web.ConnectionManagerPlaces
import ShadowExtras.Web.ConnectionManagerQueues
import ShadowExtras.Web.Demultiplexing
import ShadowExtras.Web.EventBase
import ShadowExtras.Web.EventLoopReleases
import ShadowExtras.Web.Exchange
import ShadowExtras.Web.HandlerDeletion
import ShadowExtras.Web.HandlerQueue
import ShadowExtras.Web.HandlerReturns
import ShadowExtras.Web.HandlerSegments
import ShadowExtras.Web.HandlerSocket
import ShadowExtras.Web.HandlerWatches
import ShadowExtras.Web.ProxyHandshake
import ShadowExtras.Web.RangeNegotiation
import ShadowExtras.Web.Retries
import ShadowExtras.Web.StreamDivision
import ShadowExtras.Web.TransfersOnce
import ShadowExtras.Web.ValidationOnce
import ShadowExtras.Web.Vectors
import ShadowExtras.Web.Verdicts
