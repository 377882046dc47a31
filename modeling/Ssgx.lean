import Ssgx.Support.Call
import Ssgx.Support.Cursor
import Ssgx.Support.Run
import Ssgx.Support.Text
import Ssgx.Support.Resource
import Ssgx.Filesystem.Host
import Ssgx.Filesystem.PlainFile
import Ssgx.Filesystem.MetaData
import Ssgx.Filesystem.ProtectedFile
import Ssgx.Filesystem.ReaderOpen
import Ssgx.Filesystem.WriterOpen
import Ssgx.Filesystem.PlainRoundTrip
import Ssgx.Support.Threads
import Ssgx.Filesystem.PlainConcurrency
import Ssgx.Filesystem.PairRun
import Ssgx.Filesystem.FailedOpen
import Ssgx.Filesystem.Removal
import Ssgx.Filesystem.KeyAgreement
import Ssgx.Filesystem.HandleLifetime
import Ssgx.Filesystem.StoredContent
import Ssgx.Support.NamePaths
import Ssgx.Filesystem.Paths
import Ssgx.Filesystem.HostTree
import Ssgx.Filesystem.Directories
import Ssgx.Filesystem.DirectoryRaces
import Ssgx.Http.Url
import Ssgx.Http.Transport
import Ssgx.Http.Client
import Ssgx.Support.Waiting
import Ssgx.Http.ReadLoop
import Ssgx.Http.ReadSplits
import Ssgx.Http.WriteLoop
import Ssgx.Http.UrlReading
import Ssgx.Http.Target
import Ssgx.Support.RequestGrammar
import Ssgx.Http.Serialization
import Ssgx.Http.CarriedRequest
import Ssgx.Support.Keyed
import Ssgx.Http.Message
import Ssgx.Http.Json
import Ssgx.Http.HeaderSafety
import Ssgx.Http.Router
import Ssgx.Http.FilterTrace
import Ssgx.Http.ResponseSetters
import Ssgx.Support.LastGiven
import Ssgx.Http.LastBody
import Ssgx.Http.OnMessage
import Ssgx.Support.Registry
import Ssgx.Http.Listeners
import Ssgx.Http.Servers
import Ssgx.Http.ListenerConfig
import Ssgx.Http.Dispatch
import Ssgx.Attestation.Quote
import Ssgx.Attestation.Trusted
import Ssgx.Attestation.Attestor
import Ssgx.Attestation.Policy
import Ssgx.Support.Challenge
import Ssgx.Attestation.Freshness
import Ssgx.Boundary.HostMemory
import Ssgx.Boundary.OutsideBuffers
import Ssgx.Boundary.Getters
import Ssgx.Boundary.MessageReply
import Ssgx.Boundary.BorderRun
import Ssgx.Boundary.ReplyOutcome
import Ssgx.Boundary.MessageCall
import Ssgx.Support.Digits
import Ssgx.Support.Gregorian
import Ssgx.Support.Rounding
import Ssgx.Support.DecimalArithmetic
import Ssgx.Support.DecimalText
import Ssgx.Time.Calendar
import Ssgx.Time.Verifier
import Ssgx.Time.FormatTime
import Ssgx.Http.UrlRoundTrip
import Ssgx.Http.UrlText
import Ssgx.Http.UrlAborts
import Ssgx.Http.UrlSound
import Ssgx.Support.Trace
import Ssgx.Http.TlsCalls
import Ssgx.Http.TlsExchange
import Ssgx.Http.TlsRequest
import Ssgx.Http.JsonDump
import Ssgx.Http.RequestHandler
import Ssgx.Http.SentResponse
import Ssgx.Decimal.BigDecimal
import Ssgx.Decimal.Values
import Ssgx.Decimal.Reachable
import Ssgx.Decimal.TextRoundTrip
import Ssgx.Decimal.SingleRounding
import Ssgx.Sealing.SealHandler
import Ssgx.Sealing.UnsealBounds
import Ssgx.Sealing.SealRoundTrip
import Ssgx.Config.TomlHost
import Ssgx.Config.TomlStrings
import Ssgx.Support.Allocator
import Ssgx.Config.TomlLifetime
import Ssgx.Attestation.Overloads
import Ssgx.Attestation.TimedReport
import Ssgx.Filesystem.AppendChecks
import Ssgx.Attestation.ErrorState
import Ssgx.Attestation.Binding
import Ssgx.Attestation.QuoteReads
import Ssgx.Support.SearchTree
import Ssgx.Http.HeaderMap
import Ssgx.Decimal.ValidText
import Ssgx.Time.Monotone
import Ssgx.Time.TimeSpan
import Ssgx.Boundary.ClearedBuffers
import Ssgx.Config.TomlIntegers
import Ssgx.Json.FetchNode
import Ssgx.Http.RoundTrip
import Ssgx.Uuid.Generator
import Ssgx.Log.Logger
import Ssgx.Arbiter.Millionaire
