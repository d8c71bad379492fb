import Evhtp.Lib.Decoder
import Evhtp.Lib.Numeral
import Evhtp.Lib.Runs
import Evhtp.Lib.Links
import Evhtp.Bytes
import Evhtp.Htstring
import Evhtp.Msgparser
import Evhtp.Request
import Evhtp.Reply
import Evhtp.Query
import Evhtp.Routing
import Evhtp.Connection
import Evhtp.Events
import Evhtp.H2
import Evhtp.Thread
import Evhtp.CommandCache
import Evhtp.DeferSync
import Evhtp.RequestCache
import Evhtp.H2Stream
import Evhtp.Client
import Evhtp.Proofs.HookRules
import Evhtp.Proofs.Turns
import Evhtp.Proofs.Emissions
import Evhtp.Proofs.HookTrace
import Evhtp.Proofs.Bodies
import Evhtp.Proofs.Coherence
import Evhtp.Proofs.Fragmentation
import Evhtp.Proofs.Calls
import Evhtp.Proofs.Masking
import Evhtp.Proofs.Pauses
import Evhtp.Proofs.Messages
import Evhtp.Proofs.HeadFields
import Evhtp.Proofs.BodySections
import Evhtp.Proofs.Numbers
import Evhtp.Proofs.StartLine
import Evhtp.Proofs.Head
import Evhtp.Proofs.HeadSays
import Evhtp.Proofs.RequestFraming
import Evhtp.Proofs.ResponseFraming
import Evhtp.Proofs.ReadBack
import Evhtp.Proofs.ReplyHeaders
import Evhtp.Proofs.ReplyRoundTrip
import Evhtp.Proofs.ChunkedReply
import Evhtp.Proofs.Actions
import Evhtp.Proofs.ConnectionRules
import Evhtp.Proofs.ConnectionHooks
import Evhtp.Proofs.MessageRules
import Evhtp.Proofs.BodyLimit
import Evhtp.Proofs.Lifetime
import Evhtp.Proofs.Routes
import Evhtp.Proofs.HostRouting
import Evhtp.Proofs.H2Calls
import Evhtp.Proofs.H2Bodies
import Evhtp.Proofs.H2Dispatch
import Evhtp.Proofs.H2TakeOver
import Evhtp.Proofs.H2Faults
import Evhtp.Proofs.H2Routing
import Evhtp.Proofs.QueueShape
import Evhtp.Proofs.Wakeups
import Evhtp.Proofs.SpscRing
import Evhtp.Proofs.CommandReuse
import Evhtp.Proofs.DeferAllSync
import Evhtp.Proofs.RecycledRequests
import Evhtp.Proofs.H2StreamReplies
import Evhtp.Proofs.Targets
import Evhtp.Proofs.FormBodies
import Evhtp.Proofs.RequestRoundTrip
import Evhtp.Proofs.Limits
import Evhtp.Proofs.Arrivals
import Evhtp.Proofs.InterimResponses
import Evhtp.Proofs.PausedParsers
import Evhtp.Proofs.Lines
import Evhtp.Proofs.Representation
import Evhtp.Proofs.Progress
import Evhtp.Proofs.Callbacks
import Evhtp.Proofs.PauseContract
import Evhtp.Proofs.LineRules
import Evhtp.Proofs.Watches
import Evhtp.Proofs.SkipBody
import Evhtp.Lib.FirstMatch
import Evhtp.Proofs.CertificateHeaders
import Evhtp.PoolDefer
import Evhtp.Proofs.FailedDefers
import Evhtp.Proofs.ChunkedDecoding
import Evhtp.Lib.Buffer
import Evhtp.Proofs.Unescaping
import Evhtp.Glob
import Evhtp.Lib.Glob
import Evhtp.Proofs.GlobMatching
import Evhtp.Headers
import Evhtp.Proofs.HeaderLookup
import Evhtp.Proofs.CollapsedHeaders
import Evhtp.Proofs.MatchedParts
import Evhtp.H2Request
import Evhtp.Proofs.H2Requests
import Evhtp.Lib.Pieces
import Evhtp.Proofs.QueryTokens
import Evhtp.Proofs.QueryArguments
import Evhtp.Proofs.QueryRules
import Evhtp.Proofs.QueryValues
import Evhtp.Lib.Follows
import Evhtp.Proofs.QueryMemory
import Evhtp.Proofs.QueryPlaces
import Evhtp.Proofs.QueryBuilding
import Evhtp.Proofs.ChunkSizes
import Evhtp.Numtoa
import Evhtp.PathScan
import Evhtp.Proofs.PoolLoad
import Evhtp.Log
import Evhtp.Proofs.LogFormats
import Evhtp.Proofs.PathSplitting
import Evhtp.Proofs.ContentLengths
import Evhtp.Proofs.H2Headers
import Evhtp.Proofs.DeferProgress
