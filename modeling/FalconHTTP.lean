import FalconHTTP.Foundation.Interaction
import FalconHTTP.Foundation.TransitionSystem
import FalconHTTP.Core.Framing
import FalconHTTP.Core.ReadGuarantees
import FalconHTTP.Core.LengthAgreement
import FalconHTTP.Client.HttpClient
import FalconHTTP.Client.ReceiveLoop
import FalconHTTP.Client.RequestRoundTrip
import FalconHTTP.Client.ResponseRoundTrip
import FalconHTTP.Client.RequestSplitting
import FalconHTTP.Streaming.SseConnection
import FalconHTTP.Streaming.EventFrames
import FalconHTTP.Streaming.WireLog
import FalconHTTP.Routing.Router
import FalconHTTP.Core.Chain
import FalconHTTP.Core.FirstMatch
import FalconHTTP.Core.StreamPreamble
import FalconHTTP.Core.OneResponse
import FalconHTTP.Core.Incomplete
import FalconHTTP.Core.Ownership
import FalconHTTP.Core.Lifecycle
import FalconHTTP.Core.StreamingCap
import FalconHTTP.Core.ResponseSplitting
import FalconHTTP.Client.ResponseIntegrity
import FalconHTTP.Client.ResponseSegmentation
import FalconHTTP.HTTP.ParserExactness
import FalconHTTP.Routing.PathMatching
import FalconHTTP.Core.ReadBounds
import FalconHTTP.Middleware.Onion
import FalconHTTP.FileServer.StaticFileServer
import FalconHTTP.FileServer.ConcurrentServing
import FalconHTTP.FileServer.Confinement
import FalconHTTP.Core.HandleOwnership
import FalconHTTP.Core.Listening
import FalconHTTP.HTTP.HeaderNames
import FalconHTTP.HTTP.PercentDecoding
import FalconHTTP.HTTP.QueryStrings
import FalconHTTP.Routing.Dispatch
import FalconHTTP.Core.WholeBuffer
import FalconHTTP.Core.TimedConnect
import FalconHTTP.Client.BodilessResponses
import FalconHTTP.Streaming.StreamOwnership
import FalconHTTP.Core.Answer
import FalconHTTP.EndToEnd.Parties
import FalconHTTP.EndToEnd.Exchange
import FalconHTTP.Middleware.Around
import FalconHTTP.Middleware.Cors
import FalconHTTP.Middleware.Guards
import FalconHTTP.FileServer.Fallback
import FalconHTTP.Foundation.Wildcard
import FalconHTTP.Routing.Tables
import FalconHTTP.EndToEnd.Calls
import FalconHTTP.EndToEnd.StalledClients
import FalconHTTP.EndToEnd.RoutedCall
import FalconHTTP.EndToEnd.Files
import FalconHTTP.EndToEnd.EventDelivery
import FalconHTTP.EndToEnd.StreamClient
import FalconHTTP.Core.RouteTables
import FalconHTTP.Core.Starvation
