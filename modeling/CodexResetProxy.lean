import CodexResetProxy.Library.Transition
import CodexResetProxy.Library.Custody
import CodexResetProxy.Library.Dict
import CodexResetProxy.Library.PyStr
import CodexResetProxy.Library.PyFloat
import CodexResetProxy.Library.Json
import CodexResetProxy.Library.JsonLines
import CodexResetProxy.Library.EventStream
import CodexResetProxy.Sse.Format
import CodexResetProxy.Sse.Framing
import CodexResetProxy.Sse.Fidelity
import CodexResetProxy.Sse.Stream
import CodexResetProxy.Library.JsonDump
import CodexResetProxy.Bridge.PoolKey
import CodexResetProxy.Bridge.Pool
import CodexResetProxy.Bridge.Request
import CodexResetProxy.Bridge.Protocol
import CodexResetProxy.Bridge.System
import CodexResetProxy.Bridge.Tokens
import CodexResetProxy.Bridge.Trades
import CodexResetProxy.Bridge.Invariant
import CodexResetProxy.Bridge.Ownership
import CodexResetProxy.Bridge.Credentials
import CodexResetProxy.Bridge.Acknowledgement
import CodexResetProxy.Bridge.Isolation
import CodexResetProxy.Bridge.Leaks
import CodexResetProxy.Bridge.History
import CodexResetProxy.Bridge.Delivery
import CodexResetProxy.Bridge.Reading
import CodexResetProxy.Library.Trials
import CodexResetProxy.Bridge.Resends
import CodexResetProxy.Library.Amortized
import CodexResetProxy.Bridge.Progress
import CodexResetProxy.Bridge.Shutdown
import CodexResetProxy.Library.Retry
import CodexResetProxy.Bridge.Retries
import CodexResetProxy.Upstream.Http
import CodexResetProxy.Upstream.Headers
import CodexResetProxy.Environment
import CodexResetProxy.Upstream.Attempts
import CodexResetProxy.Mitm.Chunked
import CodexResetProxy.Mitm.Reader
import CodexResetProxy.Mitm.Framing
import CodexResetProxy.Mitm.WireChunks
import CodexResetProxy.Mitm.Wire
import CodexResetProxy.Library.HeaderText
import CodexResetProxy.Mitm.Smuggling
import CodexResetProxy.Mitm.Tunnel
import CodexResetProxy.Library.Duplex
import CodexResetProxy.Library.Idna
import CodexResetProxy.Outbound
import CodexResetProxy.Mitm.Socks
import CodexResetProxy.Mitm.Interoperation
import CodexResetProxy.Bridge.Calls
import CodexResetProxy.Bridge.Attempts
import CodexResetProxy.Bridge.Streaming
import CodexResetProxy.Library.ByteStr
import CodexResetProxy.Library.StreamReader
import CodexResetProxy.Upstream.Urls
import CodexResetProxy.App
import CodexResetProxy.Mitm.Endpoint
import CodexResetProxy.Upstream.Endings
import CodexResetProxy.Agreement
import CodexResetProxy.BodyLimit
import CodexResetProxy.Library.Arrivals
import CodexResetProxy.Mitm.Arrivals
import CodexResetProxy.Bridge.PoolCalls
import CodexResetProxy.Bridge.PoolRelease
import CodexResetProxy.Library.Http1
import CodexResetProxy.Mitm.Buffering
import CodexResetProxy.Mitm.Responses
import CodexResetProxy.Mitm.Routing
import CodexResetProxy.Mitm.Strictness
import CodexResetProxy.Library.Session
import CodexResetProxy.Library.IpAddress
import CodexResetProxy.Library.Socks5
import CodexResetProxy.Mitm.Handshake
import CodexResetProxy.Outbound.Answers
import CodexResetProxy.Mitm.SocksClient
import CodexResetProxy.Mitm.SocksRuns
import CodexResetProxy.Mitm.SocksRelay
import CodexResetProxy.Library.UrlAuthority
import CodexResetProxy.Upstream.Authority
import CodexResetProxy.Library.Percent
import CodexResetProxy.Upstream.Targets
import CodexResetProxy.Library.Binary64
import CodexResetProxy.Library.Rfc8259
import CodexResetProxy.Library.JsonTokens
import CodexResetProxy.Library.JsonGrammar
import CodexResetProxy.Library.JsonEncode
import CodexResetProxy.Bridge.Wrapping
import CodexResetProxy.Library.Interruption
import CodexResetProxy.Mitm.Certs
import CodexResetProxy.Mitm.Issuance
import CodexResetProxy.Library.Recorded
import CodexResetProxy.Mitm.Keys
import CodexResetProxy.Library.Expectation
import CodexResetProxy.Mitm.Contexts
import CodexResetProxy.Startup
import CodexResetProxy.Library.ChunkReader
import CodexResetProxy.Library.ResponseEnd
import CodexResetProxy.Mitm.Reading
import CodexResetProxy.Mitm.Replies
