import Fastpx.Config.Cidr
import Fastpx.Config.Endpoint
import Fastpx.Config.Proxy
import Fastpx.Routing
import Fastpx.Auth
import Fastpx.Sspi
import Fastpx.Sspi.Handles
import Fastpx.Http1.Head
import Fastpx.Http1.Stream
import Fastpx.Http1.Framing
import Fastpx.Http1.Delimiter
import Fastpx.Http1.SelfDelimited
import Fastpx.Http1.Segmentation
import Fastpx.Http1.Limits
import Fastpx.Http1.Lengths
import Fastpx.Http1.Draining
import Fastpx.Http1.Taken
import Fastpx.Relay.Completion
import Fastpx.Relay.Idle
import Fastpx.Relay.Product
import Fastpx.Relay.Work
import Fastpx.Relay.Live
import Fastpx.Server.Authentication
import Fastpx.Server.Reuse
import Fastpx.Server.Route
import Fastpx.Server.Answer
import Fastpx.Server.Presentation
import Fastpx.Server.Offers
import Fastpx.Server.Serve
import Fastpx.Server.Provider
import Fastpx.Server.Transcript
import Fastpx.Server.EndToEnd
import Fastpx.Server.Completeness
import Fastpx.Server.Chain
import Fastpx.Server.Secrecy
import Fastpx.Main
import Fastpx.Server.Service
import Fastpx.Bench
