import Fastpx.Auth
import Fastpx.Config.Cidr
import Fastpx.Config.Endpoint

/-!
# The configuration of a proxy

The settings of `ProxyConfig`.  Durations are in nanoseconds.
-/

namespace Fastpx
namespace Config

/-- Upstream authentication behaviour. -/
inductive AuthMode where
  /-- prefer Negotiate, fall back to NTLM -/
  | auto
  | negotiate
  | ntlm
  /-- forward `CONNECT` without upstream authentication -/
  | none
  deriving DecidableEq, Repr

/-- How destinations are routed. -/
inductive RoutingMode where
  /-- resolve destinations and connect directly to internal addresses -/
  | auto
  | proxyOnly
  deriving DecidableEq, Repr

/-- The settings of a proxy. -/
structure ProxyConfig where
  listen : SocketAddr
  upstream : Endpoint
  auth : AuthMode
  routing : RoutingMode
  directCidrs : List IpCidr
  dnsTimeout : Nat
  connectTimeout : Nat
  idleTimeout : Option Nat
  maxHeaderBytes : Nat
  maxConnections : Nat

end Config
end Fastpx
