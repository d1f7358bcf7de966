import ProxyBridge.Windows.Types

/-! The proxy configuration store of `pb_proxy.c` and the endpoint tests of the packet thread. -/
namespace ProxyBridge.Windows

/-- An entry of `g_proxy_configs`, with the fields that routing decisions read. -/
structure ProxyConfig where
  configId : UInt32
  type : ProxyType
  host : List UInt8
  port : UInt16
  resolvedIp : UInt32
  udpConnected : Bool
  udpRelayIp : UInt32
  udpRelayPort : UInt16
  deriving DecidableEq

/-- The configuration with this identifier, or else the first one. -/
def findProxyConfig (configs : List ProxyConfig) (configId : UInt32) : Option ProxyConfig :=
  match configs.find? (fun c => c.configId == configId) with
  | some c => some c
  | none => configs.head?

def isProxyServerEndpoint (configs : List ProxyConfig) (destination : UInt32) (port : UInt16) : Bool :=
  configs.any (fun c => c.configId != 0 && c.resolvedIp == destination && c.port == port)

def isProxyUdpEndpoint (configs : List ProxyConfig) (destination : UInt32) (port : UInt16) : Bool :=
  configs.any (fun c => c.udpConnected && c.udpRelayIp == destination && c.udpRelayPort == port)

end ProxyBridge.Windows
