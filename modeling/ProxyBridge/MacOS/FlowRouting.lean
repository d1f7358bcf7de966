import ProxyBridge.Library.ReadPrograms
import ProxyBridge.MacOS.ProviderMessages

/-! What becomes of a new flow. The handler reads the configurations, the rules and the switch of the logs
one after the other, each under a lock of its own, and messages may change them in between. -/
namespace ProxyBridge.MacOS
open FirstMatch Handshake ReadPrograms

/-- What the handlers know about strings, addresses and sorting. -/
structure SwiftRuntime where
  unicode : UnicodeData
  mapping : CaseMapping
  parsers : AddressParsers
  sorting : Sorting KokoroBoxRule.priority
  uppercased : String → String

namespace SwiftRuntime
variable (R : SwiftRuntime)

/-- Strings are equal when they are canonically equivalent. -/
def same (s t : String) : Bool := R.unicode.key s == R.unicode.key t

def lowercased (s : String) : String := String.ofList (R.unicode.lowercased s.toList)

def text : SwiftText Character := ⟨R.lowercased, R.unicode.key, .ascii (CStrings.byte '*')⟩

end SwiftRuntime

section Rules

/-- The arguments of `findMatchingRule`. -/
structure RuleSearch where
  bundleId : String
  processName : Option String
  destination : String
  port : UInt16
  connectionProtocol : RuleProtocol
  checkIpPort : Bool
  domains : List (List Char)

variable (R : SwiftRuntime) (q : RuleSearch)

def StoredRule.isWildcardProcess (rule : StoredRule) : Bool := rule.processNames == ['*'] || rule.processNames.isEmpty

def StoredRule.hasFilter (rule : StoredRule) : Bool :=
  (rule.targetHosts != ['*'] && !rule.targetHosts.isEmpty) || (rule.targetPorts != ['*'] && !rule.targetPorts.isEmpty)

def RuleSearch.matchesTarget (rule : StoredRule) : Bool :=
  rule.matchesHost R.unicode R.parsers q.destination.toList q.domains && rule.matchesPort R.unicode q.port

/-- The loop over the rules, with the first pure wildcard so far. -/
def RuleSearch.loop : List StoredRule → Option StoredRule → Option StoredRule
  | [], wildcardRule => wildcardRule
  | rule :: rest, wildcardRule =>
    if !rule.enabled then loop rest wildcardRule
    else if rule.ruleProtocol != .both && rule.ruleProtocol != q.connectionProtocol then loop rest wildcardRule
    else if rule.isWildcardProcess then
      if rule.hasFilter then
        if q.checkIpPort && q.matchesTarget R rule then some rule else loop rest wildcardRule
      else loop rest (if wildcardRule.isNone then some rule else wildcardRule)
    else if rule.matchesProcess R.unicode q.bundleId.toList (q.processName.map String.toList) then
      if q.checkIpPort then if q.matchesTarget R rule then some rule else loop rest wildcardRule
      else some rule
    else loop rest wildcardRule

def findMatchingRule (currentRules : List StoredRule) : Option StoredRule := q.loop R currentRules none

end Rules

inductive ProviderItem where
  | kokoroBoxConfiguration
  | storedProxyConfigs
  | rules
  | trafficLoggingEnabled

abbrev ProviderItem.Value : ProviderItem → Type
  | .kokoroBoxConfiguration => Option KokoroBoxConfiguration
  | .storedProxyConfigs => StoredProxyConfigs
  | .rules => List StoredRule
  | .trafficLoggingEnabled => Bool

def Provider.get (s : Provider) : ∀ i : ProviderItem, i.Value
  | .kokoroBoxConfiguration => s.policy.configuration
  | .storedProxyConfigs => s.storedProxyConfigs
  | .rules => s.rules
  | .trafficLoggingEnabled => s.policy.trafficLoggingEnabled

abbrev ProviderProgram (α : Type) := Program ProviderItem.Value α

/-- A flow by the identifier that its application is signed with and the name of its process. -/
structure AppFlow where
  processPath : String
  processName : Option String

inductive RemoteEndpoint where
  | host (hostname port : String)
  /-- Any other endpoint, by its description. -/
  | other (description : String)

structure TCPFlow extends AppFlow where
  remoteEndpoint : RemoteEndpoint

inductive NewFlow where
  | tcp (flow : TCPFlow)
  | udp (flow : AppFlow)

/-- A line of the connection log. -/
structure ConnectionLine where
  proto : String
  process : String
  destination : String
  port : String
  proxy : String
  deriving DecidableEq

inductive FlowDeed where
  | log (line : ConnectionLine)
  | closeRead
  | closeWrite
  | proxyTCPFlow (destination : String) (port : UInt16) (config : StoredProxyConfig)
  /-- Open the flow, and once it is open associate it with a SOCKS5 proxy. -/
  | proxyUDPFlow (displayName socksHost : String) (socksPort : Int) (username password : Option String)
  deriving DecidableEq

/-- What a handler has done, and whether it tells the system that it takes the flow. -/
structure Handled where
  deeds : List FlowDeed
  taken : Bool

def AppFlow.displayName (f : AppFlow) : String := f.processName.getD f.processPath

def AppFlow.line (f : AppFlow) (proxy : String) : ConnectionLine := ⟨"UDP", f.displayName, "unknown", "unknown", proxy⟩

namespace TCPFlow

def destination (f : TCPFlow) : String :=
  match f.remoteEndpoint with
  | .host hostname _ => hostname
  | .other description => description

def portStr (f : TCPFlow) : String :=
  match f.remoteEndpoint with
  | .host _ port => port
  | .other _ => "unknown"

/-- `UInt16(portStr) ?? 0`, and 0 without a port. -/
def portNum (f : TCPFlow) : UInt16 :=
  match f.remoteEndpoint with
  | .host _ port => (uint16 10 port.toList).getD 0
  | .other _ => 0

def line (f : TCPFlow) (proxy : String) : ConnectionLine := ⟨"TCP", f.displayName, f.destination, f.portStr, proxy⟩

end TCPFlow

def sendLogToApp (line : ConnectionLine) : ProviderProgram (List FlowDeed) :=
  .read .trafficLoggingEnabled (fun enabled => .pure (if enabled then [.log line] else []))

/-- Log a line, do the rest and answer. -/
def logAndAnswer (line : ConnectionLine) (deeds : List FlowDeed) (taken : Bool) : ProviderProgram Handled :=
  (sendLogToApp line).bind (fun log => .pure ⟨log ++ deeds, taken⟩)

section Handlers
variable (R : SwiftRuntime)

def proxyLabel (config : StoredProxyConfig) : String :=
  R.uppercased config.type ++ " " ++ config.host ++ ":" ++ toString config.port

/-- The traffic of the application and of its extension would loop. -/
def AppFlow.own (f : AppFlow) : Bool :=
  R.same f.processPath "com.interceptsuite.ProxyBridge" ||
    R.same f.processPath "com.interceptsuite.ProxyBridge.extension"

/-- What the configuration decides, read anew. -/
def AppFlow.decide (f : AppFlow) (connectionProtocol : RuleProtocol) : ProviderProgram (Option KokoroBoxDecision) :=
  .read .kokoroBoxConfiguration (fun configuration =>
    .pure (kokoroBoxDecision R.text R.sorting configuration f.processPath f.processName connectionProtocol))

namespace TCPFlow
variable (f : TCPFlow)

def proxied (config : StoredProxyConfig) : ProviderProgram Handled :=
  logAndAnswer (f.line (proxyLabel R config)) [.proxyTCPFlow f.destination f.portNum config] true

/-- The part of `handleTCPFlow` with a KokoroBox configuration. -/
def handleKokoroBox : ProviderProgram Handled :=
  if isDirectNetworkTarget R.mapping (R.unicode.key f.destination) then .pure ⟨[], false⟩
  else (f.decide R .tcp).bind (fun decision =>
    match decision with
    | none | some .direct => logAndAnswer (f.line "Direct") [] false
    | some .block => logAndAnswer (f.line "BLOCK") [.closeRead, .closeWrite] true
    | some (.proxy configuration) => f.proxied R configuration)

def search : RuleSearch := ⟨f.processPath, f.processName, f.destination, f.portNum, .tcp, true, []⟩

/-- The part of it without one. -/
def handleRules : ProviderProgram Handled :=
  .read .storedProxyConfigs (fun stored =>
    if stored.entries.isEmpty then logAndAnswer (f.line "Direct") [] false
    else .read .rules (fun currentRules =>
      match findMatchingRule R f.search currentRules with
      | none => logAndAnswer (f.line "Direct") [] false
      | some rule =>
        if R.same rule.action "DIRECT" then logAndAnswer (f.line "Direct") [] false
        else if R.same rule.action "BLOCK" then logAndAnswer (f.line "BLOCK") [.closeRead, .closeWrite] true
        else .read .storedProxyConfigs (fun stored =>
          match stored.lookup (R.unicode.key rule.action) with
          | none => logAndAnswer (f.line "Direct") [] false
          | some config => f.proxied R config)))

end TCPFlow

def handleTCPFlow (f : TCPFlow) : ProviderProgram Handled :=
  if f.own R then .pure ⟨[], false⟩
  else .read .kokoroBoxConfiguration (fun configuration =>
    if configuration.isSome then f.handleKokoroBox R else f.handleRules R)

namespace AppFlow
variable (f : AppFlow)

/-- The part of `handleUDPFlow` with a KokoroBox configuration. It gives the proxy no credentials. -/
def handleKokoroBox : ProviderProgram Handled :=
  (f.decide R .udp).bind (fun decision =>
    match decision with
    | none | some .direct => logAndAnswer (f.line "Direct") [] false
    | some .block => logAndAnswer (f.line "BLOCK") [.closeRead, .closeWrite] true
    | some (.proxy configuration) =>
      .pure ⟨[.proxyUDPFlow f.displayName configuration.host configuration.port none none], true⟩)

def isSocks5 (config : StoredProxyConfig) : Bool := R.same (R.lowercased config.type) "socks5"

def search : RuleSearch := ⟨f.processPath, f.processName, "", 0, .udp, false, []⟩

/-- The part of it without one. -/
def handleRules : ProviderProgram Handled :=
  .read .storedProxyConfigs (fun stored =>
    if !stored.entries.any (fun e => isSocks5 R e.2) then .pure ⟨[], false⟩
    else .read .rules (fun currentRules =>
      match findMatchingRule R f.search currentRules with
      | none => logAndAnswer (f.line "Direct") [] false
      | some rule =>
        if R.same rule.action "DIRECT" then logAndAnswer (f.line "Direct") [] false
        else if R.same rule.action "BLOCK" then logAndAnswer (f.line "BLOCK") [.closeRead, .closeWrite] true
        else .read .storedProxyConfigs (fun stored =>
          match stored.lookup (R.unicode.key rule.action) with
          | none => .pure ⟨[], false⟩
          | some config =>
            if isSocks5 R config then
              .pure ⟨[.proxyUDPFlow f.displayName config.host config.port config.username config.password], true⟩
            else .pure ⟨[], false⟩)))

end AppFlow

/-- The own traffic is exempt only from the rules. -/
def handleUDPFlow (f : AppFlow) : ProviderProgram Handled :=
  .read .kokoroBoxConfiguration (fun configuration =>
    if configuration.isSome then f.handleKokoroBox R
    else if f.own R then .pure ⟨[], false⟩
    else f.handleRules R)

/-- A flow of any other class is not taken. -/
def handleNewFlow : Option NewFlow → ProviderProgram Handled
  | some (.tcp flow) => handleTCPFlow R flow
  | some (.udp flow) => handleUDPFlow R flow
  | none => .pure ⟨[], false⟩

end Handlers
end ProxyBridge.MacOS
