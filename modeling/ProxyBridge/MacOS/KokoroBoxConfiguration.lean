import Mathlib.Data.List.Basic

/-! The KokoroBox routing configuration of the macOS extension and the checks that it passes before
it is installed. -/
namespace ProxyBridge.MacOS

inductive RuleProtocol where
  | tcp
  | udp
  | both
  deriving DecidableEq, Repr

inductive KokoroBoxIdentifierKind where
  | signingIdentifier
  | processName
  deriving DecidableEq, Repr

def KokoroBoxIdentifierKind.rawValue : KokoroBoxIdentifierKind → String
  | .signingIdentifier => "SIGNING_IDENTIFIER"
  | .processName => "PROCESS_NAME"

structure KokoroBoxRule where
  signingIdentifier : String
  identifierKind : Option KokoroBoxIdentifierKind
  ruleProtocol : RuleProtocol
  action : String
  enabled : Bool
  priority : Int
  deriving DecidableEq, Repr

structure KokoroBoxConfiguration where
  version : Int
  failClosed : Bool
  proxyAvailable : Bool
  proxyHost : String
  proxyPort : Int
  proxyUdpDns : Bool
  dnsHost : String
  dnsPort : Int
  diagnosticLogging : Bool
  rules : List KokoroBoxRule
  deriving DecidableEq, Repr

def validRuleIdentifier (value : String) (kind : KokoroBoxIdentifierKind) : Bool :=
  !value.isEmpty && value != "*" && decide (value.utf8ByteSize ≤ 512) &&
    value.toList.all fun c =>
      let printable :=
        if kind == .processName then decide (0x20 ≤ c.toNat) && c.toNat != 0x7f
        else decide (0x21 ≤ c.toNat) && decide (c.toNat ≤ 0x7e)
      printable && !";,?\\/\"".toList.contains c

section Validation
variable (lowercased : String → String)

/-- The loop over the rules, with the priorities and identifiers that were inserted so far. Strings stand for
their canonical forms, by which Swift compares them. -/
def validRules : List Int → List String → List KokoroBoxRule → Bool
  | _, _, [] => true
  | priorities, identifiers, rule :: rules =>
    let identifierKind := rule.identifierKind.getD .signingIdentifier
    let identifier := identifierKind.rawValue ++ ":" ++ lowercased rule.signingIdentifier
    validRuleIdentifier rule.signingIdentifier identifierKind &&
      ["PROXY", "DIRECT", "BLOCK"].contains rule.action &&
      decide (0 < rule.priority) && decide (rule.priority ≤ 256) &&
      !priorities.contains rule.priority && !identifiers.contains identifier &&
      validRules (rule.priority :: priorities) (identifier :: identifiers) rules

/-- The configuration that the data decode to, if it is valid; strings again stand for canonical forms. -/
def validatedKokoroBoxConfiguration (decoded : Option KokoroBoxConfiguration) : Option KokoroBoxConfiguration :=
  decoded.filter fun configuration =>
    configuration.version == 1 && configuration.failClosed &&
      configuration.proxyHost == "127.0.0.1" && configuration.proxyPort == 7891 &&
      configuration.dnsHost == "127.0.0.1" && configuration.dnsPort == 7892 &&
      decide (configuration.rules.length ≤ 256) && validRules lowercased [] [] configuration.rules

end Validation
end ProxyBridge.MacOS
