import ProxyBridge.Library.CStrings
import ProxyBridge.Windows.Types

/-! The matchers of `pb_rules.c` for the text filters of a rule: hosts, ports, processes and
domains. `malloc` says whether an allocation of that many bytes succeeds, and `inetPton` is the
address parser of the system. -/
namespace ProxyBridge.Windows
open CStrings

def maxListSize : Nat := 65536

/-- The filter text that restricts nothing. -/
def wildcard : List UInt8 := lit ['*']

def isBlank (c : UInt8) : Bool := c == byte ' ' || c == byte '\t'

def skipWhitespace (s : List UInt8) : List UInt8 := s.dropWhile isBlank

def trimEnd (s : List UInt8) : List UInt8 := s.rdropWhile isBlank

/-- The writable copy that `strtok_s` needs: on the stack if it is short, or else on the heap. -/
def listCopy (malloc : Nat → Bool) (list : List UInt8) : Option (List UInt8) :=
  let len := min list.length maxListSize + 1
  if len ≤ 256 then some (strncpyTruncate 256 list)
  else if malloc len then some (strncpyTruncate len list)
  else none

def parseTokenList (malloc : Nat → Bool) (list delimiters : List UInt8) (matchFunc : List UInt8 → Bool) : Bool :=
  list.isEmpty || list == wildcard ||
    match listCopy malloc list with
    | none => false
    | some copy => (strtok delimiters copy).any (fun token => matchFunc (skipWhitespace token))

/-- `sscanf_s(s, "%d.%d.%d.%d", ..) == 4`, with the four numbers packed as an address; of a number beyond
`int` the low half is kept. -/
def scanIpv4 (s : List UInt8) : Option UInt32 := do
  let (a, s) ← scanInt s
  let (b, s) ← scanInt (← scanByte (byte '.') s)
  let (c, s) ← scanInt (← scanByte (byte '.') s)
  let (d, _) ← scanInt (← scanByte (byte '.') s)
  return UInt32.ofInt a ||| UInt32.ofInt b <<< 8 ||| UInt32.ofInt c <<< 16 ||| UInt32.ofInt d <<< 24

def toBigEndian (ip : UInt32) : UInt32 :=
  (ip &&& 0xFF) <<< 24 ||| (ip &&& 0xFF00) <<< 8 ||| (ip &&& 0xFF0000) >>> 8 ||| (ip &&& 0xFF000000) >>> 24

def ipOctets (ip : UInt32) : List UInt32 :=
  [ip &&& 0xFF, (ip >>> 8) &&& 0xFF, (ip >>> 16) &&& 0xFF, (ip >>> 24) &&& 0xFF]

/-- At most four items of at most 15 bytes; whatever follows the fourth is ignored. -/
def patternOctets (pattern : List UInt8) : List (List UInt8) :=
  (((strncpyTruncate 256 pattern).splitOnP (· == byte '.')).take 4).map (·.take 15)

def matchIpPattern (pattern : List UInt8) (ip : UInt32) : Bool :=
  if pattern == wildcard then true
  else if pattern.contains (byte '-') then
    let start := pattern.takeWhile (· != byte '-')
    if start.length ≥ 64 then false
    else
      match scanIpv4 start, scanIpv4 (strncpyTruncate 64 (afterFirst (byte '-') pattern)) with
      | some startIp, some endIp =>
        decide (toBigEndian ip ≥ toBigEndian startIp) && decide (toBigEndian ip ≤ toBigEndian endIp)
      | _, _ => false
  else
    let octets := patternOctets pattern
    octets.length == 4 && (octets.zip (ipOctets ip)).all (fun (item, octet) =>
      item == wildcard || atoi item == octet.toNat)

def matchPortPattern (pattern : List UInt8) (port : UInt16) : Bool :=
  if pattern == wildcard then true
  else if pattern.contains (byte '-') then
    decide (port.toNat ≥ atoi pattern) && decide (port.toNat ≤ atoi (afterFirst (byte '-') pattern))
  else port.toNat == atoi pattern

def matchIpList (malloc : Nat → Bool) (ipList : List UInt8) (ip : UInt32) : Bool :=
  parseTokenList malloc ipList (lit [';']) (matchIpPattern · ip)

/-- The comparison of `ip6` with the first `prefixLen` bits of `network`. -/
def samePrefix (ip6 network : Ip6) (prefixLen : Nat) : Bool :=
  let fullBytes := prefixLen / 8
  let remBits := prefixLen % 8
  let mask : UInt8 := (0xFF : UInt8) <<< (8 - remBits).toUInt8
  ip6.toList.take fullBytes == network.toList.take fullBytes &&
    (remBits == 0 || (ip6.toList.getD fullBytes 0 &&& mask) == (network.toList.getD fullBytes 0 &&& mask))

def matchIpPatternV6 (inetPton : List UInt8 → Option Ip6) (pattern : List UInt8) (ip6 : Ip6) : Bool :=
  let patCopy := strncpyTruncate 128 pattern
  if pattern == wildcard then true
  else if !pattern.contains (byte ':') then false
  else if patCopy.contains (byte '/') then
    let prefixLen := atoi (afterFirst (byte '/') patCopy)
    if prefixLen < 0 ∨ prefixLen > 128 then false
    else
      match inetPton (patCopy.takeWhile (· != byte '/')) with
      | none => false
      | some network => samePrefix ip6 network prefixLen.toNat
  else if patCopy.contains (byte '-') then
    match inetPton (patCopy.takeWhile (· != byte '-')), inetPton (afterFirst (byte '-') patCopy) with
    | some start6, some end6 => decide (start6.toList ≤ ip6.toList) && decide (ip6.toList ≤ end6.toList)
    | _, _ => false
  else inetPton pattern == some ip6

def matchIpListV6 (malloc : Nat → Bool) (inetPton : List UInt8 → Option Ip6) (ipList : List UInt8) (ip6 : Ip6) :
    Bool :=
  parseTokenList malloc ipList (lit [';']) (matchIpPatternV6 inetPton · ip6)

def matchPortList (malloc : Nat → Bool) (portList : List UInt8) (port : UInt16) : Bool :=
  parseTokenList malloc portList (lit [',', ';']) (matchPortPattern · port)

/-- The non-empty suffixes of the text are the positions that the inner loop tries. -/
def wildcardMatch (pattern text : List UInt8) : Bool :=
  match pattern, text with
  | pattern, [] => (pattern.dropWhile (· == byte '*')).isEmpty
  | [], _ :: _ => false
  | p :: pattern, c :: text =>
    if p == byte '*' then
      let pattern' := pattern.dropWhile (· == byte '*')
      pattern'.isEmpty || ((c :: text).tails.filter (fun t => !t.isEmpty)).any (fun t => wildcardMatch pattern' t)
    else if toLower p != toLower c then false
    else wildcardMatch pattern text
termination_by pattern.length
decreasing_by
  · simp only [List.length_cons]
    have := (List.dropWhile_suffix (l := pattern) (fun x => x == byte '*')).length_le
    omega
  · simp

def matchProcessPattern (pattern processFullPath : List UInt8) : Bool :=
  if pattern == wildcard then true
  else
    let isFullPathPattern := pattern.contains (byte '\\') || pattern.contains (byte '/')
    let matchTarget := if isFullPathPattern then processFullPath else afterLast (byte '\\') processFullPath
    if pattern.contains (byte '*') then wildcardMatch pattern matchTarget else stricmpEq pattern matchTarget

/-- A list item without blanks around it and without quotes. -/
def unquote (token : List UInt8) : List UInt8 :=
  if token.head? == some (byte '"') && decide (token.length > 1) then token.tail.takeWhile (· != byte '"')
  else token

def matchProcessList (malloc : Nat → Bool) (processList processName : List UInt8) : Bool :=
  processList.isEmpty || processList == wildcard ||
    match listCopy malloc processList with
    | none => false
    | some copy => (strtok (lit [',', ';']) copy).any (fun token =>
        matchProcessPattern (unquote (trimEnd (skipWhitespace token))) processName)

def matchDomainPattern (pattern domain : List UInt8) : Bool :=
  if pattern.isEmpty || pattern == wildcard then true
  else if domain.isEmpty then false
  else
    let apex := pattern.take 2 == lit ['*', '.'] && decide (pattern.length > 2) && stricmpEq (pattern.drop 2) domain
    apex || if pattern.contains (byte '*') then wildcardMatch pattern domain else stricmpEq pattern domain

def matchDomainList (malloc : Nat → Bool) (domainList : List UInt8) (domain : Option (List UInt8)) : Bool :=
  domainList.isEmpty || domainList == wildcard ||
    match domain with
    | none | some [] => false
    | some domain =>
      match listCopy malloc domainList with
      | none => false
      | some copy => (strtok (lit [',', ';']) copy).any (fun token =>
          let token := trimEnd (skipWhitespace token)
          !token.isEmpty && matchDomainPattern token domain)

end ProxyBridge.Windows
