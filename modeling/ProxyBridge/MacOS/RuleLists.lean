import ProxyBridge.Handshake.Socks5Udp
import ProxyBridge.MacOS.DirectTargets
import ProxyBridge.MacOS.GlobMatch

/-! The process, host and port lists of a macOS rule. A list is cut at its separators, which leaves
an empty item where two of them meet, and an empty item is a pattern that matches everything. -/
namespace ProxyBridge.MacOS
open CStrings Handshake

/-- What Swift knows about the scalars of a string: its grapheme clusters, the character that a
cluster is up to canonical equivalence, and lower case. -/
structure UnicodeData where
  clusters : List Char → List (List Char)
  character : List Char → Character
  lowercaseMapping : Char → List Char
  flatten_clusters : ∀ s, (clusters s).flatten = s
  cluster_nonempty : ∀ {s cluster}, cluster ∈ clusters s → cluster ≠ []
  character_ascii : ∀ c : Char, c.val < 128 → character [c] = .ascii (byte c)

section Strings

def spaceSeparator (c : Char) : Bool :=
  c.val == 0x20 || c.val == 0xa0 || c.val == 0x1680 || (0x2000 ≤ c.val && c.val ≤ 0x200a) || c.val == 0x202f ||
    c.val == 0x205f || c.val == 0x3000

/-- The character set `.whitespaces`. -/
def whitespaces (c : Char) : Bool := spaceSeparator c || c.val == 0x09

/-- The character set `.whitespacesAndNewlines`. -/
def whitespacesAndNewlines (c : Char) : Bool :=
  whitespaces c || (0x0a ≤ c.val && c.val ≤ 0x0d) || c.val == 0x85 || c.val == 0x2028 || c.val == 0x2029

def trimmingCharacters (set : Char → Bool) (s : List Char) : List Char :=
  ((s.dropWhile set).reverse.dropWhile set).reverse

/-- `components(separatedBy:)` of a character set, which looks at the scalars. -/
def componentsSeparatedBySet (set : List Char) (s : List Char) : List (List Char) := s.splitOnP set.contains

def lastPathComponent (path : List Char) : List Char :=
  let trimmed := path.reverse.dropWhile (· == '/')
  if trimmed.isEmpty then path.take 1 else (trimmed.takeWhile (· != '/')).reverse

/-- The value of a digit in radix 10 or 16. -/
def digitValue (radix : Nat) (c : Char) : Option Nat :=
  let value :=
    if '0' ≤ c ∧ c ≤ '9' then some (c.toNat - 48)
    else if 'a' ≤ c ∧ c ≤ 'f' then some (c.toNat - 87)
    else if 'A' ≤ c ∧ c ≤ 'F' then some (c.toNat - 55)
    else none
  value.filter (· < radix)

def magnitude (radix : Nat) (digits : List Char) : Option Nat :=
  if digits.isEmpty then none else digits.foldlM (fun n c => (digitValue radix c).map (n * radix + ·)) 0

/-- `UInt16(_:radix:)` of a text: a sign or none, and digits of a value that fits. -/
def uint16 (radix : Nat) (text : List Char) : Option UInt16 :=
  let negative := text.head? == some '-'
  let digits := if negative || text.head? == some '+' then text.tail else text
  ((magnitude radix digits).filter (· ≤ if negative then 0 else 65535)).map (·.toUInt16)

end Strings

namespace UnicodeData
variable (u : UnicodeData)

def characters (s : List Char) : List Character := (u.clusters s).map u.character

def lowercased (s : List Char) : List Char := s.flatMap u.lowercaseMapping

def contains (s : List Char) (c : Char) : Bool := (u.characters s).contains (.ascii (byte c))

/-- `components(separatedBy:)` of a string of one character. -/
def componentsSeparatedBy (separator : Char) (s : List Char) : List (List Char) :=
  ((u.clusters s).splitOnP (fun cluster => u.character cluster == .ascii (byte separator))).map List.flatten

end UnicodeData

/-- The lists of a rule, by their scalars. -/
structure ProxyRule where
  processNames : List Char
  targetHosts : List Char
  targetPorts : List Char

namespace ProxyRule
section Patterns
variable (u : UnicodeData) (P : AddressParsers)

/-- `globMatch` of two strings. The loop always comes to an end. -/
def globMatches (pattern text : List Char) : Bool :=
  globMatch (.ascii (byte '*')) (u.characters pattern) (u.characters text) == some true

/-- No other string is canonically equivalent to `*`. -/
def matchProcessPattern (pattern processPath filename : List Char) : Bool :=
  if pattern.isEmpty || pattern == ['*'] then true
  else
    let isFullPathPattern := u.contains pattern '/' || u.contains pattern '\\'
    let matchTarget := if isFullPathPattern then processPath else filename
    globMatches u (u.lowercased pattern) (u.lowercased matchTarget)

def ipToBytes (ipString : List Char) : Option (List UInt8) :=
  match P.ipv4Address (String.ofList ipString) with
  | some v4 => some v4.toList
  | none => (P.ipv6Address (String.ofList ipString)).map Vector.toList

def compareBytes : List UInt8 → List UInt8 → Int
  | x :: a, y :: b => if x != y then (if x < y then -1 else 1) else compareBytes a b
  | _, _ => 0

def expandIPv6 (ipString : List Char) : Option (List String) :=
  (P.ipv6Address (String.ofList ipString)).map fun bytes =>
    (List.range 8).map fun k => hexadecimal (wordAt bytes.toList (k * 2)).toNat

/-- The loop over the hextets in front of the star. -/
def matchGroups (target : List String) : Nat → List (List Char) → Bool
  | _, [] => true
  | i, g :: groups =>
    if i < 8 && !g.isEmpty then
      match uint16 16 g with
      | some value => if hexadecimal value.toNat != target.getD i "" then false else matchGroups target (i + 1) groups
      | none => false
    else false

def matchIPv6Pattern (pattern ipString : List Char) : Bool :=
  if (u.characters pattern).getLast? == some (.ascii (byte '*')) then
    match expandIPv6 P ipString with
    | some target =>
      let pieces := (u.clusters (u.lowercased pattern)).dropLast.splitOnP
        (fun cluster => u.character cluster == .ascii (byte ':'))
      let groups := pieces.map List.flatten
      matchGroups target 0 (if groups.getLast? == some [] then groups.dropLast else groups)
    | none => false
  else
    match ipToBytes P pattern, ipToBytes P ipString with
    | some p, some t => p == t
    | _, _ => false

/-- A range such as `10.0.0.1-10.0.0.254`, cut at the dash. -/
def matchIPRange (parts : List (List Char)) (ipString : List Char) : Bool :=
  match parts with
  | [first, second] =>
    match ipToBytes P (trimmingCharacters whitespaces first), ipToBytes P (trimmingCharacters whitespaces second),
      ipToBytes P ipString with
    | some lo, some hi, some target =>
      if lo.length = hi.length ∧ target.length = lo.length then
        decide (compareBytes target lo ≥ 0) && decide (compareBytes target hi ≤ 0)
      else false
    | _, _, _ => false
  | _ => false

def matchIPPattern (pattern ipString : List Char) : Bool :=
  if pattern.isEmpty || pattern == ['*'] then true
  else if u.contains pattern '-' then matchIPRange P (u.componentsSeparatedBy '-' pattern) ipString
  else if u.contains pattern ':' then matchIPv6Pattern u P pattern ipString
  else
    let patternOctets := u.componentsSeparatedBy '.' pattern
    let ipOctets := u.componentsSeparatedBy '.' ipString
    if patternOctets.length ≠ 4 ∨ ipOctets.length ≠ 4 then false
    else (patternOctets.zip ipOctets).all fun octets =>
      octets.1 == ['*'] || u.characters octets.1 == u.characters octets.2

def matchPortPattern (pattern : List Char) (port : UInt16) : Bool :=
  if pattern.isEmpty || pattern == ['*'] then true
  else
    let isDash := fun cluster => u.character cluster == .ascii (byte '-')
    if u.contains pattern '-' then
      let startStr := ((u.clusters pattern).takeWhile (!isDash ·)).flatten
      let endStr := ((u.clusters pattern).dropWhile (!isDash ·)).tail.flatten
      match uint16 10 startStr, uint16 10 endStr with
      | some first, some last => decide (port ≥ first) && decide (port ≤ last)
      | _, _ => false
    else
      match uint16 10 pattern with
      | some patternPort => port == patternPort
      | none => false

/-- What `matchesHost` asks of an item that is not empty. -/
def matchHostPattern (pattern ip : List Char) (domains : List (List Char)) : Bool :=
  if matchIPPattern u P pattern ip then true
  else
    let lowered := u.lowercased pattern
    let apex :=
      if (ascii (lit ['*', '.'])).isPrefixOf (u.characters lowered) then some (((u.clusters lowered).drop 2).flatten)
      else none
    domains.any fun domain =>
      globMatches u lowered domain || apex.any (fun apex => u.characters domain == u.characters apex)

end Patterns

/-- The loop of `matchProcessList`, `matchIPList` and `matchPortList`. -/
def matchItems (components : List Char → List (List Char)) (matchPattern : List Char → Bool) (list : List Char) :
    Bool :=
  if list.isEmpty || list == ['*'] then true
  else (components list).any fun pattern => matchPattern (trimmingCharacters whitespacesAndNewlines pattern)

section Lists
variable (u : UnicodeData) (P : AddressParsers)

def matchProcessList (processList processPath : List Char) : Bool :=
  let filename := lastPathComponent processPath
  matchItems (componentsSeparatedBySet [',', ';']) (fun trimmed => matchProcessPattern u trimmed processPath filename)
    processList

def matchIPList (ipList ipString : List Char) : Bool :=
  matchItems (u.componentsSeparatedBy ';') (fun trimmed => matchIPPattern u P trimmed ipString) ipList

def matchPortList (portList : List Char) (port : UInt16) : Bool :=
  matchItems (componentsSeparatedBySet [',', ';']) (fun trimmed => matchPortPattern u trimmed port) portList

variable (r : ProxyRule)

def matchesProcess (bundleId : List Char) (processName : Option (List Char)) : Bool :=
  if matchProcessList u r.processNames bundleId then true
  else
    match processName with
    | some procName => matchProcessList u r.processNames procName
    | none => false

def matchesIP (ipString : List Char) : Bool := matchIPList u P r.targetHosts ipString

def matchesHost (ip : List Char) (domains : List (List Char)) : Bool :=
  if r.targetHosts.isEmpty || r.targetHosts == ['*'] then true
  else (u.componentsSeparatedBy ';' r.targetHosts).any fun raw =>
    let pattern := trimmingCharacters whitespacesAndNewlines raw
    if pattern.isEmpty then false else matchHostPattern u P pattern ip domains

def matchesPort (port : UInt16) : Bool := matchPortList u r.targetPorts port

end Lists
end ProxyRule

/-! What a list is for: it matches if one of its items does. -/

/-- The items of a list, without the blanks around them. -/
def itemsOfList (components : List Char → List (List Char)) (list : List Char) : List (List Char) :=
  (components list).map (trimmingCharacters whitespacesAndNewlines)

def HasItem (items : List (List Char)) : Prop := ∃ item ∈ items, item ≠ []

def SomeItem (items : List (List Char)) (matchPattern : List Char → Bool) : Prop :=
  ∃ item ∈ items, item ≠ [] ∧ matchPattern item = true

/-- An empty item among others does no harm where one of the others matches. -/
def EmptyHarmless (items : List (List Char)) (matchPattern : List Char → Bool) : Prop :=
  HasItem items → [] ∈ items → SomeItem items matchPattern

namespace ProxyRule
variable (u : UnicodeData) (P : AddressParsers) (r : ProxyRule)

def matchesProcessItem (bundleId : List Char) (processName : Option (List Char)) (item : List Char) : Bool :=
  matchProcessPattern u item bundleId (lastPathComponent bundleId) ||
    processName.any fun procName => matchProcessPattern u item procName (lastPathComponent procName)

def processItems : List (List Char) := itemsOfList (componentsSeparatedBySet [',', ';']) r.processNames

def hostItems : List (List Char) := itemsOfList (u.componentsSeparatedBy ';') r.targetHosts

def portItems : List (List Char) := itemsOfList (componentsSeparatedBySet [',', ';']) r.targetPorts

/-- Each list that has an item which is not empty matches by such items only. -/
structure MatchesByItems (bundleId : List Char) (processName : Option (List Char)) (ip : List Char)
    (domains : List (List Char)) (port : UInt16) : Prop where
  process : HasItem r.processItems →
    (r.matchesProcess u bundleId processName = true ↔
      SomeItem r.processItems (matchesProcessItem u bundleId processName))
  host : HasItem (r.hostItems u) →
    (r.matchesHost u P ip domains = true ↔
      SomeItem (r.hostItems u) (fun item => matchHostPattern u P item ip domains))
  ip : HasItem (r.hostItems u) →
    (r.matchesIP u P ip = true ↔ SomeItem (r.hostItems u) (fun item => matchIPPattern u P item ip))
  port : HasItem r.portItems →
    (r.matchesPort u port = true ↔ SomeItem r.portItems (fun item => matchPortPattern u item port))

end ProxyRule

section Components
variable (u : UnicodeData)

theorem UnicodeData.clusters_nil : u.clusters [] = [] := by
  have hflat := u.flatten_clusters []
  cases h : u.clusters [] with
  | nil => rfl
  | cons cluster rest =>
    have hne := u.cluster_nonempty (h ▸ List.mem_cons_self : cluster ∈ u.clusters [])
    rw [h, List.flatten_cons] at hflat
    exact absurd (List.append_eq_nil_iff.mp hflat).1 hne

/-- A single scalar is a cluster by itself. -/
theorem UnicodeData.clusters_singleton (c : Char) : u.clusters [c] = [[c]] := by
  have hflat := u.flatten_clusters [c]
  have hne : ∀ cluster ∈ u.clusters [c], cluster ≠ [] := fun _ h => u.cluster_nonempty h
  cases h : u.clusters [c] with
  | nil =>
    rw [h] at hflat
    exact absurd hflat.symm (List.cons_ne_nil c [])
  | cons first rest =>
    rw [h] at hflat hne
    rw [List.flatten_cons] at hflat
    rcases List.append_eq_singleton_iff.mp hflat with ⟨hfirst, _⟩ | ⟨rfl, hrest⟩
    · exact absurd hfirst (hne first List.mem_cons_self)
    · cases rest with
      | nil => rfl
      | cons second rest =>
        rw [List.flatten_cons] at hrest
        exact absurd (List.append_eq_nil_iff.mp hrest).1
          (hne second (List.mem_cons_of_mem _ List.mem_cons_self))

theorem UnicodeData.componentsSeparatedBy_nil (separator : Char) : u.componentsSeparatedBy separator [] = [[]] := by
  rw [componentsSeparatedBy, u.clusters_nil]
  rfl

theorem UnicodeData.componentsSeparatedBy_star : u.componentsSeparatedBy ';' ['*'] = [['*']] := by
  have hstar : u.character ['*'] ≠ .ascii (byte ';') := by
    rw [u.character_ascii '*' (by decide)]
    decide
  rw [componentsSeparatedBy, u.clusters_singleton, List.splitOnP_eq_singleton]
  · rfl
  · simpa using hstar

end Components

section Items
variable {components : List Char → List (List Char)} {matchPattern : List Char → Bool}

theorem any_items_iff (hempty : matchPattern [] = true) (items : List (List Char)) :
    items.any matchPattern = true ↔ [] ∈ items ∨ SomeItem items matchPattern := by
  rw [List.any_eq_true]
  constructor
  · rintro ⟨item, hmem, h⟩
    by_cases hitem : item = []
    · exact .inl (hitem ▸ hmem)
    · exact .inr ⟨item, hmem, hitem, h⟩
  · rintro (hmem | ⟨item, hmem, _, h⟩)
    · exact ⟨[], hmem, hempty⟩
    · exact ⟨item, hmem, h⟩

/-- A list with nothing but a star is one item. -/
theorem itemsOfList_star (hstar : components ['*'] = [['*']]) : itemsOfList components ['*'] = [['*']] := by
  rw [itemsOfList, hstar]
  decide

theorem not_hasItem_nil (hnil : components [] = [[]]) : ¬ HasItem (itemsOfList components []) := by
  rw [itemsOfList, hnil]
  rintro ⟨item, hmem, hne⟩
  exact hne (List.mem_singleton.mp hmem)

/-- The loop matches by the items that are not empty exactly where an empty one does no harm. -/
theorem matchItems_iff (matchPattern : List Char → Bool) (hnil : components [] = [[]])
    (hstar : components ['*'] = [['*']]) (hempty : matchPattern [] = true) (hany : matchPattern ['*'] = true)
    (list : List Char) :
    (HasItem (itemsOfList components list) →
      (ProxyRule.matchItems components matchPattern list = true ↔
        SomeItem (itemsOfList components list) matchPattern)) ↔
      EmptyHarmless (itemsOfList components list) matchPattern := by
  refine imp_congr_right fun hitem => ?_
  have hne : list ≠ [] := by
    rintro rfl
    exact not_hasItem_nil hnil hitem
  by_cases hlist : list = ['*']
  · subst hlist
    have hsome : SomeItem (itemsOfList components ['*']) matchPattern := by
      rw [itemsOfList_star hstar]
      exact ⟨['*'], List.mem_singleton.mpr rfl, List.cons_ne_nil _ _, hany⟩
    exact ⟨fun _ _ => hsome, fun _ => iff_of_true rfl hsome⟩
  · have hloop : ProxyRule.matchItems components matchPattern list =
        (itemsOfList components list).any matchPattern := by
      rw [ProxyRule.matchItems, if_neg (by simp [hne, hlist]), itemsOfList, List.any_map]
      rfl
    rw [hloop, any_items_iff hempty, or_iff_right_iff_imp]

theorem matchItems_or (first second : List Char → Bool) (list : List Char) :
    (ProxyRule.matchItems components first list || ProxyRule.matchItems components second list) =
      ProxyRule.matchItems components (fun item => first item || second item) list := by
  rw [ProxyRule.matchItems, ProxyRule.matchItems, ProxyRule.matchItems]
  split
  · rfl
  · induction components list with
    | nil => rfl
    | cons item rest ih =>
      simp only [List.any_cons, ← ih]
      ac_rfl

end Items

namespace ProxyRule
variable (u : UnicodeData) (P : AddressParsers) (r : ProxyRule)

theorem matchesProcess_eq (bundleId : List Char) (processName : Option (List Char)) :
    r.matchesProcess u bundleId processName =
      matchItems (componentsSeparatedBySet [',', ';']) (matchesProcessItem u bundleId processName) r.processNames := by
  cases processName with
  | none =>
    have hitem : matchesProcessItem u bundleId none =
        fun item => matchProcessPattern u item bundleId (lastPathComponent bundleId) := by
      funext item
      exact Bool.or_false _
    rw [matchesProcess, matchProcessList, hitem]
    simp
  | some procName =>
    rw [matchesProcess, matchProcessList, matchProcessList]
    simp only [Bool.if_true_left, Bool.decide_eq_true, matchItems_or]
    rfl

/-- The loop of `matchesHost` skips what is empty. -/
theorem matchesHost_iff (ip : List Char) (domains : List (List Char)) (hitem : HasItem (r.hostItems u)) :
    r.matchesHost u P ip domains = true ↔
      SomeItem (r.hostItems u) (fun item => matchHostPattern u P item ip domains) := by
  have hne : r.targetHosts ≠ [] := by
    intro h
    rw [hostItems, h] at hitem
    exact not_hasItem_nil (u.componentsSeparatedBy_nil ';') hitem
  by_cases hlist : r.targetHosts = ['*']
  · refine iff_of_true (by rw [matchesHost, if_pos (by simp [hlist])]) ?_
    rw [hostItems, hlist, itemsOfList_star u.componentsSeparatedBy_star]
    exact ⟨['*'], List.mem_singleton.mpr rfl, List.cons_ne_nil _ _, by simp [matchHostPattern, matchIPPattern]⟩
  · rw [matchesHost, if_neg (by simp [hne, hlist]), List.any_eq_true]
    simp [SomeItem, hostItems, itemsOfList]

end ProxyRule

/-- A rule matches by the items of its lists exactly where no empty item of the process list, of the
host list asked for an address, or of the port list takes part. Host lists asked for domains skip
empty items. -/
theorem rule_lists_match_by_items_iff (u : UnicodeData) (P : AddressParsers) (r : ProxyRule) (bundleId : List Char)
    (processName : Option (List Char)) (ip : List Char) (domains : List (List Char)) (port : UInt16) :
    r.MatchesByItems u P bundleId processName ip domains port ↔
      EmptyHarmless r.processItems (ProxyRule.matchesProcessItem u bundleId processName) ∧
      EmptyHarmless (r.hostItems u) (fun item => ProxyRule.matchIPPattern u P item ip) ∧
      EmptyHarmless r.portItems (fun item => ProxyRule.matchPortPattern u item port) := by
  have hprocess : (HasItem r.processItems → _) ↔ _ :=
    matchItems_iff (ProxyRule.matchesProcessItem u bundleId processName) rfl rfl rfl rfl r.processNames
  have hip : (HasItem (r.hostItems u) → _) ↔ _ :=
    matchItems_iff (fun item => ProxyRule.matchIPPattern u P item ip) (u.componentsSeparatedBy_nil ';')
      u.componentsSeparatedBy_star rfl rfl r.targetHosts
  have hport : (HasItem r.portItems → _) ↔ _ :=
    matchItems_iff (fun item => ProxyRule.matchPortPattern u item port) rfl rfl rfl rfl r.targetPorts
  rw [← r.matchesProcess_eq] at hprocess
  constructor
  · intro h
    exact ⟨hprocess.mp h.process, hip.mp h.ip, hport.mp h.port⟩
  · rintro ⟨h, h', h''⟩
    exact ⟨hprocess.mpr h, r.matchesHost_iff u P ip domains, hip.mpr h', hport.mpr h''⟩

/-- Unicode where every scalar is a cluster, which it is in the texts below. -/
def asciiData : UnicodeData where
  clusters s := s.map ([·])
  character
    | [c] => if c.val < 128 then .ascii (byte c) else .cluster [c]
    | cluster => .cluster cluster
  lowercaseMapping c := [c.toLower]
  flatten_clusters s := by
    induction s with
    | nil => rfl
    | cons c s ih => simpa using ih
  cluster_nonempty h := by
    obtain ⟨c, _, rfl⟩ := List.mem_map.mp h
    exact List.cons_ne_nil c []
  character_ascii c h := if_pos h

/-- The port list `80;` matches every port. -/
theorem port_list_trailing_separator_matches :
    let r : ProxyRule := ⟨['*'], ['*'], ['8', '0', ';']⟩
    ¬ r.MatchesByItems asciiData ⟨fun _ => none, fun _ => none, fun _ => none⟩ [] none [] [] 443 := by
  intro r h
  have hitems : r.portItems = [['8', '0'], []] := by decide
  have hport := h.port (hitems ▸ ⟨['8', '0'], List.mem_cons_self, List.cons_ne_nil _ _⟩)
  obtain ⟨item, hmem, hne, hmatch⟩ := hport.mp (by decide)
  rw [hitems] at hmem
  rcases List.mem_cons.mp hmem with rfl | hmem
  · exact absurd hmatch (by decide)
  · exact hne (List.mem_singleton.mp hmem)

end ProxyBridge.MacOS
