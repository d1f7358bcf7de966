import ProxyBridge.Windows.DnsSnoop

/-! The CONNECT request that `http_connect` and `http_connect_v6` send, whose host may come from the
DNS snoop. `inetNtop` is the address printer of the system. -/
namespace ProxyBridge.Handshake
open CStrings Windows

/-- `format_ip_address`. -/
def formatIpAddress (ip : UInt32) : List UInt8 :=
  let octet (shift : UInt32) := showDecimal 3 ((ip >>> shift) &&& 0xFF).toNat
  octet 0 ++ byte '.' :: octet 8 ++ byte '.' :: octet 16 ++ byte '.' :: octet 24

/-- The request for a host and port, as `snprintf` writes it. -/
def connectRequest (hostPart : List UInt8) (destPort : UInt16) : List UInt8 :=
  let target := hostPart ++ byte ':' :: showDecimal 5 destPort.toNat
  lit ['C', 'O', 'N', 'N', 'E', 'C', 'T', ' '] ++ target ++
  lit [' ', 'H', 'T', 'T', 'P', '/', '1', '.', '1', '\r', '\n'] ++
  lit ['H', 'o', 's', 't', ':', ' '] ++ target ++ lit ['\r', '\n'] ++
  lit ['P', 'r', 'o', 'x', 'y', '-', 'C', 'o', 'n', 'n', 'e', 'c', 't', 'i', 'o', 'n', ':', ' ',
    'k', 'e', 'e', 'p', '-', 'a', 'l', 'i', 'v', 'e', '\r', '\n'] ++
  lit ['\r', '\n']

section Requests
variable (caches : DnsCaches) (sendDomainToProxy : Bool) (now : UInt64)

def httpConnectRequest (destIp : UInt32) (destPort : UInt16) : List UInt8 :=
  let hostPart := match if sendDomainToProxy then dnsCacheLookup caches.v4 now destIp else none with
    | some cachedDomain => cachedDomain
    | none => formatIpAddress destIp
  connectRequest hostPart destPort

def httpConnectV6Request (inetNtop : Ip6 → List UInt8) (destIp6 : Ip6) (destPort : UInt16) : List UInt8 :=
  let addrStr := inetNtop destIp6
  let hostPart := match if sendDomainToProxy then dnsCacheLookupV6 caches.v6 now destIp6 else none with
    | some cachedDomain => cachedDomain
    | none => strncpyTruncate 270 (byte '[' :: addrStr ++ [byte ']'])
  connectRequest hostPart destPort

end Requests

/-- CR, LF or a space. -/
def isBreak (c : UInt8) : Bool := c == byte '\r' || c == byte '\n' || c == byte ' '

def Clean (s : List UInt8) : Prop := ∀ c ∈ s, isBreak c = false

/-- One request line, a Host line, a Proxy-Connection line and the empty line, where nothing in the
target or in the host can be taken for the end of a word or of a line. -/
def IsConnectRequest (request : List UInt8) : Prop :=
  ∃ target host, Clean target ∧ Clean host ∧
    request = lit ['C', 'O', 'N', 'N', 'E', 'C', 'T', ' '] ++ target ++
      lit [' ', 'H', 'T', 'T', 'P', '/', '1', '.', '1', '\r', '\n'] ++
      lit ['H', 'o', 's', 't', ':', ' '] ++ host ++ lit ['\r', '\n'] ++
      lit ['P', 'r', 'o', 'x', 'y', '-', 'C', 'o', 'n', 'n', 'e', 'c', 't', 'i', 'o', 'n', ':', ' ',
        'k', 'e', 'e', 'p', '-', 'a', 'l', 'i', 'v', 'e', '\r', '\n'] ++
      lit ['\r', '\n']

private theorem clean_append {s t : List UInt8} : Clean (s ++ t) ↔ Clean s ∧ Clean t := by
  simp only [Clean, List.mem_append, or_imp, forall_and]

private theorem clean_iff_count {s : List UInt8} : Clean s ↔ s.countP isBreak = 0 := by
  rw [List.countP_eq_zero]
  simp only [Clean, Bool.not_eq_true]

private theorem clean_showDecimal (fuel n : Nat) : Clean (showDecimal fuel n) := by
  intro c hc
  obtain ⟨hlo, hhi⟩ := (isDigit_iff c).mp (isDigit_of_mem_showDecimal hc)
  have hr : c ≠ byte '\r' := fun he => by rw [he] at hlo; exact absurd hlo (by decide)
  have hn : c ≠ byte '\n' := fun he => by rw [he] at hlo; exact absurd hlo (by decide)
  have hs : c ≠ byte ' ' := fun he => by rw [he] at hlo; exact absurd hlo (by decide)
  simp [isBreak, hr, hn, hs]

/-- The request is one exactly if the host has no break: each break of the host is one too many. -/
theorem isConnectRequest_iff (hostPart : List UInt8) (destPort : UInt16) :
    IsConnectRequest (connectRequest hostPart destPort) ↔ Clean hostPart := by
  have hport : Clean (byte ':' :: showDecimal 5 destPort.toNat) := by
    intro c hc
    rcases List.mem_cons.mp hc with rfl | hc
    · decide
    · exact clean_showDecimal 5 _ c hc
  constructor
  · rintro ⟨target, host, htarget, hhost, he⟩
    have hcount := congrArg (List.countP isBreak) he
    rw [clean_iff_count] at htarget hhost ⊢
    have hport' := clean_iff_count.mp hport
    simp only [connectRequest, List.countP_append, htarget, hhost, hport'] at hcount
    omega
  · intro hclean
    exact ⟨_, _, clean_append.mpr ⟨hclean, hport⟩, clean_append.mpr ⟨hclean, hport⟩, rfl⟩

/-- The request fits the buffer of 1024 bytes, so all of it is sent. -/
theorem connectRequest_length_lt {hostPart : List UInt8} (h : hostPart.length ≤ 269) (destPort : UInt16) :
    (connectRequest hostPart destPort).length < 1024 := by
  have hport := length_showDecimal_le 5 destPort.toNat
  simp only [connectRequest, List.length_append, List.length_cons, lit, List.length_map, List.length_nil]
  omega

private theorem clean_formatIpAddress (ip : UInt32) : Clean (formatIpAddress ip) := by
  have hdot : ∀ {s : List UInt8}, Clean s → Clean (byte '.' :: s) := by
    intro s hs c hc
    rcases List.mem_cons.mp hc with rfl | hc
    · decide
    · exact hs c hc
  exact clean_append.mpr ⟨clean_append.mpr ⟨clean_append.mpr ⟨clean_showDecimal _ _, hdot (clean_showDecimal _ _)⟩,
    hdot (clean_showDecimal _ _)⟩, hdot (clean_showDecimal _ _)⟩

private theorem clean_take {s : List UInt8} (h : Clean s) (n : Nat) : Clean (s.take n) :=
  fun c hc => h c (List.mem_of_mem_take hc)

section Calls
variable (caches : DnsCaches) (now : UInt64) (destPort : UInt16)

/-- With the switch on, the request depends on the name that the cache has for the destination. -/
theorem httpConnectRequest_iff (destIp : UInt32) :
    IsConnectRequest (httpConnectRequest caches true now destIp destPort) ↔
      ∀ host, caches.lookup now (.a destIp) = some host → Clean host := by
  have hlookup : caches.lookup now (.a destIp) = dnsCacheLookup caches.v4 now destIp := rfl
  simp only [httpConnectRequest, if_true, isConnectRequest_iff, hlookup]
  cases dnsCacheLookup caches.v4 now destIp with
  | none => exact ⟨fun _ _ h => (nomatch h), fun _ => clean_formatIpAddress destIp⟩
  | some host => exact ⟨fun h _ he => Option.some.inj he ▸ h, fun h => h host rfl⟩

theorem httpConnectV6Request_iff {inetNtop : Ip6 → List UInt8} (hntop : ∀ ip6, Clean (inetNtop ip6)) (destIp6 : Ip6) :
    IsConnectRequest (httpConnectV6Request caches true now inetNtop destIp6 destPort) ↔
      ∀ host, caches.lookup now (.aaaa destIp6) = some host → Clean host := by
  have hlookup : caches.lookup now (.aaaa destIp6) = dnsCacheLookupV6 caches.v6 now destIp6 := rfl
  simp only [httpConnectV6Request, if_true, isConnectRequest_iff, hlookup]
  cases dnsCacheLookupV6 caches.v6 now destIp6 with
  | none =>
    refine ⟨fun _ _ h => (nomatch h), fun _ => clean_take ?_ _⟩
    have hopen : Clean [byte '['] := clean_iff_count.mpr rfl
    have hclose : Clean [byte ']'] := clean_iff_count.mpr rfl
    exact clean_append.mpr ⟨clean_append.mpr ⟨hopen, hntop destIp6⟩, hclose⟩
  | some host => exact ⟨fun h _ he => Option.some.inj he ▸ h, fun h => h host rfl⟩

end Calls

/-- What changes the caches between two requests. -/
inductive DnsEvent where
  | snoop (payload : List UInt8) (now : Nat → UInt64) (malloc : Nat → Bool)
  | cleanup (now : UInt64)

def DnsEvent.apply (caches : DnsCaches) : DnsEvent → DnsCaches
  | .snoop payload now malloc => caches.snoopDnsResponse payload now malloc
  | .cleanup now => caches.cleanupStaleDnsCache now

/-- A payload from which a name is stored has a first question whose labels, up to a zero byte if they
have one, hold no break. -/
def HarmlessPayload (payload : List UInt8) : Prop :=
  ∀ qname answers labels, snoopDnsPayload payload = some (qname, answers) → answers ≠ [] →
    NameAt payload 12 labels → Clean (cText (dotted labels))

/-- Every name in the caches can stand in a request. -/
structure CleanCaches (caches : DnsCaches) : Prop where
  v4 : ∀ i, ∀ e ∈ caches.v4 i, Clean e.domain
  v6 : ∀ i, ∀ e ∈ caches.v6 i, Clean e.domain

namespace CleanCaches
variable {caches : DnsCaches}

private theorem chainStore {α : Type} [BEq α] {chain : List (DnsCacheEntry α)} (h : ∀ e ∈ chain, Clean e.domain)
    (now : UInt64) (allocated : Bool) (ip : α) {domain : List UInt8} (hd : Clean domain) :
    ∀ e ∈ dnsChainStore chain now allocated ip domain, Clean e.domain := by
  intro e he
  unfold dnsChainStore at he
  split at he
  · exact h e he
  · split at he
    · obtain ⟨j, hj, rfl⟩ := List.getElem_of_mem he
      rw [List.getElem_modify]
      split
      · exact clean_take hd _
      · exact h _ (List.getElem_mem _)
    · split at he
      · rcases List.mem_cons.mp he with rfl | he
        · exact clean_take hd _
        · exact h e he
      · exact h e he

private theorem update {α : Type} {cache : DnsCache α} (h : ∀ i, ∀ e ∈ cache i, Clean e.domain) {b : UInt32}
    {chain : List (DnsCacheEntry α)} (hb : ∀ e ∈ chain, Clean e.domain) :
    ∀ i, ∀ e ∈ Function.update cache b chain i, Clean e.domain := by
  intro i e he
  by_cases hi : i = b
  · subst hi
    rw [Function.update_self] at he
    exact hb e he
  · rw [Function.update_of_ne hi] at he
    exact h i e he

private theorem storeAll (h : CleanCaches caches) {domain : List UInt8} (hd : Clean domain)
    (answers : List (DnsAnswer × UInt64 × Bool)) : CleanCaches (caches.storeAll domain answers) := by
  induction answers generalizing caches with
  | nil => exact h
  | cons x answers ih =>
    obtain ⟨answer, now, allocated⟩ := x
    apply ih
    cases answer with
    | a ip => exact ⟨update h.v4 (chainStore (h.v4 _) now allocated ip hd), h.v6⟩
    | aaaa ip6 => exact ⟨h.v4, update h.v6 (chainStore (h.v6 _) now allocated ip6 hd)⟩

/-- A harmless payload and a cleanup leave the caches clean. -/
private theorem apply (h : CleanCaches caches) {event : DnsEvent}
    (hev : ∀ payload now malloc, event = .snoop payload now malloc → HarmlessPayload payload) :
    CleanCaches (event.apply caches) := by
  cases event with
  | cleanup now =>
    exact ⟨fun i e he => h.v4 i e (List.mem_of_mem_filter he), fun i e he => h.v6 i e (List.mem_of_mem_filter he)⟩
  | snoop payload now malloc =>
    simp only [DnsEvent.apply, DnsCaches.snoopDnsResponse]
    split
    · exact h
    · rename_i qname answers hparse
      cases answers with
      | nil => exact h
      | cons answer answers =>
        obtain ⟨_, labels, hat, hname⟩ := snoopDnsPayload_nameAt hparse
        subst hname
        exact h.storeAll (hev payload now malloc rfl _ _ labels hparse (List.cons_ne_nil _ _) hat) _

end CleanCaches

private theorem CleanCaches.lookup {caches : DnsCaches} (h : CleanCaches caches) {now : UInt64} {answer : DnsAnswer}
    {host : List UInt8} (hl : caches.lookup now answer = some host) : Clean host := by
  cases answer with
  | a ip =>
    obtain ⟨e, he, rfl⟩ := Option.map_eq_some_iff.mp hl
    exact clean_take (h.v4 _ e (List.mem_of_find?_eq_some he)) _
  | aaaa ip6 =>
    obtain ⟨e, he, rfl⟩ := Option.map_eq_some_iff.mp hl
    exact clean_take (h.v6 _ e (List.mem_of_find?_eq_some he)) _

private theorem cleanCaches_run {events : List DnsEvent}
    (hev : ∀ payload now malloc, .snoop payload now malloc ∈ events → HarmlessPayload payload) {caches : DnsCaches}
    (h : CleanCaches caches) : CleanCaches (events.foldl DnsEvent.apply caches) := by
  induction events generalizing caches with
  | nil => exact h
  | cons event events ih =>
    refine ih (fun payload now malloc hm => hev payload now malloc (List.mem_cons_of_mem event hm)) (h.apply ?_)
    rintro payload now malloc rfl
    exact hev payload now malloc List.mem_cons_self

/-- Once a payload is snooped, its addresses have its name until it expires. -/
private theorem lookup_snooped {payload qname : List UInt8} {answers : List DnsAnswer}
    (hparse : snoopDnsPayload payload = some (qname, answers)) (hne : cText qname ≠ []) (caches : DnsCaches)
    {now : Nat → UInt64} {malloc : Nat → Bool} {later : UInt64} (halloc : ∀ i, malloc i = true)
    (hlater : ∀ i, later < now i + dnsCacheTtlMs) {answer : DnsAnswer} (hmem : answer ∈ answers) :
    (caches.snoopDnsResponse payload now malloc).lookup later answer = some (cText qname) := by
  have hlen : (cText qname).length ≤ qname.length := (List.takeWhile_sublist _).length_le
  have hfits : strncpyTruncate 256 (cText qname) = cText qname := by
    obtain ⟨hlt, _⟩ := snoopDnsPayload_nameAt hparse
    exact List.take_of_length_le (by omega)
  simp only [DnsCaches.snoopDnsResponse, hparse]
  have hstored := caches.lookup_storeAll later hne answer (answers.zipIdx.map (fun x => (x.1, now x.2, malloc x.2)))
    (fun x hx => by
      obtain ⟨⟨y, i⟩, _, rfl⟩ := List.mem_map.mp hx
      exact ⟨hlater i, halloc i⟩)
    (.inr (by
      rw [List.map_map]
      have hfirst : (fun x : DnsAnswer × UInt64 × Bool => x.1) ∘
          (fun x : DnsAnswer × Nat => (x.1, now x.2, malloc x.2)) = Prod.fst := rfl
      exact hfirst ▸ (List.zipIdx_map_fst 0 answers).symm ▸ hmem))
  rwa [hfits] at hstored

/-- Both requests fit the buffer of 1024 bytes, so what is sent is what was formatted. -/
private theorem requests_fit (caches : DnsCaches) (sendDomainToProxy : Bool) (now : UInt64)
    (inetNtop : Ip6 → List UInt8) (destPort : UInt16) :
    (∀ destIp, (httpConnectRequest caches sendDomainToProxy now destIp destPort).length < 1024) ∧
    ∀ destIp6, (httpConnectV6Request caches sendDomainToProxy now inetNtop destIp6 destPort).length < 1024 := by
  have htake : ∀ (s : List UInt8) (n : Nat), n ≤ 270 → (strncpyTruncate n s).length ≤ 269 := by
    intro s n hn
    rw [strncpyTruncate, List.length_take]
    omega
  have hip : ∀ ip, (formatIpAddress ip).length ≤ 269 := by
    intro ip
    have h0 := length_showDecimal_le 3 ((ip >>> 0) &&& 0xFF).toNat
    have h8 := length_showDecimal_le 3 ((ip >>> 8) &&& 0xFF).toNat
    have h16 := length_showDecimal_le 3 ((ip >>> 16) &&& 0xFF).toNat
    have h24 := length_showDecimal_le 3 ((ip >>> 24) &&& 0xFF).toNat
    simp only [formatIpAddress, List.length_append, List.length_cons]
    omega
  constructor
  · intro destIp
    apply connectRequest_length_lt
    split
    · rename_i host hhost
      split at hhost
      · obtain ⟨e, _, rfl⟩ := Option.map_eq_some_iff.mp hhost
        exact htake _ _ (by decide)
      · cases hhost
    · exact hip destIp
  · intro destIp6
    apply connectRequest_length_lt
    split
    · rename_i host hhost
      split at hhost
      · obtain ⟨e, _, rfl⟩ := Option.map_eq_some_iff.mp hhost
        exact htake _ _ (by decide)
      · cases hhost
    · exact htake _ _ (by decide)

/-- After harmless payloads every request is intact. A payload that is not harmless stores a name for
some address, and until the name expires no request to such an address is. -/
theorem connect_requests_intact_iff_harmless (inetNtop : Ip6 → List UInt8) (hntop : ∀ ip6, Clean (inetNtop ip6)) :
    (∀ events : List DnsEvent,
      (∀ payload now malloc, .snoop payload now malloc ∈ events → HarmlessPayload payload) →
      ∀ now destPort,
        let caches := events.foldl DnsEvent.apply .empty
        (∀ destIp, (httpConnectRequest caches true now destIp destPort).length < 1024 ∧
          IsConnectRequest (httpConnectRequest caches true now destIp destPort)) ∧
        ∀ destIp6, (httpConnectV6Request caches true now inetNtop destIp6 destPort).length < 1024 ∧
          IsConnectRequest (httpConnectV6Request caches true now inetNtop destIp6 destPort)) ∧
    ∀ payload, ¬ HarmlessPayload payload →
      ∃ qname answers, snoopDnsPayload payload = some (qname, answers) ∧ answers ≠ [] ∧
        ∀ (caches : DnsCaches) now malloc later destPort, (∀ i, malloc i = true) →
          (∀ i, later < now i + dnsCacheTtlMs) →
          let snooped := caches.snoopDnsResponse payload now malloc
          (∀ destIp, .a destIp ∈ answers →
            ¬ IsConnectRequest (httpConnectRequest snooped true later destIp destPort)) ∧
          ∀ destIp6, .aaaa destIp6 ∈ answers →
            ¬ IsConnectRequest (httpConnectV6Request snooped true later inetNtop destIp6 destPort) := by
  constructor
  · intro events hev now destPort caches
    have hclean : CleanCaches caches :=
      cleanCaches_run hev ⟨fun _ _ he => (nomatch he), fun _ _ he => (nomatch he)⟩
    obtain ⟨hfit, hfit6⟩ := requests_fit caches true now inetNtop destPort
    constructor
    · intro destIp
      exact ⟨hfit destIp, (httpConnectRequest_iff caches now destPort destIp).mpr (fun host hl => hclean.lookup hl)⟩
    · intro destIp6
      exact ⟨hfit6 destIp6, (httpConnectV6Request_iff caches now destPort hntop destIp6).mpr
        (fun host hl => hclean.lookup hl)⟩
  · intro payload hbad
    simp only [HarmlessPayload, not_forall] at hbad
    obtain ⟨qname, answers, labels, hparse, hsome, hat, hunclean⟩ := hbad
    obtain ⟨_, labels', hat', rfl⟩ := snoopDnsPayload_nameAt hparse
    obtain rfl := hat.unique hat'
    have hne : cText (dotted labels) ≠ [] := by
      intro hnil
      rw [hnil] at hunclean
      exact hunclean (fun c hc => (nomatch hc))
    refine ⟨_, answers, hparse, hsome, ?_⟩
    intro caches now malloc later destPort halloc hlater snooped
    constructor
    · intro destIp hmem hok
      have hlookup := lookup_snooped hparse hne caches halloc hlater hmem
      exact hunclean ((httpConnectRequest_iff snooped later destPort destIp).mp hok _ hlookup)
    · intro destIp6 hmem hok
      have hlookup := lookup_snooped hparse hne caches halloc hlater hmem
      exact hunclean ((httpConnectV6Request_iff snooped later destPort hntop destIp6).mp hok _ hlookup)

/-- A response to a question for the name `n`, with one A record for 1.2.3.4. -/
private def response (n : List UInt8) : List UInt8 :=
  [0, 0, 0x81, 0x80, 0, 1, 0, 1, 0, 0, 0, 0, n.length.toUInt8] ++ n ++
    [0, 0, 1, 0, 1, 0xC0, 12, 0, 1, 0, 1, 0, 0, 0, 60, 0, 4, 1, 2, 3, 4]

/-- The request for 1.2.3.4 after a response for the name `ab`. -/
theorem connect_requests_intact_iff_harmless_ab :
    let events := [DnsEvent.snoop (response (lit ['a', 'b'])) (fun _ => 0) (fun _ => true)]
    httpConnectRequest (events.foldl DnsEvent.apply .empty) true 1 0x04030201 443 =
      connectRequest (lit ['a', 'b']) 443 ∧
    IsConnectRequest (httpConnectRequest (events.foldl DnsEvent.apply .empty) true 1 0x04030201 443) := by
  intro events
  have hntop : ∀ ip6 : Ip6, Clean ((fun _ => lit [':', ':']) ip6) := fun _ => clean_iff_count.mpr rfl
  have hat : NameAt (response (lit ['a', 'b'])) 12 [lit ['a', 'b']] :=
    .label (b := 2) rfl (by decide) (by decide) (.root rfl)
  have hharmless : HarmlessPayload (response (lit ['a', 'b'])) := by
    intro qname answers labels _ _ hat'
    rw [hat'.unique hat]
    exact clean_iff_count.mpr rfl
  have hev : ∀ payload now malloc, .snoop payload now malloc ∈ events → HarmlessPayload payload := by
    intro payload now malloc hmem
    obtain ⟨rfl, _⟩ := DnsEvent.snoop.inj (List.mem_singleton.mp hmem)
    exact hharmless
  exact ⟨by decide +kernel,
    (((connect_requests_intact_iff_harmless _ hntop).1 events hev 1 443).1 0x04030201).2⟩

/-- A label may hold the end of a line: the request for 1.2.3.4 then has a line more. -/
theorem snooped_label_injects_line :
    httpConnectRequest (DnsCaches.snoopDnsResponse .empty (response (lit ['a', '\r', '\n', 'b'])) (fun _ => 0)
      (fun _ => true)) true 1 0x04030201 443 = connectRequest (lit ['a', '\r', '\n', 'b']) 443 ∧
    ¬ IsConnectRequest (connectRequest (lit ['a', '\r', '\n', 'b']) 443) := by
  constructor
  · decide +kernel
  · rw [isConnectRequest_iff, clean_iff_count]
    decide

end ProxyBridge.Handshake
