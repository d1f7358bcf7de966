import ProxyBridge.Handshake.HttpConnect
import ProxyBridge.Windows.DnsCache

/-! The DNS snoop of `pb_dns.c`: names are taken out of responses, decompressed and stored for the
addresses of the answers. The length that `ProxyBridge.c` passes is the length of the payload. -/
namespace ProxyBridge.Windows
open CStrings Handshake

def dnsCacheTtlMs : UInt64 := 300000

/-- A label behind the ones that are in `dst`. -/
def addLabel (dst label : List UInt8) : List UInt8 := (if dst.isEmpty then dst else dst ++ [byte '.']) ++ label

/-- The loop of `dns_parse_name`, from a position with what is in `dst` by then. `jumpedEnd` is the
offset behind the first pointer, if one has been followed. -/
def parseName (msg : List UInt8) (dstLen : Nat) :
    Nat → Nat → List UInt8 → Nat → Option Nat → Option (List UInt8 × Nat)
  | 0, _, _, _, _ => none
  | fuel+1, pos, dst, jumps, jumpedEnd =>
    match msg[pos]? with
    | none => none
    | some b =>
      if b == 0 then some (dst, jumpedEnd.getD (pos + 1))
      else if b &&& 0xC0 == 0xC0 then
        match msg[pos + 1]? with
        | none => none
        | some low =>
          if jumps + 1 > 10 then none
          else parseName msg dstLen fuel ((b &&& 0x3F).toNat * 256 + low.toNat) dst (jumps + 1)
            (some (jumpedEnd.getD (pos + 2)))
      else if pos + 1 + b.toNat > msg.length then none
      else if dst.length + b.toNat + 2 ≥ dstLen then none
      else parseName msg dstLen fuel (pos + 1 + b.toNat) (addLabel dst ((msg.drop (pos + 1)).take b.toNat)) jumps
        jumpedEnd

/-- Between two of the at most ten jumps the position only grows. -/
def parseFuel (msg : List UInt8) : Nat := 11 * (msg.length + 1)

/-- `dns_parse_name` into a buffer of 256 bytes: the bytes in front of the terminator that it writes,
and the offset behind the name. -/
def dnsParseName (msg : List UInt8) (offset : Nat) : Option (List UInt8 × Nat) :=
  parseName msg 256 (parseFuel msg) offset [] 0 none

/-- Two bytes in network order. -/
def word (payload : List UInt8) (i : Nat) : Nat := (payload.getD i 0).toNat * 256 + (payload.getD (i + 1) 0).toNat

/-- The addresses of the A and AAAA answers. -/
inductive DnsAnswer where
  | a (ip : UInt32)
  | aaaa (ip6 : Ip6)
  deriving DecidableEq

def addressAt (payload : List UInt8) (i : Nat) : UInt32 :=
  (payload.getD i 0).toUInt32 ||| (payload.getD (i + 1) 0).toUInt32 <<< 8 |||
    (payload.getD (i + 2) 0).toUInt32 <<< 16 ||| (payload.getD (i + 3) 0).toUInt32 <<< 24

def addressV6At (payload : List UInt8) (i : Nat) : Ip6 := Vector.ofFn (fun k => payload.getD (i + k.val) 0)

/-- The loop over the questions behind the first. -/
def skipQuestions (payload : List UInt8) : Nat → Nat → Option Nat
  | 0, offset => some offset
  | n+1, offset =>
    if offset < payload.length then
      match dnsParseName payload offset with
      | none => none
      | some (_, offset) => skipQuestions payload n (offset + 4)
    else some offset

/-- The loop over the answers, up to one that does not parse. -/
def answersFrom (payload : List UInt8) : Nat → Nat → List DnsAnswer
  | 0, _ => []
  | n+1, offset =>
    if offset < payload.length then
      match dnsParseName payload offset with
      | none => []
      | some (_, offset) =>
        if offset + 10 > payload.length then []
        else
          let rtype := word payload offset
          let rclass := word payload (offset + 2)
          let rdlen := word payload (offset + 8)
          if offset + 10 + rdlen > payload.length then []
          else
            let rest := answersFrom payload n (offset + 10 + rdlen)
            if rtype == 1 && rclass == 1 && rdlen == 4 then .a (addressAt payload (offset + 10)) :: rest
            else if rtype == 28 && rclass == 1 && rdlen == 16 then .aaaa (addressV6At payload (offset + 10)) :: rest
            else rest
    else []

/-- What `snoop_dns_response` takes from a payload: the name of the first question and the addresses
to store it for, in this order. -/
def snoopDnsPayload (payload : List UInt8) : Option (List UInt8 × List DnsAnswer) :=
  let flags := word payload 2
  let qdcount := word payload 4
  let ancount := word payload 6
  if payload.length < 12 then none
  else if flags < 0x8000 then none
  else if flags % 16 != 0 then none
  else if ancount == 0 then none
  else
    match dnsParseName payload 12 with
    | none => none
    | some (qname, offset) =>
      match skipQuestions payload (qdcount - 1) (offset + 4) with
      | none => none
      | some offset => some (qname, answersFrom payload ancount offset)

section Store
variable {α : Type} [BEq α]

/-- `dns_cache_store` and `dns_cache_store_v6` on the chain of the address, where `allocated` says
whether `malloc` succeeds. -/
def dnsChainStore (chain : List (DnsCacheEntry α)) (now : UInt64) (allocated : Bool) (ip : α) (domain : List UInt8) :
    List (DnsCacheEntry α) :=
  if domain.isEmpty then chain
  else
    match chain.findIdx? (fun e => e.ip == ip) with
    | some i => chain.modify i (fun e =>
        { e with domain := strncpyTruncate 256 domain, expireTick := now + dnsCacheTtlMs })
    | none => if allocated then ⟨ip, strncpyTruncate 256 domain, now + dnsCacheTtlMs⟩ :: chain else chain

end Store

structure DnsCaches where
  v4 : DnsCache UInt32
  v6 : DnsCache Ip6

namespace DnsCaches

def empty : DnsCaches := ⟨fun _ => [], fun _ => []⟩

def store (s : DnsCaches) (now : UInt64) (allocated : Bool) (domain : List UInt8) : DnsAnswer → DnsCaches
  | .a ip =>
    { s with v4 := Function.update s.v4 (dnsBucket ip) (dnsChainStore (s.v4 (dnsBucket ip)) now allocated ip domain) }
  | .aaaa ip6 =>
    { s with
      v6 := Function.update s.v6 (dnsBucketV6 ip6) (dnsChainStore (s.v6 (dnsBucketV6 ip6)) now allocated ip6 domain) }

/-- The stores for the answers of one payload, which read the clock and call `malloc` anew each time. -/
def storeAll (s : DnsCaches) (domain : List UInt8) : List (DnsAnswer × UInt64 × Bool) → DnsCaches
  | [] => s
  | (answer, now, allocated) :: answers => storeAll (s.store now allocated domain answer) domain answers

/-- `snoop_dns_response`. The name is handed on as a C string, so it ends at its first zero byte. -/
def snoopDnsResponse (s : DnsCaches) (payload : List UInt8) (now : Nat → UInt64) (malloc : Nat → Bool) : DnsCaches :=
  match snoopDnsPayload payload with
  | none => s
  | some (qname, answers) =>
    s.storeAll (cText qname) (answers.zipIdx.map (fun x => (x.1, now x.2, malloc x.2)))

/-- `cleanup_stale_dns_cache`. -/
def cleanupStaleDnsCache (s : DnsCaches) (now : UInt64) : DnsCaches :=
  ⟨fun i => (s.v4 i).filter (fun e => !decide (e.expireTick ≤ now)),
    fun i => (s.v6 i).filter (fun e => !decide (e.expireTick ≤ now))⟩

end DnsCaches

/-- The labels of the name that starts at a position of a message. -/
inductive NameAt (msg : List UInt8) : Nat → List (List UInt8) → Prop where
  | root {pos : Nat} : msg[pos]? = some 0 → NameAt msg pos []
  | label {pos : Nat} {b : UInt8} {labels : List (List UInt8)} : msg[pos]? = some b → b ≠ 0 → b &&& 0xC0 ≠ 0xC0 →
      NameAt msg (pos + 1 + b.toNat) labels → NameAt msg pos ((msg.drop (pos + 1)).take b.toNat :: labels)
  | pointer {pos : Nat} {b low : UInt8} {labels : List (List UInt8)} : msg[pos]? = some b → b &&& 0xC0 = 0xC0 →
      msg[pos + 1]? = some low → NameAt msg ((b &&& 0x3F).toNat * 256 + low.toNat) labels → NameAt msg pos labels

/-- The text of a name. -/
def dotted (labels : List (List UInt8)) : List UInt8 := labels.foldl addLabel []

section Names
variable {msg : List UInt8}

theorem zero_not_pointer : (0 : UInt8) &&& 0xC0 ≠ 0xC0 := by decide

theorem NameAt.unique {pos : Nat} {labels labels' : List (List UInt8)} (h : NameAt msg pos labels)
    (h' : NameAt msg pos labels') : labels = labels' := by
  induction h generalizing labels' with
  | root hb =>
    cases h' with
    | root _ => rfl
    | label hb' hz _ _ => exact absurd (Option.some.inj (hb'.symm.trans hb)) hz
    | pointer hb' hp _ _ =>
      obtain rfl := Option.some.inj (hb'.symm.trans hb)
      exact absurd hp zero_not_pointer
  | label hb hz hp _ ih =>
    cases h' with
    | root hb' => exact absurd (Option.some.inj (hb.symm.trans hb')) hz
    | label hb' _ _ hrest =>
      obtain rfl := Option.some.inj (hb'.symm.trans hb)
      rw [ih hrest]
    | pointer hb' hp' _ _ =>
      obtain rfl := Option.some.inj (hb'.symm.trans hb)
      exact absurd hp' hp
  | pointer hb hp hlow _ ih =>
    cases h' with
    | root hb' =>
      obtain rfl := Option.some.inj (hb'.symm.trans hb)
      exact absurd hp zero_not_pointer
    | label hb' _ hp' _ =>
      obtain rfl := Option.some.inj (hb'.symm.trans hb)
      exact absurd hp hp'
    | pointer hb' _ hlow' hrest =>
      obtain rfl := Option.some.inj (hb'.symm.trans hb)
      obtain rfl := Option.some.inj (hlow'.symm.trans hlow)
      exact ih hrest

/-- What is written are the labels of the name, with dots between them. -/
private theorem parseName_nameAt {dstLen fuel pos jumps : Nat} {dst name : List UInt8} {jumpedEnd : Option Nat}
    {offset : Nat} (h : parseName msg dstLen fuel pos dst jumps jumpedEnd = some (name, offset)) :
    ∃ labels, NameAt msg pos labels ∧ name = labels.foldl addLabel dst := by
  induction fuel generalizing pos dst jumps jumpedEnd with
  | zero => cases h
  | succ fuel ih =>
    rw [parseName] at h
    cases hb : msg[pos]? with
    | none =>
      rw [hb] at h
      cases h
    | some b =>
      simp only [hb] at h
      by_cases hz : b = 0
      · subst hz
        obtain ⟨rfl, _⟩ := Prod.mk.inj (Option.some.inj (by simpa using h))
        exact ⟨[], .root hb, rfl⟩
      · rw [if_neg (by simpa using hz)] at h
        by_cases hp : b &&& 0xC0 = 0xC0
        · rw [if_pos (by simpa using hp)] at h
          cases hlow : msg[pos + 1]? with
          | none =>
            rw [hlow] at h
            cases h
          | some low =>
            simp only [hlow] at h
            split at h
            · cases h
            · obtain ⟨labels, hat, hname⟩ := ih h
              exact ⟨labels, .pointer hb hp hlow hat, hname⟩
        · rw [if_neg (by simpa using hp)] at h
          split at h
          · cases h
          · split at h
            · cases h
            · obtain ⟨labels, hat, hname⟩ := ih h
              exact ⟨_, .label hb hz hp hat, hname⟩

private theorem dnsParseName_nameAt {offset next : Nat} {name : List UInt8}
    (h : dnsParseName msg offset = some (name, next)) :
    ∃ labels, NameAt msg offset labels ∧ name = dotted labels :=
  parseName_nameAt h

/-- The name leaves room for the terminator. -/
theorem parseName_length {dstLen fuel pos jumps : Nat} {dst name : List UInt8} {jumpedEnd : Option Nat}
    {offset : Nat} (h : parseName msg dstLen fuel pos dst jumps jumpedEnd = some (name, offset))
    (hd : dst.length + 1 < dstLen) : name.length + 1 < dstLen := by
  induction fuel generalizing pos dst jumps jumpedEnd with
  | zero => cases h
  | succ fuel ih =>
    rw [parseName] at h
    cases hb : msg[pos]? with
    | none =>
      rw [hb] at h
      cases h
    | some b =>
      simp only [hb] at h
      split at h
      · obtain ⟨rfl, _⟩ := Prod.mk.inj (Option.some.inj h)
        exact hd
      · split at h
        · split at h
          · cases h
          · split at h
            · cases h
            · exact ih h hd
        · split at h
          · cases h
          · split at h
            · cases h
            · rename_i hroom
              apply ih h
              simp only [addLabel, List.length_append, List.length_take, List.length_drop]
              split
              · omega
              · simp only [List.length_append, List.length_singleton]
                omega

/-- The turns that the loop can make from a position. -/
def turnsLeft (msg : List UInt8) (pos jumps : Nat) : Nat :=
  (10 - jumps) * (msg.length + 1) + (msg.length - pos) + 1

variable (msg) in
theorem turnsLeft_jump (pos target : Nat) {jumps : Nat} (hj : jumps + 1 ≤ 10) :
    turnsLeft msg target (jumps + 1) < turnsLeft msg pos jumps := by
  unfold turnsLeft
  have hmul : (10 - jumps) * (msg.length + 1) = (10 - (jumps + 1)) * (msg.length + 1) + (msg.length + 1) := by
    have hsplit : 10 - jumps = 10 - (jumps + 1) + 1 := by omega
    rw [hsplit, Nat.succ_mul]
  omega

/-- The loop ends within the turns it is given: with more of them the result is the same. -/
private theorem parseName_fuel {dstLen fuel pos jumps : Nat} {dst : List UInt8} {jumpedEnd : Option Nat}
    (hf : turnsLeft msg pos jumps ≤ fuel) :
    parseName msg dstLen (fuel + 1) pos dst jumps jumpedEnd = parseName msg dstLen fuel pos dst jumps jumpedEnd := by
  induction fuel generalizing pos dst jumps jumpedEnd with
  | zero => exact absurd hf (by simp [turnsLeft])
  | succ fuel ih =>
    rw [parseName, parseName]
    cases hb : msg[pos]? with
    | none => rfl
    | some b =>
      have hpos : pos < msg.length := (List.getElem?_eq_some_iff.mp hb).1
      simp only
      split
      · rfl
      · rename_i hz
        have hz' : b.toNat ≠ 0 := fun h0 => hz (by simp [UInt8.toNat_inj.mp (h0.trans UInt8.toNat_zero.symm)])
        split
        · cases msg[pos + 1]? with
          | none => rfl
          | some low =>
            simp only
            split
            · rfl
            · rename_i hj
              have hlt := turnsLeft_jump msg pos ((b &&& 0x3F).toNat * 256 + low.toNat)
                (Nat.not_lt.mp hj)
              exact ih (by omega)
        · split
          · rfl
          · split
            · rfl
            · apply ih
              simp only [turnsLeft] at hf ⊢
              omega

theorem dnsParseName_fuel (offset extra : Nat) :
    parseName msg 256 (parseFuel msg + extra) offset [] 0 none = dnsParseName msg offset := by
  induction extra with
  | zero => rfl
  | succ extra ih =>
    rw [← ih, ← Nat.add_assoc]
    apply parseName_fuel
    simp only [turnsLeft, parseFuel]
    omega

end Names

/-- The name that is stored is the one of the first question. -/
theorem snoopDnsPayload_nameAt {payload qname : List UInt8} {answers : List DnsAnswer}
    (h : snoopDnsPayload payload = some (qname, answers)) :
    qname.length < 255 ∧ ∃ labels, NameAt payload 12 labels ∧ qname = dotted labels := by
  unfold snoopDnsPayload at h
  cases hname : dnsParseName payload 12 with
  | none => simp [hname] at h
  | some v =>
    obtain ⟨name, offset⟩ := v
    have hlength : name.length + 1 < 256 := parseName_length hname (by decide)
    obtain ⟨labels, hat, rfl⟩ := dnsParseName_nameAt hname
    simp only [hname] at h
    split at h
    · cases h
    split at h
    · cases h
    split at h
    · cases h
    split at h
    · cases h
    split at h
    · cases h
    · obtain ⟨rfl, _⟩ := Prod.mk.inj (Option.some.inj h)
      exact ⟨by omega, labels, hat, rfl⟩

section Lookup
variable {α : Type} [BEq α] [LawfulBEq α]

/-- A name goes into the first entry of the address, or into a new one in front. -/
theorem dnsChainStore_cases (chain : List (DnsCacheEntry α)) (now : UInt64) (allocated : Bool) (ip : α)
    {domain : List UInt8} (hd : domain ≠ []) :
    (∃ pre e post, chain = pre ++ e :: post ∧ e.ip = ip ∧ (∀ x ∈ pre, x.ip ≠ ip) ∧
      dnsChainStore chain now allocated ip domain =
        pre ++ ⟨ip, strncpyTruncate 256 domain, now + dnsCacheTtlMs⟩ :: post) ∨
    ((∀ x ∈ chain, x.ip ≠ ip) ∧ dnsChainStore chain now allocated ip domain =
      if allocated then ⟨ip, strncpyTruncate 256 domain, now + dnsCacheTtlMs⟩ :: chain else chain) := by
  have hd' : domain.isEmpty = false := by simpa using hd
  unfold dnsChainStore
  rw [hd', if_neg Bool.false_ne_true]
  cases hi : chain.findIdx? (fun e => e.ip == ip) with
  | none =>
    refine .inr ⟨fun x hx => ?_, rfl⟩
    simpa using List.findIdx?_eq_none_iff.mp hi x hx
  | some i =>
    obtain ⟨hlt, hip, hbefore⟩ := List.findIdx?_eq_some_iff_getElem.mp hi
    refine .inl ⟨chain.take i, chain[i], chain.drop (i + 1), ?_, by simpa using hip, ?_, ?_⟩
    · rw [List.getElem_cons_drop, List.take_append_drop]
    · intro x hx
      obtain ⟨j, hj, rfl⟩ := List.mem_take_iff_getElem.mp hx
      simpa using hbefore j (by omega)
    · have hip' : chain[i].ip = ip := by simpa using hip
      simp only [List.modify_eq_take_cons_drop hlt, hip']

/-- A name that was stored is found until it expires. -/
private theorem dnsChainLookup_store_self (chain : List (DnsCacheEntry α)) {now later : UInt64} (ip : α)
    {domain : List UInt8} (hd : domain ≠ []) (hlater : later < now + dnsCacheTtlMs) :
    dnsChainLookup (dnsChainStore chain now true ip domain) later ip = some (strncpyTruncate 256 domain) := by
  have htwice : strncpyTruncate 256 (strncpyTruncate 256 domain) = strncpyTruncate 256 domain := by
    simp [strncpyTruncate, List.take_take]
  unfold dnsChainLookup
  rcases dnsChainStore_cases chain now true ip hd with ⟨pre, e, post, _, _, hpre, hstore⟩ | ⟨_, hstore⟩
  · have hnone : pre.find? (fun e => e.ip == ip && decide (e.expireTick > later)) = none := by
      rw [List.find?_eq_none]
      intro x hx
      simp [hpre x hx]
    rw [hstore, List.find?_append, hnone]
    simp [hlater, htwice]
  · rw [hstore]
    simp [hlater, htwice]

/-- Storing for another address changes nothing. -/
private theorem dnsChainLookup_store_other (chain : List (DnsCacheEntry α)) (now later : UInt64) (allocated : Bool)
    {ip other : α} (hne : other ≠ ip) (domain : List UInt8) :
    dnsChainLookup (dnsChainStore chain now allocated ip domain) later other = dnsChainLookup chain later other := by
  by_cases hd : domain = []
  · simp [dnsChainStore, hd]
  have hskip : ∀ (d : List UInt8) (t : UInt64) (l : List (DnsCacheEntry α)),
      List.find? (fun e => e.ip == other && decide (e.expireTick > later)) (⟨ip, d, t⟩ :: l) =
        l.find? (fun e => e.ip == other && decide (e.expireTick > later)) := by
    intro d t l
    rw [List.find?_cons_of_neg]
    simp [Ne.symm hne]
  unfold dnsChainLookup
  rcases dnsChainStore_cases chain now allocated ip hd with ⟨pre, e, post, hchain, hip, _, hstore⟩ | ⟨_, hstore⟩
  · obtain ⟨eip, d, t⟩ := e
    obtain rfl : eip = ip := hip
    rw [hstore, hchain, List.find?_append, List.find?_append, hskip, hskip]
  · rw [hstore]
    split
    · rw [hskip]
    · rfl

variable (bucket : α → UInt32)

/-- In a table the address is found in its own bucket. -/
private theorem update_lookup_self (cache : DnsCache α) {now later : UInt64} (ip : α) {domain : List UInt8}
    (hd : domain ≠ []) (hlater : later < now + dnsCacheTtlMs) :
    dnsChainLookup (Function.update cache (bucket ip) (dnsChainStore (cache (bucket ip)) now true ip domain)
      (bucket ip)) later ip = some (strncpyTruncate 256 domain) := by
  rw [Function.update_self]
  exact dnsChainLookup_store_self _ ip hd hlater

private theorem update_lookup_other (cache : DnsCache α) (now later : UInt64) (allocated : Bool) {ip other : α}
    (hne : other ≠ ip) (domain : List UInt8) :
    dnsChainLookup (Function.update cache (bucket ip) (dnsChainStore (cache (bucket ip)) now allocated ip domain)
      (bucket other)) later other = dnsChainLookup (cache (bucket other)) later other := by
  by_cases hb : bucket other = bucket ip
  · rw [hb, Function.update_self]
    exact dnsChainLookup_store_other _ now later allocated hne domain
  · rw [Function.update_of_ne hb]

end Lookup

namespace DnsCaches

/-- What the caches answer for an address of either family. -/
def lookup (s : DnsCaches) (now : UInt64) : DnsAnswer → Option (List UInt8)
  | .a ip => dnsCacheLookup s.v4 now ip
  | .aaaa ip6 => dnsCacheLookupV6 s.v6 now ip6

private theorem lookup_store_self (s : DnsCaches) {now later : UInt64} {domain : List UInt8} (hd : domain ≠ [])
    (hlater : later < now + dnsCacheTtlMs) (answer : DnsAnswer) :
    (s.store now true domain answer).lookup later answer = some (strncpyTruncate 256 domain) := by
  cases answer with
  | a ip => exact update_lookup_self dnsBucket s.v4 ip hd hlater
  | aaaa ip6 => exact update_lookup_self dnsBucketV6 s.v6 ip6 hd hlater

private theorem lookup_store_other (s : DnsCaches) (now later : UInt64) (allocated : Bool) (domain : List UInt8)
    {answer other : DnsAnswer} (hne : other ≠ answer) :
    (s.store now allocated domain answer).lookup later other = s.lookup later other := by
  cases answer with
  | a ip =>
    cases other with
    | a ip' =>
      exact update_lookup_other dnsBucket s.v4 now later allocated (fun h => hne (congrArg DnsAnswer.a h)) domain
    | aaaa ip6' => rfl
  | aaaa ip6 =>
    cases other with
    | a ip' => rfl
    | aaaa ip6' =>
      exact update_lookup_other dnsBucketV6 s.v6 now later allocated (fun h => hne (congrArg DnsAnswer.aaaa h)) domain

/-- After the stores of a payload every one of its addresses has the name. -/
theorem lookup_storeAll (s : DnsCaches) (later : UInt64) {domain : List UInt8} (hd : domain ≠ [])
    (answer : DnsAnswer) (answers : List (DnsAnswer × UInt64 × Bool))
    (hall : ∀ x ∈ answers, later < x.2.1 + dnsCacheTtlMs ∧ x.2.2 = true)
    (hmem : s.lookup later answer = some (strncpyTruncate 256 domain) ∨ answer ∈ answers.map (·.1)) :
    (s.storeAll domain answers).lookup later answer = some (strncpyTruncate 256 domain) := by
  induction answers generalizing s with
  | nil => exact hmem.resolve_right List.not_mem_nil
  | cons x answers ih =>
    obtain ⟨first, now, allocated⟩ := x
    obtain ⟨hlater, ha⟩ := hall _ List.mem_cons_self
    obtain rfl : allocated = true := ha
    refine ih _ (fun y hy => hall y (List.mem_cons_of_mem _ hy)) ?_
    by_cases he : answer = first
    · subst he
      exact .inl (s.lookup_store_self hd hlater answer)
    · rw [s.lookup_store_other now later true domain he]
      refine hmem.imp id (fun h => ?_)
      exact (List.mem_cons.mp h).resolve_left he

end DnsCaches

end ProxyBridge.Windows
