import ProxyBridge.Windows.DnsNames

/-! What a response stores: for well-formed responses the name of the first question under every
address of the answers, and for responses without a question whatever their bytes are read as. -/
namespace ProxyBridge.Windows
open Handshake

/-- The address of an IN A or IN AAAA record. -/
def recordAddress (r : Rfc1035.Record) : Option DnsAnswer :=
  if r.rtype == 1 && r.rclass == 1 && r.data.length == 4 then some (.a (addressAt r.data 0))
  else if r.rtype == 28 && r.rclass == 1 && r.data.length == 16 then some (.aaaa (addressV6At r.data 0))
  else none

/-- The fixed part of a record, behind its name, describes an address. -/
def IsAddress (payload : List UInt8) (stop : Nat) : Prop :=
  word payload (stop + 2) = 1 ∧ (word payload stop = 1 ∧ word payload (stop + 8) = 4 ∨
    word payload stop = 28 ∧ word payload (stop + 8) = 16)

/-- One of the next records from an offset on is read as an address, and none before it is cut off. -/
inductive AddressFollows (payload : List UInt8) : Nat → Nat → Prop where
  | here {n offset stop : Nat} {name : List UInt8} : ReadsAsName payload offset name stop →
      stop + 10 + word payload (stop + 8) ≤ payload.length → IsAddress payload stop →
      AddressFollows payload (n + 1) offset
  | later {n offset stop : Nat} {name : List UInt8} : ReadsAsName payload offset name stop →
      stop + 10 + word payload (stop + 8) ≤ payload.length →
      AddressFollows payload n (stop + 10 + word payload (stop + 8)) → AddressFollows payload (n + 1) offset

section WellFormed
variable {msg : List UInt8}

private theorem dnsParseName_short {pos stop : Nat} {labels : List Rfc1035.Label}
    (h : Rfc1035.ShortNameAt msg pos labels stop) : dnsParseName msg pos = some (Rfc1035.text labels, stop) := by
  obtain ⟨hlen, n, hn, hat⟩ := h
  exact (dnsParseName_eq_some_iff _ _ _).mpr (readsAsName_of_nameAt hat hn hlen)

private theorem start_lt_of_name {pos stop : Nat} {name : List UInt8} (h : dnsParseName msg pos = some (name, stop)) :
    pos < msg.length := by
  obtain ⟨hlow, hhigh⟩ := (Checked.parseName_offset h).1 rfl
  omega

private theorem skipQuestions_sections {pos last : Nat} {questions : List (List Rfc1035.Label)}
    (h : Rfc1035.QuestionsAt msg pos questions last) : skipQuestions msg questions.length pos = some last := by
  induction h with
  | nil => rfl
  | cons hname _ _ ih =>
    have hparse := dnsParseName_short hname
    rw [List.length_cons, skipQuestions, if_pos (start_lt_of_name hparse), hparse]
    exact ih

private theorem answersFrom_sections {pos last : Nat} {records : List Rfc1035.Record}
    (h : Rfc1035.RecordsAt msg pos records last) :
    answersFrom msg records.length pos = records.filterMap recordAddress := by
  induction h with
  | nil => rfl
  | @cons pos stop last labels r records hname htype hclass hlength hbound hdata _ ih =>
    have hparse := dnsParseName_short hname
    have htype' : word msg stop = r.rtype := htype
    have hclass' : word msg (stop + 2) = r.rclass := hclass
    have hlength' : word msg (stop + 8) = r.data.length := hlength
    have hfixed : ¬ stop + 10 > msg.length := by omega
    have hrest : ¬ stop + 10 + r.data.length > msg.length := by omega
    rw [List.length_cons, answersFrom, if_pos (start_lt_of_name hparse), hparse]
    simp only
    rw [if_neg hfixed, htype', hclass', hlength', if_neg hrest, ih, List.filterMap_cons, recordAddress]
    by_cases ha : (r.rtype == 1 && r.rclass == 1 && r.data.length == 4) = true
    · have haddress : addressAt msg (stop + 10) = addressAt r.data 0 := by
        rw [← Checked.addressAt_copied msg, ← eq_of_beq (Bool.and_eq_true_iff.mp ha).2, hdata]
      rw [if_pos ha, if_pos ha, haddress]
    · rw [if_neg ha, if_neg ha]
      by_cases haaaa : (r.rtype == 28 && r.rclass == 1 && r.data.length == 16) = true
      · have haddress : addressV6At msg (stop + 10) = addressV6At r.data 0 := by
          rw [← Checked.addressV6At_copied msg, ← eq_of_beq (Bool.and_eq_true_iff.mp haaaa).2, hdata]
        rw [if_pos haaaa, if_pos haaaa, haddress]
      · rw [if_neg haaaa, if_neg haaaa]

end WellFormed

/-- A well-formed response stores the name of its first question for the address of each IN A and
IN AAAA record of its answers, in order, and nothing else. -/
theorem snoopDnsResponse_stores_answers {msg : List UInt8} {first : List Rfc1035.Label}
    {questions : List (List Rfc1035.Label)} {answers authority additional : List Rfc1035.Record}
    (h : Rfc1035.Response msg first questions answers authority additional) (s : DnsCaches) (now : Nat → UInt64) :
    s.snoopDnsResponse msg now (fun _ => true) =
      s.storeAll (Rfc1035.text first)
        ((answers.filterMap recordAddress).zipIdx.map (fun x => (x.1, now x.2, true))) := by
  obtain ⟨a, b, c, hquestions, hanswers, -, -⟩ := h.sections
  have hqdcount : word msg 4 = questions.length + 1 := h.qdcount
  have hancount : word msg 6 = answers.length := h.ancount
  have hflags : ¬ word msg 2 < 0x8000 := Nat.not_lt.mpr h.response
  have hrcode : word msg 2 % 16 = 0 := h.rcode
  have hheader : ¬ msg.length < 12 := Nat.not_lt.mpr h.header
  cases hquestions with
  | @cons _ stop _ _ _ hname _ hrest =>
    have hparse := dnsParseName_short hname
    have hskip := skipQuestions_sections hrest
    have hwalk := answersFrom_sections hanswers
    by_cases hnone : answers = []
    · subst hnone
      simp [DnsCaches.snoopDnsResponse, snoopDnsPayload, hancount, DnsCaches.storeAll]
    · have hcount : answers.length ≠ 0 := fun h0 => hnone (List.length_eq_zero_iff.mp h0)
      simp only [DnsCaches.snoopDnsResponse, snoopDnsPayload, if_neg hheader, if_neg hflags, hrcode, bne_self_eq_false,
        Bool.false_eq_true, if_false, hancount, beq_eq_false_iff_ne.mpr hcount, hparse, hqdcount, Nat.add_sub_cancel,
        hskip, hwalk, cText_text]

/-- The response for `a` with the address 1.2.3.4. -/
def sampleResponse : List UInt8 :=
  [0, 0, 0x80, 0, 0, 1, 0, 1, 0, 0, 0, 0, 1, 97, 0, 0, 1, 0, 1, 0xC0, 12, 0, 1, 0, 1, 0, 0, 0, 0, 0, 4, 1, 2, 3, 4]

theorem snoopDnsResponse_stores_answers_sample :
    DnsCaches.empty.snoopDnsResponse sampleResponse (fun _ => 7) (fun _ => true) =
      DnsCaches.empty.storeAll [97] [(.a 0x04030201, 7, true)] := by
  have hname : Rfc1035.NameAt sampleResponse 12 [⟨[97], by decide, by decide, by decide⟩] 0 15 :=
    .label rfl rfl (.root rfl)
  have hresponse : Rfc1035.Response sampleResponse [⟨[97], by decide, by decide, by decide⟩] []
      [⟨1, 1, [1, 2, 3, 4]⟩] [] [] := by
    refine ⟨by decide, by decide, rfl, rfl, rfl, rfl, rfl, by decide, 19, 35, 35, ?_, ?_, .nil, .nil⟩
    · exact .cons ⟨by decide, 0, by decide, hname⟩ (by decide) .nil
    · have hpointer : 12 < 16384 := by decide
      exact .cons ⟨by decide, 1, by decide, .pointer hpointer rfl rfl hname⟩ rfl rfl rfl (by decide) rfl .nil
  exact snoopDnsResponse_stores_answers hresponse DnsCaches.empty (fun _ => 7)

section WithoutQuestion
variable {payload : List UInt8}

private theorem isAddress_iff (stop : Nat) : IsAddress payload stop ↔
    (word payload stop == 1 && word payload (stop + 2) == 1 && word payload (stop + 8) == 4) = true ∨
    (word payload stop == 28 && word payload (stop + 2) == 1 && word payload (stop + 8) == 16) = true := by
  simp only [IsAddress, Bool.and_eq_true, beq_iff_eq]
  constructor
  · rintro ⟨hclass, ⟨htype, hlen⟩ | ⟨htype, hlen⟩⟩
    · exact .inl ⟨⟨htype, hclass⟩, hlen⟩
    · exact .inr ⟨⟨htype, hclass⟩, hlen⟩
  · rintro (⟨⟨htype, hclass⟩, hlen⟩ | ⟨⟨htype, hclass⟩, hlen⟩)
    · exact ⟨hclass, .inl ⟨htype, hlen⟩⟩
    · exact ⟨hclass, .inr ⟨htype, hlen⟩⟩

private theorem readsAsName_unique {offset stop stop' : Nat} {name name' : List UInt8}
    (hname : dnsParseName payload offset = some (name, stop)) (h : ReadsAsName payload offset name' stop') :
    stop' = stop := by
  have heq := (dnsParseName_eq_some_iff _ _ _).mpr h
  rw [hname] at heq
  exact (Prod.mk.inj (Option.some.inj heq)).2.symm

private theorem not_addressFollows {offset : Nat} (hname : dnsParseName payload offset = none) (n : Nat) :
    ¬ AddressFollows payload n offset := by
  have hno {name : List UInt8} {stop : Nat} (h : ReadsAsName payload offset name stop) : False := by
    rw [(dnsParseName_eq_some_iff _ _ _).mpr h] at hname
    cases hname
  intro h
  cases h with
  | here hreads _ _ => exact hno hreads
  | later hreads _ _ => exact hno hreads

/-- An address follows in the next record or behind it. -/
private theorem addressFollows_succ_iff {offset stop : Nat} {name : List UInt8}
    (hname : dnsParseName payload offset = some (name, stop)) (n : Nat) :
    AddressFollows payload (n + 1) offset ↔ stop + 10 + word payload (stop + 8) ≤ payload.length ∧
      (IsAddress payload stop ∨ AddressFollows payload n (stop + 10 + word payload (stop + 8))) := by
  have hreads := (dnsParseName_eq_some_iff _ _ _).mp hname
  constructor
  · intro h
    cases h with
    | here hreads' hlen haddress =>
      obtain rfl := readsAsName_unique hname hreads'
      exact ⟨hlen, .inl haddress⟩
    | later hreads' hlen hrest =>
      obtain rfl := readsAsName_unique hname hreads'
      exact ⟨hlen, .inr hrest⟩
  · rintro ⟨hlen, haddress | hrest⟩
    · exact .here hreads hlen haddress
    · exact .later hreads hlen hrest

/-- The walk over the answers finds an address if one follows. -/
private theorem answersFrom_ne_nil_iff (n offset : Nat) :
    answersFrom payload n offset ≠ [] ↔ AddressFollows payload n offset := by
  induction n generalizing offset with
  | zero =>
    constructor
    · intro h
      exact absurd rfl h
    · intro h
      cases h
  | succ n ih =>
    cases hname : dnsParseName payload offset with
    | none =>
      have hnil : answersFrom payload (n + 1) offset = [] := by
        rw [answersFrom, hname]
        simp
      rw [hnil]
      exact iff_of_false (fun h => h rfl) (not_addressFollows hname _)
    | some v =>
      obtain ⟨name, stop⟩ := v
      rw [addressFollows_succ_iff hname, isAddress_iff, ← ih, answersFrom, if_pos (start_lt_of_name hname), hname]
      simp only
      by_cases hfixed : stop + 10 > payload.length
      · rw [if_pos hfixed]
        constructor
        · intro h
          exact absurd rfl h
        · rintro ⟨hlen, -⟩
          omega
      · rw [if_neg hfixed]
        by_cases hdata : stop + 10 + word payload (stop + 8) > payload.length
        · rw [if_pos hdata]
          constructor
          · intro h
            exact absurd rfl h
          · rintro ⟨hlen, -⟩
            omega
        · rw [if_neg hdata]
          have hlen : stop + 10 + word payload (stop + 8) ≤ payload.length := Nat.not_lt.mp hdata
          by_cases ha : (word payload stop == 1 && word payload (stop + 2) == 1 && word payload (stop + 8) == 4) = true
          · simp [ha, hlen]
          · rw [if_neg ha]
            by_cases haaaa : (word payload stop == 28 && word payload (stop + 2) == 1 &&
                word payload (stop + 8) == 16) = true
            · simp [haaaa, hlen]
            · rw [if_neg haaaa]
              simp [ha, haaaa, hlen]

private theorem store_nothing (s : DnsCaches) (answers : List (DnsAnswer × UInt64 × Bool)) :
    s.storeAll [] answers = s := by
  induction answers generalizing s with
  | nil => rfl
  | cons x answers ih =>
    obtain ⟨answer, now, allocated⟩ := x
    have hstore : s.store now allocated [] answer = s := by
      cases answer with
      | a ip => simp [DnsCaches.store, dnsChainStore]
      | aaaa ip6 => simp [DnsCaches.store, dnsChainStore]
    rw [DnsCaches.storeAll, hstore]
    exact ih s

/-- What stores an address although no question was asked: behind the header the bytes are read as
a name that is not empty and, four bytes further on, as records with an address among them. -/
def StoresUnasked (payload : List UInt8) : Prop :=
  word payload 2 % 16 = 0 ∧ ∃ name stop, ReadsAsName payload 12 name stop ∧ cText name ≠ [] ∧
    AddressFollows payload (word payload 6) (stop + 4)

/-- The walk over a response without a question. -/
private theorem snoop_unasked (hlen : 12 ≤ payload.length) (hqr : 0x8000 ≤ word payload 2) (hqd : word payload 4 = 0) :
    snoopDnsPayload payload =
      if word payload 2 % 16 = 0 ∧ word payload 6 ≠ 0 then
        (dnsParseName payload 12).map (fun v => (v.1, answersFrom payload (word payload 6) (v.2 + 4)))
      else none := by
  unfold snoopDnsPayload
  rw [if_neg (Nat.not_lt.mpr hlen), if_neg (Nat.not_lt.mpr hqr), hqd]
  by_cases hrcode : word payload 2 % 16 = 0
  · by_cases hcount : word payload 6 = 0
    · simp [hrcode, hcount]
    · cases hname : dnsParseName payload 12 with
      | none => simp [hrcode, hcount]
      | some v => simp [hrcode, hcount, skipQuestions]
  · simp [hrcode]

private theorem unchanged_of_not_stores (hlen : 12 ≤ payload.length) (hqr : 0x8000 ≤ word payload 2)
    (hqd : word payload 4 = 0) (h : ¬ StoresUnasked payload) (s : DnsCaches) (now : Nat → UInt64)
    (malloc : Nat → Bool) : s.snoopDnsResponse payload now malloc = s := by
  rw [DnsCaches.snoopDnsResponse, snoop_unasked hlen hqr hqd]
  by_cases hwalk : word payload 2 % 16 = 0 ∧ word payload 6 ≠ 0
  · rw [if_pos hwalk]
    cases hname : dnsParseName payload 12 with
    | none => rfl
    | some v =>
      obtain ⟨name, stop⟩ := v
      simp only [Option.map_some]
      by_cases hempty : cText name = []
      · rw [hempty, store_nothing]
      · have hnil : answersFrom payload (word payload 6) (stop + 4) = [] := by
          by_contra hne
          exact h ⟨hwalk.1, name, stop, (dnsParseName_eq_some_iff _ _ _).mp hname, hempty,
            (answersFrom_ne_nil_iff _ _).mp hne⟩
        rw [hnil]
        rfl
  · rw [if_neg hwalk]

private theorem changed_of_stores (hlen : 12 ≤ payload.length) (hqr : 0x8000 ≤ word payload 2)
    (hqd : word payload 4 = 0) (h : StoresUnasked payload) :
    DnsCaches.empty.snoopDnsResponse payload (fun _ => 0) (fun _ => true) ≠ DnsCaches.empty := by
  obtain ⟨hrcode, name, stop, hreads, hname, hfollows⟩ := h
  have hcount : word payload 6 ≠ 0 := by
    intro h0
    rw [h0] at hfollows
    cases hfollows
  have hparse := (dnsParseName_eq_some_iff _ _ _).mpr hreads
  obtain ⟨answer, answers, hanswers⟩ := List.exists_cons_of_ne_nil ((answersFrom_ne_nil_iff _ _).mpr hfollows)
  rw [DnsCaches.snoopDnsResponse, snoop_unasked hlen hqr hqd, if_pos ⟨hrcode, hcount⟩, hparse]
  simp only [Option.map_some, hanswers]
  intro hsame
  have hall : ∀ x ∈ (answer :: answers).zipIdx.map (fun x => (x.1, (0 : UInt64), true)),
      (0 : UInt64) < x.2.1 + dnsCacheTtlMs ∧ x.2.2 = true := by
    intro x hx
    obtain ⟨y, -, rfl⟩ := List.mem_map.mp hx
    exact ⟨(by decide : (0 : UInt64) < 0 + dnsCacheTtlMs), rfl⟩
  have hfound := DnsCaches.empty.lookup_storeAll 0 hname answer _ hall (.inr (by simp [List.zipIdx_cons]))
  rw [hsame] at hfound
  cases answer with
  | a ip => cases hfound
  | aaaa ip6 => cases hfound

end WithoutQuestion

/-- A response without a question stores nothing exactly when its bytes are not read as a name and
an address behind it. -/
theorem snoopDnsResponse_unasked_iff {payload : List UInt8} (hlen : 12 ≤ payload.length) (hqr : 0x8000 ≤ word payload 2)
    (hqd : word payload 4 = 0) :
    (∀ (s : DnsCaches) (now : Nat → UInt64) (malloc : Nat → Bool), s.snoopDnsResponse payload now malloc = s) ↔
      ¬ StoresUnasked payload := by
  constructor
  · intro h hstores
    exact changed_of_stores hlen hqr hqd hstores (h _ _ _)
  · exact unchanged_of_not_stores hlen hqr hqd

/-- A response without a question, whose bytes are the name `a`, four bytes and a record with the
address 1.2.3.4. -/
def unaskedResponse : List UInt8 :=
  [0, 0, 0x80, 0, 0, 0, 0, 1, 0, 0, 0, 0, 1, 97, 0, 0, 1, 0, 1, 0, 0, 1, 0, 1, 0, 0, 0, 0, 0, 4, 1, 2, 3, 4]

private theorem unaskedResponse_lookup :
    (DnsCaches.empty.snoopDnsResponse unaskedResponse (fun _ => 7) (fun _ => true)).lookup 7 (.a 0x04030201) =
      some [97] := by
  have hpayload : snoopDnsPayload unaskedResponse = some ([97], [.a 0x04030201]) := by decide
  rw [DnsCaches.snoopDnsResponse, hpayload]
  have hdomain : ([97] : List UInt8) ≠ [] := by decide
  exact DnsCaches.empty.lookup_storeAll 7 hdomain (.a 0x04030201) _ (by decide) (.inr (by decide))

/-- What it stores shows that its bytes are read so. -/
theorem snoopDnsResponse_unasked_iff_record : StoresUnasked unaskedResponse := by
  by_contra hnot
  have hsame := (snoopDnsResponse_unasked_iff (by decide) (by decide) rfl).mpr hnot
    DnsCaches.empty (fun _ => 7) (fun _ => true)
  have hstored := unaskedResponse_lookup
  rw [hsame] at hstored
  cases hstored

/-- It has no question, and yet `a` is stored for 1.2.3.4. -/
theorem unaskedResponse_stores :
    0x8000 ≤ word unaskedResponse 2 ∧ word unaskedResponse 4 = 0 ∧
    (DnsCaches.empty.snoopDnsResponse unaskedResponse (fun _ => 7) (fun _ => true)).lookup 7 (.a 0x04030201) =
      some [97] :=
  ⟨by decide, rfl, unaskedResponse_lookup⟩

end ProxyBridge.Windows
