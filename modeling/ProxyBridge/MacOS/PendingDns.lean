import ProxyBridge.Library.QueueMaps
import ProxyBridge.Library.Runs

/-! The endpoints that an association remembers for the DNS queries it has relayed, by transaction. The
key that is evicted when there are too many is whichever comes first in the dictionary. -/
namespace ProxyBridge.MacOS
open QueueMaps Runs
variable {α : Type}

/-- The endpoints of a `UDPAssociation`. -/
structure PendingDns (α : Type) where
  dnsEndpoints : QueueMap UInt16 α
  pendingDnsEndpointCount : Int

namespace PendingDns

def init : PendingDns α := ⟨∅, 0⟩

/-- `removeValue(forKey:)` of the key that is first, and what it takes off the count. -/
def evict (a : PendingDns α) (first : Option UInt16) : PendingDns α :=
  match first with
  | none => a
  | some stale =>
    match a.dnsEndpoints.lookup stale with
    | none => a
    | some removed => ⟨a.dnsEndpoints.erase stale, a.pendingDnsEndpointCount - removed.length⟩

/-- `first` is `dnsEndpoints.keys.first`. -/
def rememberDnsEndpoint (a : PendingDns α) (endpoint : α) (transactionID : UInt16) (first : Option UInt16) :
    PendingDns α :=
  let a := if a.pendingDnsEndpointCount ≥ 512 then a.evict first else a
  ⟨a.dnsEndpoints.insert transactionID (queue a.dnsEndpoints transactionID ++ [endpoint]),
    a.pendingDnsEndpointCount + 1⟩

def takeDnsEndpoint (a : PendingDns α) (transactionID : UInt16) : Option α × PendingDns α :=
  match a.dnsEndpoints.lookup transactionID with
  | none => (none, a)
  | some [] => (none, a)
  | some (endpoint :: endpoints) =>
    let dnsEndpoints :=
      if endpoints.isEmpty then a.dnsEndpoints.erase transactionID
      else a.dnsEndpoints.insert transactionID endpoints
    (some endpoint, ⟨dnsEndpoints, a.pendingDnsEndpointCount - 1⟩)

/-- What `keys.first` may be: none of an empty dictionary, and any key of another. -/
def MayBeFirst (a : PendingDns α) (first : Option UInt16) : Prop :=
  match first with
  | none => a.dnsEndpoints.keys = []
  | some k => k ∈ a.dnsEndpoints.keys

instance (a : PendingDns α) (first : Option UInt16) : Decidable (a.MayBeFirst first) :=
  match first with
  | none => inferInstanceAs (Decidable (a.dnsEndpoints.keys = []))
  | some k => inferInstanceAs (Decidable (k ∈ a.dnsEndpoints.keys))

end PendingDns

/-- How an endpoint that was remembered went away. -/
inductive Fate where
  | taken
  | evicted
  deriving DecidableEq

/-- The endpoints with their history: all that were remembered for a transaction, how the first of them
went away, and what was returned for it. -/
structure EndpointHistory (α : Type) where
  pending : PendingDns α
  remembered : UInt16 → List α
  fates : UInt16 → List Fate
  answers : UInt16 → List α

inductive EndpointCall (α : Type) where
  | rememberDnsEndpoint (endpoint : α) (transactionID : UInt16) (first : Option UInt16)
  | takeDnsEndpoint (transactionID : UInt16)

namespace EndpointHistory

def init : EndpointHistory α := ⟨.init, fun _ => [], fun _ => [], fun _ => []⟩

/-- The eviction takes away all that its key has. -/
def evicted (h : EndpointHistory α) (first : Option UInt16) (k : UInt16) : List Fate :=
  if h.pending.pendingDnsEndpointCount ≥ 512 ∧ first = some k then
    List.replicate (queue h.pending.dnsEndpoints k).length .evicted
  else []

def step (h : EndpointHistory α) : EndpointCall α → Option (EndpointHistory α)
  | .rememberDnsEndpoint endpoint transactionID first =>
    if h.pending.MayBeFirst first then
      some {
        pending := h.pending.rememberDnsEndpoint endpoint transactionID first
        remembered := fun k => h.remembered k ++ if k = transactionID then [endpoint] else []
        fates := fun k => h.fates k ++ h.evicted first k
        answers := h.answers }
    else none
  | .takeDnsEndpoint transactionID =>
    let (answer, pending) := h.pending.takeDnsEndpoint transactionID
    some {
      pending
      remembered := h.remembered
      fates := fun k => h.fates k ++ if k = transactionID ∧ answer.isSome then [.taken] else []
      answers := fun k => h.answers k ++ if k = transactionID then answer.toList else [] }

/-- The endpoints that were taken, in order. -/
def takenOf (remembered : List α) (fates : List Fate) : List α :=
  ((remembered.zip fates).filter (fun x => x.2 = .taken)).map (·.1)

/-- What holds of the endpoints and of their history: nothing was passed over. -/
structure Kept (h : EndpointHistory α) : Prop where
  count : h.pending.pendingDnsEndpointCount = total h.pending.dnsEndpoints
  bounded : total h.pending.dnsEndpoints ≤ 512
  noEmpty : NoEmpty h.pending.dnsEndpoints
  order (k : UInt16) : ∃ gone, h.remembered k = gone ++ queue h.pending.dnsEndpoints k ∧
    gone.length = (h.fates k).length ∧ h.answers k = takenOf gone (h.fates k)

private theorem takenOf_append {gone : List α} {fates : List Fate} (hlen : gone.length = fates.length)
    (more : List α) (moreFates : List Fate) :
    takenOf (gone ++ more) (fates ++ moreFates) = takenOf gone fates ++ takenOf more moreFates := by
  rw [takenOf, List.zip_append hlen, List.filter_append, List.map_append]
  rfl

private theorem takenOf_evicted (more : List α) (n : Nat) : takenOf more (List.replicate n .evicted) = [] := by
  rw [takenOf, List.map_eq_nil_iff, List.filter_eq_nil_iff]
  intro x hx
  have hfate := List.eq_of_mem_replicate (List.of_mem_zip hx).2
  simp [hfate]

namespace Kept
variable {h : EndpointHistory α}

theorem init : (EndpointHistory.init : EndpointHistory α).Kept where
  count := rfl
  bounded := Nat.zero_le _
  noEmpty := NoEmpty.empty
  order _ := ⟨[], rfl, rfl, rfl⟩

/-- The eviction leaves room for one more, and takes whole queues away. -/
private theorem evict (hk : h.Kept) {first : Option UInt16} (hfirst : h.pending.MayBeFirst first) :
    let a := if h.pending.pendingDnsEndpointCount ≥ 512 then h.pending.evict first else h.pending
    a.pendingDnsEndpointCount = total a.dnsEndpoints ∧ total a.dnsEndpoints < 512 ∧ NoEmpty a.dnsEndpoints ∧
      ∀ k, (queue a.dnsEndpoints k = queue h.pending.dnsEndpoints k ∧ h.evicted first k = []) ∨
        queue a.dnsEndpoints k = [] ∧
          h.evicted first k = List.replicate (queue h.pending.dnsEndpoints k).length .evicted := by
  have hcount := hk.count
  by_cases hfull : h.pending.pendingDnsEndpointCount ≥ 512
  · rw [if_pos hfull]
    cases first with
    | none =>
      have hzero : total h.pending.dnsEndpoints = 0 := total_eq_zero hfirst
      omega
    | some stale =>
      obtain ⟨removed, hremoved⟩ := Option.isSome_iff_exists.mp (AList.lookup_isSome.mpr hfirst)
      have hqueue : queue h.pending.dnsEndpoints stale = removed := by rw [queue, hremoved]; rfl
      have htotal := total_erase h.pending.dnsEndpoints stale
      have hpos : 0 < removed.length := List.length_pos_of_ne_nil (hk.noEmpty stale removed hremoved)
      have hbounded := hk.bounded
      rw [hqueue] at htotal
      simp only [PendingDns.evict, hremoved]
      refine ⟨by omega, by omega, hk.noEmpty.erase stale, ?_⟩
      intro k
      rw [queue_erase]
      by_cases he : k = stale
      · subst he
        exact .inr ⟨if_pos rfl, if_pos ⟨hfull, rfl⟩⟩
      · exact .inl ⟨if_neg he, if_neg (fun hs => he (Option.some.inj hs.2).symm)⟩
  · rw [if_neg hfull]
    exact ⟨hcount, by omega, hk.noEmpty, fun k => .inl ⟨rfl, if_neg (fun he => hfull he.1)⟩⟩

private theorem remember (hk : h.Kept) (endpoint : α) (transactionID : UInt16) {first : Option UInt16}
    (hfirst : h.pending.MayBeFirst first) :
    Kept {
      pending := h.pending.rememberDnsEndpoint endpoint transactionID first
      remembered := fun k => h.remembered k ++ if k = transactionID then [endpoint] else []
      fates := fun k => h.fates k ++ h.evicted first k
      answers := h.answers } := by
  obtain ⟨hcount, hroom, hnone, hqueues⟩ := hk.evict hfirst
  simp only [PendingDns.rememberDnsEndpoint]
  generalize (if h.pending.pendingDnsEndpointCount ≥ 512 then h.pending.evict first else h.pending) = a at *
  have htotal := total_insert a.dnsEndpoints transactionID (queue a.dnsEndpoints transactionID ++ [endpoint])
  rw [List.length_append, List.length_singleton] at htotal
  refine ⟨?_, ?_, hnone.insert transactionID (by simp), ?_⟩
  · change a.pendingDnsEndpointCount + 1 =
      total (a.dnsEndpoints.insert transactionID (queue a.dnsEndpoints transactionID ++ [endpoint]))
    omega
  · change total (a.dnsEndpoints.insert transactionID (queue a.dnsEndpoints transactionID ++ [endpoint])) ≤ 512
    omega
  · intro k
    obtain ⟨gone, hremembered, hlen, hanswers⟩ := hk.order k
    change ∃ gone', h.remembered k ++ (if k = transactionID then [endpoint] else []) = gone' ++
      queue (a.dnsEndpoints.insert transactionID (queue a.dnsEndpoints transactionID ++ [endpoint])) k ∧
      gone'.length = (h.fates k ++ h.evicted first k).length ∧
      h.answers k = takenOf gone' (h.fates k ++ h.evicted first k)
    have hput : queue (a.dnsEndpoints.insert transactionID (queue a.dnsEndpoints transactionID ++ [endpoint])) k =
        queue a.dnsEndpoints k ++ if k = transactionID then [endpoint] else [] := by
      rw [queue_insert]
      by_cases he : k = transactionID
      · subst he
        rw [if_pos rfl, if_pos rfl]
      · rw [if_neg he, if_neg he, List.append_nil]
    rw [hput, hremembered]
    rcases hqueues k with ⟨hsame, hnothing⟩ | ⟨hempty, hall⟩
    · refine ⟨gone, by rw [hsame, List.append_assoc], ?_, ?_⟩
      · rw [hnothing, List.append_nil, hlen]
      · rw [hnothing, List.append_nil, hanswers]
    · refine ⟨gone ++ queue h.pending.dnsEndpoints k, by rw [hempty, List.nil_append], ?_, ?_⟩
      · rw [hall, List.length_append, List.length_append, List.length_replicate, hlen]
      · rw [hall, takenOf_append hlen, takenOf_evicted, List.append_nil, hanswers]

end Kept

end EndpointHistory

namespace PendingDns
variable {a : PendingDns α} {transactionID : UInt16}

theorem takeDnsEndpoint_nil (h : queue a.dnsEndpoints transactionID = []) :
    a.takeDnsEndpoint transactionID = (none, a) := by
  rw [takeDnsEndpoint]
  rw [queue] at h
  cases hq : a.dnsEndpoints.lookup transactionID with
  | none => rfl
  | some q =>
    rw [hq] at h
    obtain rfl : q = [] := h
    rfl

theorem takeDnsEndpoint_cons {endpoint : α} {endpoints : List α}
    (h : queue a.dnsEndpoints transactionID = endpoint :: endpoints) :
    ∃ dnsEndpoints, a.takeDnsEndpoint transactionID = (some endpoint, ⟨dnsEndpoints, a.pendingDnsEndpointCount - 1⟩) ∧
      (∀ k, queue dnsEndpoints k = if k = transactionID then endpoints else queue a.dnsEndpoints k) ∧
      total dnsEndpoints + 1 = total a.dnsEndpoints ∧ (NoEmpty a.dnsEndpoints → NoEmpty dnsEndpoints) := by
  have hq : a.dnsEndpoints.lookup transactionID = some (endpoint :: endpoints) := by
    rw [queue] at h
    cases hq : a.dnsEndpoints.lookup transactionID with
    | none =>
      rw [hq] at h
      cases h
    | some q =>
      rw [hq] at h
      exact congrArg some h
  rw [takeDnsEndpoint, hq]
  refine ⟨_, rfl, ?_⟩
  cases endpoints with
  | nil =>
    have htotal := total_erase a.dnsEndpoints transactionID
    rw [h, List.length_singleton] at htotal
    rw [List.isEmpty_nil, if_pos rfl]
    exact ⟨fun k => queue_erase .., by omega, fun hnone => hnone.erase transactionID⟩
  | cons e es =>
    have htotal := total_insert a.dnsEndpoints transactionID (e :: es)
    rw [h, List.length_cons (a := endpoint)] at htotal
    rw [List.isEmpty_cons, if_neg Bool.false_ne_true]
    exact ⟨fun k => queue_insert .., by omega, fun hnone => hnone.insert transactionID (List.cons_ne_nil e es)⟩

end PendingDns

namespace EndpointHistory.Kept
variable {h : EndpointHistory α}

private theorem take (hk : h.Kept) (transactionID : UInt16) :
    Kept {
      pending := (h.pending.takeDnsEndpoint transactionID).2
      remembered := h.remembered
      fates := fun k =>
        h.fates k ++ if k = transactionID ∧ (h.pending.takeDnsEndpoint transactionID).1.isSome then [.taken] else []
      answers := fun k =>
        h.answers k ++ if k = transactionID then (h.pending.takeDnsEndpoint transactionID).1.toList else [] } := by
  cases hq : queue h.pending.dnsEndpoints transactionID with
  | nil =>
    rw [PendingDns.takeDnsEndpoint_nil hq]
    simpa using hk
  | cons endpoint endpoints =>
    obtain ⟨dnsEndpoints, htake, hqueues, htotal, hnone⟩ := PendingDns.takeDnsEndpoint_cons hq
    have hcount := hk.count
    have hbounded := hk.bounded
    rw [htake]
    refine ⟨?_, ?_, hnone hk.noEmpty, ?_⟩
    · change h.pending.pendingDnsEndpointCount - 1 = total dnsEndpoints
      omega
    · change total dnsEndpoints ≤ 512
      omega
    · intro k
      obtain ⟨gone, hremembered, hlen, hanswers⟩ := hk.order k
      change ∃ gone', h.remembered k = gone' ++ queue dnsEndpoints k ∧
        gone'.length = (h.fates k ++ if k = transactionID ∧ (some endpoint).isSome then [Fate.taken] else []).length ∧
        h.answers k ++ (if k = transactionID then (some endpoint).toList else []) =
          takenOf gone' (h.fates k ++ if k = transactionID ∧ (some endpoint).isSome then [Fate.taken] else [])
      rw [hqueues]
      by_cases he : k = transactionID
      · subst he
        rw [hq] at hremembered
        refine ⟨gone ++ [endpoint], ?_, ?_, ?_⟩
        · rw [if_pos rfl, hremembered, List.append_assoc, List.singleton_append]
        · simp [hlen]
        · simp only [Option.isSome_some, and_self, if_true, Option.toList_some]
          rw [takenOf_append hlen, hanswers]
          rfl
      · refine ⟨gone, ?_, ?_, ?_⟩
        · rw [if_neg he, hremembered]
        · simp [he, hlen]
        · simp [he, hanswers]

theorem step (hk : h.Kept) {call : EndpointCall α} {h' : EndpointHistory α} (hs : h.step call = some h') : h'.Kept := by
  cases call with
  | rememberDnsEndpoint endpoint transactionID first =>
    rw [EndpointHistory.step] at hs
    split at hs
    · rename_i hfirst
      obtain rfl := Option.some.inj hs
      exact hk.remember endpoint transactionID hfirst
    · cases hs
  | takeDnsEndpoint transactionID =>
    obtain rfl := Option.some.inj hs
    exact hk.take transactionID

end EndpointHistory.Kept

/-- In every run the count is that of the stored endpoints and at most 512, no transaction has an empty
queue, and the endpoints remembered for a transaction go away from the front: those taken are returned
in order, once each, and the next one is the first that was neither taken nor evicted. -/
theorem dns_endpoints_taken_in_order {h : EndpointHistory α}
    (hr : Reach EndpointHistory.step (fun _ _ => True) .init h) :
    h.pending.pendingDnsEndpointCount = total h.pending.dnsEndpoints ∧ h.pending.pendingDnsEndpointCount ≤ 512 ∧
    NoEmpty h.pending.dnsEndpoints ∧
    ∀ k, h.answers k = EndpointHistory.takenOf (h.remembered k) (h.fates k) ∧
      (h.fates k).length ≤ (h.remembered k).length ∧
      (h.pending.takeDnsEndpoint k).1 = (h.remembered k)[(h.fates k).length]? ∧
      ((h.pending.takeDnsEndpoint k).1 = none ↔ (h.fates k).length = (h.remembered k).length) := by
  have hk : h.Kept := hr.invariant EndpointHistory.Kept.init (fun _ _ _ hk _ hs => hk.step hs)
  have hcount := hk.count
  have hbounded := hk.bounded
  refine ⟨hcount, by omega, hk.noEmpty, ?_⟩
  intro k
  obtain ⟨gone, hremembered, hlen, hanswers⟩ := hk.order k
  have htaken := EndpointHistory.takenOf_append hlen (queue h.pending.dnsEndpoints k) []
  rw [List.append_nil, ← hremembered] at htaken
  have hnext : (h.pending.takeDnsEndpoint k).1 = (queue h.pending.dnsEndpoints k).head? := by
    cases hq : queue h.pending.dnsEndpoints k with
    | nil => rw [PendingDns.takeDnsEndpoint_nil hq]; rfl
    | cons e es =>
      obtain ⟨d, htake, -⟩ := PendingDns.takeDnsEndpoint_cons hq
      rw [htake]
      rfl
  refine ⟨?_, ?_, ?_, ?_⟩
  · rw [hanswers, htaken]
    simp [EndpointHistory.takenOf]
  · rw [hremembered, List.length_append, hlen]
    exact Nat.le_add_right _ _
  · rw [hnext, hremembered, ← hlen, List.getElem?_append_right (Nat.le_refl _), Nat.sub_self, List.head?_eq_getElem?]
  · rw [hnext, hremembered, List.length_append, ← hlen, List.head?_eq_none_iff, ← List.length_eq_zero_iff]
    omega

/-- After `n + 1` queries of transaction 7, none of which was answered. -/
structure Filled (n : Nat) (h : EndpointHistory Nat) : Prop where
  key : 7 ∈ h.pending.dnsEndpoints.keys
  queued : queue h.pending.dnsEndpoints 7 = List.replicate (n + 1) 1
  count : h.pending.pendingDnsEndpointCount = n + 1
  remembered : ∀ k, h.remembered k = if k = 7 then List.replicate (n + 1) 1 else []
  fates : ∀ k, h.fates k = []
  answers : ∀ k, h.answers k = []

private theorem exists_filled (n : Nat) (hn : n < 512) :
    ∃ h : EndpointHistory Nat, Reach EndpointHistory.step (fun _ _ => True) .init h ∧ Filled n h := by
  induction n with
  | zero =>
    refine ⟨_, Reach.start.next (a := .rememberDnsEndpoint 1 7 none) trivial rfl, by decide, rfl, rfl, fun k => ?_,
      fun _ => rfl, fun _ => rfl⟩
    exact List.nil_append _
  | succ n ih =>
    obtain ⟨h, hr, hkey, hqueued, hcount, hremembered, hfates, hanswers⟩ := ih (by omega)
    have hroom : ¬ h.pending.pendingDnsEndpointCount ≥ 512 := by omega
    refine ⟨_, hr.next (a := .rememberDnsEndpoint 1 7 (some 7)) trivial (if_pos hkey), ?_, ?_, ?_, fun k => ?_,
      fun k => ?_, hanswers⟩
    · rw [PendingDns.rememberDnsEndpoint, if_neg hroom]
      exact (AList.mem_insert h.pending.dnsEndpoints).mpr (.inl rfl)
    · rw [PendingDns.rememberDnsEndpoint, if_neg hroom]
      rw [queue_insert, if_pos rfl, hqueued, ← List.replicate_succ']
    · rw [PendingDns.rememberDnsEndpoint, if_neg hroom]
      rw [hcount]
      rfl
    · simp only [hremembered]
      split
      · rw [← List.replicate_succ']
      · rfl
    · simp only [hfates, EndpointHistory.evicted, hroom, false_and, if_false, List.append_nil]

/-- The queue of one transaction is full, and the query of another one evicts all of it: no answer to the first
transaction is delivered any more. -/
theorem dns_endpoints_taken_in_order_evicted :
    ∃ h : EndpointHistory Nat, Reach EndpointHistory.step (fun _ _ => True) .init h ∧
      h.remembered 7 = List.replicate 512 1 ∧ h.fates 7 = List.replicate 512 .evicted ∧
      (h.pending.takeDnsEndpoint 7).1 = none ∧ (h.pending.takeDnsEndpoint 8).1 = some 2 := by
  obtain ⟨h, hr, hkey, hqueued, hcount, hremembered, hfates, hanswers⟩ := exists_filled 511 (by decide)
  have hfull : h.pending.pendingDnsEndpointCount ≥ 512 := by omega
  have hrun : Reach EndpointHistory.step (fun _ _ => True) .init _ :=
    hr.next (a := .rememberDnsEndpoint 2 8 (some 7)) trivial (if_pos hkey)
  obtain ⟨-, -, -, hfifo⟩ := dns_endpoints_taken_in_order hrun
  have hold : h.remembered 7 ++ (if (7 : UInt16) = 8 then [2] else []) = List.replicate 512 1 := by
    rw [hremembered, if_pos rfl, if_neg (by decide), List.append_nil]
  have hgone : h.fates 7 ++ h.evicted (some 7) 7 = List.replicate 512 .evicted := by
    rw [hfates, List.nil_append, EndpointHistory.evicted, if_pos ⟨hfull, rfl⟩, hqueued, List.length_replicate]
  have hnew : h.remembered 8 ++ (if (8 : UInt16) = 8 then [2] else []) = [2] := by
    rw [hremembered, if_neg (by decide), if_pos rfl, List.nil_append]
  have hnone : h.fates 8 ++ h.evicted (some 7) 8 = [] := by
    rw [hfates, List.nil_append, EndpointHistory.evicted, if_neg (fun hs => by cases hs.2)]
  refine ⟨_, hrun, hold, hgone, (hfifo 7).2.2.2.mpr ?_, (hfifo 8).2.2.1.trans ?_⟩
  · change (h.fates 7 ++ h.evicted (some 7) 7).length = (h.remembered 7 ++ _).length
    rw [hgone, hold, List.length_replicate, List.length_replicate]
  · change (h.remembered 8 ++ if (8 : UInt16) = 8 then [2] else [])[(h.fates 8 ++ h.evicted (some 7) 8).length]? =
      some 2
    rw [hnew, hnone]
    rfl

end ProxyBridge.MacOS
