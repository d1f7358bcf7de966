import ProxyBridge.Library.ByteStreams

/-! The username and password message of the SOCKS5 handshakes on macOS. The handshakes of TCP and
of UDP flows build it separately. -/
namespace ProxyBridge.Handshake

/-- A `Character` of Swift: the scalars of a grapheme cluster. -/
structure GraphemeCluster where
  scalars : List Char
  nonempty : scalars ≠ []
  deriving DecidableEq

def GraphemeCluster.utf8 (c : GraphemeCluster) : List UInt8 := c.scalars.flatMap String.utf8EncodeChar

/-- A string of Swift, whose `count` is the number of its characters. -/
abbrev SwiftString := List GraphemeCluster

def SwiftString.utf8 (s : SwiftString) : List UInt8 := s.flatMap GraphemeCluster.utf8

/-- The message is written, the handshake is given up, or the extension is stopped by a trap. -/
inductive AuthResult where
  | written (authData : List UInt8)
  | failed
  | trapped
  deriving DecidableEq

def authMessage (userCount passCount : Nat) (user pass : List UInt8) : List UInt8 :=
  [0x01] ++ [userCount.toUInt8] ++ user ++ [passCount.toUInt8] ++ pass

/-- `UInt8(username.count)` traps if the count does not fit. -/
def sendSOCKS5Auth (username password : SwiftString) : AuthResult :=
  if username.length ≤ 255 ∧ password.length ≤ 255 then
    .written (authMessage username.length password.length username.utf8 password.utf8)
  else .trapped

def sendSOCKS5UDPAuth (username password : SwiftString) : AuthResult :=
  let user := username.utf8
  let pass := password.utf8
  if user.length ≤ 255 ∧ pass.length ≤ 255 then .written (authMessage user.length pass.length user pass)
  else .failed

/-! What the message is for. -/

/-- The fields of a message, which have their lengths in front of them and fill it. -/
def decodeAuth : List UInt8 → Option (List UInt8 × List UInt8)
  | 0x01 :: ulen :: rest =>
    match rest.drop ulen.toNat with
    | plen :: pass => if pass.length = plen.toNat then some (rest.take ulen.toNat, pass) else none
    | [] => none
  | _ => none

/-- The proxy gets the credentials or nothing at all, as it does for a UDP flow. -/
def AuthFaithful (username password : SwiftString) : Prop :=
  (sendSOCKS5Auth username password = .failed ∨ ∃ authData, sendSOCKS5Auth username password = .written authData ∧
    decodeAuth authData = some (username.utf8, password.utf8)) ∧
  sendSOCKS5Auth username password = sendSOCKS5UDPAuth username password

/-- One byte for each character, and not too many of them. -/
def ShortAscii (s : SwiftString) : Prop :=
  (∀ c ∈ s, ∃ x : Char, c.scalars = [x] ∧ x.val < 128) ∧ s.length ≤ 255

theorem decodeAuth_authMessage {user pass : List UInt8} (hu : user.length ≤ 255) (hp : pass.length ≤ 255) :
    decodeAuth (authMessage user.length pass.length user pass) = some (user, pass) := by
  have hulen : user.length.toUInt8.toNat = user.length := Nat.mod_eq_of_lt (Nat.lt_succ_of_le hu)
  have hplen : pass.length.toUInt8.toNat = pass.length := Nat.mod_eq_of_lt (Nat.lt_succ_of_le hp)
  simp [authMessage, decodeAuth, hulen, hplen]

private theorem utf8_length_pos (c : GraphemeCluster) : 0 < c.utf8.length := by
  obtain ⟨scalars, hne⟩ := c
  cases scalars with
  | nil => exact absurd rfl hne
  | cons x scalars =>
    have hpos := x.utf8Size_pos
    simp only [GraphemeCluster.utf8, List.flatMap_cons, List.length_append, String.length_utf8EncodeChar]
    omega

theorem utf8_length_eq_one_iff (c : GraphemeCluster) :
    c.utf8.length = 1 ↔ ∃ x : Char, c.scalars = [x] ∧ x.val < 128 := by
  have hsize : ∀ x : Char, x.utf8Size = 1 ↔ x.val < 128 := by
    intro x
    rw [Char.utf8Size_eq_one_iff, UInt32.le_iff_toNat_le, UInt32.lt_iff_toNat_lt]
    exact Nat.lt_succ_iff.symm
  obtain ⟨scalars, hne⟩ := c
  match scalars with
  | [] => exact absurd rfl hne
  | [x] => simp [GraphemeCluster.utf8, hsize]
  | x :: y :: scalars =>
    have hx := x.utf8Size_pos
    have hy := y.utf8Size_pos
    simp only [GraphemeCluster.utf8, List.flatMap_cons, List.length_append, String.length_utf8EncodeChar,
      List.cons.injEq, reduceCtorEq, and_false, false_and, exists_false, iff_false]
    omega

/-- A string has at least as many bytes as characters, and as many if every character has one byte. -/
private theorem utf8_length (s : SwiftString) :
    s.length ≤ s.utf8.length ∧ (s.utf8.length = s.length ↔ ∀ c ∈ s, c.utf8.length = 1) := by
  induction s with
  | nil => exact ⟨Nat.le_refl 0, fun _ c hc => (nomatch hc), fun _ => rfl⟩
  | cons c s ih =>
    have hpos := utf8_length_pos c
    obtain ⟨hle, hiff⟩ := ih
    have hlength : SwiftString.utf8 (c :: s) = c.utf8 ++ SwiftString.utf8 s := rfl
    rw [hlength, List.length_append, List.length_cons, List.forall_mem_cons, ← hiff]
    omega

theorem shortAscii_iff (s : SwiftString) : ShortAscii s ↔ s.length = s.utf8.length ∧ s.utf8.length ≤ 255 := by
  have hone : (∀ c ∈ s, ∃ x : Char, c.scalars = [x] ∧ x.val < 128) ↔ s.utf8.length = s.length := by
    rw [(utf8_length s).2]
    exact forall₂_congr fun c _ => (utf8_length_eq_one_iff c).symm
  rw [ShortAscii, hone]
  omega

/-- Messages with the same fields agree if and only if their length bytes do. -/
private theorem authMessage_inj {m n m' n' : Nat} (user pass : List UInt8) (hm : m ≤ 255) (hn : n ≤ 255)
    (hm' : m' ≤ 255) (hn' : n' ≤ 255) : authMessage m n user pass = authMessage m' n' user pass ↔ m = m' ∧ n = n' := by
  have hinj : ∀ {a b : Nat}, a ≤ 255 → b ≤ 255 → (a.toUInt8 = b.toUInt8 ↔ a = b) := by
    intro a b ha hb
    rw [← UInt8.toNat_inj]
    show a % 256 = b % 256 ↔ a = b
    omega
  simp only [authMessage, List.append_assoc, List.cons_append, List.nil_append,
    List.cons.injEq, true_and, hinj hm hm']
  refine and_congr_right fun _ => ?_
  rw [List.append_cancel_left_eq, List.cons.injEq, hinj hn hn']
  exact and_iff_left rfl

/-- The handshake of TCP flows is faithful exactly for credentials in ASCII of at most 255 characters. -/
theorem socks5_auth_faithful_iff (username password : SwiftString) :
    AuthFaithful username password ↔ ShortAscii username ∧ ShortAscii password := by
  have hu := (utf8_length username).1
  have hp := (utf8_length password).1
  rw [shortAscii_iff, shortAscii_iff, AuthFaithful]
  constructor
  · rintro ⟨hsent, hsame⟩
    have hfits : username.length ≤ 255 ∧ password.length ≤ 255 := by
      by_contra h
      rw [sendSOCKS5Auth, if_neg h] at hsent
      rcases hsent with hsent | ⟨_, hsent, _⟩ <;> cases hsent
    rw [sendSOCKS5Auth, if_pos hfits, sendSOCKS5UDPAuth] at hsame
    split at hsame
    · rename_i hbytes
      have hcounts := (authMessage_inj _ _ hfits.1 hfits.2 hbytes.1 hbytes.2).mp (AuthResult.written.inj hsame)
      exact ⟨⟨hcounts.1, hbytes.1⟩, hcounts.2, hbytes.2⟩
    · cases hsame
  · rintro ⟨⟨hucount, hubytes⟩, hpcount, hpbytes⟩
    have htcp : sendSOCKS5Auth username password =
        .written (authMessage username.utf8.length password.utf8.length username.utf8 password.utf8) := by
      rw [sendSOCKS5Auth, hucount, hpcount, if_pos ⟨hubytes, hpbytes⟩]
    have hudp : sendSOCKS5UDPAuth username password =
        .written (authMessage username.utf8.length password.utf8.length username.utf8 password.utf8) := by
      rw [sendSOCKS5UDPAuth, if_pos ⟨hubytes, hpbytes⟩]
    exact ⟨.inr ⟨_, htcp, decodeAuth_authMessage hubytes hpbytes⟩, htcp.trans hudp.symm⟩

/-- The name `é` is announced as one byte and has two. -/
theorem socks5_auth_not_faithful_e_acute : ¬ AuthFaithful [⟨['é'], by decide⟩] [⟨['p'], by decide⟩] := by
  rintro ⟨_, hsame⟩
  exact absurd hsame (by decide)

end ProxyBridge.Handshake
