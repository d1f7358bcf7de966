import ProxyBridge.Library.BigEndian
import ProxyBridge.Library.Rfc1035
import ProxyBridge.Windows.DnsBounds

/-! The names that `dns_parse_name` reads: every encoding of a name within the limits is decoded, and
beyond RFC 1035 bytes from 64 to 191 are read as the lengths of labels. -/
namespace ProxyBridge.Windows
open CStrings

/-- How the bytes at a position are read as a name, with the number of pointers and the offset
behind it. -/
inductive ReadsAs (msg : List UInt8) : Nat → List (List UInt8) → Nat → Nat → Prop where
  | root {pos : Nat} : msg[pos]? = some 0 → ReadsAs msg pos [] 0 (pos + 1)
  | label {pos n stop : Nat} {b : UInt8} {labels : List (List UInt8)} : msg[pos]? = some b → b ≠ 0 →
      b &&& 0xC0 ≠ 0xC0 → pos + 1 + b.toNat ≤ msg.length → ReadsAs msg (pos + 1 + b.toNat) labels n stop →
      ReadsAs msg pos ((msg.drop (pos + 1)).take b.toNat :: labels) n stop
  | pointer {pos n stop : Nat} {b low : UInt8} {labels : List (List UInt8)} : msg[pos]? = some b →
      b &&& 0xC0 = 0xC0 → msg[pos + 1]? = some low →
      ReadsAs msg ((b &&& 0x3F).toNat * 256 + low.toNat) labels n stop → ReadsAs msg pos labels (n + 1) (pos + 2)

/-- A name that fits: at most ten pointers and 254 bytes of text. -/
def ReadsAsName (msg : List UInt8) (pos : Nat) (name : List UInt8) (stop : Nat) : Prop :=
  ∃ labels n, ReadsAs msg pos labels n stop ∧ n ≤ 10 ∧ name = dotted labels ∧ name.length ≤ 254

section Reading
variable {msg : List UInt8}

theorem length_addLabel (dst label : List UInt8) :
    (addLabel dst label).length = dst.length + label.length + (if dst.isEmpty then 0 else 1) := by
  rw [addLabel]
  split
  · simp
  · rw [List.length_append, List.length_append, List.length_singleton]
    omega

theorem length_foldl_addLabel (labels : List (List UInt8)) (dst : List UInt8) :
    dst.length ≤ (labels.foldl addLabel dst).length := by
  induction labels generalizing dst with
  | nil => exact Nat.le_refl _
  | cons label labels ih =>
    have hle := ih (addLabel dst label)
    have hlen := length_addLabel dst label
    rw [List.foldl_cons]
    omega

/-- The two high bits of a byte are set from 192 on. -/
private theorem pointer_iff (b : UInt8) : b &&& 0xC0 = 0xC0 ↔ 192 ≤ b.toNat := by
  have hmask : b.toNat &&& 192 = 64 * (b.toNat / 64 % 4) := BigEndian.and_mask b.toNat 6 2
  have hsmall := b.toNat_lt
  rw [← UInt8.toNat_inj, UInt8.toNat_and]
  change b.toNat &&& 192 = 192 ↔ _
  rw [hmask]
  omega

private theorem readsAs_of_parseName {fuel pos jumps offset : Nat} {dst name : List UInt8} {jumpedEnd : Option Nat}
    (hj : jumps ≤ 10) (h : parseName msg 256 fuel pos dst jumps jumpedEnd = some (name, offset)) :
    ∃ labels n stop, ReadsAs msg pos labels n stop ∧ jumps + n ≤ 10 ∧ name = labels.foldl addLabel dst ∧
      offset = jumpedEnd.getD stop := by
  induction fuel generalizing pos dst jumps jumpedEnd with
  | zero => cases h
  | succ fuel ih =>
    rw [parseName] at h
    cases hb : msg[pos]? with
    | none =>
      rw [hb] at h
      cases h
    | some b =>
      simp only [hb] at h
      by_cases hz : b = 0
      · subst hz
        obtain ⟨rfl, rfl⟩ := Prod.mk.inj (Option.some.inj (by simpa using h))
        exact ⟨[], 0, pos + 1, .root hb, hj, rfl, rfl⟩
      · rw [if_neg (by simpa using hz)] at h
        by_cases hp : b &&& 0xC0 = 0xC0
        · rw [if_pos (by simpa using hp)] at h
          cases hlow : msg[pos + 1]? with
          | none =>
            rw [hlow] at h
            cases h
          | some low =>
            simp only [hlow] at h
            split at h
            · cases h
            · obtain ⟨labels, n, stop, hreads, hle, hname, hoffset⟩ := ih (by omega) h
              exact ⟨labels, n + 1, pos + 2, .pointer hb hp hlow hreads, by omega, hname, hoffset⟩
        · rw [if_neg (by simpa using hp)] at h
          split at h
          · cases h
          · rename_i hmsg
            split at h
            · cases h
            · obtain ⟨labels, n, stop, hreads, hle, hname, hoffset⟩ := ih hj h
              exact ⟨_, n, stop, .label hb hz hp (Nat.not_lt.mp hmsg) hreads, hle, hname, hoffset⟩

private theorem parseName_of_readsAs {pos n stop : Nat} {labels : List (List UInt8)} (h : ReadsAs msg pos labels n stop)
    {fuel jumps : Nat} {dst : List UInt8} {jumpedEnd : Option Nat} (hf : turnsLeft msg pos jumps ≤ fuel)
    (hj : jumps + n ≤ 10) (hlen : (labels.foldl addLabel dst).length ≤ 254) :
    parseName msg 256 fuel pos dst jumps jumpedEnd = some (labels.foldl addLabel dst, jumpedEnd.getD stop) := by
  induction h generalizing fuel jumps dst jumpedEnd with
  | @root pos hb =>
    cases fuel with
    | zero => exact absurd hf (by simp [turnsLeft])
    | succ fuel => simp [parseName, hb]
  | @label pos n stop b labels hb hz hp hmsg hreads ih =>
    cases fuel with
    | zero => exact absurd hf (by simp [turnsLeft])
    | succ fuel =>
      have hpos : pos < msg.length := (List.getElem?_eq_some_iff.mp hb).1
      have hz' : b.toNat ≠ 0 := fun h0 => hz (UInt8.toNat_inj.mp (h0.trans UInt8.toNat_zero.symm))
      have hlabel : ((msg.drop (pos + 1)).take b.toNat).length = b.toNat := by
        rw [List.length_take, List.length_drop]
        omega
      rw [List.foldl_cons] at hlen ⊢
      have hgrow := length_foldl_addLabel labels (addLabel dst ((msg.drop (pos + 1)).take b.toNat))
      have hadd := length_addLabel dst ((msg.drop (pos + 1)).take b.toNat)
      have hbyte : b.toNat < 192 := Nat.not_le.mp (fun hle => hp ((pointer_iff b).mpr hle))
      have hroom : ¬ dst.length + b.toNat + 2 ≥ 256 := by
        cases dst with
        | nil =>
          rw [List.length_nil]
          omega
        | cons c dst =>
          rw [if_neg (by simp)] at hadd
          omega
      rw [parseName]
      simp only [hb]
      rw [if_neg (by simpa using hz), if_neg (by simpa using hp), if_neg (by omega), if_neg hroom]
      apply ih
      · simp only [turnsLeft] at hf ⊢
        omega
      · exact hj
      · exact hlen
  | @pointer pos n stop b low labels hb hp hlow hreads ih =>
    cases fuel with
    | zero => exact absurd hf (by simp [turnsLeft])
    | succ fuel =>
      have hz : b ≠ 0 := by
        rintro rfl
        exact zero_not_pointer hp
      have hturn : jumps + 1 ≤ 10 := by omega
      have hjump := turnsLeft_jump msg pos ((b &&& 0x3F).toNat * 256 + low.toNat) hturn
      rw [parseName]
      simp only [hb, hlow]
      rw [if_neg (by simpa using hz), if_pos (by simpa using hp), if_neg (by omega),
        ih (Nat.le_of_lt_succ (Nat.lt_of_lt_of_le hjump hf)) (by omega) hlen]
      rfl

/-- The names that are found are the ones that can be read and fit. -/
theorem dnsParseName_eq_some_iff (pos : Nat) (name : List UInt8) (stop : Nat) :
    dnsParseName msg pos = some (name, stop) ↔ ReadsAsName msg pos name stop := by
  constructor
  · intro h
    obtain ⟨labels, n, stop', hreads, hle, hname, hstop⟩ := readsAs_of_parseName (Nat.zero_le 10) h
    rw [Option.getD_none] at hstop
    subst hstop
    have hlen := parseName_length h (by decide)
    exact ⟨labels, n, hreads, by omega, hname, by omega⟩
  · rintro ⟨labels, n, hreads, hle, rfl, hlen⟩
    have hfuel : turnsLeft msg pos 0 ≤ parseFuel msg := by
      simp only [turnsLeft, parseFuel]
      omega
    exact parseName_of_readsAs hreads hfuel (by omega) hlen

/-- Every name of RFC 1035 is read as its labels. -/
theorem readsAs_of_nameAt {pos n stop : Nat} {labels : List Rfc1035.Label} (h : Rfc1035.NameAt msg pos labels n stop) :
    ReadsAs msg pos (labels.map (·.bytes)) n stop := by
  induction h with
  | root hb => exact .root hb
  | @label pos n stop l labels hb htake _ ih =>
    have hpos : l.bytes.length ≠ 0 := fun h0 => l.nonempty (List.length_eq_zero_iff.mp h0)
    have hshort := l.short
    have hvalue : l.bytes.length.toUInt8.toNat = l.bytes.length := by
      rw [Nat.toUInt8, UInt8.toNat_ofNat']
      omega
    have hz : l.bytes.length.toUInt8 ≠ 0 := fun h0 => hpos (by rw [← hvalue, h0]; rfl)
    have hp : l.bytes.length.toUInt8 &&& 0xC0 ≠ 0xC0 := by
      rw [ne_eq, pointer_iff, hvalue]
      omega
    have hbound := congrArg List.length htake
    rw [List.length_take, List.length_drop] at hbound
    have hlabel := ReadsAs.label hb hz hp (by omega) (by rw [hvalue]; exact ih)
    rw [hvalue, htake] at hlabel
    exact hlabel
  | @pointer pos target n stop labels htarget hb hlow _ ih =>
    have hvalue : (192 + target / 256).toUInt8.toNat = 192 + target / 256 := by
      rw [Nat.toUInt8, UInt8.toNat_ofNat']
      omega
    have hlowValue : (target % 256).toUInt8.toNat = target % 256 := by
      rw [Nat.toUInt8, UInt8.toNat_ofNat']
      omega
    have hp : (192 + target / 256).toUInt8 &&& 0xC0 = 0xC0 := by
      rw [pointer_iff, hvalue]
      omega
    have hhigh : ((192 + target / 256).toUInt8 &&& 0x3F).toNat = target / 256 := by
      have hmask : (192 + target / 256) &&& 63 = 2 ^ 0 * ((192 + target / 256) / 2 ^ 0 % 2 ^ 6) :=
        BigEndian.and_mask _ 0 6
      rw [UInt8.toNat_and, hvalue]
      change (192 + target / 256) &&& 63 = _
      rw [hmask]
      omega
    have htargetValue :
        ((192 + target / 256).toUInt8 &&& 0x3F).toNat * 256 + (target % 256).toUInt8.toNat = target := by
      rw [hhigh, hlowValue]
      omega
    exact .pointer hb hp hlow (htargetValue.symm ▸ ih)

private theorem foldl_addLabel_ne_nil {dst : List UInt8} (hne : dst ≠ []) (labels : List (List UInt8)) :
    labels.foldl addLabel dst = dst ++ labels.flatMap (fun label => byte '.' :: label) := by
  induction labels generalizing dst with
  | nil => simp
  | cons label labels ih =>
    have hadd : addLabel dst label = dst ++ byte '.' :: label := by
      rw [addLabel, if_neg (by simpa using hne), List.append_assoc, List.singleton_append]
    rw [List.foldl_cons, hadd, ih (List.append_ne_nil_of_left_ne_nil hne _)]
    simp

theorem dotted_eq_text (labels : List Rfc1035.Label) : dotted (labels.map (·.bytes)) = Rfc1035.text labels := by
  cases labels with
  | nil => rfl
  | cons l labels =>
    have hfirst : addLabel [] l.bytes = l.bytes := rfl
    rw [dotted, List.map_cons, List.foldl_cons, hfirst, foldl_addLabel_ne_nil l.nonempty, Rfc1035.text_cons,
      List.flatMap_map]
    rfl

theorem readsAsName_of_nameAt {pos n stop : Nat} {labels : List Rfc1035.Label}
    (h : Rfc1035.NameAt msg pos labels n stop) (hn : n ≤ 10) (hlen : (Rfc1035.text labels).length ≤ 253) :
    ReadsAsName msg pos (Rfc1035.text labels) stop :=
  ⟨_, n, readsAs_of_nameAt h, hn, (dotted_eq_text labels).symm, Nat.le_succ_of_le hlen⟩

theorem cText_text (labels : List Rfc1035.Label) : Handshake.cText (Rfc1035.text labels) = Rfc1035.text labels := by
  rw [Handshake.cText, List.takeWhile_eq_self_iff]
  intro c hc
  simpa using fun he : c = 0 => Rfc1035.zero_not_mem_text labels (he ▸ hc)

end Reading

/-- Every encoding of a name of at most 253 bytes, with at most ten pointers to wherever, is decoded
into the labels with dots between them, and the offset ends behind it. -/
theorem dnsParseName_decodes {msg dst : List UInt8} {pos n stop : Nat} {labels : List Rfc1035.Label}
    (h : Rfc1035.NameAt msg pos labels n stop) (hn : n ≤ 10) (hlen : (Rfc1035.text labels).length ≤ 253)
    (hdst : dst.length = 256) :
    ∃ dst', Checked.dnsParseName msg dst pos = .ok ⟨true, stop, dst'⟩ ∧ Handshake.cText dst' = Rfc1035.text labels := by
  obtain ⟨r, hr, hagrees⟩ := Checked.dnsParseName_agrees msg dst pos (by omega)
  have hname := (dnsParseName_eq_some_iff pos _ stop).mpr (readsAsName_of_nameAt h hn hlen)
  rw [hdst] at hagrees
  obtain ⟨hfound, hoffset, hwritten⟩ := hagrees.present _ _ hname
  obtain ⟨found, offset, dst'⟩ := r
  obtain rfl : found = true := hfound
  obtain rfl : offset = stop := hoffset
  refine ⟨dst', hr, ?_⟩
  rw [Checked.cText_written hwritten, cText_text]

theorem dnsParseName_decodes_pointer :
    ∃ dst', Checked.dnsParseName [1, 97, 192, 4, 1, 98, 0] (List.replicate 256 255) 0 = .ok ⟨true, 4, dst'⟩ ∧
      Handshake.cText dst' = [97, 46, 98] := by
  have hb : Rfc1035.NameAt [1, 97, 192, 4, 1, 98, 0] 4 [⟨[98], by decide, by decide, by decide⟩] 0 7 :=
    .label rfl rfl (.root rfl)
  have hab : Rfc1035.NameAt [1, 97, 192, 4, 1, 98, 0] 0
      [⟨[97], by decide, by decide, by decide⟩, ⟨[98], by decide, by decide, by decide⟩] 1 4 :=
    .label rfl rfl (.pointer (by decide) rfl rfl hb)
  exact dnsParseName_decodes hab (by decide) (by decide) List.length_replicate

end ProxyBridge.Windows
