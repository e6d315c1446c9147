import Mathlib.Tactic.IntervalCases
import Mathlib.Tactic.Ring
import SsrBackend.Relay.Policy

/-!
The addresses of a `Cidr` as intervals of numbers. An address is the number that
its octets write, most significant first; a rule cuts off the low bits of both
numbers. The IPv4 addresses are the numbers `0xffff * 2 ^ 32 + a` among the IPv6
addresses, and a rule of either family sees them there.
-/

namespace SsrBackend

namespace IpAddr

def value : IpAddr → Nat
  | v4 octets => beValue octets.toList
  | v6 octets => beValue octets.toList

theorem foldl_beValue (acc : Nat) (octets : List UInt8) :
    octets.foldl (fun acc b => acc * 256 + b.toNat) acc =
      acc * 256 ^ octets.length + beValue octets := by
  induction octets generalizing acc with
  | nil => simp [beValue]
  | cons b rest ih =>
      rw [beValue, List.foldl_cons, List.foldl_cons, ih, ih, List.length_cons, Nat.pow_succ']
      ring

theorem beValue_append (front back : List UInt8) :
    beValue (front ++ back) = beValue front * 256 ^ back.length + beValue back := by
  rw [beValue, List.foldl_append, foldl_beValue]
  rfl

theorem beValue_lt (octets : List UInt8) : beValue octets < 256 ^ octets.length := by
  induction octets with
  | nil => decide
  | cons b rest ih =>
      have hb := b.toNat_lt
      rw [← List.singleton_append, beValue_append, List.length_append, Nat.pow_add]
      have hhead : beValue [b] < 256 := by simpa [beValue] using hb
      calc beValue [b] * 256 ^ rest.length + beValue rest
          < beValue [b] * 256 ^ rest.length + 256 ^ rest.length := Nat.add_lt_add_left ih _
        _ = (beValue [b] + 1) * 256 ^ rest.length := by ring
        _ ≤ 256 ^ [b].length * 256 ^ rest.length := Nat.mul_le_mul_right _ hhead

/-- A quotient and a remainder determine each other's share of a sum. -/
theorem mul_add_inj {q q' r r' d : Nat} (hr : r < d) (hr' : r' < d) :
    q * d + r = q' * d + r' ↔ q = q' ∧ r = r' := by
  refine ⟨?_, fun ⟨hq, hrem⟩ => by rw [hq, hrem]⟩
  intro h
  have hd : 0 < d := Nat.lt_of_le_of_lt (Nat.zero_le r) hr
  have hq := congrArg (· / d) h
  have hrem := congrArg (· % d) h
  simp only [Nat.mul_comm _ d, Nat.mul_add_div hd, Nat.div_eq_of_lt hr, Nat.div_eq_of_lt hr',
    Nat.add_zero, Nat.mul_add_mod, Nat.mod_eq_of_lt hr, Nat.mod_eq_of_lt hr'] at hq hrem
  exact ⟨hq, hrem⟩

/-- Octet strings of one length are told apart by their numbers. -/
theorem beValue_inj {octets octets' : List UInt8} (hlength : octets.length = octets'.length) :
    beValue octets = beValue octets' ↔ octets = octets' := by
  refine ⟨?_, fun h => by rw [h]⟩
  induction octets generalizing octets' with
  | nil =>
      intro _
      exact (List.eq_nil_of_length_eq_zero hlength.symm).symm
  | cons b rest ih =>
      cases octets' with
      | nil => cases hlength
      | cons b' rest' =>
          have hrest : rest.length = rest'.length := Nat.succ.inj hlength
          intro h
          rw [← List.singleton_append, ← List.singleton_append (l := rest'), beValue_append,
            beValue_append, hrest, mul_add_inj (hrest ▸ beValue_lt rest) (beValue_lt rest')] at h
          have hhead : b = b' := by
            apply UInt8.toNat_inj.mp
            simpa [beValue] using h.1
          rw [hhead, ih hrest h.2]

theorem toList_toIpv6Mapped (octets : Vector UInt8 4) :
    (toIpv6Mapped octets).toList =
      [0, 0, 0, 0, 0, 0, 0, 0, 0, 0, 0xff, 0xff] ++ octets.toList := by
  apply List.ext_getElem
  · simp
  · intro i hi hi'
    have hlt : i < 16 := by simpa using hi
    interval_cases i <;> rfl

theorem beValue_toIpv6Mapped (octets : Vector UInt8 4) :
    beValue (toIpv6Mapped octets).toList = 0xffff * 2 ^ 32 + beValue octets.toList := by
  rw [toList_toIpv6Mapped, beValue_append, Vector.length_toList]
  rfl

end IpAddr

section Masks

variable {width : Nat}

/-- Two numbers agree under the mask when they agree without the low bits. -/
theorem and_mask_eq_iff (base ip : BitVec width) (low : Nat) :
    base &&& BitVec.allOnes width <<< low = ip &&& BitVec.allOnes width <<< low ↔
      base >>> low = ip >>> low := by
  refine ⟨?_, ?_⟩
  · intro h
    ext i hi
    rw [BitVec.getElem_ushiftRight, BitVec.getElem_ushiftRight]
    by_cases hlow : low + i < width
    · have hbit := congrArg (·.getLsbD (low + i)) h
      simpa [hlow] using hbit
    · rw [BitVec.getLsbD_of_ge _ _ (Nat.le_of_not_lt hlow),
        BitVec.getLsbD_of_ge _ _ (Nat.le_of_not_lt hlow)]
  · intro h
    ext i hi
    by_cases hlow : i < low
    · simp [hlow]
    · have hbit := congrArg (·.getLsbD (i - low)) h
      simp only [BitVec.getLsbD_ushiftRight, Nat.add_sub_cancel' (Nat.le_of_not_lt hlow)] at hbit
      rw [← BitVec.getLsbD_eq_getElem, ← BitVec.getLsbD_eq_getElem, BitVec.getLsbD_and,
        BitVec.getLsbD_and, hbit]

theorem maskedIn_iff (base ip : BitVec width) (prefixLen : Nat) :
    maskedIn width base ip prefixLen = true ↔
      base.toNat / 2 ^ (width - prefixLen) = ip.toNat / 2 ^ (width - prefixLen) := by
  rw [maskedIn]
  by_cases hzero : prefixLen = 0
  · rw [if_pos hzero, hzero, Nat.sub_zero, Nat.div_eq_of_lt base.isLt, Nat.div_eq_of_lt ip.isLt]
    exact ⟨fun _ => rfl, fun _ => rfl⟩
  · rw [if_neg hzero, beq_iff_eq, and_mask_eq_iff, ← BitVec.toNat_inj, BitVec.toNat_ushiftRight,
      BitVec.toNat_ushiftRight, Nat.shiftRight_eq_div_pow, Nat.shiftRight_eq_div_pow]

/-- `maskedIn` with the checks of its subtraction and of its shift. -/
def maskedInChecked {m : Type → Type} [Monad m] [MonadPanic m] (base ip : BitVec width)
    (prefixLen : Nat) : m Bool := do
  if prefixLen = 0 then
    return true
  else
    let mask ← checkedShl (BitVec.allOnes width) (← checkedSub width prefixLen)
    return base &&& mask == ip &&& mask

theorem maskedInChecked_of_le {ε : Type} (base ip : BitVec width) {prefixLen : Nat}
    (h : prefixLen ≤ width) :
    (maskedInChecked base ip prefixLen : Outcome ε Bool) = .ok (maskedIn width base ip prefixLen) := by
  rw [maskedInChecked, maskedIn]
  by_cases hzero : prefixLen = 0
  · rw [if_pos hzero, if_pos hzero]
    rfl
  · have hshift : width - prefixLen < width := by omega
    rw [if_neg hzero, if_neg hzero, checkedSub_of_le h, Outcome.pure_def, Outcome.ok_bind,
      checkedShl_of_lt _ hshift]
    rfl

end Masks

def v4InChecked {m : Type → Type} [Monad m] [MonadPanic m] (base ip : Vector UInt8 4)
    (prefixLen : Nat) : m Bool :=
  maskedInChecked (BitVec.ofNat 32 (IpAddr.beValue base.toList))
    (BitVec.ofNat 32 (IpAddr.beValue ip.toList)) prefixLen

def v6InChecked {m : Type → Type} [Monad m] [MonadPanic m] (base ip : Vector UInt8 16)
    (prefixLen : Nat) : m Bool :=
  maskedInChecked (BitVec.ofNat 128 (IpAddr.beValue base.toList))
    (BitVec.ofNat 128 (IpAddr.beValue ip.toList)) prefixLen

/-- The octets of an address lose nothing in the machine word of its width. -/
theorem maskedIn_octets {n width : Nat} (hwidth : 256 ^ n = 2 ^ width) (base ip : Vector UInt8 n)
    (prefixLen : Nat) :
    maskedIn width (.ofNat width (IpAddr.beValue base.toList))
        (.ofNat width (IpAddr.beValue ip.toList)) prefixLen = true ↔
      IpAddr.beValue base.toList / 2 ^ (width - prefixLen) =
        IpAddr.beValue ip.toList / 2 ^ (width - prefixLen) := by
  have hlt (octets : Vector UInt8 n) : IpAddr.beValue octets.toList < 2 ^ width := by
    have h := IpAddr.beValue_lt octets.toList
    rwa [Vector.length_toList, hwidth] at h
  rw [maskedIn_iff, BitVec.toNat_ofNat, BitVec.toNat_ofNat, Nat.mod_eq_of_lt (hlt base),
    Nat.mod_eq_of_lt (hlt ip)]

theorem v4In_iff (base ip : Vector UInt8 4) (prefixLen : Nat) :
    v4In base ip prefixLen = true ↔
      IpAddr.beValue base.toList / 2 ^ (32 - prefixLen) =
        IpAddr.beValue ip.toList / 2 ^ (32 - prefixLen) :=
  maskedIn_octets (by norm_num) base ip prefixLen

theorem v6In_iff (base ip : Vector UInt8 16) (prefixLen : Nat) :
    v6In base ip prefixLen = true ↔
      IpAddr.beValue base.toList / 2 ^ (128 - prefixLen) =
        IpAddr.beValue ip.toList / 2 ^ (128 - prefixLen) :=
  maskedIn_octets (by norm_num) base ip prefixLen

namespace IpAddr

theorem toIpv4Mapped_toIpv6Mapped (octets : Vector UInt8 4) :
    toIpv4Mapped (toIpv6Mapped octets) = some octets := by
  rw [toIpv4Mapped, if_pos (by rfl)]
  congr 1
  ext i hi
  interval_cases i <;> rfl

/-- An IPv6 address is a mapped one, or its upper bits are not those of a mapped one. -/
theorem toIpv4Mapped_cases (octets : Vector UInt8 16) :
    (∃ octets4, octets = toIpv6Mapped octets4) ∨
      toIpv4Mapped octets = none ∧ beValue octets.toList / 2 ^ 32 ≠ 0xffff := by
  by_cases hmapped : octets.toList.take 12 = [0, 0, 0, 0, 0, 0, 0, 0, 0, 0, 0xff, 0xff]
  · left
    refine ⟨block 4 (octets.toList.drop 12), ?_⟩
    apply Vector.toList_inj.mp
    rw [toList_toIpv6Mapped, toList_block (by simp), ← hmapped, List.take_append_drop]
  · right
    rw [toIpv4Mapped, if_neg hmapped]
    refine ⟨rfl, ?_⟩
    intro hvalue
    apply hmapped
    have hfront : (octets.toList.take 12).length = 12 := by simp
    have hback : (octets.toList.drop 12).length = 4 := by simp
    have hlow : beValue (octets.toList.drop 12) < 2 ^ 32 := by
      have h := beValue_lt (octets.toList.drop 12)
      rwa [hback] at h
    rw [← List.take_append_drop 12 octets.toList, beValue_append, hback,
      show 256 ^ 4 = 2 ^ 32 by norm_num, Nat.mul_comm, Nat.mul_add_div (by norm_num),
      Nat.div_eq_of_lt hlow, Nat.add_zero] at hvalue
    exact (beValue_inj hfront).mp hvalue

end IpAddr

namespace Cidr

/-- `contains` of a base and a prefix that nothing is known of. -/
def containsChecked {m : Type → Type} [Monad m] [MonadPanic m] (base : IpAddr) (prefixLen : Nat)
    (ip : IpAddr) : m Bool :=
  match base, ip with
  | .v4 base, .v4 ip => v4InChecked base ip prefixLen
  | .v6 base, .v6 ip => v6InChecked base ip prefixLen
  | .v4 base, .v6 ip =>
      match IpAddr.toIpv4Mapped ip with
      | some ip4 => v4InChecked base ip4 prefixLen
      | none => pure false
  | .v6 base, .v4 ip => v6InChecked base (IpAddr.toIpv6Mapped ip) prefixLen

theorem containsChecked_eq {ε : Type} (cidr : Cidr) (ip : IpAddr) :
    (containsChecked cidr.base cidr.prefixLen ip : Outcome ε Bool) = .ok (cidr.contains ip) := by
  obtain ⟨base, prefixLen, hle⟩ := cidr
  cases base with
  | v4 base =>
      cases ip with
      | v4 ip => exact maskedInChecked_of_le _ _ hle
      | v6 ip =>
          simp only [containsChecked, contains]
          cases IpAddr.toIpv4Mapped ip with
          | none => rfl
          | some ip4 => exact maskedInChecked_of_le _ _ hle
  | v6 base =>
      cases ip with
      | v4 ip => exact maskedInChecked_of_le _ _ hle
      | v6 ip => exact maskedInChecked_of_le _ _ hle

theorem contains_iff_of_width {cidr : Cidr} {ip : IpAddr} (h : cidr.base.width = ip.width) :
    cidr.contains ip = true ↔
      cidr.base.value / 2 ^ (ip.width - cidr.prefixLen) =
        ip.value / 2 ^ (ip.width - cidr.prefixLen) := by
  obtain ⟨base, prefixLen, hle⟩ := cidr
  cases base with
  | v4 base =>
      cases ip with
      | v4 ip => exact v4In_iff base ip prefixLen
      | v6 ip => cases h
  | v6 base =>
      cases ip with
      | v4 ip => cases h
      | v6 ip => exact v6In_iff base ip prefixLen

/-- A rule sees an IPv4 address and its mapped form alike. -/
theorem contains_mapped (cidr : Cidr) (octets : Vector UInt8 4) :
    cidr.contains (.v4 octets) = cidr.contains (.v6 (IpAddr.toIpv6Mapped octets)) := by
  obtain ⟨base, prefixLen, hle⟩ := cidr
  cases base with
  | v4 base =>
      simp only [contains]
      rw [IpAddr.toIpv4Mapped_toIpv6Mapped]
  | v6 base => rfl

/-- The rule on the mapped addresses that an IPv4 rule stands for. -/
def mapped (base : Vector UInt8 4) (prefixLen : Nat) (h : prefixLen ≤ 32) : Cidr :=
  ⟨.v6 (IpAddr.toIpv6Mapped base), 96 + prefixLen, by simp only [IpAddr.width]; omega⟩

/-- On mapped addresses the longer prefix compares the IPv4 parts. -/
theorem v6In_mapped (base ip : Vector UInt8 4) {prefixLen : Nat} (h : prefixLen ≤ 32) :
    v6In (IpAddr.toIpv6Mapped base) (IpAddr.toIpv6Mapped ip) (96 + prefixLen) =
      v4In base ip prefixLen := by
  rw [Bool.eq_iff_iff, v6In_iff, v4In_iff, show 128 - (96 + prefixLen) = 32 - prefixLen by omega,
    IpAddr.beValue_toIpv6Mapped, IpAddr.beValue_toIpv6Mapped]
  have hsplit : 0xffff * 2 ^ 32 = 2 ^ (32 - prefixLen) * (0xffff * 2 ^ prefixLen) := by
    rw [Nat.mul_left_comm, ← Nat.pow_add, Nat.sub_add_cancel h]
  have hpos : 0 < 2 ^ (32 - prefixLen) := Nat.two_pow_pos _
  rw [hsplit, Nat.mul_add_div hpos, Nat.mul_add_div hpos, Nat.add_left_cancel_iff]

/-- No other IPv6 address is in the rule on the mapped addresses. -/
theorem v6In_of_unmapped {base : Vector UInt8 4} {ip : Vector UInt8 16} {prefixLen : Nat}
    (h : prefixLen ≤ 32) (hip : IpAddr.beValue ip.toList / 2 ^ 32 ≠ 0xffff) :
    v6In (IpAddr.toIpv6Mapped base) ip (96 + prefixLen) = false := by
  rw [Bool.eq_false_iff]
  intro hin
  rw [v6In_iff, show 128 - (96 + prefixLen) = 32 - prefixLen by omega] at hin
  apply hip
  have hupper (value : Nat) :
      value / 2 ^ 32 = value / 2 ^ (32 - prefixLen) / 2 ^ prefixLen := by
    rw [Nat.div_div_eq_div_mul, ← Nat.pow_add, Nat.sub_add_cancel h]
  have hlow : IpAddr.beValue base.toList < 2 ^ 32 := by
    have hlt := IpAddr.beValue_lt base.toList
    rwa [Vector.length_toList] at hlt
  rw [hupper, ← hin, ← hupper, IpAddr.beValue_toIpv6Mapped, Nat.mul_comm,
    Nat.mul_add_div (Nat.two_pow_pos 32), Nat.div_eq_of_lt hlow]

theorem contains_eq_mapped (base : Vector UInt8 4) {prefixLen : Nat} (h : prefixLen ≤ 32)
    (ip : IpAddr) :
    contains ⟨.v4 base, prefixLen, h⟩ ip = (mapped base prefixLen h).contains ip := by
  cases ip with
  | v4 ip => exact (v6In_mapped base ip h).symm
  | v6 ip =>
      rcases IpAddr.toIpv4Mapped_cases ip with ⟨ip4, rfl⟩ | ⟨hnone, hvalue⟩
      · rw [← contains_mapped, ← contains_mapped]
        exact (v6In_mapped base ip4 h).symm
      · simp only [contains, mapped]
        rw [hnone, v6In_of_unmapped h hvalue]

/-- What a rule contains, for every rule and every address of either family. -/
theorem cidr_membership :
    (∀ (cidr : Cidr) (ip : IpAddr),
      (containsChecked cidr.base cidr.prefixLen ip : Outcome Empty Bool) =
        .ok (cidr.contains ip)) ∧
    (∀ (cidr : Cidr) (ip : IpAddr), cidr.base.width = ip.width →
      (cidr.contains ip = true ↔
        cidr.base.value / 2 ^ (ip.width - cidr.prefixLen) =
          ip.value / 2 ^ (ip.width - cidr.prefixLen))) ∧
    (∀ (cidr : Cidr) (octets : Vector UInt8 4),
      cidr.contains (.v4 octets) = cidr.contains (.v6 (IpAddr.toIpv6Mapped octets))) ∧
    ∀ (base : Vector UInt8 4) (prefixLen : Nat) (h : prefixLen ≤ 32) (ip : IpAddr),
      contains ⟨.v4 base, prefixLen, h⟩ ip = (mapped base prefixLen h).contains ip :=
  ⟨containsChecked_eq, fun _ _ => contains_iff_of_width, contains_mapped,
    fun base _ h ip => contains_eq_mapped base h ip⟩

end Cidr

end SsrBackend
