import SsrBackend.Foundation.Scanner
import SsrBackend.Foundation.Text
import SsrBackend.Ssr.Address

/-!
`IpAddr::from_str` of the standard library (`core::net::parser`), reader by reader.
The texts it takes are words over hexadecimal digits, dots and colons.
-/

namespace SsrBackend

open Scanner Text

namespace IpText

def readGivenChar (given : Char) : Scanner Char Unit :=
  ⟨fun text => match text with
    | c :: rest => if c = given then some ((), rest) else none
    | [] => none⟩

/-- `read_number` with a limit on the digits: the longest run of digits, as a number
below `bound`. -/
def readNumber (radix maxDigits : Nat) (allowZeroPrefix : Bool) (bound : Nat) : Scanner Char Nat :=
  ⟨fun text =>
    let isDigit (c : Char) : Bool := (toDigit radix c).isSome
    let digits := text.takeWhile isDigit
    if maxDigits < digits.length then none
    else if digits = [] ∨ (!allowZeroPrefix ∧ text.head? = some '0' ∧ 1 < digits.length) then none
    else
      let value := digits.foldl (fun acc c => acc * radix + (toDigit radix c).getD 0) 0
      if value < bound then some (value, text.dropWhile isDigit) else none⟩

def readSeparator {α : Type} (sep : Char) (position : Nat) (inner : Scanner Char α) :
    Scanner Char α :=
  if 0 < position then do
    readGivenChar sep
    inner
  else inner

def readIpv4Addr : Scanner Char (Vector UInt8 4) := do
  let a ← readSeparator '.' 0 (readNumber 10 3 false 256)
  let b ← readSeparator '.' 1 (readNumber 10 3 false 256)
  let c ← readSeparator '.' 2 (readNumber 10 3 false 256)
  let d ← readSeparator '.' 3 (readNumber 10 3 false 256)
  return #v[UInt8.ofNat a, UInt8.ofNat b, UInt8.ofNat c, UInt8.ofNat d]

/-- `u16::from_be_bytes`, as a number. -/
def fromBeBytes (hi lo : UInt8) : Nat := hi.toNat * 256 + lo.toNat

/-- The embedded IPv4 address of `read_groups`, which needs two slots. -/
def readEmbeddedIpv4 (limit i : Nat) : Scanner Char (Option (Vector UInt8 4)) :=
  if i < limit - 1 then attempt (readSeparator ':' i readIpv4Addr) else pure none

/-- `read_groups` with `left` of its `limit` slots still to fill: the groups, and whether the
last two come from an embedded IPv4 address. -/
def readGroups (limit : Nat) : (left : Nat) → Scanner Char (List Nat × Bool)
  | 0 => return ([], false)
  | left + 1 => do
      let i := limit - (left + 1)
      match ← readEmbeddedIpv4 limit i with
      | some octets =>
          return ([fromBeBytes octets[0] octets[1], fromBeBytes octets[2] octets[3]], true)
      | none =>
          match ← attempt (readSeparator ':' i (readNumber 16 4 true (2 ^ 16))) with
          | some group =>
              let rest ← readGroups limit left
              return (group :: rest.1, rest.2)
          | none => return ([], false)

/-- The address of eight groups. -/
def fromGroups (groups : List Nat) : Vector UInt8 16 :=
  block 16 (groups.flatMap fun group => [UInt8.ofNat (group / 256), UInt8.ofNat group])

def readIpv6Addr : Scanner Char (Vector UInt8 16) := do
  let head ← readGroups 8 8
  if head.1.length = 8 then
    return fromGroups head.1
  else if head.2 then
    fail
  else
    readGivenChar ':'
    readGivenChar ':'
    let limit := 8 - (head.1.length + 1)
    let tail ← readGroups limit limit
    return fromGroups (head.1 ++ List.replicate (8 - head.1.length - tail.1.length) 0 ++ tail.1)

def readIpAddr : Scanner Char IpAddr :=
  orElse (IpAddr.v4 <$> readIpv4Addr) (IpAddr.v6 <$> readIpv6Addr)

/-- The characters of an address. -/
def IsAddressChar (c : Char) : Prop := (toDigit 16 c).isSome = true ∨ c = '.' ∨ c = ':'

theorem isAddressChar_of_digit {radix : Nat} (hradix : radix ≤ 16) {c : Char}
    (h : (toDigit radix c).isSome = true) : IsAddressChar c := by
  left
  obtain ⟨n, hn⟩ := Option.isSome_iff_exists.mp h
  rw [toDigit, Option.filter_eq_some_iff, decide_eq_true_eq] at hn
  have hsixteen : toDigit 16 c = some n := by
    rw [toDigit, Option.filter_eq_some_iff, decide_eq_true_eq]
    exact ⟨hn.1, Nat.lt_of_lt_of_le hn.2 hradix⟩
  rw [hsixteen]
  rfl

theorem isAddressChar_isWhitespace {c : Char} (h : IsAddressChar c) : isWhitespace c = false := by
  rcases h with hdigit | rfl | rfl
  · obtain ⟨hlo, hhi⟩ := toDigit_printable hdigit
    exact isWhitespace_of_printable hlo hhi
  · rfl
  · rfl

theorem readGivenChar_consumes {given : Char} (h : IsAddressChar given) :
    Consumes IsAddressChar (readGivenChar given) := by
  intro text a rest hrun
  cases text with
  | nil => cases hrun
  | cons c text =>
      simp only [readGivenChar] at hrun
      by_cases hc : c = given
      · rw [if_pos hc] at hrun
        cases hrun
        refine ⟨[c], rfl, ?_⟩
        intro d hd
        rw [List.mem_singleton.mp hd, hc]
        exact h
      · rw [if_neg hc] at hrun
        cases hrun

theorem readNumber_consumes {radix : Nat} (hradix : radix ≤ 16) (maxDigits : Nat)
    (allowZeroPrefix : Bool) (bound : Nat) :
    Consumes IsAddressChar (readNumber radix maxDigits allowZeroPrefix bound) := by
  intro text value rest hrun
  simp only [readNumber] at hrun
  refine ⟨text.takeWhile fun c => (toDigit radix c).isSome, ?_, ?_⟩
  · split_ifs at hrun
    cases hrun
    exact List.takeWhile_append_dropWhile.symm
  · intro c hc
    exact isAddressChar_of_digit hradix
      (List.mem_takeWhile_imp (p := fun c => (toDigit radix c).isSome) hc)

theorem readSeparator_consumes {α : Type} {sep : Char} (hsep : IsAddressChar sep) (position : Nat)
    {inner : Scanner Char α} (h : Consumes IsAddressChar inner) :
    Consumes IsAddressChar (readSeparator sep position inner) := by
  rw [readSeparator]
  by_cases hposition : 0 < position
  · rw [if_pos hposition]
    exact .bind (readGivenChar_consumes hsep) fun _ => h
  · rw [if_neg hposition]
    exact h

theorem readIpv4Addr_consumes : Consumes IsAddressChar readIpv4Addr := by
  have hoctet (position : Nat) :
      Consumes IsAddressChar (readSeparator '.' position (readNumber 10 3 false 256)) :=
    readSeparator_consumes (Or.inr (Or.inl rfl)) position (readNumber_consumes (by decide) _ _ _)
  exact .bind (hoctet 0) fun _ => .bind (hoctet 1) fun _ => .bind (hoctet 2) fun _ =>
    .bind (hoctet 3) fun _ => .pure _

theorem isAddressChar_colon : IsAddressChar ':' := Or.inr (Or.inr rfl)

theorem readEmbeddedIpv4_consumes (limit i : Nat) :
    Consumes IsAddressChar (readEmbeddedIpv4 limit i) := by
  rw [readEmbeddedIpv4]
  split_ifs
  · exact .attempt (readSeparator_consumes isAddressChar_colon _ readIpv4Addr_consumes)
  · exact .pure _

theorem readGroups_consumes (limit left : Nat) :
    Consumes IsAddressChar (readGroups limit left) := by
  induction left with
  | zero => exact .pure _
  | succ left ih =>
      rw [readGroups]
      apply Consumes.bind (readEmbeddedIpv4_consumes limit _)
      intro ipv4
      cases ipv4 with
      | some octets => exact .pure _
      | none =>
          apply Consumes.bind (.attempt (readSeparator_consumes isAddressChar_colon _
            (readNumber_consumes (by decide) _ _ _)))
          intro group
          cases group with
          | some group => exact .bind ih fun _ => .pure _
          | none => exact .pure _

theorem readIpv6Addr_consumes : Consumes IsAddressChar readIpv6Addr := by
  have hcolon : Consumes IsAddressChar (readGivenChar ':') :=
    readGivenChar_consumes isAddressChar_colon
  apply Consumes.bind (readGroups_consumes 8 8)
  intro head
  split_ifs
  · exact .pure _
  · exact .fail
  · exact .bind hcolon fun _ => .bind hcolon fun _ =>
      .bind (readGroups_consumes _ _) fun _ => .pure _

theorem readIpAddr_consumes : Consumes IsAddressChar readIpAddr :=
  .orElse (.map _ readIpv4Addr_consumes) (.map _ readIpv6Addr_consumes)

end IpText

/-- `IpAddr::from_str`: the whole text is the address. -/
def IpAddr.fromStr (text : List Char) : Option IpAddr :=
  match IpText.readIpAddr.run text with
  | some (ip, []) => some ip
  | _ => none

theorem IpAddr.fromStr_chars {text : List Char} {ip : IpAddr} (h : IpAddr.fromStr text = some ip) :
    text ≠ [] ∧ ∀ c ∈ text, IpText.IsAddressChar c := by
  refine ⟨?_, ?_⟩
  · rintro rfl
    have hnone : IpAddr.fromStr [] = none := rfl
    rw [hnone] at h
    cases h
  · rw [fromStr] at h
    split at h
    case h_1 ip' hrun =>
      obtain ⟨word, rfl, hword⟩ := IpText.readIpAddr_consumes text ip' [] hrun
      rw [List.append_nil]
      exact hword
    case h_2 => cases h

end SsrBackend
