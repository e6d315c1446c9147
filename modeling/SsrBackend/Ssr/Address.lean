import SsrBackend.Foundation.Outcome
import SsrBackend.Foundation.Resumable

/-!
The target address at the front of a decoded stream (`ssr/address.rs`). `parse`
is checked like the protocol layer; `addressAttempt` is its verdict without
checked accesses. A verdict does not change when more of the stream arrives,
which is what lets the handshake parse again from the start.
-/

namespace SsrBackend

open Resumable

def atypIpv4 : UInt8 := 0x01

def atypDomain : UInt8 := 0x03

def atypIpv6 : UInt8 := 0x04

structure Address where
  host : String
  port : UInt16
  deriving DecidableEq, Repr

inductive AddressError where
  | nonUtf8Domain
  | unsupportedAtyp (atyp : UInt8)
  deriving DecidableEq, Repr

/-- The last two hexadecimal digits, as `{:02x}` prints a byte. -/
def hexByte (b : UInt8) : String :=
  String.ofList [Nat.digitChar (b.toNat / 16), Nat.digitChar (b.toNat % 16)]

def AddressError.message : AddressError → String
  | nonUtf8Domain => "ssr address: non-UTF8 domain"
  | unsupportedAtyp atyp => "ssr address: unsupported ATYP 0x" ++ hexByte atyp

def u16Be (hi lo : UInt8) : UInt16 := UInt16.ofNat (hi.toNat * 256 + lo.toNat)

/-- `Ipv4Addr::to_string`. -/
def ipv4Text (a b c d : UInt8) : String :=
  s!"{a.toNat}.{b.toNat}.{c.toNat}.{d.toNat}"

/-- The eight segments of an IPv6 address. -/
def segments : List UInt8 → List Nat
  | hi :: lo :: rest => (hi.toNat * 256 + lo.toNat) :: segments rest
  | _ => []

/-- Start and length of a run of zero segments. -/
structure Span where
  start : Nat
  len : Nat

/-- The longest run of zero segments, the first of them when there are several. -/
def longestZeros (segs : List Nat) : Span :=
  (segs.zipIdx.foldl (fun (acc : Span × Span) (seg : Nat × Nat) =>
    if seg.1 = 0 then
      let current : Span := ⟨if acc.2.len = 0 then seg.2 else acc.2.start, acc.2.len + 1⟩
      (if acc.1.len < current.len then current else acc.1, current)
    else (acc.1, ⟨0, 0⟩)) (⟨0, 0⟩, ⟨0, 0⟩)).1

/-- Segments in hexadecimal, without leading zeros. -/
def segmentsText (segs : List Nat) : String :=
  String.intercalate ":" (segs.map fun seg => String.ofList (Nat.toDigits 16 seg))

/-- `Ipv6Addr::to_string`: the mapped form for IPv4-mapped addresses, otherwise
the longest run of at least two zero segments is written as two colons. -/
def ipv6Text (octets : Vector UInt8 16) : String :=
  let segs := segments octets.toList
  if segs.take 6 = [0, 0, 0, 0, 0, 0xffff] then
    "::ffff:" ++ ipv4Text octets[12] octets[13] octets[14] octets[15]
  else
    let zeros := longestZeros segs
    if 1 < zeros.len then
      segmentsText (segs.take zeros.start) ++ "::" ++
        segmentsText (segs.drop (zeros.start + zeros.len))
    else segmentsText segs

/-- `std::str::from_utf8`. -/
def fromUtf8 (bytes : List UInt8) : Option String := String.fromUTF8? ⟨bytes.toArray⟩

def parse (buf : List UInt8) : Outcome AddressError (Option (Address × Nat)) := do
  if buf = [] then
    return none
  else
    let atyp := (← index buf 0) &&& ~~~0x08
    if atyp = atypIpv4 then
      let endPos := 1 + 4 + 2
      if buf.length < endPos then
        return none
      else
        let host := ipv4Text (← index buf 1) (← index buf 2) (← index buf 3) (← index buf 4)
        let port := u16Be (← index buf 5) (← index buf 6)
        return some (⟨host, port⟩, endPos)
    else if atyp = atypDomain then
      if buf.length < 2 then
        return none
      else
        let dlen := (← index buf 1).toNat
        let endPos := 2 + dlen + 2
        if buf.length < endPos then
          return none
        else
          match fromUtf8 (← slice buf 2 (2 + dlen)) with
          | none => Outcome.err .nonUtf8Domain
          | some host =>
              let port := u16Be (← index buf (2 + dlen)) (← index buf (2 + dlen + 1))
              return some (⟨host, port⟩, endPos)
    else if atyp = atypIpv6 then
      let endPos := 1 + 16 + 2
      if buf.length < endPos then
        return none
      else
        let octets ← copyFromSlice 16 (← slice buf 1 17)
        let port := u16Be (← index buf 17) (← index buf 18)
        return some (⟨ipv6Text octets, port⟩, endPos)
    else Outcome.err (.unsupportedAtyp atyp)

inductive IpAddr where
  | v4 (octets : Vector UInt8 4)
  | v6 (octets : Vector UInt8 16)

def packSocketAddr (ip : IpAddr) (port : UInt16) : List UInt8 :=
  let addr := match ip with
    | .v4 octets => atypIpv4 :: octets.toList
    | .v6 octets => atypIpv6 :: octets.toList
  addr ++ [UInt8.ofNat (port.toNat / 256), UInt8.ofNat port.toNat]

/-- The two port bytes at `pos`. -/
def portAt (buf : List UInt8) (pos : Nat) : UInt16 :=
  u16Be (buf.getD pos 0) (buf.getD (pos + 1) 0)

/-- The verdict of `parse`: the address is what an accepted header leads to. -/
def addressAttempt (buf : List UInt8) : Attempt AddressError Address UInt8 :=
  let atyp := buf.getD 0 0 &&& ~~~0x08
  let dlen := (buf.getD 1 0).toNat
  if buf.length < 1 then .wait
  else if atyp = atypIpv4 then
    if buf.length < 7 then .wait
    else .accept 7 [] ⟨ipv4Text (buf.getD 1 0) (buf.getD 2 0) (buf.getD 3 0) (buf.getD 4 0),
      portAt buf 5⟩
  else if atyp = atypDomain then
    if buf.length < 2 then .wait
    else if buf.length < 2 + dlen + 2 then .wait
    else match fromUtf8 (window buf 2 (2 + dlen)) with
      | none => .reject .nonUtf8Domain
      | some host => .accept (2 + dlen + 2) [] ⟨host, portAt buf (2 + dlen)⟩
  else if atyp = atypIpv6 then
    if buf.length < 19 then .wait
    else .accept 19 [] ⟨ipv6Text (block 16 (window buf 1 17)), portAt buf 17⟩
  else .reject (.unsupportedAtyp atyp)

theorem index_getD {m : Type → Type} [Monad m] [MonadPanic m] {buf : List UInt8} {i : Nat}
    (h : i < buf.length) : (index buf i : m UInt8) = pure (buf.getD i 0) := by
  rw [index_of_lt h, List.getD_eq_getElem?_getD, List.getElem?_eq_getElem h, Option.getD_some]

theorem getD_append {buf : List UInt8} {i : Nat} (h : i < buf.length) (tail : List UInt8) :
    (buf ++ tail).getD i 0 = buf.getD i 0 := by
  rw [List.getD_eq_getElem?_getD, List.getD_eq_getElem?_getD, List.getElem?_append_left h]

theorem parse_spec (buf : List UInt8) :
    parse buf = match addressAttempt buf with
      | .wait => .ok none
      | .reject e => .err e
      | .accept n _ address => .ok (some (address, n)) := by
  by_cases hnil : buf = []
  · subst hnil
    rfl
  have h1 : ¬ buf.length < 1 := by
    have := List.length_pos_iff.mpr hnil
    omega
  have i (k : Nat) (hk : k < buf.length) :
      (index buf k : Outcome AddressError UInt8) = .ok (buf.getD k 0) := index_getD hk
  simp only [parse, addressAttempt, hnil, h1, ite_false, i 0 (by omega), Outcome.ok_bind,
    Outcome.pure_def]
  by_cases h4 : buf.getD 0 0 &&& ~~~0x08 = atypIpv4
  · simp only [h4, ite_true]
    by_cases h7 : buf.length < 7
    · simp only [h7, ite_true]
    · simp only [h7, ite_false, i 1 (by omega), i 2 (by omega), i 3 (by omega), i 4 (by omega),
        i 5 (by omega), i 6 (by omega), Outcome.ok_bind, portAt]
  by_cases h3 : buf.getD 0 0 &&& ~~~0x08 = atypDomain
  · simp only [if_neg h4, if_pos h3]
    by_cases h2 : buf.length < 2
    · simp only [h2, ite_true]
    simp only [h2, ite_false, i 1 (by omega), Outcome.ok_bind]
    by_cases hlen : buf.length < 2 + (buf.getD 1 0).toNat + 2
    · simp only [hlen, ite_true]
    have hs : (slice buf 2 (2 + (buf.getD 1 0).toNat) : Outcome AddressError _) =
        .ok (window buf 2 (2 + (buf.getD 1 0).toNat)) := slice_of_le (by omega) (by omega)
    simp only [hlen, ite_false, hs, Outcome.ok_bind]
    cases fromUtf8 (window buf 2 (2 + (buf.getD 1 0).toNat)) with
    | none => rfl
    | some host =>
        simp only [i (2 + (buf.getD 1 0).toNat) (by omega),
          i (2 + (buf.getD 1 0).toNat + 1) (by omega), Outcome.ok_bind, portAt]
  by_cases h6 : buf.getD 0 0 &&& ~~~0x08 = atypIpv6
  · simp only [if_neg h4, if_neg h3, if_pos h6]
    by_cases h19 : buf.length < 19
    · simp only [h19, ite_true]
    have hs : (slice buf 1 17 : Outcome AddressError _) = .ok (window buf 1 17) :=
      slice_of_le (by omega) (by omega)
    have hc : (copyFromSlice 16 (window buf 1 17) : Outcome AddressError _) =
        .ok (block 16 (window buf 1 17)) :=
      copyFromSlice_of_length (by rw [length_window]; omega)
    simp only [h19, ite_false, hs, hc, i 17 (by omega), i 18 (by omega), Outcome.ok_bind, portAt]
  · simp only [h4, h3, h6, ite_false]

theorem parse_eq_none_iff (buf : List UInt8) :
    parse buf = .ok none ↔ addressAttempt buf = .wait := by
  rw [parse_spec]
  cases addressAttempt buf with
  | wait => exact ⟨fun _ => rfl, fun _ => rfl⟩
  | reject e => exact ⟨nofun, nofun⟩
  | accept n out address => exact ⟨nofun, nofun⟩

theorem parse_ne_panic (buf : List UInt8) : parse buf ≠ .panic := by
  rw [parse_spec]
  cases addressAttempt buf <;> simp

theorem addressAttempt_le {buf out : List UInt8} {n : Nat} {address : Address}
    (h : addressAttempt buf = .accept n out address) : n ≤ buf.length ∧ out = [] := by
  simp only [addressAttempt, Attempt.wait_else_eq_accept] at h
  obtain ⟨-, h⟩ := h
  split at h
  · simp only [Attempt.wait_else_eq_accept, Attempt.accept.injEq] at h
    exact ⟨by omega, h.2.2.1.symm⟩
  split at h
  · simp only [Attempt.wait_else_eq_accept] at h
    obtain ⟨-, hlen, h⟩ := h
    split at h
    · cases h
    · simp only [Attempt.accept.injEq] at h
      exact ⟨by omega, h.2.1.symm⟩
  split at h
  · simp only [Attempt.wait_else_eq_accept, Attempt.accept.injEq] at h
    exact ⟨by omega, h.2.2.1.symm⟩
  · cases h

theorem parse_le {buf : List UInt8} {address : Address} {n : Nat}
    (h : parse buf = .ok (some (address, n))) : n ≤ buf.length := by
  rw [parse_spec] at h
  cases hattempt : addressAttempt buf with
  | wait =>
      rw [hattempt] at h
      cases h
  | reject e =>
      rw [hattempt] at h
      cases h
  | accept k out found =>
      rw [hattempt] at h
      cases h
      exact (addressAttempt_le hattempt).1

/-- An incomplete header is shorter than the longest domain allows. -/
theorem addressAttempt_wait {buf : List UInt8} (h : addressAttempt buf = .wait) :
    buf.length ≤ 258 := by
  have hdlen := (buf.getD 1 0).toNat_lt
  unfold addressAttempt at h
  dsimp only at h
  split at h
  · omega
  split at h
  · split at h
    · omega
    · cases h
  split at h
  · split at h
    · omega
    · split at h
      · omega
      · split at h <;> cases h
  split at h
  · split at h
    · omega
    · cases h
  · cases h

theorem parse_none_length {buf : List UInt8} (h : parse buf = .ok none) : buf.length ≤ 258 :=
  addressAttempt_wait ((parse_eq_none_iff buf).mp h)

theorem portAt_append {buf : List UInt8} {pos : Nat} (h : pos + 1 < buf.length)
    (tail : List UInt8) : portAt (buf ++ tail) pos = portAt buf pos := by
  rw [portAt, portAt, getD_append (by omega), getD_append h]

theorem addressAttempt_stable {buf : List UInt8} (tail : List UInt8)
    (h : addressAttempt buf ≠ .wait) : addressAttempt (buf ++ tail) = addressAttempt buf := by
  unfold addressAttempt at h ⊢
  by_cases h1 : buf.length < 1
  · simp [h1] at h
  have hlen : (buf ++ tail).length = buf.length + tail.length := List.length_append
  simp only [h1, ite_false, getD_append (show 0 < buf.length by omega),
    show ¬(buf ++ tail).length < 1 by omega] at h ⊢
  by_cases h4 : buf.getD 0 0 &&& ~~~0x08 = atypIpv4
  · by_cases h7 : buf.length < 7
    · simp only [if_pos h4, h7, ite_true, ne_eq, not_true_eq_false] at h
    simp only [if_pos h4, h7, show ¬(buf ++ tail).length < 7 by omega, ite_false,
      portAt_append (show 5 + 1 < buf.length by omega), getD_append (show 1 < buf.length by omega),
      getD_append (show 2 < buf.length by omega), getD_append (show 3 < buf.length by omega),
      getD_append (show 4 < buf.length by omega)]
  by_cases h3 : buf.getD 0 0 &&& ~~~0x08 = atypDomain
  · by_cases h2 : buf.length < 2
    · simp only [if_neg h4, if_pos h3, h2, ite_true, ne_eq, not_true_eq_false] at h
    by_cases hd : buf.length < 2 + (buf.getD 1 0).toNat + 2
    · simp only [if_neg h4, if_pos h3, h2, hd, ite_true, ite_false, ne_eq, not_true_eq_false] at h
    simp only [if_neg h4, if_pos h3, ite_false, h2, getD_append (show 1 < buf.length by omega), hd,
      show ¬(buf ++ tail).length < 2 by omega,
      show ¬(buf ++ tail).length < 2 + (buf.getD 1 0).toNat + 2 by omega,
      window_append (show 2 + (buf.getD 1 0).toNat ≤ buf.length by omega),
      portAt_append (show 2 + (buf.getD 1 0).toNat + 1 < buf.length by omega)]
  by_cases h6 : buf.getD 0 0 &&& ~~~0x08 = atypIpv6
  · by_cases h19 : buf.length < 19
    · simp only [if_neg h4, if_neg h3, if_pos h6, h19, ite_true, ne_eq, not_true_eq_false] at h
    simp only [if_neg h4, if_neg h3, if_pos h6, ite_false, h19, show ¬(buf ++ tail).length < 19 by omega,
      window_append (show 17 ≤ buf.length by omega),
      portAt_append (show 17 + 1 < buf.length by omega)]
  · simp only [h4, h3, h6, ite_false]

end SsrBackend
