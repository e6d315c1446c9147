import SsrBackend.Ssr.Address

/-!
The address header as a prefix code: what `parse` says of a buffer, of its
prefixes and of its extensions, and the headers it reads back.
-/

namespace SsrBackend

open Resumable

/-- `IpAddr::to_string`. -/
def IpAddr.text : IpAddr → String
  | v4 octets =>
      let octet (i : Nat) := octets.toList.getD i 0
      ipv4Text (octet 0) (octet 1) (octet 2) (octet 3)
  | v6 octets => ipv6Text octets

/-- `u16::to_be_bytes`. -/
def portBytes (port : UInt16) : List UInt8 :=
  [UInt8.ofNat (port.toNat / 256), UInt8.ofNat port.toNat]

def hostBytes (host : String) : List UInt8 := host.toByteArray.data.toList

/-- The SOCKS5 header of a domain name. -/
def packDomain (host : String) (port : UInt16) : List UInt8 :=
  atypDomain :: UInt8.ofNat (hostBytes host).length :: (hostBytes host ++ portBytes port)

theorem fromUtf8_hostBytes (host : String) : fromUtf8 (hostBytes host) = some host := by
  rw [fromUtf8, hostBytes, Array.toArray_toList, String.fromUTF8?, dif_pos host.isValidUTF8]
  rfl

theorem u16Be_portBytes (port : UInt16) :
    u16Be (UInt8.ofNat (port.toNat / 256)) (UInt8.ofNat port.toNat) = port := by
  have hport := port.toNat_lt
  apply UInt16.toNat_inj.mp
  rw [u16Be, UInt8.toNat_ofNat', UInt8.toNat_ofNat', UInt16.toNat_ofNat']
  omega

/-! ### Verdicts -/

/-- Once the header is complete, or wrong, what follows does not matter. -/
theorem parse_stable {buf : List UInt8} (h : parse buf ≠ .ok none) (tail : List UInt8) :
    parse (buf ++ tail) = parse buf := by
  rw [Ne, parse_eq_none_iff] at h
  rw [parse_spec, addressAttempt_stable tail h, ← parse_spec]

/-- No shorter buffer has the whole header. -/
theorem parse_of_prefix {buf short : List UInt8} {address : Address} {n : Nat}
    (h : parse buf = .ok (some (address, n))) (hshort : short <+: buf) (hlen : short.length < n) :
    parse short = .ok none := by
  by_contra hdone
  obtain ⟨tail, rfl⟩ := hshort
  rw [parse_stable hdone tail] at h
  have hle := parse_le h
  omega

theorem portAt_succ (first : UInt8) (rest : List UInt8) (pos : Nat) :
    portAt (first :: rest) (pos + 1) = portAt rest pos := rfl

theorem window_succ (first : UInt8) (rest : List UInt8) (lo hi : Nat) :
    window (first :: rest) (lo + 1) (hi + 1) = window rest lo hi := rfl

/-- Of the first byte only its type counts. -/
theorem addressAttempt_cons {first first' : UInt8} (h : first &&& ~~~0x08 = first' &&& ~~~0x08)
    (rest : List UInt8) : addressAttempt (first :: rest) = addressAttempt (first' :: rest) := by
  have hpos : ∀ dlen : Nat, 2 + dlen = 1 + dlen + 1 := by
    intro dlen
    omega
  simp only [addressAttempt, List.getD_cons_zero, h, List.getD_cons_succ, List.length_cons,
    portAt_succ, hpos, window_succ]

theorem or_mask (first : UInt8) : (first ||| 0x08) &&& ~~~0x08 = first &&& ~~~0x08 := by
  apply UInt8.toBitVec_inj.mp
  ext i hi
  simp only [UInt8.toBitVec_and, UInt8.toBitVec_or, UInt8.toBitVec_not, BitVec.getElem_and,
    BitVec.getElem_or, BitVec.getElem_not]
  cases (UInt8.toBitVec 0x08)[i] with
  | false => rw [Bool.or_false]
  | true => rw [Bool.not_true, Bool.and_false, Bool.and_false]

/-- The flag of the connect type is masked off. -/
theorem parse_connectType (first : UInt8) (rest : List UInt8) :
    parse ((first ||| 0x08) :: rest) = parse (first :: rest) := by
  rw [parse_spec, parse_spec, addressAttempt_cons (or_mask first)]

/-! ### Incomplete headers -/

/-- The type of the first byte, without the flag. -/
def addressType (buf : List UInt8) : UInt8 := buf.getD 0 0 &&& ~~~0x08

/-- The length that a domain header announces. -/
def domainLength (buf : List UInt8) : Nat := (buf.getD 1 0).toNat

/-- The bytes of the domain name so far can become the UTF-8 of a host. -/
def Completable (buf : List UInt8) : Prop :=
  ∃ rest host, (window buf 2 (2 + domainLength buf) ++ rest).length = domainLength buf ∧
    fromUtf8 (window buf 2 (2 + domainLength buf) ++ rest) = some host

theorem parse_of_ipv4 {buf : List UInt8} (htype : addressType buf = atypIpv4)
    (hlen : 7 ≤ buf.length) : ∃ address n, parse buf = .ok (some (address, n)) := by
  rw [parse_spec, addressAttempt, ← addressType, htype, if_neg (by omega), if_pos rfl,
    if_neg (by omega)]
  exact ⟨_, _, rfl⟩

theorem parse_of_ipv6 {buf : List UInt8} (htype : addressType buf = atypIpv6)
    (hlen : 19 ≤ buf.length) : ∃ address n, parse buf = .ok (some (address, n)) := by
  have h4 : ¬atypIpv6 = atypIpv4 := by decide
  have h3 : ¬atypIpv6 = atypDomain := by decide
  rw [parse_spec, addressAttempt, ← addressType, htype, if_neg (by omega), if_neg h4, if_neg h3,
    if_pos rfl, if_neg (by omega)]
  exact ⟨_, _, rfl⟩

theorem parse_of_domain {buf : List UInt8} {host : String}
    (htype : addressType buf = atypDomain) (hlen : 2 + domainLength buf + 2 ≤ buf.length)
    (hname : fromUtf8 (window buf 2 (2 + domainLength buf)) = some host) :
    ∃ address n, parse buf = .ok (some (address, n)) := by
  have h4 : ¬atypDomain = atypIpv4 := by decide
  rw [parse_spec, addressAttempt, ← addressType, ← domainLength, htype, if_neg (by omega),
    if_neg h4, if_pos rfl, if_neg (by omega), if_neg (by omega), hname]
  exact ⟨_, _, rfl⟩

theorem window_append_rest {buf rest : List UInt8} {n : Nat} (h2 : 2 ≤ buf.length)
    (hrest : (window buf 2 (2 + n) ++ rest).length = n) (tail : List UInt8) :
    window (buf ++ (rest ++ tail)) 2 (2 + n) = window buf 2 (2 + n) ++ rest := by
  rw [List.length_append, length_window] at hrest
  have hcount : 2 + n - buf.length = rest.length := by omega
  have htaken : 2 ≤ (buf.take (2 + n)).length := by
    rw [List.length_take]
    omega
  rw [window, window, List.take_append, hcount, List.take_left,
    List.drop_append_of_le_length htaken]

theorem completes_domain {buf : List UInt8} (htype : addressType buf = atypDomain)
    (h2 : 2 ≤ buf.length) (hcompletable : Completable buf) :
    ∃ tail address n, parse (buf ++ tail) = .ok (some (address, n)) := by
  obtain ⟨rest, host, hlen, hname⟩ := hcompletable
  have hfirst : addressType (buf ++ (rest ++ [0, 0])) = addressType buf := by
    rw [addressType, getD_append (by omega), addressType]
  have hcount : domainLength (buf ++ (rest ++ [0, 0])) = domainLength buf := by
    rw [domainLength, getD_append (by omega), domainLength]
  have hwindow := window_append_rest h2 hlen [0, 0]
  rw [List.length_append, length_window] at hlen
  have hfull : 2 + domainLength (buf ++ (rest ++ [0, 0])) + 2 ≤ (buf ++ (rest ++ [0, 0])).length := by
    rw [hcount, List.length_append, List.length_append]
    change _ ≤ buf.length + (rest.length + 2)
    omega
  rw [← hwindow, ← hcount] at hname
  exact ⟨rest ++ [0, 0], parse_of_domain (hfirst.trans htype) hfull hname⟩

/-- An incomplete header has a continuation that completes it, unless the name is spoilt. -/
theorem parse_completes {buf : List UInt8} (h : parse buf = .ok none)
    (hdomain : addressType buf = atypDomain → 2 ≤ buf.length → Completable buf) :
    ∃ tail address n, parse (buf ++ tail) = .ok (some (address, n)) := by
  cases buf with
  | nil => exact ⟨[1, 0, 0, 0, 0, 0, 0], _, _, rfl⟩
  | cons first rest =>
      have htypes : ∀ tail, addressType (first :: rest ++ tail) = addressType (first :: rest) :=
        fun _ => rfl
      have hzeros : ∀ n, n ≤ (first :: rest ++ List.replicate n 0).length := by
        intro n
        rw [List.length_append, List.length_replicate]
        omega
      by_cases h4 : addressType (first :: rest) = atypIpv4
      · exact ⟨List.replicate 7 0, parse_of_ipv4 ((htypes _).trans h4) (hzeros 7)⟩
      by_cases h6 : addressType (first :: rest) = atypIpv6
      · exact ⟨List.replicate 19 0, parse_of_ipv6 ((htypes _).trans h6) (hzeros 19)⟩
      by_cases h3 : addressType (first :: rest) = atypDomain
      · cases rest with
        | nil =>
            have hname : fromUtf8 (window [first, 0, 0, 0] 2 2) = some "" := fromUtf8_hostBytes ""
            exact ⟨[0, 0, 0], parse_of_domain ((htypes _).trans h3) (Nat.le_refl 4) hname⟩
        | cons second rest =>
            have h2 : 2 ≤ (first :: second :: rest).length := Nat.le_add_left 2 rest.length
            exact completes_domain h3 h2 (hdomain h3 h2)
      · rw [parse_spec, addressAttempt, ← addressType, if_neg (by simp), if_neg h4, if_neg h3,
          if_neg h6] at h
        cases h

/-! ### Headers that are read back -/

/-- A header followed by anything: the type, the length and the text decide. -/
theorem parse_domain {first : UInt8} {name : List UInt8} {host : String}
    (hfirst : first &&& ~~~0x08 = atypDomain) (hlen : name.length < 256)
    (hname : fromUtf8 name = some host) (hi lo : UInt8) (payload : List UInt8) :
    parse (first :: UInt8.ofNat name.length :: (name ++ (hi :: lo :: payload))) =
      .ok (some (⟨host, u16Be hi lo⟩, 2 + name.length + 2)) := by
  have hdlen : (UInt8.ofNat name.length).toNat = name.length := by
    rw [UInt8.toNat_ofNat']
    omega
  generalize hbuf : first :: UInt8.ofNat name.length :: (name ++ (hi :: lo :: payload)) = buf
  have hsize : buf.length = 2 + name.length + 2 + payload.length := by
    rw [← hbuf]
    simp only [List.length_cons, List.length_append]
    omega
  have htype : buf.getD 0 0 &&& ~~~0x08 = atypDomain := by
    rw [← hbuf]
    exact hfirst
  have hcount : (buf.getD 1 0).toNat = name.length := by
    rw [← hbuf]
    exact hdlen
  have hwindow : window buf 2 (2 + name.length) = name :=
    window_of_eq_append [first, UInt8.ofNat name.length] name (hi :: lo :: payload) hbuf.symm rfl rfl
  have hport : portAt buf (2 + name.length) = u16Be hi lo := by
    rw [portAt, ← hbuf, List.getD_eq_getElem?_getD, List.getD_eq_getElem?_getD]
    have hat : 2 + name.length = name.length + 1 + 1 := by omega
    rw [hat, List.getElem?_cons_succ, List.getElem?_cons_succ,
      List.getElem?_cons_succ, List.getElem?_cons_succ, List.getElem?_append_right (Nat.le_refl _),
      List.getElem?_append_right (by omega), Nat.sub_self, Nat.add_sub_cancel_left]
    rfl
  have h4 : ¬atypDomain = atypIpv4 := by decide
  rw [parse_spec, addressAttempt, htype, if_neg (by omega), if_neg h4, if_pos rfl,
    if_neg (by omega), hcount, if_neg (by omega), hwindow, hname, hport]

theorem parse_ipv4 {first : UInt8} (hfirst : first &&& ~~~0x08 = atypIpv4)
    (a b c d hi lo : UInt8) (payload : List UInt8) :
    parse (first :: a :: b :: c :: d :: hi :: lo :: payload) =
      .ok (some (⟨ipv4Text a b c d, u16Be hi lo⟩, 7)) := by
  have hsize : ¬(first :: a :: b :: c :: d :: hi :: lo :: payload).length < 7 := by
    simp only [List.length_cons]
    omega
  rw [parse_spec, addressAttempt, List.getD_cons_zero, hfirst, if_neg (by simp), if_pos rfl,
    if_neg hsize]
  rfl

theorem parse_ipv6 {first : UInt8} (hfirst : first &&& ~~~0x08 = atypIpv6)
    (octets : Vector UInt8 16) (hi lo : UInt8) (payload : List UInt8) :
    parse (first :: (octets.toList ++ (hi :: lo :: payload))) =
      .ok (some (⟨ipv6Text octets, u16Be hi lo⟩, 19)) := by
  have hlen : octets.toList.length = 16 := Vector.length_toList
  generalize hbuf : first :: (octets.toList ++ (hi :: lo :: payload)) = buf
  have hsize : buf.length = 19 + payload.length := by
    rw [← hbuf]
    simp only [List.length_cons, List.length_append, hlen]
    omega
  have htype : buf.getD 0 0 &&& ~~~0x08 = atypIpv6 := by
    rw [← hbuf]
    exact hfirst
  have hwindow : window buf 1 17 = octets.toList :=
    window_of_eq_append [first] octets.toList (hi :: lo :: payload) hbuf.symm rfl
      (by rw [hlen]; rfl)
  have hport : portAt buf 17 = u16Be hi lo := by
    rw [portAt, ← hbuf, List.getD_cons_succ, List.getD_cons_succ, List.getD_eq_getElem?_getD,
      List.getD_eq_getElem?_getD, List.getElem?_append_right (by omega),
      List.getElem?_append_right (by omega), hlen]
    rfl
  have h4 : ¬atypIpv6 = atypIpv4 := by decide
  have h3 : ¬atypIpv6 = atypDomain := by decide
  rw [parse_spec, addressAttempt, htype, if_neg (by omega), if_neg h4, if_neg h3, if_pos rfl,
    if_neg (by omega), hwindow, block_toList, hport]

theorem parse_packDomain {host : String} (hlen : (hostBytes host).length ≤ 255) (port : UInt16)
    (payload : List UInt8) :
    parse (packDomain host port ++ payload) =
      .ok (some (⟨host, port⟩, (packDomain host port).length)) := by
  have htype : atypDomain &&& ~~~0x08 = atypDomain := by decide
  have hparse := parse_domain htype (Nat.lt_succ_of_le hlen)
    (fromUtf8_hostBytes host) (UInt8.ofNat (port.toNat / 256)) (UInt8.ofNat port.toNat) payload
  rw [u16Be_portBytes] at hparse
  have hbuf : packDomain host port ++ payload =
      atypDomain :: UInt8.ofNat (hostBytes host).length ::
        (hostBytes host ++ (UInt8.ofNat (port.toNat / 256) :: UInt8.ofNat port.toNat :: payload)) := by
    simp [packDomain, portBytes]
  have hsize : (packDomain host port).length = 2 + (hostBytes host).length + 2 := by
    simp only [packDomain, portBytes, List.length_cons, List.length_append, List.length_nil]
    omega
  rw [hbuf, hparse, hsize]

theorem parse_packSocketAddr (ip : IpAddr) (port : UInt16) (payload : List UInt8) :
    parse (packSocketAddr ip port ++ payload) =
      .ok (some (⟨ip.text, port⟩, (packSocketAddr ip port).length)) := by
  cases ip with
  | v4 octets =>
      obtain ⟨⟨bytes⟩, hbytes⟩ := octets
      match bytes, hbytes with
      | [a, b, c, d], hbytes =>
          have htype : atypIpv4 &&& ~~~0x08 = atypIpv4 := by decide
          have hparse := parse_ipv4 htype a b c d
            (UInt8.ofNat (port.toNat / 256)) (UInt8.ofNat port.toNat) payload
          rw [u16Be_portBytes] at hparse
          exact hparse
  | v6 octets =>
      have htype : atypIpv6 &&& ~~~0x08 = atypIpv6 := by decide
      have hparse := parse_ipv6 htype octets
        (UInt8.ofNat (port.toNat / 256)) (UInt8.ofNat port.toNat) payload
      rw [u16Be_portBytes] at hparse
      have hbuf : packSocketAddr (.v6 octets) port ++ payload = atypIpv6 :: (octets.toList ++
          (UInt8.ofNat (port.toNat / 256) :: UInt8.ofNat port.toNat :: payload)) := by
        simp [packSocketAddr]
      have hsize : (packSocketAddr (.v6 octets) port).length = 19 := by
        simp [packSocketAddr]
      rw [hbuf, hparse, hsize, IpAddr.text]

/-- `parse` reads a prefix code: whole headers, whatever follows them and however they arrive. -/
theorem address_header_laws (buf tail : List UInt8) :
    (∀ address n, parse buf = .ok (some (address, n)) →
      n ≤ buf.length ∧ parse (buf ++ tail) = .ok (some (address, n)) ∧
      ∀ short, short <+: buf.take n → short ≠ buf.take n → parse short = .ok none) ∧
    (∀ e, parse buf = .err e → parse (buf ++ tail) = .err e) ∧
    (parse buf = .ok none →
      (addressType buf = atypDomain → 2 ≤ buf.length → Completable buf) →
      ∃ more address n, parse (buf ++ more) = .ok (some (address, n))) ∧
    (∀ first rest, buf = first :: rest → parse ((first ||| 0x08) :: rest) = parse buf) ∧
    (∀ (ip : IpAddr) (port : UInt16), parse (packSocketAddr ip port ++ tail) =
      .ok (some (⟨ip.text, port⟩, (packSocketAddr ip port).length))) ∧
    ∀ (host : String) (port : UInt16), (hostBytes host).length ≤ 255 →
      parse (packDomain host port ++ tail) =
        .ok (some (⟨host, port⟩, (packDomain host port).length)) := by
  refine ⟨?_, ?_, parse_completes, ?_, ?_, ?_⟩
  · intro address n h
    refine ⟨parse_le h, ?_, ?_⟩
    · rw [parse_stable (by rw [h]; nofun) tail]
      exact h
    · intro short hshort hne
      apply parse_of_prefix h (hshort.trans (List.take_prefix n buf))
      have hlen := hshort.length_le
      rw [List.length_take] at hlen
      have hproper : short.length ≠ (buf.take n).length := fun heq => hne (hshort.eq_of_length heq)
      rw [List.length_take] at hproper
      omega
  · intro e h
    rw [parse_stable (by rw [h]; nofun) tail]
    exact h
  · rintro first rest rfl
    exact parse_connectType first rest
  · intro ip port
    exact parse_packSocketAddr ip port tail
  · intro host port hlen
    exact parse_packDomain hlen port tail

end SsrBackend
