import SsrBackend.Relay.IpText
import SsrBackend.Runtime.PanelUser

/-!
The policy of a panel row (`policy.rs`): the parsers of the forbidden lists and
`from_user`. A list is cut at its commas and an item that does not parse is left
out, so a list forbids what its well-formed items forbid. Which items these are is
said by a grammar, and the parsers take exactly the items of the grammar.
-/

namespace SsrBackend

open Text

def Cidr.parse (text : List Char) : Option Cidr := do
  let text := trim text
  if text = [] then
    none
  else
    let parts : List Char × Option (List Char) :=
      match splitOnce '/' text with
      | some (a, p) => (a, some p)
      | none => (text, none)
    let base ← IpAddr.fromStr (trim parts.1)
    match parts.2 with
    | some p =>
        let n ← parseUnsigned 256 (trim p)
        if h : n ≤ base.width then some ⟨base, n, h⟩ else none
    | none => some ⟨base, base.width, Nat.le_refl _⟩

def PortRange.parse (text : List Char) : Option PortRange := do
  let text := trim text
  if text = [] then
    none
  else
    match splitOnce '-' text with
    | some (a, b) =>
        let start ← parseUnsigned 65536 (trim a)
        let finish ← parseUnsigned 65536 (trim b)
        if start ≤ finish then
          some ⟨UInt16.ofNat start, UInt16.ofNat finish⟩
        else
          some ⟨UInt16.ofNat finish, UInt16.ofNat start⟩
    | none =>
        let p ← parseUnsigned 65536 text
        some ⟨UInt16.ofNat p, UInt16.ofNat p⟩

def parseList {α : Type} (raw : Option (List Char)) (parse : List Char → Option α) : List α :=
  match raw with
  | none => []
  | some raw =>
      (raw.splitOn ',').filterMap fun item =>
        let item := trim item
        if item = [] then none else parse item

/-- `f64::max`, which returns the other argument for a NaN. -/
def f64Max (x y : Float) : Float :=
  if x.isNaN then y else if y.isNaN then x else if x < y then y else x

def UserPolicy.fromUser (user : PanelUser) : UserPolicy :=
  let mbits := f64Max (user.nodeSpeedlimit.getD 0.0) 0.0
  { speedLimitBps := (mbits * 1024.0 * 1024.0 / 8.0).toUInt64.toNat
    connLimit := (max (user.nodeConnector.getD 0) 0).toNat % 2 ^ 32
    forbiddenIps := parseList (user.forbiddenIp.map String.toList) Cidr.parse
    forbiddenPorts := parseList (user.forbiddenPort.map String.toList) PortRange.parse }

/-! ### The items of the lists -/

/-- A port, or a range with its ends in either order; `lo` and `hi` are the span. -/
inductive PortItem : List Char → Nat → Nat → Prop
  | port {item number : List Char} {n : Nat} (hitem : Padded number item)
      (hnumber : Decimal number n) (hlt : n < 65536) : PortItem item n n
  | range {front back number number' : List Char} {a b : Nat} (hfront : Padded number front)
      (hback : Padded number' back) (hnumber : Decimal number a) (hlt : a < 65536)
      (hnumber' : Decimal number' b) (hlt' : b < 65536) :
      PortItem (front ++ '-' :: back) (min a b) (max a b)

/-- An address, or an address and the length of its prefix. -/
inductive CidrItem : List Char → Cidr → Prop
  | host {item addr : List Char} {base : IpAddr} (hitem : Padded addr item)
      (haddr : IpAddr.fromStr addr = some base) :
      CidrItem item ⟨base, base.width, Nat.le_refl _⟩
  | block {front back addr number : List Char} {base : IpAddr} {n : Nat}
      (hfront : Padded addr front) (hback : Padded number back)
      (haddr : IpAddr.fromStr addr = some base) (hnumber : Decimal number n)
      (hle : n ≤ base.width) : CidrItem (front ++ '/' :: back) ⟨base, n, hle⟩

theorem not_empty_of_splitOnce {sep : Char} {text : List Char} {parts : List Char × List Char}
    (h : splitOnce sep text = some parts) : text ≠ [] := by
  rintro rfl
  cases h

theorem parsePort_iff {number : List Char} {n : Nat} :
    parseUnsigned 65536 number = some n ↔ Decimal number n ∧ n < 65536 :=
  parseUnsigned_eq_some_iff (by decide)

namespace PortRange

theorem parse_trim (text : List Char) : parse (trim text) = parse text := by
  rw [parse, parse, trim_trim]

theorem parse_bare {text : List Char} (h : splitOnce '-' (trim text) = none) :
    parse text = (parseUnsigned 65536 (trim text)).map fun p =>
      ⟨UInt16.ofNat p, UInt16.ofNat p⟩ := by
  rw [parse]
  by_cases hempty : trim text = []
  · simp only [hempty, if_pos]
    rfl
  · simp only [if_neg hempty, h]
    cases parseUnsigned 65536 (trim text) <;> rfl

theorem parse_pair {text a b : List Char} (h : splitOnce '-' (trim text) = some (a, b)) :
    parse text = (parseUnsigned 65536 (trim a)).bind fun start =>
      (parseUnsigned 65536 (trim b)).map fun finish =>
        ⟨UInt16.ofNat (min start finish), UInt16.ofNat (max start finish)⟩ := by
  rw [parse]
  simp only [if_neg (not_empty_of_splitOnce h), h]
  cases parseUnsigned 65536 (trim a) with
  | none => rfl
  | some start =>
      cases parseUnsigned 65536 (trim b) with
      | none => rfl
      | some finish =>
          simp only [Option.bind_eq_bind, Option.bind_some, Option.map_some]
          by_cases hle : start ≤ finish
          · rw [if_pos hle, Nat.min_eq_left hle, Nat.max_eq_right hle]
          · have hge : finish ≤ start := Nat.le_of_not_le hle
            rw [if_neg hle, Nat.min_eq_right hge, Nat.max_eq_left hge]

theorem dash_not_mem {number : List Char} {n : Nat} (h : Decimal number n) : '-' ∉ number := by
  intro hmem
  rcases h.chars '-' hmem with hbetween | heq
  · exact absurd hbetween (by decide)
  · cases heq

theorem parse_of_item {item : List Char} {lo hi : Nat} (h : PortItem item lo hi) :
    hi < 65536 ∧ lo < 65536 ∧ parse item = some ⟨UInt16.ofNat lo, UInt16.ofNat hi⟩ := by
  cases h with
  | port hitem hnumber hlt =>
      have htrim := hitem.trim_eq hnumber.tight
      refine ⟨hlt, hlt, ?_⟩
      rw [parse_bare (by rw [htrim, splitOnce_of_not_mem (dash_not_mem hnumber)]), htrim,
        parsePort_iff.mpr ⟨hnumber, hlt⟩, Option.map_some]
  | range hfront hback hnumber hlt hnumber' hlt' =>
      obtain ⟨a', b', hsplit, ha, hb⟩ := splitOnce_trim hfront hback hnumber.tight hnumber'.tight
        hnumber.ne_nil hnumber'.ne_nil (dash_not_mem hnumber) (by decide)
      refine ⟨by omega, by omega, ?_⟩
      rw [parse_pair hsplit, ha, hb, parsePort_iff.mpr ⟨hnumber, hlt⟩,
        parsePort_iff.mpr ⟨hnumber', hlt'⟩, Option.bind_some, Option.map_some]

theorem item_of_parse {item : List Char} {range : PortRange} (h : parse item = some range) :
    PortItem item range.start.toNat range.finish.toNat := by
  cases hsplit : splitOnce '-' (trim item) with
  | none =>
      rw [parse_bare hsplit] at h
      obtain ⟨n, hn, rfl⟩ := Option.map_eq_some_iff.mp h
      obtain ⟨hnumber, hlt⟩ := parsePort_iff.mp hn
      dsimp only
      rw [UInt16.toNat_ofNat_of_lt' hlt]
      exact .port (padded_trim item) hnumber hlt
  | some parts =>
      rw [parse_pair hsplit] at h
      obtain ⟨a, ha, h⟩ := Option.bind_eq_some_iff.mp h
      obtain ⟨b, hb, rfl⟩ := Option.map_eq_some_iff.mp h
      obtain ⟨hnumber, hlt⟩ := parsePort_iff.mp ha
      obtain ⟨hnumber', hlt'⟩ := parsePort_iff.mp hb
      obtain ⟨front, back, rfl, hfront, hback⟩ := padded_of_splitOnce hsplit
      dsimp only
      rw [UInt16.toNat_ofNat_of_lt' (show min a b < 65536 by omega),
        UInt16.toNat_ofNat_of_lt' (show max a b < 65536 by omega)]
      exact .range hfront hback hnumber hlt hnumber' hlt'

/-- The well-formed items are read, each as the range of its span. -/
theorem exists_parse_iff {item : List Char} {port : UInt16} :
    (∃ range, parse item = some range ∧ range.contains port = true) ↔
      ∃ lo hi, PortItem item lo hi ∧ lo ≤ port.toNat ∧ port.toNat ≤ hi := by
  have hcontains (range : PortRange) : range.contains port = true ↔
      range.start.toNat ≤ port.toNat ∧ port.toNat ≤ range.finish.toNat := by
    rw [contains, Bool.and_eq_true, decide_eq_true_eq, decide_eq_true_eq, UInt16.le_iff_toNat_le,
      UInt16.le_iff_toNat_le]
  refine ⟨?_, ?_⟩
  · rintro ⟨range, hparse, hin⟩
    exact ⟨_, _, item_of_parse hparse, (hcontains range).mp hin⟩
  · rintro ⟨lo, hi, hitem, hin⟩
    obtain ⟨hhi, hlo, hparse⟩ := parse_of_item hitem
    refine ⟨_, hparse, (hcontains _).mpr ?_⟩
    dsimp only
    rw [UInt16.toNat_ofNat_of_lt' hlo, UInt16.toNat_ofNat_of_lt' hhi]
    exact hin

end PortRange

namespace Cidr

theorem parse_trim (text : List Char) : parse (trim text) = parse text := by
  rw [parse, parse, trim_trim]

theorem parse_bare {text : List Char} (h : splitOnce '/' (trim text) = none) :
    parse text = (IpAddr.fromStr (trim text)).map fun base =>
      ⟨base, base.width, Nat.le_refl _⟩ := by
  rw [parse]
  by_cases hempty : trim text = []
  · simp only [hempty, if_pos]
    rfl
  · simp only [if_neg hempty, h, trim_trim]
    cases IpAddr.fromStr (trim text) <;> rfl

theorem parse_pair {text a p : List Char} (h : splitOnce '/' (trim text) = some (a, p)) :
    parse text = (IpAddr.fromStr (trim a)).bind fun base =>
      (parseUnsigned 256 (trim p)).bind fun n =>
        if h : n ≤ base.width then some ⟨base, n, h⟩ else none := by
  rw [parse]
  simp only [if_neg (not_empty_of_splitOnce h), h]
  rfl

theorem address_tight {addr : List Char} {base : IpAddr} (h : IpAddr.fromStr addr = some base) :
    Tight addr := by
  apply Tight.of_all
  intro c hc
  exact IpText.isAddressChar_isWhitespace ((IpAddr.fromStr_chars h).2 c hc)

theorem slash_not_mem {addr : List Char} {base : IpAddr} (h : IpAddr.fromStr addr = some base) :
    '/' ∉ addr := by
  intro hmem
  rcases (IpAddr.fromStr_chars h).2 '/' hmem with hdigit | heq | heq
  · exact absurd hdigit (by decide)
  · cases heq
  · cases heq

theorem width_lt (base : IpAddr) : base.width < 256 := by
  cases base with
  | v4 octets => exact (by decide : 32 < 256)
  | v6 octets => exact (by decide : 128 < 256)

/-- The well-formed items are read, each as its rule. -/
theorem parse_eq_some_iff {item : List Char} {cidr : Cidr} :
    parse item = some cidr ↔ CidrItem item cidr := by
  have hread {number : List Char} {n : Nat} :
      parseUnsigned 256 number = some n ↔ Decimal number n ∧ n < 256 :=
    parseUnsigned_eq_some_iff (by decide)
  refine ⟨?_, ?_⟩
  · intro h
    cases hsplit : splitOnce '/' (trim item) with
    | none =>
        rw [parse_bare hsplit] at h
        obtain ⟨base, hbase, rfl⟩ := Option.map_eq_some_iff.mp h
        exact .host (padded_trim item) hbase
    | some parts =>
        rw [parse_pair hsplit] at h
        obtain ⟨base, hbase, h⟩ := Option.bind_eq_some_iff.mp h
        obtain ⟨n, hn, h⟩ := Option.bind_eq_some_iff.mp h
        obtain ⟨front, back, rfl, hfront, hback⟩ := padded_of_splitOnce hsplit
        by_cases hle : n ≤ base.width
        · rw [dif_pos hle] at h
          cases h
          exact .block hfront hback hbase (hread.mp hn).1 hle
        · rw [dif_neg hle] at h
          cases h
  · intro h
    cases h with
    | host hitem haddr =>
        have htrim := hitem.trim_eq (address_tight haddr)
        rw [parse_bare (by rw [htrim, splitOnce_of_not_mem (slash_not_mem haddr)]), htrim, haddr,
          Option.map_some]
    | @block front back addr number base n hfront hback haddr hnumber hle =>
        obtain ⟨a', p', hsplit, ha, hp⟩ := splitOnce_trim hfront hback (address_tight haddr)
          hnumber.tight (IpAddr.fromStr_chars haddr).1 hnumber.ne_nil (slash_not_mem haddr)
          (by decide)
        have hn := hread.mpr ⟨hnumber, Nat.lt_of_le_of_lt hle (width_lt base)⟩
        rw [parse_pair hsplit, ha, hp, haddr, Option.bind_some, hn, Option.bind_some, dif_pos hle]

end Cidr

/-! ### The lists -/

/-- The items of a list, as they stand between its commas. -/
def CommaFree (items : List String) : Prop := ∀ item ∈ items, ',' ∉ item.toList

theorem mem_parseList {α : Type} {parse : List Char → Option α}
    (htrim : ∀ text, parse (trim text) = parse text) (hempty : parse [] = none)
    {items : List String} (hitems : CommaFree items) {a : α} :
    a ∈ parseList (some (",".intercalate items).toList) parse ↔
      ∃ item ∈ items, parse item.toList = some a := by
  have hread (item : List Char) :
      (if trim item = [] then none else parse (trim item)) = parse item := by
    by_cases hblank : trim item = []
    · rw [if_pos hblank, ← htrim, hblank, hempty]
    · rw [if_neg hblank, htrim]
  simp only [parseList, hread, String.toList_intercalate, List.mem_filterMap]
  by_cases hnone : items = []
  · -- the empty text has one item, which is blank
    subst hnone
    have hsplit : (",".toList.intercalate (([] : List String).map String.toList)).splitOn ',' =
        [[]] := rfl
    simp only [hsplit, List.mem_singleton, exists_eq_left, hempty, List.not_mem_nil, false_and,
      exists_false, reduceCtorEq]
  · have hpieces : ∀ piece ∈ items.map String.toList, ',' ∉ piece := by
      intro piece hpiece
      obtain ⟨item, hitem, rfl⟩ := List.mem_map.mp hpiece
      exact hitems item hitem
    have hsplit := List.splitOn_intercalate ',' hpieces (by simpa using hnone)
    rw [show ",".toList = [','] from rfl, hsplit]
    simp only [List.mem_map, exists_exists_and_eq_and]

theorem any_parseList {α : Type} {parse : List Char → Option α}
    (htrim : ∀ text, parse (trim text) = parse text) (hempty : parse [] = none)
    {items : List String} (hitems : CommaFree items) (holds : α → Bool) :
    (parseList (some (",".intercalate items).toList) parse).any holds = true ↔
      ∃ item ∈ items, ∃ a, parse item.toList = some a ∧ holds a = true := by
  rw [List.any_eq_true]
  refine ⟨?_, ?_⟩
  · rintro ⟨a, hmem, ha⟩
    obtain ⟨item, hitem, hparse⟩ := (mem_parseList htrim hempty hitems).mp hmem
    exact ⟨item, hitem, a, hparse, ha⟩
  · rintro ⟨item, hitem, a, hparse, ha⟩
    exact ⟨a, (mem_parseList htrim hempty hitems).mpr ⟨item, hitem, hparse⟩, ha⟩

namespace UserPolicy

variable {user : PanelUser} {items : List String}

theorem fromUser_portForbidden (hitems : CommaFree items)
    (huser : user.forbiddenPort = some (",".intercalate items)) (port : UInt16) :
    (fromUser user).portForbidden port = true ↔
      ∃ item ∈ items, ∃ lo hi, PortItem item.toList lo hi ∧ lo ≤ port.toNat ∧
        port.toNat ≤ hi := by
  have hlist : (fromUser user).forbiddenPorts =
      parseList (some (",".intercalate items).toList) PortRange.parse := by
    rw [fromUser, huser]
    rfl
  rw [portForbidden, hlist, any_parseList PortRange.parse_trim rfl hitems]
  simp only [PortRange.exists_parse_iff]

theorem fromUser_ipForbidden (hitems : CommaFree items)
    (huser : user.forbiddenIp = some (",".intercalate items)) (ip : IpAddr) :
    (fromUser user).ipForbidden ip = true ↔
      ∃ item ∈ items, ∃ cidr, CidrItem item.toList cidr ∧ cidr.contains ip = true := by
  have hlist : (fromUser user).forbiddenIps =
      parseList (some (",".intercalate items).toList) Cidr.parse := by
    rw [fromUser, huser]
    rfl
  rw [ipForbidden, hlist, any_parseList Cidr.parse_trim rfl hitems]
  simp only [Cidr.parse_eq_some_iff]

/-- A list forbids what its well-formed items forbid, and nothing else of its text is seen. -/
theorem forbidden_lists :
    (∀ (user : PanelUser) (items : List String), CommaFree items →
      user.forbiddenPort = some (",".intercalate items) → ∀ port : UInt16,
        ((fromUser user).portForbidden port = true ↔
          ∃ item ∈ items, ∃ lo hi, PortItem item.toList lo hi ∧ lo ≤ port.toNat ∧
            port.toNat ≤ hi)) ∧
    (∀ (user : PanelUser) (items : List String), CommaFree items →
      user.forbiddenIp = some (",".intercalate items) → ∀ ip : IpAddr,
        ((fromUser user).ipForbidden ip = true ↔
          ∃ item ∈ items, ∃ cidr, CidrItem item.toList cidr ∧ cidr.contains ip = true)) ∧
    (∀ (user user' : PanelUser) (items items' : List String), CommaFree items → CommaFree items' →
      user.forbiddenPort = some (",".intercalate items) →
      user'.forbiddenPort = some (",".intercalate items') →
      (∀ lo hi, (∃ item ∈ items, PortItem item.toList lo hi) ↔
        ∃ item ∈ items', PortItem item.toList lo hi) →
      ∀ port, (fromUser user).portForbidden port = (fromUser user').portForbidden port) ∧
    ∀ (user user' : PanelUser) (items items' : List String), CommaFree items → CommaFree items' →
      user.forbiddenIp = some (",".intercalate items) →
      user'.forbiddenIp = some (",".intercalate items') →
      (∀ cidr, (∃ item ∈ items, CidrItem item.toList cidr) ↔
        ∃ item ∈ items', CidrItem item.toList cidr) →
      ∀ ip, (fromUser user).ipForbidden ip = (fromUser user').ipForbidden ip := by
  refine ⟨?_, ?_, ?_, ?_⟩
  · intro user items hitems huser port
    exact fromUser_portForbidden hitems huser port
  · intro user items hitems huser ip
    exact fromUser_ipForbidden hitems huser ip
  · intro user user' items items' hitems hitems' huser huser' hsame port
    rw [Bool.eq_iff_iff, fromUser_portForbidden hitems huser,
      fromUser_portForbidden hitems' huser']
    refine ⟨?_, ?_⟩
    · rintro ⟨item, hmem, lo, hi, hitem, hin⟩
      obtain ⟨item', hmem', hitem'⟩ := (hsame lo hi).mp ⟨item, hmem, hitem⟩
      exact ⟨item', hmem', lo, hi, hitem', hin⟩
    · rintro ⟨item, hmem, lo, hi, hitem, hin⟩
      obtain ⟨item', hmem', hitem'⟩ := (hsame lo hi).mpr ⟨item, hmem, hitem⟩
      exact ⟨item', hmem', lo, hi, hitem', hin⟩
  · intro user user' items items' hitems hitems' huser huser' hsame ip
    rw [Bool.eq_iff_iff, fromUser_ipForbidden hitems huser, fromUser_ipForbidden hitems' huser']
    refine ⟨?_, ?_⟩
    · rintro ⟨item, hmem, cidr, hitem, hin⟩
      obtain ⟨item', hmem', hitem'⟩ := (hsame cidr).mp ⟨item, hmem, hitem⟩
      exact ⟨item', hmem', cidr, hitem', hin⟩
    · rintro ⟨item, hmem, cidr, hitem, hin⟩
      obtain ⟨item', hmem', hitem'⟩ := (hsame cidr).mpr ⟨item, hmem, hitem⟩
      exact ⟨item', hmem', cidr, hitem', hin⟩

/-- A row with a range between a blank and a malformed item. -/
def listedRow : PanelUser where
  id := 7
  userId? := none
  port := 443
  password := "a"
  method := none
  protocol := none
  obfs := none
  enable := none
  isMultiUser := 0
  nodeSpeedlimit := none
  nodeConnector := none
  forbiddenIp := none
  forbiddenPort := some ", 90 - 80,http"

theorem forbidden_lists_listedRow :
    CommaFree ["", " 90 - 80", "http"] ∧ (fromUser listedRow).portForbidden 85 = true := by
  have hitems : CommaFree ["", " 90 - 80", "http"] := by
    rw [CommaFree]
    decide
  have hninety := parsePort_iff.mp (show parseUnsigned 65536 ['9', '0'] = some 90 from rfl)
  have height := parsePort_iff.mp (show parseUnsigned 65536 ['8', '0'] = some 80 from rfl)
  have hrange : PortItem " 90 - 80".toList 80 90 :=
    .range (padded_trim [' ', '9', '0', ' ']) (padded_trim [' ', '8', '0'])
      hninety.1 hninety.2 height.1 height.2
  exact ⟨hitems, (forbidden_lists.1 listedRow _ hitems rfl 85).mpr
    ⟨" 90 - 80", by decide, 80, 90, hrange, by decide, by decide⟩⟩

end UserPolicy

end SsrBackend
