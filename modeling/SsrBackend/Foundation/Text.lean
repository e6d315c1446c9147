import Mathlib.Algebra.Order.Ring.Nat
import Mathlib.Data.List.Basic
import Mathlib.Data.List.DropRight

/-!
Text as the Rust standard library cuts and reads it, on lists of characters:
trimming, the first split at a separator, and unsigned decimal numbers. Each
function has its grammar beside it, and reads exactly the texts of that grammar.
-/

namespace Text

section Trim

/-- `char::is_whitespace`: the characters with the Unicode property `White_Space`. -/
def isWhitespace (c : Char) : Bool :=
  (0x09 ≤ c.toNat && c.toNat ≤ 0x0d) || c.toNat == 0x20 || c.toNat == 0x85 || c.toNat == 0xa0 ||
    c.toNat == 0x1680 || (0x2000 ≤ c.toNat && c.toNat ≤ 0x200a) || c.toNat == 0x2028 ||
    c.toNat == 0x2029 || c.toNat == 0x202f || c.toNat == 0x205f || c.toNat == 0x3000

/-- `str::trim`. -/
def trim (text : List Char) : List Char :=
  (text.dropWhile isWhitespace).rdropWhile isWhitespace

/-- Nothing but whitespace. -/
def Blank (text : List Char) : Prop := ∀ c ∈ text, isWhitespace c = true

/-- Neither end is whitespace. -/
structure Tight (text : List Char) : Prop where
  head : ∀ c ∈ text.head?, isWhitespace c = false
  last : ∀ c ∈ text.getLast?, isWhitespace c = false

theorem Tight.of_all {text : List Char} (h : ∀ c ∈ text, isWhitespace c = false) : Tight text where
  head c hc := h c (List.mem_of_mem_head? hc)
  last c hc := h c (List.mem_of_mem_getLast? hc)

theorem dropWhile_blank {w : List Char} (hw : Blank w) (text : List Char) :
    (w ++ text).dropWhile isWhitespace = text.dropWhile isWhitespace := by
  induction w with
  | nil => rfl
  | cons c w ih =>
      rw [List.cons_append, List.dropWhile_cons_of_pos (hw c (List.mem_cons_self ..))]
      exact ih fun d hd => hw d (List.mem_cons_of_mem c hd)

theorem Blank.reverse {w : List Char} (hw : Blank w) : Blank w.reverse := fun c hc =>
  hw c (List.mem_reverse.mp hc)

theorem rdropWhile_blank (text : List Char) {w : List Char} (hw : Blank w) :
    (text ++ w).rdropWhile isWhitespace = text.rdropWhile isWhitespace := by
  rw [List.rdropWhile, List.reverse_append, dropWhile_blank hw.reverse, List.rdropWhile]

theorem Tight.dropWhile {text : List Char} (h : Tight text) (w : List Char)
    (hne : text ≠ []) : (text ++ w).dropWhile isWhitespace = text ++ w := by
  cases text with
  | nil => exact absurd rfl hne
  | cons c rest =>
      have hc := h.head c rfl
      rw [List.cons_append, List.dropWhile_cons_of_neg (by rw [hc]; decide)]

theorem Tight.rdropWhile {text : List Char} (h : Tight text) :
    text.rdropWhile isWhitespace = text := by
  rw [List.rdropWhile_eq_self_iff]
  intro hne hlast
  rw [h.last _ (List.getLast_mem_getLast? hne)] at hlast
  cases hlast

/-- What is trimmed off a text is the whitespace around it. -/
theorem trim_blank {w text w' : List Char} (hw : Blank w) (h : Tight text) (hw' : Blank w') :
    trim (w ++ text ++ w') = text := by
  rw [trim, List.append_assoc, dropWhile_blank hw]
  by_cases hne : text = []
  · subst hne
    rw [List.nil_append, ← List.append_nil w', dropWhile_blank hw']
    rfl
  · rw [h.dropWhile w' hne, rdropWhile_blank text hw', h.rdropWhile]

theorem tight_trim (text : List Char) : Tight (trim text) where
  head c hc := by
    obtain ⟨rest, hrest⟩ := List.rdropWhile_prefix isWhitespace (text.dropWhile isWhitespace)
    have hmem := List.mem_head?_append_of_mem_head? (t := rest) hc
    rw [trim, hrest] at hmem
    have hnot := List.head?_dropWhile_not isWhitespace text
    rw [Option.mem_def.mp hmem] at hnot
    exact hnot
  last c hc := by
    obtain ⟨hne, rfl⟩ := List.mem_getLast?_eq_getLast hc
    have hnot := List.rdropWhile_last_not isWhitespace (text.dropWhile isWhitespace) hne
    rw [Bool.not_eq_true] at hnot
    exact hnot

/-- A text with whitespace around it. -/
def Padded (core text : List Char) : Prop :=
  ∃ w w', Blank w ∧ Blank w' ∧ text = w ++ core ++ w'

theorem padded_trim (text : List Char) : Padded (trim text) text := by
  refine ⟨text.takeWhile isWhitespace, (text.dropWhile isWhitespace).rtakeWhile isWhitespace,
    ?_, ?_, ?_⟩
  · intro c hc
    exact List.mem_takeWhile_imp hc
  · intro c hc
    exact List.mem_rtakeWhile_imp hc
  · rw [trim, List.append_assoc, List.rdropWhile_append_rtakeWhile, List.takeWhile_append_dropWhile]

theorem Padded.trim_eq {core text : List Char} (h : Padded core text) (hcore : Tight core) :
    trim text = core := by
  obtain ⟨w, w', hw, hw', rfl⟩ := h
  exact trim_blank hw hcore hw'

theorem trim_trim (text : List Char) : trim (trim text) = trim text :=
  Padded.trim_eq ⟨[], [], nofun, nofun, by simp⟩ (tight_trim text)

theorem Padded.append_left {core text w : List Char} (h : Padded core text) (hw : Blank w) :
    Padded core (w ++ text) := by
  obtain ⟨v, v', hv, hv', rfl⟩ := h
  refine ⟨w ++ v, v', ?_, hv', by simp only [List.append_assoc]⟩
  intro c hc
  exact (List.mem_append.mp hc).elim (hw c) (hv c)

theorem Padded.append_right {core text w : List Char} (h : Padded core text) (hw : Blank w) :
    Padded core (text ++ w) := by
  obtain ⟨v, v', hv, hv', rfl⟩ := h
  refine ⟨v, v' ++ w, hv, ?_, by simp only [List.append_assoc]⟩
  intro c hc
  exact (List.mem_append.mp hc).elim (hv' c) (hw c)

/-- What stands between two tight texts does not matter for the ends. -/
theorem Tight.around {front back : List Char} (hfront : Tight front) (hback : Tight back)
    (hfront' : front ≠ []) (hback' : back ≠ []) (middle : List Char) :
    Tight (front ++ (middle ++ back)) where
  head c hc := by
    rw [List.head?_append_of_ne_nil _ hfront'] at hc
    exact hfront.head c hc
  last c hc := by
    rw [← List.append_assoc, List.getLast?_append_of_ne_nil _ hback'] at hc
    exact hback.last c hc

theorem isWhitespace_of_printable {c : Char} (hlo : 0x21 ≤ c.toNat) (hhi : c.toNat ≤ 0x7e) :
    isWhitespace c = false := by
  simp only [isWhitespace, Bool.or_eq_false_iff, Bool.and_eq_false_iff, decide_eq_false_iff_not,
    beq_eq_false_iff_ne]
  omega

end Trim

section Split

variable {α : Type} [DecidableEq α]

/-- `str::split_once`: the text before and behind the first separator. -/
def splitOnce (sep : α) : List α → Option (List α × List α)
  | [] => none
  | c :: rest =>
      if c = sep then some ([], rest)
      else (splitOnce sep rest).map fun parts => (c :: parts.1, parts.2)

theorem splitOnce_of_not_mem {sep : α} {text : List α} (h : sep ∉ text) :
    splitOnce sep text = none := by
  induction text with
  | nil => rfl
  | cons c rest ih =>
      rw [List.mem_cons, not_or] at h
      rw [splitOnce, if_neg fun heq => h.1 heq.symm, ih h.2]
      rfl

theorem splitOnce_append {sep : α} {front : List α} (h : sep ∉ front) (back : List α) :
    splitOnce sep (front ++ sep :: back) = some (front, back) := by
  induction front with
  | nil => rw [List.nil_append, splitOnce, if_pos rfl]
  | cons c rest ih =>
      rw [List.mem_cons, not_or] at h
      rw [List.cons_append, splitOnce, if_neg fun heq => h.1 heq.symm, ih h.2]
      rfl

/-- A text has no separator, or it is what stands around its first one. -/
theorem splitOnce_cases (sep : α) (text : List α) :
    (sep ∉ text ∧ splitOnce sep text = none) ∨
      ∃ front back, sep ∉ front ∧ text = front ++ sep :: back ∧
        splitOnce sep text = some (front, back) := by
  by_cases h : sep ∈ text
  · right
    obtain ⟨front, back, heq, hfront⟩ := List.eq_append_cons_of_mem h
    exact ⟨front, back, hfront, heq, by rw [heq, splitOnce_append hfront]⟩
  · left
    exact ⟨h, splitOnce_of_not_mem h⟩

end Split

section Fields

variable {sep : Char} {core core' front back : List Char}

/-- Two fields around a separator are found again behind `trim`. -/
theorem splitOnce_trim (hfront : Padded core front) (hback : Padded core' back)
    (hcore : Tight core) (hcore' : Tight core') (hne : core ≠ []) (hne' : core' ≠ [])
    (hsep : sep ∉ core) (hblank : isWhitespace sep = false) :
    ∃ front' back', splitOnce sep (trim (front ++ sep :: back)) = some (front', back') ∧
      trim front' = core ∧ trim back' = core' := by
  obtain ⟨w, v, hw, hv, rfl⟩ := hfront
  obtain ⟨v', w', hv', hw', rfl⟩ := hback
  have htrim : trim ((w ++ core ++ v) ++ sep :: (v' ++ core' ++ w')) =
      (core ++ v) ++ sep :: (v' ++ core') := by
    have h := trim_blank hw (hcore.around hcore' hne hne' (v ++ sep :: v')) hw'
    simpa only [List.append_assoc, List.cons_append] using h
  have hnot : sep ∉ core ++ v := by
    intro hmem
    rcases List.mem_append.mp hmem with hmem | hmem
    · exact hsep hmem
    · have hws := hv sep hmem
      rw [hblank] at hws
      cases hws
  refine ⟨core ++ v, v' ++ core', ?_, ?_, ?_⟩
  · rw [htrim, splitOnce_append hnot]
  · exact Padded.trim_eq ⟨[], v, nofun, hv, rfl⟩ hcore
  · exact Padded.trim_eq ⟨v', [], hv', nofun, by simp⟩ hcore'

/-- Behind `trim`, a separator has its two fields around it. -/
theorem padded_of_splitOnce {item : List Char}
    (h : splitOnce sep (trim item) = some (front, back)) :
    ∃ front' back', item = front' ++ sep :: back' ∧ Padded (trim front) front' ∧
      Padded (trim back) back' := by
  obtain ⟨w, w', hw, hw', hitem⟩ := padded_trim item
  rcases splitOnce_cases sep (trim item) with ⟨-, hnone⟩ | ⟨front', back', -, heq, hsome⟩
  · rw [hnone] at h
    cases h
  · rw [hsome] at h
    cases h
    refine ⟨w ++ front, back ++ w', ?_, (padded_trim front).append_left hw,
      (padded_trim back).append_right hw'⟩
    rw [heq] at hitem
    simpa only [List.append_assoc, List.cons_append] using hitem

end Fields

section Numbers

/-- `lo..=hi` as a pattern for characters. -/
def Between (lo hi c : Char) : Prop := lo.toNat ≤ c.toNat ∧ c.toNat ≤ hi.toNat

instance (lo hi c : Char) : Decidable (Between lo hi c) := inferInstanceAs (Decidable (_ ∧ _))

/-- `char::to_digit`. -/
def toDigit (radix : Nat) (c : Char) : Option Nat :=
  let digit :=
    if Between '0' '9' c then some (c.toNat - '0'.toNat)
    else if Between 'a' 'z' c then some (c.toNat - 'a'.toNat + 10)
    else if Between 'A' 'Z' c then some (c.toNat - 'A'.toNat + 10)
    else none
  digit.filter (· < radix)

/-- One more digit of a number that must stay below `bound`. -/
def pushDigit (bound acc : Nat) (c : Char) : Option Nat := do
  let digit ← toDigit 10 c
  if acc * 10 + digit < bound then some (acc * 10 + digit) else none

/-- `u8::from_str` and `u16::from_str`, for the type of the numbers below `bound`. -/
def parseUnsigned (bound : Nat) (text : List Char) : Option Nat :=
  match text with
  | [] => none
  | ['+'] => none
  | '+' :: digits => digits.foldlM (pushDigit bound) 0
  | digits => digits.foldlM (pushDigit bound) 0

/-- The number that decimal digits write behind the number `acc`. -/
def decimalValue (acc : Nat) (digits : List Char) : Nat :=
  digits.foldl (fun acc c => acc * 10 + (c.toNat - '0'.toNat)) acc

/-- Decimal digits, with a plus sign in front or without. -/
def Decimal (text : List Char) (n : Nat) : Prop :=
  ∃ digits, digits ≠ [] ∧ (∀ c ∈ digits, Between '0' '9' c) ∧
    (text = digits ∨ text = '+' :: digits) ∧ decimalValue 0 digits = n

theorem toDigit_printable {radix : Nat} {c : Char} (h : (toDigit radix c).isSome = true) :
    0x21 ≤ c.toNat ∧ c.toNat ≤ 0x7e := by
  have hprintable {lo hi : Char} (hlo : 0x21 ≤ lo.toNat) (hhi : hi.toNat ≤ 0x7e)
      (hc : Between lo hi c) : 0x21 ≤ c.toNat ∧ c.toNat ≤ 0x7e :=
    ⟨Nat.le_trans hlo hc.1, Nat.le_trans hc.2 hhi⟩
  by_cases hdigit : Between '0' '9' c
  · exact hprintable (by decide) (by decide) hdigit
  by_cases hlower : Between 'a' 'z' c
  · exact hprintable (by decide) (by decide) hlower
  by_cases hupper : Between 'A' 'Z' c
  · exact hprintable (by decide) (by decide) hupper
  rw [toDigit, if_neg hdigit, if_neg hlower, if_neg hupper] at h
  cases h

theorem toDigit_ten (c : Char) :
    toDigit 10 c = if Between '0' '9' c then some (c.toNat - '0'.toNat) else none := by
  rw [toDigit]
  by_cases hdigit : Between '0' '9' c
  · have hlt : c.toNat - '0'.toNat < 10 := by
      obtain ⟨hlo, hhi⟩ := hdigit
      simp only [Char.reduceToNat] at hlo hhi ⊢
      omega
    rw [if_pos hdigit, if_pos hdigit, Option.filter_some, decide_eq_true hlt, if_pos rfl]
  · rw [if_neg hdigit, if_neg hdigit]
    by_cases hlower : Between 'a' 'z' c
    · rw [if_pos hlower, Option.filter_some, if_neg (by simp)]
    · rw [if_neg hlower]
      by_cases hupper : Between 'A' 'Z' c
      · rw [if_pos hupper, Option.filter_some, if_neg (by simp)]
      · rw [if_neg hupper]
        rfl

theorem le_decimalValue (acc : Nat) (digits : List Char) : acc ≤ decimalValue acc digits := by
  induction digits generalizing acc with
  | nil => exact Nat.le_refl acc
  | cons c digits ih =>
      have hrest := ih (acc * 10 + (c.toNat - '0'.toNat))
      rw [decimalValue] at hrest
      rw [decimalValue, List.foldl_cons]
      omega

theorem pushDigit_eq (bound acc : Nat) (c : Char) :
    pushDigit bound acc c =
      if Between '0' '9' c ∧ acc * 10 + (c.toNat - '0'.toNat) < bound
        then some (acc * 10 + (c.toNat - '0'.toNat)) else none := by
  rw [pushDigit, toDigit_ten]
  by_cases hdigit : Between '0' '9' c
  · rw [if_pos hdigit, Option.bind_eq_bind, Option.bind_some]
    simp only [hdigit, true_and]
  · rw [if_neg hdigit, if_neg fun h => hdigit h.1]
    rfl

theorem foldlM_pushDigit {bound acc n : Nat} {digits : List Char} (hacc : acc < bound) :
    digits.foldlM (pushDigit bound) acc = some n ↔
      (∀ c ∈ digits, Between '0' '9' c) ∧ decimalValue acc digits = n ∧ n < bound := by
  induction digits generalizing acc with
  | nil =>
      rw [List.foldlM_nil, decimalValue, List.foldl_nil]
      refine ⟨?_, ?_⟩
      · intro h
        cases h
        exact ⟨nofun, rfl, hacc⟩
      · rintro ⟨-, rfl, -⟩
        rfl
  | cons c digits ih =>
      rw [List.foldlM_cons, pushDigit_eq, decimalValue, List.foldl_cons, List.forall_mem_cons]
      by_cases hnext : Between '0' '9' c ∧ acc * 10 + (c.toNat - '0'.toNat) < bound
      · rw [if_pos hnext, Option.bind_eq_bind, Option.bind_some, ih hnext.2, decimalValue,
          and_assoc, and_iff_right hnext.1]
      · rw [if_neg hnext]
        refine ⟨nofun, ?_⟩
        rintro ⟨⟨hdigit, -⟩, rfl, hlt⟩
        have hle := le_decimalValue (acc * 10 + (c.toNat - '0'.toNat)) digits
        exact absurd ⟨hdigit, Nat.lt_of_le_of_lt hle hlt⟩ hnext

theorem not_between_plus : ¬Between '0' '9' '+' := by decide

theorem decimal_plus_iff {digits : List Char} {n : Nat} :
    Decimal ('+' :: digits) n ↔
      digits ≠ [] ∧ (∀ c ∈ digits, Between '0' '9' c) ∧ decimalValue 0 digits = n := by
  refine ⟨?_, fun ⟨hne, hdigits, hvalue⟩ => ⟨digits, hne, hdigits, Or.inr rfl, hvalue⟩⟩
  rintro ⟨digits', hne, hdigits, rfl | heq, hvalue⟩
  · exact absurd (hdigits '+' (List.mem_cons_self ..)) not_between_plus
  · cases heq
    exact ⟨hne, hdigits, hvalue⟩

theorem decimal_cons_iff {c : Char} (hc : c ≠ '+') {rest : List Char} {n : Nat} :
    Decimal (c :: rest) n ↔
      (∀ d ∈ c :: rest, Between '0' '9' d) ∧ decimalValue 0 (c :: rest) = n := by
  refine ⟨?_, fun ⟨hdigits, hvalue⟩ => ⟨_, List.cons_ne_nil _ _, hdigits, Or.inl rfl, hvalue⟩⟩
  rintro ⟨digits, hne, hdigits, rfl | heq, hvalue⟩
  · exact ⟨hdigits, hvalue⟩
  · cases heq
    exact absurd rfl hc

/-- The reader of a type takes exactly the decimal numbers of the type. -/
theorem parseUnsigned_eq_some_iff {bound n : Nat} (hbound : 0 < bound) {text : List Char} :
    parseUnsigned bound text = some n ↔ Decimal text n ∧ n < bound := by
  cases text with
  | nil =>
      refine ⟨nofun, ?_⟩
      rintro ⟨⟨digits, hne, -, heq | heq, -⟩, -⟩
      · exact absurd heq.symm hne
      · cases heq
  | cons c rest =>
      by_cases hc : c = '+'
      · subst hc
        rw [decimal_plus_iff]
        cases rest with
        | nil => exact ⟨nofun, fun h => absurd rfl h.1.1⟩
        | cons d rest =>
            rw [parseUnsigned, foldlM_pushDigit hbound, and_iff_right (List.cons_ne_nil d rest),
              and_assoc]
            nofun
      · rw [decimal_cons_iff hc, and_assoc, ← foldlM_pushDigit hbound, parseUnsigned]
        · nofun
        · intro h
          exact hc (List.cons.inj h).1
        · intro digits h
          exact hc (List.cons.inj h).1

theorem Decimal.ne_nil {text : List Char} {n : Nat} (h : Decimal text n) : text ≠ [] := by
  obtain ⟨digits, hne, -, rfl | rfl, -⟩ := h
  · exact hne
  · exact List.cons_ne_nil _ _

theorem Decimal.chars {text : List Char} {n : Nat} (h : Decimal text n) :
    ∀ c ∈ text, Between '0' '9' c ∨ c = '+' := by
  obtain ⟨digits, -, hdigits, rfl | rfl, -⟩ := h
  · exact fun c hc => Or.inl (hdigits c hc)
  · intro c hc
    rcases List.mem_cons.mp hc with rfl | hc
    · exact Or.inr rfl
    · exact Or.inl (hdigits c hc)

theorem Decimal.tight {text : List Char} {n : Nat} (h : Decimal text n) : Tight text := by
  apply Tight.of_all
  intro c hc
  rcases h.chars c hc with ⟨hlo, hhi⟩ | rfl
  · simp only [Char.reduceToNat] at hlo hhi
    exact isWhitespace_of_printable (by omega) (by omega)
  · rfl

end Numbers

end Text
