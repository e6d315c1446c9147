import Mathlib.Algebra.Order.Field.Rat
import Mathlib.Tactic.FieldSimp
import Mathlib.Tactic.Linarith
import Mathlib.Tactic.Ring
import SsrBackend.Foundation.Arena
import SsrBackend.Foundation.Budget
import SsrBackend.Traffic.Ledger

/-!
The token bucket of `traffic.rs`, with exact rationals in place of `f64` and times
in seconds. The bucket is refilled lazily: `refill` is what a look at it at a later
time makes of it, and the tokens after it are the level of the bucket at that time.
An attempt of `acquire` takes tokens out of a refilled bucket, `set_rate` only ever
clips them, and waiting adds `rate` for each second: so what the attempts of a
window take is covered by its level at the start and the time it lasts.
-/

namespace SsrBackend

/-- The bucket behind the lock of a `RateLimiter`. A rate of 0 is unlimited. -/
structure Bucket where
  rate : Rat
  capacity : Rat
  tokens : Rat
  last : Rat
  deriving DecidableEq

/-- What one turn of the loop of `acquire` comes to. -/
inductive Acquired where
  | done
  | wait (seconds : Rat)
  deriving DecidableEq

namespace Bucket

/-- `duration_since` is zero for an instant that lies ahead. -/
def durationSince (now earlier : Rat) : Rat := max 0 (now - earlier)

def refill (now : Rat) (b : Bucket) : Bucket :=
  if b.rate ≤ 0 then { b with last := now }
  else
    { b with
      last := now
      tokens := min (b.tokens + durationSince now b.last * b.rate) b.capacity }

def minBurst : Rat := 256 * 1024

def capacityFor (rate : Rat) : Rat := max rate minBurst

/-- `f64::EPSILON`. -/
def epsilon : Rat := 1 / 2 ^ 52

/-- `RateLimiter::new`. -/
def new (now : Rat) (rateBps : Nat) : Bucket where
  rate := rateBps
  capacity := capacityFor rateBps
  tokens := capacityFor rateBps
  last := now

def setRate (now : Rat) (rateBps : Nat) (b : Bucket) : Bucket :=
  if |(rateBps : Rat) - b.rate| < epsilon then b
  else
    let b := { b.refill now with rate := rateBps, capacity := capacityFor rateBps }
    if b.capacity < b.tokens then { b with tokens := b.capacity } else b

/-- One turn of the loop of `acquire`. -/
def attempt (now : Rat) (amount : Nat) (b : Bucket) : Acquired × Bucket :=
  if b.rate ≤ 0 then (.done, b)
  else
    let b := b.refill now
    let need := min (amount : Rat) b.capacity
    if need ≤ b.tokens then (.done, { b with tokens := b.tokens - need })
    else (.wait ((need - b.tokens) / b.rate), b)

/-- The tokens at a time, counting what has come in since the last refill. -/
def level (now : Rat) (b : Bucket) : Rat := (b.refill now).tokens

/-- What `new` and `set_rate` make the rate and the capacity, and where the tokens are. -/
structure Filled (b : Bucket) : Prop where
  rate_nat : ∃ rateBps : Nat, b.rate = rateBps
  capacity_eq : b.capacity = capacityFor b.rate
  nonneg : 0 ≤ b.tokens
  le_capacity : b.tokens ≤ b.capacity

theorem minBurst_pos : 0 < minBurst := by unfold minBurst; norm_num

theorem minBurst_le (rate : Rat) : minBurst ≤ capacityFor rate := le_max_right _ _

theorem Filled.rate_nonneg {b : Bucket} (h : b.Filled) : 0 ≤ b.rate := by
  obtain ⟨rateBps, hrate⟩ := h.rate_nat
  rw [hrate]
  exact Nat.cast_nonneg rateBps

theorem Filled.minBurst_le {b : Bucket} (h : b.Filled) : minBurst ≤ b.capacity := by
  rw [h.capacity_eq]
  exact Bucket.minBurst_le b.rate

theorem filled_new (now : Rat) (rateBps : Nat) : (new now rateBps).Filled :=
  ⟨⟨rateBps, rfl⟩, rfl, le_of_lt (lt_of_lt_of_le minBurst_pos (minBurst_le _)), le_refl _⟩

section Refill

variable {b : Bucket} {now : Rat}

theorem durationSince_nonneg (now earlier : Rat) : 0 ≤ durationSince now earlier := le_max_left _ _

theorem durationSince_of_le {now earlier : Rat} (h : earlier ≤ now) :
    durationSince now earlier = now - earlier := max_eq_right (by linarith)

@[simp] theorem refill_rate : (b.refill now).rate = b.rate := by
  unfold refill
  split <;> rfl

@[simp] theorem refill_capacity : (b.refill now).capacity = b.capacity := by
  unfold refill
  split <;> rfl

@[simp] theorem refill_last : (b.refill now).last = now := by
  unfold refill
  split <;> rfl

theorem level_of_nonpos (h : b.rate ≤ 0) (now : Rat) : b.level now = b.tokens := by
  rw [level, refill, if_pos h]

theorem level_of_pos (h : 0 < b.rate) (now : Rat) :
    b.level now = min (b.tokens + durationSince now b.last * b.rate) b.capacity := by
  rw [level, refill, if_neg (not_le.mpr h)]

theorem level_self (h : b.Filled) : b.level b.last = b.tokens := by
  rcases le_or_gt b.rate 0 with hrate | hrate
  · exact level_of_nonpos hrate _
  · rw [level_of_pos hrate, durationSince_of_le (le_refl _), sub_self, zero_mul, add_zero]
    exact min_eq_left h.le_capacity

theorem Filled.level_nonneg (h : b.Filled) (now : Rat) : 0 ≤ b.level now := by
  rcases le_or_gt b.rate 0 with hrate | hrate
  · rw [level_of_nonpos hrate]
    exact h.nonneg
  · rw [level_of_pos hrate]
    have hgain := mul_nonneg (durationSince_nonneg now b.last) (le_of_lt hrate)
    exact le_min (by linarith [h.nonneg]) (le_trans h.nonneg h.le_capacity)

theorem Filled.level_le_capacity (h : b.Filled) (now : Rat) : b.level now ≤ b.capacity := by
  rcases le_or_gt b.rate 0 with hrate | hrate
  · rw [level_of_nonpos hrate]
    exact h.le_capacity
  · rw [level_of_pos hrate]
    exact min_le_right _ _

theorem Filled.refill (h : b.Filled) (now : Rat) : (b.refill now).Filled := by
  refine ⟨?_, ?_, h.level_nonneg now, ?_⟩
  · rw [refill_rate]
    exact h.rate_nat
  · rw [refill_capacity, refill_rate]
    exact h.capacity_eq
  · rw [refill_capacity]
    exact h.level_le_capacity now

/-- Waiting adds at most the rate for each second, and nothing at rate 0. -/
theorem Filled.level_later (h : b.Filled) {later : Rat} (hlast : b.last ≤ now)
    (hlater : now ≤ later) : b.level later ≤ b.level now + b.rate * (later - now) := by
  rcases le_or_gt b.rate 0 with hrate | hrate
  · have hzero : b.rate = 0 := le_antisymm hrate h.rate_nonneg
    rw [level_of_nonpos hrate, level_of_nonpos hrate, hzero, zero_mul, add_zero]
  · have hgain : 0 ≤ b.rate * (later - now) :=
      mul_nonneg (le_of_lt hrate) (sub_nonneg.mpr hlater)
    rw [level_of_pos hrate, level_of_pos hrate, durationSince_of_le hlast,
      durationSince_of_le (le_trans hlast hlater), ← min_add_add_right]
    apply min_le_min
    · linarith
    · linarith

end Refill

/-- What `acquire` asks of the bucket: never more than it can hold. -/
def need (amount : Nat) (b : Bucket) : Rat := min (amount : Rat) b.capacity

/-- The bytes that an attempt charges: it takes them out when it is through under a limit. -/
def charged (now : Rat) (amount : Nat) (b : Bucket) : Rat :=
  if 0 < b.rate ∧ (b.attempt now amount).1 = .done then b.need amount else 0

section Attempt

variable {b : Bucket}

theorem attempt_unlimited (h : b.rate ≤ 0) (now : Rat) (amount : Nat) :
    b.attempt now amount = (.done, b) := by
  rw [attempt, if_pos h]

theorem attempt_done (h : 0 < b.rate) {now : Rat} {amount : Nat}
    (hlevel : b.need amount ≤ b.level now) :
    b.attempt now amount =
      (.done, { b.refill now with tokens := b.level now - b.need amount }) := by
  have hneed : min (amount : Rat) (b.refill now).capacity ≤ (b.refill now).tokens := by
    rw [refill_capacity]
    exact hlevel
  simp only [attempt, if_neg (not_le.mpr h), if_pos hneed]
  rw [refill_capacity]
  rfl

theorem attempt_wait (h : 0 < b.rate) {now : Rat} {amount : Nat}
    (hlevel : b.level now < b.need amount) :
    b.attempt now amount =
      (.wait ((b.need amount - b.level now) / b.rate), b.refill now) := by
  have hneed : ¬ min (amount : Rat) (b.refill now).capacity ≤ (b.refill now).tokens := by
    rw [refill_capacity]
    exact not_le.mpr hlevel
  simp only [attempt, if_neg (not_le.mpr h), if_neg hneed]
  rw [refill_capacity, refill_rate]
  rfl

theorem Filled.need_nonneg (h : b.Filled) (amount : Nat) : 0 ≤ b.need amount :=
  le_min (Nat.cast_nonneg amount) (le_trans h.nonneg h.le_capacity)

theorem Filled.attempt (h : b.Filled) (now : Rat) (amount : Nat) :
    (b.attempt now amount).2.Filled := by
  rcases le_or_gt b.rate 0 with hrate | hrate
  · rw [attempt_unlimited hrate]
    exact h
  rcases le_or_gt (b.need amount) (b.level now) with hlevel | hlevel
  · have hfull := h.refill now
    have hneed := h.need_nonneg amount
    have hle : b.level now ≤ b.capacity := h.level_le_capacity now
    rw [attempt_done hrate hlevel]
    refine ⟨hfull.rate_nat, hfull.capacity_eq, by linarith, ?_⟩
    rw [refill_capacity]
    linarith
  · rw [attempt_wait hrate hlevel]
    exact h.refill now

/-- An attempt takes out what it charges. -/
theorem Filled.attempt_level (h : b.Filled) {now : Rat} (amount : Nat) :
    b.charged now amount + (b.attempt now amount).2.level now = b.level now := by
  have hnext := h.attempt now amount
  rcases le_or_gt b.rate 0 with hrate | hrate
  · rw [charged, if_neg (fun hpos => absurd hpos.1 (not_lt.mpr hrate)), attempt_unlimited hrate,
      zero_add]
  rcases le_or_gt (b.need amount) (b.level now) with hlevel | hlevel
  · rw [attempt_done hrate hlevel] at hnext
    have hself := level_self hnext
    rw [refill_last] at hself
    rw [charged, attempt_done hrate hlevel, if_pos ⟨hrate, rfl⟩, hself]
    linarith
  · rw [attempt_wait hrate hlevel] at hnext
    have hself := level_self hnext
    rw [refill_last] at hself
    rw [charged, attempt_wait hrate hlevel, if_neg (by simp), hself, zero_add]
    rfl

/-- After the computed wait, and with nothing in between, the attempt is through. -/
theorem attempt_again {now seconds : Rat} {amount : Nat}
    (hwait : (b.attempt now amount).1 = .wait seconds) {later : Rat}
    (hlater : now + seconds ≤ later) :
    0 < seconds ∧ ((b.attempt now amount).2.attempt later amount).1 = .done := by
  rcases le_or_gt b.rate 0 with hrate | hrate
  · rw [attempt_unlimited hrate] at hwait
    cases hwait
  rcases le_or_gt (b.need amount) (b.level now) with hlevel | hlevel
  · rw [attempt_done hrate hlevel] at hwait
    cases hwait
  rw [attempt_wait hrate hlevel] at hwait ⊢
  have hseconds : (b.need amount - b.level now) / b.rate = seconds := Acquired.wait.inj hwait
  have hpos : 0 < seconds := by
    rw [← hseconds]
    exact div_pos (sub_pos.mpr hlevel) hrate
  have hearned : b.need amount - b.level now = seconds * b.rate := by
    rw [← hseconds, div_mul_cancel₀ _ (ne_of_gt hrate)]
  have hmore : seconds * b.rate ≤ (later - now) * b.rate :=
    mul_le_mul_of_nonneg_right (by linarith) (le_of_lt hrate)
  have hready : (b.refill now).need amount ≤ (b.refill now).level later := by
    rw [level_of_pos (by rw [refill_rate]; exact hrate), refill_last, refill_rate, refill_capacity,
      durationSince_of_le (by linarith), need, refill_capacity]
    apply le_min
    · have hlevel' : (b.refill now).tokens = b.level now := rfl
      have hneed : b.need amount = min (amount : Rat) b.capacity := rfl
      rw [hlevel', ← hneed]
      linarith
    · exact min_le_right _ _
  rw [attempt_done (by rw [refill_rate]; exact hrate) hready]
  exact ⟨hpos, rfl⟩

-- a drained bucket of 1 MiB/s makes the next 1 MiB wait for a second
example : (((new 0 (1024 * 1024)).attempt 0 (1024 * 1024)).2.attempt 0 (1024 * 1024)).1 =
    .wait 1 := by decide +kernel

/-- An amount of at most 256 KiB is charged in full. -/
theorem Filled.charged_full (h : b.Filled) {now : Rat} {amount : Nat} (hrate : 0 < b.rate)
    (hamount : (amount : Rat) ≤ minBurst) (hdone : (b.attempt now amount).1 = .done) :
    b.charged now amount = amount := by
  rw [charged, if_pos ⟨hrate, hdone⟩, need]
  exact min_eq_left (le_trans hamount h.minBurst_le)

end Attempt

section SetRate

variable {b : Bucket}

theorem epsilon_lt_one : epsilon < 1 := by unfold epsilon; norm_num

/-- The comparison with `EPSILON` finds equal rates only: both are whole numbers. -/
theorem Filled.rate_eq (h : b.Filled) {rateBps : Nat}
    (hsame : |(rateBps : Rat) - b.rate| < epsilon) : b.rate = rateBps := by
  obtain ⟨current, hrate⟩ := h.rate_nat
  rw [hrate] at hsame ⊢
  have hone : |((rateBps : Int) - (current : Int) : Int)| < 1 := by
    have hlt := lt_trans hsame epsilon_lt_one
    exact_mod_cast hlt
  have hzero := Int.abs_lt_one_iff.mp hone
  have heq : (current : Int) = rateBps := by omega
  exact_mod_cast heq

theorem setRate_same {now : Rat} {rateBps : Nat} (h : b.rate = rateBps) :
    b.setRate now rateBps = b := by
  have heps : 0 < epsilon := by unfold epsilon; norm_num
  rw [setRate, if_pos (by rw [h, sub_self, abs_zero]; exact heps)]

theorem setRate_new {now : Rat} {rateBps : Nat} (h : ¬ |(rateBps : Rat) - b.rate| < epsilon) :
    b.setRate now rateBps = { b.refill now with
      rate := rateBps
      capacity := capacityFor rateBps
      tokens := min (b.level now) (capacityFor rateBps) } := by
  simp only [setRate, if_neg h]
  split
  · rename_i hclip
    have hmin : min (b.level now) (capacityFor rateBps) = capacityFor rateBps :=
      min_eq_right (le_of_lt hclip)
    rw [hmin]
  · rename_i hfits
    have hmin : min (b.level now) (capacityFor rateBps) = b.level now :=
      min_eq_left (not_lt.mp hfits)
    rw [hmin]
    rfl

theorem Filled.setRate (h : b.Filled) (now : Rat) (rateBps : Nat) :
    (b.setRate now rateBps).Filled := by
  by_cases hsame : |(rateBps : Rat) - b.rate| < epsilon
  · rw [setRate_same (h.rate_eq hsame)]
    exact h
  · have hcap : 0 ≤ capacityFor (rateBps : Rat) :=
      le_of_lt (lt_of_lt_of_le minBurst_pos (Bucket.minBurst_le _))
    rw [setRate_new hsame]
    exact ⟨⟨rateBps, rfl⟩, rfl, le_min (h.level_nonneg now) hcap, min_le_right _ _⟩

theorem Filled.setRate_rate (h : b.Filled) (now : Rat) (rateBps : Nat) :
    (b.setRate now rateBps).rate = rateBps := by
  by_cases hsame : |(rateBps : Rat) - b.rate| < epsilon
  · rw [setRate_same (h.rate_eq hsame)]
    exact h.rate_eq hsame
  · rw [setRate_new hsame]

/-- A change of the rate adds nothing. -/
theorem Filled.setRate_level (h : b.Filled) (now : Rat) (rateBps : Nat) :
    (b.setRate now rateBps).level now ≤ b.level now := by
  have hnext := h.setRate now rateBps
  by_cases hsame : |(rateBps : Rat) - b.rate| < epsilon
  · rw [setRate_same (h.rate_eq hsame)]
  · rw [setRate_new hsame] at hnext ⊢
    have hself := level_self hnext
    rw [refill_last] at hself
    rw [hself]
    exact min_le_left _ _

end SetRate

end Bucket

/-- The limiters of a `SpeedLedger`, with their buckets. -/
abbrev BucketLedger : Type := Registry Nat Bucket

/-- `SpeedLedger::ensure_user`. -/
def BucketLedger.ensureUser (now : Rat) (l : BucketLedger) (userId rateBps : Nat) :
    Nat × BucketLedger :=
  l.ensure userId (Bucket.new now rateBps) (Bucket.setRate now rateBps)

/-- The buckets have the rates of a ledger that keeps only those. -/
structure BucketLedger.HasRates (l : BucketLedger) (rates : SpeedLedger) : Prop where
  entries_eq : rates.entries = l.entries
  size_eq : rates.objects.size = l.objects.size
  objects : ∀ {h b}, l.objects.get? h = some b → b.Filled ∧
    ∃ rateBps : Nat, rates.objects.get? h = some rateBps ∧ b.rate = rateBps

/-- `ensure_user` does to the buckets what the ledger of the rates records of it. -/
theorem BucketLedger.HasRates.ensureUser {l : BucketLedger} {rates : SpeedLedger}
    (h : l.HasRates rates) (now : Rat) (userId rateBps : Nat) :
    (rates.ensureUser userId rateBps).1 = (l.ensureUser now userId rateBps).1 ∧
      HasRates (l.ensureUser now userId rateBps).2 (rates.ensureUser userId rateBps).2 := by
  have hentries := h.entries_eq
  have hsize := h.size_eq
  unfold BucketLedger.ensureUser SpeedLedger.ensureUser
  cases hkey : l.entries[userId]? with
  | some handle =>
      have hkey' : rates.entries[userId]? = some handle := by rw [hentries, hkey]
      rw [Registry.ensure_some _ _ _ _ hkey, Registry.ensure_some _ _ _ _ hkey']
      refine ⟨rfl, hentries, ?_, ?_⟩
      · rw [Arena.size_modify, Arena.size_modify, hsize]
      · intro other b hb
        rw [Arena.get?_modify] at hb ⊢
        by_cases hother : handle = other
        · rw [if_pos hother] at hb ⊢
          obtain ⟨old, hold, rfl⟩ := Option.map_eq_some_iff.mp hb
          obtain ⟨hfilled, rate, hrate, -⟩ := h.objects hold
          exact ⟨hfilled.setRate now rateBps, rateBps, by rw [hrate]; rfl,
            hfilled.setRate_rate now rateBps⟩
        · rw [if_neg hother] at hb ⊢
          exact h.objects hb
  | none =>
      have hkey' : rates.entries[userId]? = none := by rw [hentries, hkey]
      rw [Registry.ensure_none _ _ _ _ hkey, Registry.ensure_none _ _ _ _ hkey']
      refine ⟨hsize, ?_, ?_, ?_⟩
      · rw [hentries, hsize]
      · rw [Arena.size_push, Arena.size_push, hsize]
      · intro other b hb
        rw [Arena.get?_push] at hb ⊢
        rw [hsize]
        by_cases hother : other = l.objects.size
        · rw [if_pos hother] at hb ⊢
          rw [← Option.some.inj hb]
          exact ⟨Bucket.filled_new now rateBps, rateBps, rfl, rfl⟩
        · rw [if_neg hother] at hb ⊢
          exact h.objects hb

/-- The calls on a limiter that its connections and the poll make. -/
inductive Use where
  | acquire (amount : Nat)
  | setRate (rateBps : Nat)

/-- A limiter and the time up to which its calls are known. -/
structure Limiter where
  now : Rat
  bucket : Bucket

namespace Limiter

open Bucket

def step (s : Limiter) : Rat × Use → Limiter
  | (now, .acquire amount) => ⟨now, (s.bucket.attempt now amount).2⟩
  | (now, .setRate rateBps) => ⟨now, s.bucket.setRate now rateBps⟩

/-- The bytes charged by a call. -/
def spends (s : Limiter) : Rat × Use → Rat
  | (now, .acquire amount) => s.bucket.charged now amount
  | (_, .setRate _) => 0

/-- The rate in force, for the time until a call. -/
def earns (s : Limiter) (event : Rat × Use) : Rat := s.bucket.rate * (event.1 - s.now)

/-- The calls are made at times that do not decrease, from `start` to `stop`. -/
def Ordered : Rat → List (Rat × Use) → Rat → Prop
  | start, [], stop => start ≤ stop
  | start, event :: events, stop => start ≤ event.1 ∧ Ordered event.1 events stop

/-- The bytes charged in a run. -/
def charges (s : Limiter) (events : List (Rat × Use)) : Rat := Machine.total step spends s events

/-- The sum of rate times duration over the pieces of a window that ends at `stop`. -/
def accrues (s : Limiter) (events : List (Rat × Use)) (stop : Rat) : Rat :=
  Machine.total step earns s events +
    (Machine.run step s events).bucket.rate * (stop - (Machine.run step s events).now)

/-- The bucket is filled within its bounds, and its last refill is not ahead of time. -/
structure Inv (s : Limiter) : Prop where
  filled : s.bucket.Filled
  last_le : s.bucket.last ≤ s.now

theorem inv_new (now : Rat) (rateBps : Nat) : Inv ⟨now, Bucket.new now rateBps⟩ :=
  ⟨filled_new now rateBps, le_refl _⟩

theorem Inv.later {s : Limiter} (h : s.Inv) {now : Rat} (hnow : s.now ≤ now) :
    Inv ⟨now, s.bucket⟩ := ⟨h.filled, le_trans h.last_le hnow⟩

theorem attempt_last (b : Bucket) (now : Rat) (amount : Nat) :
    (b.attempt now amount).2 = b ∨ (b.attempt now amount).2.last = now := by
  rcases le_or_gt b.rate 0 with hrate | hrate
  · left
    rw [attempt_unlimited hrate]
  rcases le_or_gt (b.need amount) (b.level now) with hlevel | hlevel
  · right
    rw [attempt_done hrate hlevel]
    exact refill_last
  · right
    rw [attempt_wait hrate hlevel]
    exact refill_last

theorem setRate_last {b : Bucket} (h : b.Filled) (now : Rat) (rateBps : Nat) :
    b.setRate now rateBps = b ∨ (b.setRate now rateBps).last = now := by
  by_cases hsame : |(rateBps : Rat) - b.rate| < epsilon
  · exact Or.inl (setRate_same (h.rate_eq hsame))
  · right
    rw [setRate_new hsame]
    exact refill_last

theorem step_now (s : Limiter) (event : Rat × Use) : (s.step event).now = event.1 := by
  obtain ⟨now, use⟩ := event
  cases use <;> rfl

theorem step_inv {s : Limiter} {event : Rat × Use} (h : s.Inv) (hnow : s.now ≤ event.1) :
    (s.step event).Inv := by
  obtain ⟨now, use⟩ := event
  have hlast : s.bucket.last ≤ now := le_trans h.last_le hnow
  cases use with
  | acquire amount =>
      refine ⟨h.filled.attempt now amount, ?_⟩
      rcases attempt_last s.bucket now amount with hsame | hnew
      · exact le_of_eq_of_le (congrArg Bucket.last hsame) hlast
      · exact le_of_eq hnew
  | setRate rateBps =>
      refine ⟨h.filled.setRate now rateBps, ?_⟩
      rcases setRate_last h.filled now rateBps with hsame | hnew
      · exact le_of_eq_of_le (congrArg Bucket.last hsame) hlast
      · exact le_of_eq hnew

/-- What a call charges is paid by the level and the time since the call before. -/
theorem step_pays {s : Limiter} {event : Rat × Use} (h : s.Inv) (hnow : s.now ≤ event.1) :
    s.spends event + (s.step event).bucket.level (s.step event).now ≤
      s.bucket.level s.now + s.earns event := by
  obtain ⟨now, use⟩ := event
  have hlater : s.bucket.level now ≤ s.bucket.level s.now + s.earns (now, use) :=
    h.filled.level_later h.last_le hnow
  refine le_trans ?_ hlater
  cases use with
  | acquire amount => exact le_of_eq (h.filled.attempt_level amount)
  | setRate rateBps =>
      have hclip := h.filled.setRate_level now rateBps
      exact le_of_eq_of_le (zero_add _) hclip

theorem Ordered.now_le {start stop : Rat} {events : List (Rat × Use)}
    (h : Ordered start events stop) {s : Limiter} (hs : s.now ≤ start)
    {before after : List (Rat × Use)} {event : Rat × Use}
    (heq : events = before ++ event :: after) :
    (Machine.run step s before).now ≤ event.1 := by
  induction before generalizing s start events with
  | nil =>
      subst heq
      exact le_trans hs h.1
  | cons first before ih =>
      subst heq
      exact ih h.2 (le_of_eq (step_now s first)) rfl

theorem Ordered.end_le {start stop : Rat} {events : List (Rat × Use)}
    (h : Ordered start events stop) {s : Limiter} (hs : s.now ≤ start) :
    (Machine.run step s events).now ≤ stop := by
  induction events generalizing s start with
  | nil => exact le_trans hs h
  | cons event events ih => exact ih h.2 (le_of_eq (step_now s event))

theorem run_inv {s : Limiter} (h : s.Inv) {events : List (Rat × Use)} {stop : Rat}
    (hordered : Ordered s.now events stop) : (Machine.run step s events).Inv := by
  have hstep (s : Limiter) (event : Rat × Use) (h : s.Inv) (hnow : s.now ≤ event.1) :
      (s.step event).Inv := step_inv h hnow
  apply Machine.run_keeps_where hstep h
  intro before event after heq
  exact hordered.now_le (le_refl _) heq

/-- The bytes charged in a window are covered by the level at its start and its rates. -/
theorem charges_le {s : Limiter} (h : s.Inv) {events : List (Rat × Use)} {stop : Rat}
    (hordered : Ordered s.now events stop) :
    s.charges events ≤ s.bucket.level s.now + s.accrues events stop := by
  have hkeeps (s : Limiter) (event : Rat × Use) (h : s.Inv) (hnow : s.now ≤ event.1) :
      (s.step event).Inv := step_inv h hnow
  have hpays (s : Limiter) (event : Rat × Use) (h : s.Inv) (hnow : s.now ≤ event.1) :
      s.spends event + (s.step event).bucket.level (s.step event).now ≤
        s.bucket.level s.now + s.earns event := step_pays h hnow
  have htotal : Machine.total step spends s events +
      (Machine.run step s events).bucket.level (Machine.run step s events).now ≤
      s.bucket.level s.now + Machine.total step earns s events :=
    Machine.total_add_level_le (M := Rat) hkeeps hpays h
      (fun before event after heq => hordered.now_le (le_refl _) heq)
  have hend := run_inv h hordered
  have hleft := hend.filled.level_nonneg (Machine.run step s events).now
  have hrest : 0 ≤ (Machine.run step s events).bucket.rate *
      (stop - (Machine.run step s events).now) :=
    mul_nonneg hend.filled.rate_nonneg (sub_nonneg.mpr (hordered.end_le (le_refl _)))
  unfold charges accrues
  linarith

/-- No call of the window changes the rate. -/
def Constant (rate : Rat) (events : List (Rat × Use)) : Prop :=
  ∀ event ∈ events, ∀ rateBps, event.2 = .setRate rateBps → (rateBps : Rat) = rate

theorem step_rate {s : Limiter} {event : Rat × Use}
    (hrate : ∀ rateBps, event.2 = .setRate rateBps → (rateBps : Rat) = s.bucket.rate) :
    (s.step event).bucket.rate = s.bucket.rate := by
  obtain ⟨now, use⟩ := event
  cases use with
  | setRate rateBps =>
      have hsame : s.bucket.setRate now rateBps = s.bucket := setRate_same (hrate rateBps rfl).symm
      exact congrArg Bucket.rate hsame
  | acquire amount =>
      change (s.bucket.attempt now amount).2.rate = s.bucket.rate
      rcases le_or_gt s.bucket.rate 0 with hpos | hpos
      · rw [attempt_unlimited hpos]
      rcases le_or_gt (s.bucket.need amount) (s.bucket.level now) with hlevel | hlevel
      · rw [attempt_done hpos hlevel]
        exact refill_rate
      · rw [attempt_wait hpos hlevel]
        exact refill_rate

theorem accrues_constant {s : Limiter} {events : List (Rat × Use)}
    (h : Constant s.bucket.rate events) (stop : Rat) :
    s.accrues events stop = s.bucket.rate * (stop - s.now) := by
  unfold accrues
  induction events generalizing s with
  | nil => simp [Machine.total]
  | cons event events ih =>
      have hrate := step_rate (h event List.mem_cons_self)
      have hrest := ih (s := s.step event) (by
        rw [hrate]
        exact fun e he => h e (List.mem_cons_of_mem event he))
      rw [Machine.total, Machine.run_cons, add_assoc, hrest, hrate, step_now, earns]
      ring

end Limiter

end SsrBackend
