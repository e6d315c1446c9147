import SsrBackend.Relay.StreamSizes
import SsrBackend.Traffic.RateLimiter

/-!
The speed limit of a user as the relay meets it: any number of connections call
`acquire` on one limiter and the poll changes its rate, and what they are charged
is bounded by the rates in force. Each charge is for the whole amount, because no
amount the relay passes is as large as the smallest bucket.
-/

namespace SsrBackend

open Limiter

variable {P : Primitives}

/-- The limiter at `now`, after the calls `before` on one that was made at `made`. -/
def Limiter.after (made : Rat) (rateBps : Nat) (before : List (Rat × Use)) (now : Rat) : Limiter :=
  ⟨now, (Machine.run Limiter.step ⟨made, Bucket.new made rateBps⟩ before).bucket⟩

theorem Limiter.after_inv {made now : Rat} {before : List (Rat × Use)}
    (h : Ordered made before now) (rateBps : Nat) : (after made rateBps before now).Inv :=
  (run_inv (inv_new made rateBps) h).later (h.end_le (le_refl _))

/-- The cap holds for every limiter, every order of calls on it and every window, and each
amount that a connection passes to it is charged in full. -/
theorem aggregate_speed_cap (P : Primitives) :
    (∀ (made now : Rat) (rateBps : Nat) (before : List (Rat × Use)), Ordered made before now →
      let s := Limiter.after made rateBps before now
      (0 ≤ s.bucket.tokens ∧ s.bucket.tokens ≤ s.bucket.capacity) ∧
      (∀ (window : List (Rat × Use)) (stop : Rat), Ordered now window stop →
        s.charges window ≤ s.bucket.level now + s.accrues window stop ∧
        (Constant s.bucket.rate window → s.charges window ≤
          max s.bucket.rate (256 * 1024) + s.bucket.rate * (stop - now))) ∧
      (s.bucket.rate = 0 → ∀ later, s.bucket.level later = s.bucket.tokens) ∧
      (∀ (amount : Nat) (seconds later : Rat),
        (s.bucket.attempt now amount).1 = .wait seconds → now + seconds ≤ later →
        ((s.bucket.attempt now amount).2.attempt later amount).1 = .done) ∧
      (∀ amount : Nat, amount ≤ 256 * 1024 → 0 < s.bucket.rate →
        (s.bucket.attempt now amount).1 = .done → s.bucket.charged now amount = amount)) ∧
    ∀ s : ServerSession, s.Fresh P → ∀ (ctx : StreamContext) (events : List StreamEvent),
      (∀ event ∈ events, event.Fits) → ∀ (limiter : Handle) (amount : Nat),
      .acquire limiter amount ∈
        (Machine.run (Connection.step P ctx) (Connection.start s) events).log →
      amount < 256 * 1024 := by
  refine ⟨?_, ?_⟩
  · intro made now rateBps before hbefore
    have hinv := Limiter.after_inv hbefore rateBps
    generalize hs : Limiter.after made rateBps before now = s at hinv ⊢
    have hnow : s.now = now := by rw [← hs]; rfl
    refine ⟨⟨hinv.filled.nonneg, hinv.filled.le_capacity⟩, ?_, ?_, ?_, ?_⟩
    · intro window stop hwindow
      rw [← hnow] at hwindow ⊢
      have hcharges := charges_le hinv hwindow
      refine ⟨hcharges, ?_⟩
      intro hconstant
      have hlevel := hinv.filled.level_le_capacity s.now
      rw [accrues_constant hconstant] at hcharges
      rw [hinv.filled.capacity_eq] at hlevel
      have hcap : Bucket.capacityFor s.bucket.rate = max s.bucket.rate (256 * 1024) := rfl
      linarith
    · intro hrate later
      exact Bucket.level_of_nonpos (le_of_eq hrate) later
    · intro amount seconds later hwait hlater
      exact (Bucket.attempt_again hwait hlater).2
    · intro amount hamount hrate hdone
      apply hinv.filled.charged_full hrate _ hdone
      have hcast : (amount : Rat) ≤ ((256 * 1024 : Nat) : Rat) := Nat.cast_le.mpr hamount
      exact le_of_le_of_eq hcast (by norm_num [Bucket.minBurst])
  · intro s hs ctx events hfits limiter amount hmem
    have hcharge : amount ≤ Connection.maxCharge := Connection.run_charges hs ctx hfits _ hmem
    unfold Connection.maxCharge maxUnread readChunk at hcharge
    omega

end SsrBackend
