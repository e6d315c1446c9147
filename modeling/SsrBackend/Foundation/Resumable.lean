import Mathlib.Algebra.Order.Ring.Nat
import Mathlib.Data.List.Basic

/-!
Resumable decoders: a reader takes units from the front of a buffer that grows
as input arrives. The only law a reader has to satisfy is that a verdict, once
given, is not changed by elements that arrive later. From it follow independence
of the segmentation of the input, and a description of what a decoder has read
that does not mention the decoder's loop.
-/

namespace Resumable

/-- What an attempt to read one unit comes to: the buffer is too short to tell,
the input is bad, or a unit of `used` elements emits its content. -/
inductive Attempt (ε σ γ : Type) where
  | wait
  | reject (error : ε)
  | accept (used : Nat) (emit : List γ) (next : σ)

namespace Attempt

variable {ε σ γ : Type} {c : Prop} [Decidable c] {a : Attempt ε σ γ} {e : ε} {n : Nat}
  {out : List γ} {s : σ}

@[simp] theorem wait_else_eq_accept :
    (if c then .wait else a) = Attempt.accept n out s ↔ ¬c ∧ a = .accept n out s := by
  split <;> simp_all

@[simp] theorem reject_else_eq_accept :
    (if c then .reject e else a) = Attempt.accept n out s ↔ ¬c ∧ a = .accept n out s := by
  split <;> simp_all

end Attempt

/-- Readers of units. Verdicts other than `wait` are stable under more input. -/
structure Reader (β γ ε σ : Type) where
  attempt : σ → List β → Attempt ε σ γ
  used_pos : ∀ {s buf n out s'}, attempt s buf = .accept n out s' → 0 < n
  used_le : ∀ {s buf n out s'}, attempt s buf = .accept n out s' → n ≤ buf.length
  stable : ∀ {s buf} (tail : List β),
    attempt s buf ≠ .wait → attempt s (buf ++ tail) = attempt s buf

/-- What a drain returns: the emitted elements, the control state, the unread rest. -/
abbrev Drained (β γ σ : Type) : Type := List γ × σ × List β

/-- The same result after `out` has been emitted. -/
def Drained.after {β γ σ : Type} (out : List γ) (r : Drained β γ σ) : Drained β γ σ :=
  (out ++ r.1, r.2)

theorem map_after_nil {β γ ε σ : Type} (x : Except ε (Drained β γ σ)) :
    x.map (Drained.after []) = x := by
  cases x <;> rfl

theorem map_after_after {β γ ε σ : Type} (x : Except ε (Drained β γ σ)) (out out' : List γ) :
    (x.map (Drained.after out')).map (Drained.after out) = x.map (Drained.after (out ++ out')) := by
  cases x with
  | error e => rfl
  | ok r => simp [Except.map, Drained.after]

namespace Reader

variable {β γ ε σ : Type} (R : Reader β γ ε σ)

/-- Read units until none is complete. An error forgets the units before it. -/
def drain (s : σ) (buf : List β) : Except ε (Drained β γ σ) :=
  match _h : R.attempt s buf with
  | .wait => .ok ([], s, buf)
  | .reject e => .error e
  | .accept n out s' => (drain s' (buf.drop n)).map (Drained.after out)
termination_by buf.length
decreasing_by
  have hp := R.used_pos _h
  have hl := R.used_le _h
  simp only [List.length_drop]
  omega

variable {R}

theorem accept_append {s s' : σ} {buf : List β} {n : Nat} {out : List γ} (tail : List β)
    (h : R.attempt s buf = .accept n out s') : R.attempt s (buf ++ tail) = .accept n out s' := by
  rw [R.stable tail (by simp [h]), h]

theorem reject_append {s : σ} {buf : List β} {e : ε} (tail : List β)
    (h : R.attempt s buf = .reject e) : R.attempt s (buf ++ tail) = .reject e := by
  rw [R.stable tail (by simp [h]), h]

theorem drain_wait {s : σ} {buf : List β} (h : R.attempt s buf = .wait) :
    R.drain s buf = .ok ([], s, buf) := by
  rw [drain]
  split <;> simp_all

theorem drain_reject {s : σ} {buf : List β} {e : ε} (h : R.attempt s buf = .reject e) :
    R.drain s buf = .error e := by
  rw [drain]
  split <;> simp_all

theorem drain_accept {s s' : σ} {buf : List β} {n : Nat} {out : List γ}
    (h : R.attempt s buf = .accept n out s') :
    R.drain s buf = (R.drain s' (buf.drop n)).map (Drained.after out) := by
  rw [drain]
  split <;> simp_all

/-- Draining `buf ++ tail` is draining `buf` and then its rest with `tail`. -/
theorem drain_append (s : σ) (buf tail : List β) :
    R.drain s (buf ++ tail) = (R.drain s buf).bind fun r =>
      (R.drain r.2.1 (r.2.2 ++ tail)).map (Drained.after r.1) := by
  induction s, buf using Reader.drain.induct R with
  | case1 s buf h =>
      rw [drain_wait h]
      exact (map_after_nil _).symm
  | case2 s buf e h => rw [drain_reject h, drain_reject (reject_append tail h)]; rfl
  | case3 s buf n out s' h ih =>
      rw [drain_accept h, drain_accept (accept_append tail h),
        List.drop_append_of_le_length (R.used_le h), ih]
      cases R.drain s' (buf.drop n) with
      | error e => rfl
      | ok r => exact map_after_after _ _ _

/-- A buffer that drains has prefixes that drain. -/
theorem drain_of_append {s : σ} {buf tail : List β} {r : Drained β γ σ}
    (h : R.drain s (buf ++ tail) = .ok r) : ∃ r', R.drain s buf = .ok r' := by
  rw [drain_append] at h
  cases hd : R.drain s buf with
  | error e => simp [hd, Except.bind] at h
  | ok r' => exact ⟨r', rfl⟩

/-- What a drain leaves behind is waiting for input. -/
theorem drain_settled {s : σ} {buf : List β} {r : Drained β γ σ}
    (h : R.drain s buf = .ok r) : R.attempt r.2.1 r.2.2 = .wait := by
  induction s, buf using Reader.drain.induct R generalizing r with
  | case1 s buf ha =>
      rw [drain_wait ha] at h
      cases h
      exact ha
  | case2 s buf e ha => simp [drain_reject ha] at h
  | case3 s buf n out s' ha ih =>
      rw [drain_accept ha] at h
      cases hd : R.drain s' (buf.drop n) with
      | error e => simp [hd, Except.map] at h
      | ok r' =>
          simp only [hd, Except.map, Except.ok.injEq] at h
          subst h
          have hs := ih hd
          exact hs

/-- When no unit emits more than it takes, neither does a drain. -/
theorem drain_length (hunit : ∀ {s buf n out s'}, R.attempt s buf = .accept n out s' →
    out.length ≤ n) {s : σ} {buf : List β} {r : Drained β γ σ} (h : R.drain s buf = .ok r) :
    r.1.length + r.2.2.length ≤ buf.length := by
  induction s, buf using Reader.drain.induct R generalizing r with
  | case1 s buf ha =>
      rw [drain_wait ha] at h
      cases h
      simp
  | case2 s buf e ha => simp [drain_reject ha] at h
  | case3 s buf n out s' ha ih =>
      rw [drain_accept ha] at h
      cases hd : R.drain s' (buf.drop n) with
      | error e => simp [hd, Except.map] at h
      | ok r' =>
          simp only [hd, Except.map, Except.ok.injEq] at h
          subst h
          have hrest := ih hd
          have hout := hunit ha
          have hle := R.used_le ha
          simp only [Drained.after, List.length_append, List.length_drop] at hrest ⊢
          omega

end Reader

/-- A chain of accepted units: `Reads R s buf units s' rest` when the units, each
with the control state it was read in, its elements and what it emitted, stand
one after the other at the front of `buf`. -/
inductive Reads {β γ ε σ : Type} (R : Reader β γ ε σ) :
    σ → List β → List (σ × List β × List γ) → σ → List β → Prop
  | done (s : σ) (rest : List β) : Reads R s rest [] s rest
  | unit {s s' t : σ} {buf rest : List β} {n : Nat} {out : List γ}
      {units : List (σ × List β × List γ)} (h : R.attempt s buf = .accept n out s')
      (more : Reads R s' (buf.drop n) units t rest) :
      Reads R s buf ((s, buf.take n, out) :: units) t rest

section Reads

variable {β γ ε σ : Type} {R : Reader β γ ε σ}

/-- A drain that succeeds has read a chain of units. -/
theorem reads_of_drain {s : σ} {buf : List β} {r : Drained β γ σ}
    (h : R.drain s buf = .ok r) :
    ∃ units, Reads R s buf units r.2.1 r.2.2 ∧ r.1 = units.flatMap fun u => u.2.2 := by
  induction s, buf using Reader.drain.induct R generalizing r with
  | case1 s buf ha =>
      rw [Reader.drain_wait ha] at h
      cases h
      exact ⟨[], .done s buf, rfl⟩
  | case2 s buf e ha => simp [Reader.drain_reject ha] at h
  | case3 s buf n out s' ha ih =>
      rw [Reader.drain_accept ha] at h
      cases hd : R.drain s' (buf.drop n) with
      | error e => simp [hd, Except.map] at h
      | ok r' =>
          simp only [hd, Except.map, Except.ok.injEq] at h
          subst h
          obtain ⟨units, hr, hout⟩ := ih hd
          exact ⟨_, .unit ha hr, by simp [Drained.after, hout]⟩

end Reads

end Resumable
