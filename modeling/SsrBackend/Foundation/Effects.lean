import SsrBackend.Foundation.Outcome

/-!
What a stateful call may do: a relation between the states before and after it,
a property of its values and one of its errors. The rules follow the shape of a
call, so that a long call is read off from its parts.
-/

namespace Call

variable {ε σ α β : Type}

/-- A relation that parts of a call can be chained by. -/
structure Chains (R : σ → σ → Prop) : Prop where
  refl : ∀ s, R s s
  trans : ∀ {s s' s''}, R s s' → R s' s'' → R s s''

structure Does (R : σ → σ → Prop) (E : ε → Prop) (V : α → Prop) (x : Call ε σ α) : Prop where
  state : ∀ s, R s (x.run s).2
  value : ∀ s a, (x.run s).1 = .ok a → V a
  error : ∀ s e, (x.run s).1 = .err e → E e

/-- A log grows at its end, by entries that satisfy `Q`. -/
def Appends {γ : Type} (Q : γ → Prop) (log log' : List γ) : Prop :=
  ∃ extra, log' = log ++ extra ∧ ∀ entry ∈ extra, Q entry

theorem appends_chains {γ : Type} (Q : γ → Prop) : Chains (Appends Q) := by
  constructor
  · intro log
    exact ⟨[], (List.append_nil log).symm, fun _ h => (nomatch h)⟩
  · rintro log log' log'' ⟨xs, rfl, hxs⟩ ⟨ys, rfl, hys⟩
    refine ⟨xs ++ ys, List.append_assoc .., ?_⟩
    intro entry hmem
    exact (List.mem_append.mp hmem).elim (hxs entry) (hys entry)

theorem Appends.all {γ : Type} {Q : γ → Prop} {log log' : List γ} (h : Appends Q log log')
    (hlog : ∀ entry ∈ log, Q entry) : ∀ entry ∈ log', Q entry := by
  obtain ⟨extra, rfl, hextra⟩ := h
  intro entry hmem
  exact (List.mem_append.mp hmem).elim (hlog entry) (hextra entry)

namespace Does

variable {R : σ → σ → Prop} {E : ε → Prop} {V : α → Prop} {W : β → Prop}

theorem pure (hR : Chains R) {a : α} (h : V a) : Does R E V (Pure.pure a : Call ε σ α) := by
  refine ⟨fun s => hR.refl s, ?_, nofun⟩
  intro s b hb
  cases hb
  exact h

theorem bail (hR : Chains R) {e : ε} (h : E e) : Does R E V (Call.bail e : Call ε σ α) := by
  refine ⟨fun s => hR.refl s, nofun, ?_⟩
  intro s b hb
  cases hb
  exact h

theorem panic (hR : Chains R) : Does R E V (MonadPanic.panic : Call ε σ α) :=
  ⟨fun s => hR.refl s, nofun, nofun⟩

theorem modify {g : σ → σ} (h : ∀ s, R s (g s)) :
    Does R E (fun _ => True) (modify g : Call ε σ PUnit) :=
  ⟨h, fun _ _ _ => trivial, nofun⟩

theorem bind (hR : Chains R) {x : Call ε σ α} {f : α → Call ε σ β} (hx : Does R E V x)
    (hf : ∀ a, V a → Does R E W (f a)) : Does R E W (x >>= f) := by
  have hrun : ∀ s, R s ((x >>= f).run s).2 ∧ (∀ b, ((x >>= f).run s).1 = .ok b → W b) ∧
      ∀ e, ((x >>= f).run s).1 = .err e → E e := by
    intro s
    have hstate := hx.state s
    have hvalue := hx.value s
    have herror := hx.error s
    rw [run_bind]
    generalize x.run s = r at hstate hvalue herror ⊢
    obtain ⟨o, s'⟩ := r
    cases o with
    | ok a =>
        have hnext := hf a (hvalue a rfl)
        exact ⟨hR.trans hstate (hnext.state s'), hnext.value s', hnext.error s'⟩
    | err e =>
        refine ⟨hstate, nofun, ?_⟩
        intro e' he
        cases he
        exact herror e rfl
    | panic => exact ⟨hstate, nofun, nofun⟩
  exact ⟨fun s => (hrun s).1, fun s => (hrun s).2.1, fun s => (hrun s).2.2⟩

theorem ofOutcome (hR : Chains R) {ε' : Type} {wrap : ε' → ε} {o : Outcome ε' α}
    (hok : ∀ a, o = .ok a → V a) (herr : ∀ e, o = .err e → E (wrap e)) :
    Does R E V (ofOutcome wrap o : Call ε σ α) := by
  cases o with
  | ok a => exact .pure hR (hok a rfl)
  | err e => exact .bail hR (herr e rfl)
  | panic => exact .panic hR

theorem of_slice (hR : Chains R) (buf : List β) (lo hi : Nat) :
    Does R E (fun _ => True) (slice buf lo hi : Call ε σ (List β)) := by
  unfold slice
  split
  · exact .pure hR trivial
  · exact .panic hR

end Does

end Call
