import SsrBackend.Runtime.TtlMapRuns

/-!
A `BoundedTtlMap` as a log of keys: keys are recorded until they are all taken
out at once. A key that is in the map has been recorded since, and nothing has
removed it; what can remove it is spelled out for each operation.
-/

namespace SsrBackend

/-- What a step does to a log. `clear` takes all keys out, `idle` leaves them. -/
inductive LogOp (κ ν : Type) where
  | record (key : κ) (value : ν) (now : Nat) (walk : Walk (κ × Entry ν))
  | expire (now : Nat)
  | retain (keep : κ → Bool)
  | clear
  | idle

namespace BoundedTtlMap

variable {κ : Type} [BEq κ] [Hashable κ] {ν : Type}

def apply (m : BoundedTtlMap κ ν) : LogOp κ ν → BoundedTtlMap κ ν
  | .record key value now walk => m.insert key value now walk
  | .expire now => m.expire now
  | .retain keep => m.retain fun key _ => keep key
  | .clear => m.retain fun _ _ => false
  | .idle => m

/-- The time of a key has run out. -/
def Expired (m : BoundedTtlMap κ ν) (now : Nat) (key : κ) : Prop :=
  ∃ entry, m.map[key]? = some entry ∧ m.ttl ≤ now - entry.lastSeen

/-- A key is the one, of the oldest, that an insert into the full map has taken out. -/
def Evicted (m : BoundedTtlMap κ ν) (new : κ) (value : ν) (now : Nat)
    (walk : Walk (κ × Entry ν)) (key : κ) : Prop :=
  m.unexpired now new = none ∧ (m.expire now).map.size = m.capacity ∧
    (∃ entry, m.unexpired now key = some entry ∧
      ∀ other entry', m.unexpired now other = some entry' → entry.lastSeen ≤ entry'.lastSeen) ∧
    key ∉ (m.insert new value now walk).map

/-- What removes a key other than `clear`. -/
def Removes (m : BoundedTtlMap κ ν) (key : κ) : LogOp κ ν → Prop
  | .record new value now walk =>
      key ≠ new ∧ (m.Expired now key ∨ m.Evicted new value now walk key)
  | .expire now => m.Expired now key
  | .retain keep => keep key = false
  | .clear => False
  | .idle => False

variable [LawfulBEq κ]

theorem unexpired_isSome_iff {m : BoundedTtlMap κ ν} {key : κ} (h : key ∈ m.map) (now : Nat) :
    (m.unexpired now key).isSome ↔ ¬m.Expired now key := by
  obtain ⟨entry, hentry⟩ := Option.isSome_iff_exists.mp (Std.HashMap.mem_iff_isSome_getElem?.mp h)
  rw [unexpired, hentry, Option.filter_some]
  by_cases hlt : now - entry.lastSeen < m.ttl
  · rw [if_pos (decide_eq_true hlt)]
    refine ⟨?_, fun _ => rfl⟩
    rintro - ⟨entry', hentry', hge⟩
    rw [hentry] at hentry'
    cases hentry'
    exact absurd hlt (Nat.not_lt_of_le hge)
  · rw [if_neg (by simpa using hlt)]
    refine ⟨by rintro ⟨⟩, ?_⟩
    intro hfresh
    exact absurd ⟨entry, hentry, Nat.le_of_not_lt hlt⟩ hfresh

/-- A key stays through a record unless its time has run out or it is evicted. -/
theorem mem_insert_iff {ttl capacity : Nat} {m : BoundedTtlMap κ ν} (hm : m.Bounded ttl capacity)
    {key : κ} (h : key ∈ m.map) (new : κ) (value : ν) (now : Nat) (walk : Walk (κ × Entry ν)) :
    key ∈ (m.insert new value now walk).map ↔ ¬m.Removes key (.record new value now walk) := by
  have hcapacity := hm.capacity_eq
  have hsize : m.map.size ≤ m.capacity := by
    rw [hcapacity]
    exact hm.size_le
  have hpos : 0 < m.capacity := by omega
  obtain ⟨hself, hrest⟩ := insert_inserts hpos hsize new value now walk
  by_cases heq : key = new
  · refine ⟨fun _ hremoves => hremoves.1 heq, fun _ => ?_⟩
    rw [heq, Std.HashMap.mem_iff_isSome_getElem?, hself]
    rfl
  · have hunexpired := unexpired_isSome_iff h now
    rcases hrest with
      ⟨hroom, hothers⟩ | ⟨habsent, hfull, oldest, entry, -, hold, hleast, hgone, hothers⟩
    · rw [Std.HashMap.mem_iff_isSome_getElem?, hothers key heq, hunexpired]
      refine ⟨?_, fun hstays hexpired => hstays ⟨heq, Or.inl hexpired⟩⟩
      rintro hfresh ⟨-, hexpired | ⟨habsent, hfull, -⟩⟩
      · exact hfresh hexpired
      · exact hroom ⟨habsent, hfull⟩
    · refine ⟨?_, ?_⟩
      · rintro hmem ⟨-, hexpired | ⟨-, -, -, hgone'⟩⟩
        · have hne : key ≠ oldest := by
            intro hkey
            rw [hkey, Std.HashMap.mem_iff_isSome_getElem?, hgone] at hmem
            cases hmem
          rw [Std.HashMap.mem_iff_isSome_getElem?, hothers key heq hne, hunexpired] at hmem
          exact hmem hexpired
        · exact hgone' hmem
      · intro hstays
        by_cases hkey : key = oldest
        · refine absurd ⟨heq, Or.inr ⟨habsent, hfull, ⟨entry, by rw [hkey]; exact hold, hleast⟩, ?_⟩⟩
            hstays
          rw [hkey, Std.HashMap.mem_iff_isSome_getElem?, hgone]
          nofun
        · rw [Std.HashMap.mem_iff_isSome_getElem?, hothers key heq hkey, hunexpired]
          exact fun hexpired => hstays ⟨heq, Or.inl hexpired⟩

/-- A key stays through a step unless the step removes it. -/
theorem mem_apply_iff {ttl capacity : Nat} {m : BoundedTtlMap κ ν} (hm : m.Bounded ttl capacity)
    {key : κ} (h : key ∈ m.map) {op : LogOp κ ν} (hop : op ≠ .clear) :
    key ∈ (m.apply op).map ↔ ¬m.Removes key op := by
  cases op with
  | record new value now walk => exact mem_insert_iff hm h new value now walk
  | expire now =>
      rw [apply, expire, Std.HashMap.mem_iff_isSome_getElem?, evictExpired_map]
      exact unexpired_isSome_iff h now
  | retain keep =>
      obtain ⟨entry, hentry⟩ :=
        Option.isSome_iff_exists.mp (Std.HashMap.mem_iff_isSome_getElem?.mp h)
      rw [apply, retain, Std.HashMap.mem_iff_isSome_getElem?, Std.HashMap.getElem?_filter', hentry,
        Removes]
      cases keep key <;> simp [Option.filter]
  | clear => exact absurd rfl hop
  | idle => exact ⟨fun _ => not_false, fun _ => h⟩

theorem not_mem_clear (m : BoundedTtlMap κ ν) (key : κ) : key ∉ (m.apply .clear).map := by
  rw [apply, retain, Std.HashMap.mem_iff_isSome_getElem?, Std.HashMap.getElem?_filter']
  cases m.map[key]? <;> simp [Option.filter]

/-- Only its record puts a key in. -/
theorem mem_of_mem_apply {m : BoundedTtlMap κ ν} {op : LogOp κ ν} {key : κ}
    (h : key ∈ (m.apply op).map) :
    (∃ value now walk, op = .record key value now walk) ∨ (key ∈ m.map ∧ op ≠ .clear) := by
  obtain ⟨entry, hentry⟩ := Option.isSome_iff_exists.mp (Std.HashMap.mem_iff_isSome_getElem?.mp h)
  have hmem : m.map[key]? = some entry → key ∈ m.map := by
    intro hold
    rw [Std.HashMap.mem_iff_isSome_getElem?, hold]
    rfl
  cases op with
  | record new value now walk =>
      rcases insert_entry hentry with ⟨rfl, -⟩ | ⟨-, hold⟩
      · exact Or.inl ⟨value, now, walk, rfl⟩
      · exact Or.inr ⟨hmem hold, by rintro ⟨⟩⟩
  | expire now =>
      rw [apply, expire, evictExpired_map] at hentry
      exact Or.inr ⟨hmem (Option.filter_eq_some_iff.mp hentry).1, by rintro ⟨⟩⟩
  | retain keep =>
      rw [apply, retain, Std.HashMap.getElem?_filter'] at hentry
      exact Or.inr ⟨hmem (Option.filter_eq_some_iff.mp hentry).1, by rintro ⟨⟩⟩
  | clear => exact absurd h (not_mem_clear m key)
  | idle => exact Or.inr ⟨h, by rintro ⟨⟩⟩

/-- A value was there, or it is the one of the record. -/
theorem value?_apply {m : BoundedTtlMap κ ν} {op : LogOp κ ν} {key : κ} {value : ν}
    (h : (m.apply op).value? key = some value) :
    m.value? key = some value ∨ ∃ now walk, op = .record key value now walk := by
  cases op with
  | record new value' now walk =>
      rcases value?_insert h with ⟨rfl, rfl⟩ | ⟨-, hold⟩
      · exact Or.inr ⟨now, walk, rfl⟩
      · exact Or.inl hold
  | expire now => exact Or.inl (value?_evictExpired h)
  | retain keep => exact Or.inl (value?_retain h)
  | clear => exact Or.inl (value?_retain h)
  | idle => exact Or.inl h

theorem apply_bounded {ttl capacity : Nat} {m : BoundedTtlMap κ ν} (h : m.Bounded ttl capacity)
    (op : LogOp κ ν) : (m.apply op).Bounded ttl capacity := by
  cases op with
  | record key value now walk => exact insert_bounded h key value now walk
  | expire now => exact evictExpired_bounded h now
  | retain keep => exact step_bounded h (.retain fun key _ => keep key)
  | clear => exact step_bounded h (.retain fun _ _ => false)
  | idle => exact h

end BoundedTtlMap

/-! ### A log inside a machine -/

namespace KeyLog

variable {κ : Type} [BEq κ] [Hashable κ] {ν State Event : Type}
  (step : State → Event → State) (view : State → BoundedTtlMap κ ν)
  (op : State → Event → LogOp κ ν)

/-- The steps of a machine do to one of its maps what `op` says. -/
def Follows : Prop :=
  ∀ s event, view (step s event) = (view s).apply (op s event)

/-- An event has recorded a key, and since then the keys have not been taken out nor the key
removed. -/
def Outstanding (s : State) (events : List Event) (key : κ) : Prop :=
  ∃ before event after, events = before ++ event :: after ∧
    (∃ value now walk, op (Machine.run step s before) event = .record key value now walk) ∧
    ∀ mid next rest, after = mid ++ next :: rest →
      op (Machine.run step s (before ++ event :: mid)) next ≠ .clear ∧
      ¬(view (Machine.run step s (before ++ event :: mid))).Removes key
        (op (Machine.run step s (before ++ event :: mid)) next)

variable {step view op} [LawfulBEq κ] {s : State} {ttl capacity : Nat}

theorem run_bounded (hfollows : Follows step view op) (hstart : view s = .new ttl capacity)
    (events : List Event) : (view (Machine.run step s events)).Bounded ttl capacity := by
  have hstep : ∀ (s : State) (event : Event), (view s).Bounded ttl capacity →
      (view (step s event)).Bounded ttl capacity := by
    intro s event h
    rw [hfollows s event]
    exact BoundedTtlMap.apply_bounded h (op s event)
  apply Machine.run_keeps hstep
  rw [hstart]
  exact BoundedTtlMap.new_bounded ttl capacity

omit [LawfulBEq κ] in
theorem run_snoc (hfollows : Follows step view op) (events : List Event) (event : Event) :
    view (Machine.run step s (events ++ [event])) =
      (view (Machine.run step s events)).apply (op (Machine.run step s events) event) := by
  rw [Machine.run_append, Machine.run_cons, Machine.run_nil, hfollows]

/-- The keys of the map are the outstanding ones. -/
theorem mem_run_iff (hfollows : Follows step view op) (hstart : view s = .new ttl capacity)
    (events : List Event) (key : κ) :
    key ∈ (view (Machine.run step s events)).map ↔ Outstanding step view op s events key := by
  -- Induction on the last event, which keeps, removes or records the key.
  induction events using List.reverseRecOn with
  | nil =>
      refine ⟨?_, ?_⟩
      · intro hmem
        rw [Machine.run_nil, hstart] at hmem
        exact absurd hmem Std.HashMap.not_mem_empty
      · rintro ⟨before, event, after, heq, -⟩
        exact absurd heq (by simp)
  | append_singleton events last ih =>
      have hbounded := run_bounded hfollows hstart events
      rw [run_snoc hfollows]
      constructor
      · intro hmem
        rcases BoundedTtlMap.mem_of_mem_apply hmem with hrecord | ⟨hold, hop⟩
        · refine ⟨events, last, [], rfl, hrecord, ?_⟩
          intro mid next rest heq
          exact absurd heq (by simp)
        · have hstays := (BoundedTtlMap.mem_apply_iff hbounded hold hop).mp hmem
          obtain ⟨before, event, after, rfl, hrecord, hsince⟩ := ih.mp hold
          refine ⟨before, event, after ++ [last], by simp, hrecord, ?_⟩
          intro mid next rest heq
          rcases List.eq_nil_or_concat rest with rfl | ⟨rest', last', rfl⟩
          · obtain ⟨rfl, hlast⟩ := List.append_inj' heq rfl
            cases hlast
            exact ⟨hop, hstays⟩
          · rw [List.concat_eq_append, ← List.cons_append, ← List.append_assoc] at heq
            exact hsince mid next rest' (List.append_inj_left' heq rfl)
      · rintro ⟨before, event, after, heq, hrecord, hsince⟩
        rcases List.eq_nil_or_concat after with rfl | ⟨after', last', rfl⟩
        · obtain ⟨rfl, hlast⟩ := List.append_inj' heq rfl
          cases hlast
          obtain ⟨value, now, walk, hop⟩ := hrecord
          rw [hop, BoundedTtlMap.apply, Std.HashMap.mem_iff_isSome_getElem?,
            BoundedTtlMap.insert_self]
          rfl
        · rw [List.concat_eq_append, ← List.cons_append, ← List.append_assoc] at heq
          obtain ⟨rfl, hlast⟩ := List.append_inj' heq rfl
          cases hlast
          obtain ⟨hop, hstays⟩ := hsince after' last [] (by simp)
          have hold : key ∈ (view (Machine.run step s (before ++ event :: after'))).map := by
            apply ih.mpr
            refine ⟨before, event, after', rfl, hrecord, ?_⟩
            intro mid next rest heq'
            exact hsince mid next (rest ++ [last]) (by simp [heq'])
          exact (BoundedTtlMap.mem_apply_iff hbounded hold hop).mpr hstays

omit [LawfulBEq κ] in
/-- A key that is outstanding after the keys were taken out has been recorded since then. -/
theorem Outstanding.since {before after : List Event} {event : Event} {key : κ}
    (hclear : op (Machine.run step s before) event = .clear)
    (h : Outstanding step view op s (before ++ event :: after) key) :
    ∃ mid next rest, after = mid ++ next :: rest ∧ ∃ value now walk,
      op (Machine.run step s (before ++ event :: mid)) next = .record key value now walk := by
  obtain ⟨earlier, record, later, heq, ⟨value, now, walk, hrecord⟩, hsince⟩ := h
  rcases List.append_eq_append_iff.mp heq with
    ⟨between, hearlier, hrest⟩ | ⟨between, hbefore, hrest⟩
  · cases between with
    | nil =>
        rw [List.append_nil] at hearlier
        cases (List.cons.inj hrest).1
        rw [hearlier, hclear] at hrecord
        cases hrecord
    | cons first mid =>
        obtain ⟨hfirst, hafter⟩ := List.cons.inj hrest
        rw [hearlier, ← hfirst] at hrecord
        exact ⟨mid, record, later, hafter, value, now, walk, hrecord⟩
  · cases between with
    | nil =>
        rw [List.append_nil] at hbefore
        cases (List.cons.inj hrest).1
        rw [← hbefore, hclear] at hrecord
        cases hrecord
    | cons first mid =>
        obtain ⟨hfirst, hlater⟩ := List.cons.inj hrest
        have hkept := (hsince mid event after hlater).1
        rw [hfirst, ← hbefore] at hkept
        exact absurd hclear hkept

end KeyLog

end SsrBackend
