import Mathlib.Data.List.Perm.Subperm
import SsrBackend.Runtime.Accounting
import SsrBackend.Runtime.Lifecycle

/-!
The moments at which a poll waits. `sync_users` is one step of the loop, but for every
entry that it takes out it awaits `ActiveUser::stop`, and the relays go on meanwhile. The
new users are then in the tables and the ledgers already, the removed ones are still in
the ledgers, and new listeners are at work beside old ones. What the runtime holds there
is bounded by both lists together, and the listeners by the log of spawns and stops.
-/

namespace SsrBackend

/-- A map with keys from a list is not larger than the list. -/
theorem size_le_of_keys {κ ν : Type} [BEq κ] [Hashable κ] [LawfulBEq κ] {m : Std.HashMap κ ν}
    {keys : List κ} (h : ∀ key ∈ m, key ∈ keys) : m.size ≤ keys.length := by
  have hnodup : m.keys.Nodup := Std.HashMap.nodup_keys
  have hsubset : m.keys ⊆ keys := fun key hkey => h key (Std.HashMap.mem_keys.mp hkey)
  have hle := (hnodup.subperm hsubset).length_le
  rwa [Std.HashMap.length_keys] at hle

/-! ### Checkpoints -/

namespace TrafficLedger

/-- Only a user with a counter has a checkpoint. -/
def Checked (l : TrafficLedger) : Prop := ∀ u ∈ l.checkpoints, u ∈ l.counters.entries

theorem mem_ensureUser (l : TrafficLedger) (userId : Nat) {u : Nat}
    (h : u ∈ (l.ensureUser userId).2.counters.entries) : u = userId ∨ u ∈ l.counters.entries := by
  rw [ensureUser] at h
  cases hentry : l.counters.entries[userId]? with
  | some counter =>
      rw [hentry] at h
      exact Or.inr h
  | none =>
      rw [hentry] at h
      exact l.counters.mem_ensure userId _ id h

theorem ensureUser_checked {l : TrafficLedger} (h : l.Checked) (userId : Nat) :
    (l.ensureUser userId).2.Checked := by
  intro u hu
  have hself := Std.HashMap.isSome_getElem?_iff_mem.mp
    (Option.isSome_iff_exists.mpr ⟨_, l.ensureUser_self userId⟩)
  have hkept (hold : u ∈ l.counters.entries) : u ∈ (l.ensureUser userId).2.counters.entries := by
    rw [← Std.HashMap.isSome_getElem?_iff_mem,
      l.ensureUser_keeps userId (Std.HashMap.getElem?_eq_some_getElem hold)]
    rfl
  cases hentry : l.counters.entries[userId]? with
  | some counter =>
      rw [ensureUser, hentry] at hu
      exact hkept (h u hu)
  | none =>
      rw [ensureUser, hentry] at hu
      rcases Std.HashMap.mem_insertIfNew.mp hu with heq | hold
      · rw [← eq_of_beq heq]
        exact hself
      · exact hkept (h u hold)

theorem removeStaleUsers_checked {l : TrafficLedger} (h : l.Checked) (live : Nat → Bool) :
    (l.removeStaleUsers live).Checked := by
  intro u hu
  obtain ⟨checkpoint, hcheckpoint⟩ := Option.isSome_iff_exists.mp
    (Std.HashMap.isSome_getElem?_iff_mem.mpr hu)
  rw [removeStaleUsers, Std.HashMap.getElem?_filter'] at hcheckpoint
  obtain ⟨hold, hlive⟩ := Option.filter_eq_some_iff.mp hcheckpoint
  have hmem : u ∈ l.checkpoints := by
    rw [← Std.HashMap.isSome_getElem?_iff_mem, hold]
    rfl
  have hentry := Registry.retain_entries l.counters live u
  rw [if_pos hlive, Std.HashMap.getElem?_eq_some_getElem (h u hmem)] at hentry
  rw [← Std.HashMap.isSome_getElem?_iff_mem]
  exact Option.isSome_iff_exists.mpr ⟨_, hentry⟩

theorem markOne_checked {l : TrafficLedger} (h : l.Checked) (delta : TrafficDelta) :
    (l.markOne delta).Checked := by
  rw [markOne]
  by_cases hlisted : delta.userId ∈ l.counters.entries
  · rw [if_pos hlisted]
    intro u hu
    rcases Std.HashMap.mem_insert.mp hu with heq | hold
    · rw [← eq_of_beq heq]
      exact hlisted
    · exact h u hold
  · rw [if_neg hlisted]
    exact h

theorem markReported_checked {l : TrafficLedger} (h : l.Checked) (deltas : List TrafficDelta) :
    (l.markReported deltas).Checked := by
  induction deltas generalizing l with
  | nil => exact h
  | cons delta deltas ih => exact ih (markOne_checked h delta)

end TrafficLedger

namespace BackendRuntime

variable (P : Primitives) (fromUser : PanelUser → UserPolicy)

theorem registerUsers_checked (users : List PanelUser) {acc : BackendRuntime × UserTables}
    (h : acc.1.traffic.Checked) :
    (users.foldl (registerUser P fromUser) acc).1.traffic.Checked := by
  induction users generalizing acc with
  | nil => exact h
  | cons user users ih => exact ih (TrafficLedger.ensureUser_checked h user.userId)

theorem synced_checked {rt : BackendRuntime} (h : rt.traffic.Checked)
    (answer : Except String (List PanelUser)) : (synced P fromUser answer rt).traffic.Checked := by
  rcases synced_cases P fromUser answer rt with hsame | ⟨users, -, happly⟩
  · rw [hsame]
    exact h
  · rw [happly, (applyUsers_ledgers P fromUser users rt).traffic_eq]
    have hregistered : (users.foldl (registerUser P fromUser) (rt, .empty)).1.traffic.Checked :=
      registerUsers_checked P fromUser users h
    exact TrafficLedger.removeStaleUsers_checked hregistered (isLive users)

end BackendRuntime

theorem Accounting.step_checked {P : Primitives} {fromUser : PanelUser → UserPolicy}
    {s : Accounting} (h : s.ledger.Checked) (event : AccountingEvent) :
    (Accounting.step P fromUser s event).ledger.Checked := by
  cases event with
  | record snapshot userId direction bytes =>
      rw [Accounting.step]
      cases s.handle? snapshot userId with
      | none => exact h
      | some handle => exact h
  | sync answer =>
      rw [Accounting.step]
      cases s.inFlight with
      | some deltas => exact h
      | none => exact BackendRuntime.synced_checked P fromUser h answer
  | report =>
      rw [Accounting.step]
      cases s.inFlight <;> exact h
  | answered answer =>
      rw [Accounting.step]
      cases s.inFlight with
      | none => exact h
      | some deltas =>
          cases answer with
          | error reason => exact h
          | ok _ => exact TrafficLedger.markReported_checked h deltas

/-! ### The states between two awaited stops -/

namespace BackendRuntime

variable (P : Primitives) (fromUser : PanelUser → UserPolicy)

/-- `sync_users` once its loop over the listeners has come past `rows`. -/
def ensured (users rows : List PanelUser) (rt : BackendRuntime) : BackendRuntime :=
  rows.foldl ensureListener (publishTables P fromUser users rt)

/-- The ports whose entries go, once the loop is over. -/
def stalePorts (users : List PanelUser) (rt : BackendRuntime) : List UInt16 :=
  rt.activeUsers.keys.filter fun port => port ∉ livePorts rt.config (listenerUsers users)

/-- The states in which the `sync_users` of an accepted list awaits `ActiveUser::stop`: for the
entry of a row that has changed, and for the one of a stale port. -/
inductive Awaits (users : List PanelUser) (rt : BackendRuntime) : BackendRuntime → Prop
  | row {before after : List PanelUser} {user : PanelUser} {profile : Profile}
      {fingerprint : UserFingerprint} (hrows : listenerUsers users = before ++ user :: after)
      (hprofile : Profile.fromUser user (ensured P fromUser users before rt).config.node =
        .ok profile)
      (hentry : (ensured P fromUser users before rt).fingerprintAt user.port = some fingerprint)
      (hchanged : fingerprint ≠ fingerprintOf user profile) :
      Awaits users rt ((ensured P fromUser users before rt).removePort user.port)
  | stale {before after : List UInt16} {port : UInt16}
      (hports : stalePorts users (ensured P fromUser users (listenerUsers users) rt) =
        before ++ port :: after) :
      Awaits users rt ((before.foldl removePort
        (ensured P fromUser users (listenerUsers users) rt)).removePort port)

variable {P fromUser} {users : List PanelUser} {rt mid : BackendRuntime}

/-- What has been spawned and told to stop by then has been so when the poll is over. -/
theorem Awaits.actions_prefix (h : Awaits P fromUser users rt mid) :
    mid.actions <+: (applyUsers P fromUser users rt).actions := by
  have hgoes {ports : UInt16 → Prop} {rt' rt'' : BackendRuntime} (h : Touches ports rt' rt'') :
      rt'.actions <+: rt''.actions := by
    obtain ⟨done, hdone, -⟩ := h.actions_eq
    exact ⟨done, hdone.symm⟩
  have happlied : (applyUsers P fromUser users rt).actions =
      ((stalePorts users (ensured P fromUser users (listenerUsers users) rt)).foldl removePort
        (ensured P fromUser users (listenerUsers users) rt)).actions := rfl
  rw [happlied]
  cases h with
  | row hrows hprofile hentry hchanged =>
      rename_i before after user profile fingerprint
      have hrestart : (ensured P fromUser users before rt).ensureListener user =
          (ensured P fromUser users before rt).restart user profile := by
        rw [ensureListener, hprofile]
        dsimp only
        rw [ensureActiveUser_eq, hentry, if_neg]
        intro heq
        exact hchanged (Option.some.inj heq)
      have hloop : ensured P fromUser users (listenerUsers users) rt =
          after.foldl ensureListener ((ensured P fromUser users before rt).restart user profile) := by
        rw [← hrestart, hrows]
        exact List.foldl_append
      have hspawned : ((ensured P fromUser users before rt).removePort user.port).actions <+:
          ((ensured P fromUser users before rt).restart user profile).actions := by
        rw [restart_actions]
        exact List.prefix_append _ _
      have hrest := hgoes (ensureListeners_touches after
        ((ensured P fromUser users before rt).restart user profile))
      rw [← hloop] at hrest
      exact (hspawned.trans hrest).trans (hgoes (removeStalePorts_touches _ _))
  | stale hports =>
      rename_i before after port
      rw [hports, List.foldl_append, List.foldl_cons]
      have hrest : Touches (fun _ => True)
          ((before.foldl removePort
            (ensured P fromUser users (listenerUsers users) rt)).removePort port)
          (after.foldl removePort ((before.foldl removePort
            (ensured P fromUser users (listenerUsers users) rt)).removePort port)) :=
        Touches.foldl after (fun other _ rt' => (rt'.removePort_touches other).mono
          fun _ _ => trivial) _
      exact hgoes hrest

/-- Of two rows of one port with different passwords the second waits for the listeners that the
same poll has spawned for the first. -/
example : ∃ mid, Awaits .standard noLimits [sampleRow 1 443 "a" 0, sampleRow 2 443 "b" 0]
    (new sampleConfig) mid := by
  have hrows : listenerUsers [sampleRow 1 443 "a" 0, sampleRow 2 443 "b" 0] =
      [sampleRow 1 443 "a" 0] ++ sampleRow 2 443 "b" 0 :: [] := rfl
  have hpublished := (publishTables_touches .standard noLimits
    [sampleRow 1 443 "a" 0, sampleRow 2 443 "b" 0] (new sampleConfig)).config_eq
  have hconfig : (ensured .standard noLimits [sampleRow 1 443 "a" 0, sampleRow 2 443 "b" 0]
      [sampleRow 1 443 "a" 0] (new sampleConfig)).config = (new sampleConfig).config :=
    (ensureListener_touches _ (sampleRow 1 443 "a" 0)).config_eq.trans hpublished
  have hprofile : Profile.fromUser (sampleRow 2 443 "b" 0)
      (ensured .standard noLimits [sampleRow 1 443 "a" 0, sampleRow 2 443 "b" 0]
        [sampleRow 1 443 "a" 0] (new sampleConfig)).config.node = .ok sampleProfile := by
    rw [hconfig]
    decide +kernel
  have hentry := ensureListener_fingerprintAt (publishTables .standard noLimits
    [sampleRow 1 443 "a" 0, sampleRow 2 443 "b" 0] (new sampleConfig)) (sampleRow 1 443 "a" 0) 443
  rw [if_pos (show (sampleRow 1 443 "a" 0).port = 443 from rfl), hpublished,
    show (new sampleConfig).config.node = sampleNode from rfl, sampleRow_fingerprint,
    Option.some_or] at hentry
  have hchanged : (⟨443, "a", sampleProfile, 0⟩ : UserFingerprint) ≠
      fingerprintOf (sampleRow 2 443 "b" 0) sampleProfile := by decide
  exact ⟨_, .row hrows hprofile hentry hchanged⟩

/-! ### What is held -/

/-- The keys of the ledgers are among the users, and those of the entries among the ports. -/
structure Among (ids : List Nat) (ports : List UInt16) (rt : BackendRuntime) : Prop where
  counters : ∀ u ∈ rt.traffic.counters.entries, u ∈ ids
  checkpoints : ∀ u ∈ rt.traffic.checkpoints, u ∈ ids
  conns : ∀ u ∈ rt.conns.entries, u ∈ ids
  speeds : ∀ u ∈ rt.speeds.entries, u ∈ ids
  active : ∀ port ∈ rt.activeUsers, port ∈ ports

/-- The ledgers and the entries have at most so many keys. -/
structure Sized (n : Nat) (rt : BackendRuntime) : Prop where
  counters : rt.traffic.counters.entries.size ≤ n
  checkpoints : rt.traffic.checkpoints.size ≤ n
  conns : rt.conns.entries.size ≤ n
  speeds : rt.speeds.entries.size ≤ n
  active : rt.activeUsers.size ≤ n

variable {ids : List Nat} {ports : List UInt16}

theorem Among.sized (h : Among ids ports rt) {n : Nat} (hids : ids.length ≤ n)
    (hports : ports.length ≤ n) : Sized n rt where
  counters := (size_le_of_keys h.counters).trans hids
  checkpoints := (size_le_of_keys h.checkpoints).trans hids
  conns := (size_le_of_keys h.conns).trans hids
  speeds := (size_le_of_keys h.speeds).trans hids
  active := (size_le_of_keys h.active).trans hports

theorem Among.mono (h : Among ids ports rt) {ids' : List Nat} {ports' : List UInt16}
    (hids : ids ⊆ ids') (hports : ports ⊆ ports') : Among ids' ports' rt :=
  ⟨fun u hu => hids (h.counters u hu), fun u hu => hids (h.checkpoints u hu),
    fun u hu => hids (h.conns u hu), fun u hu => hids (h.speeds u hu),
    fun port hport => hports (h.active port hport)⟩

/-- A part of the poll that only moves listeners. -/
theorem Among.moved (h : Among ids ports rt) (hmoved : ListenersMoved rt mid)
    (hactive : ∀ port ∈ mid.activeUsers, port ∈ ports) : Among ids ports mid := by
  obtain ⟨_, _, _, rfl⟩ := hmoved
  exact ⟨h.counters, h.checkpoints, h.conns, h.speeds, hactive⟩

theorem removePort_among (h : Among ids ports rt) (port : UInt16) :
    Among ids ports (rt.removePort port) := by
  apply h.moved (removePort_moved rt port)
  intro other hother
  rw [← Std.HashMap.isSome_getElem?_iff_mem, removePort_entry] at hother
  split at hother
  · cases hother
  · exact h.active other (Std.HashMap.isSome_getElem?_iff_mem.mp hother)

theorem ensureListener_among (h : Among ids ports rt) {user : PanelUser}
    (hport : user.port ∈ ports) : Among ids ports (rt.ensureListener user) := by
  apply h.moved (ensureListener_moved rt user)
  intro other hother
  by_cases heq : other = user.port
  · rw [heq]
    exact hport
  · rw [← Std.HashMap.isSome_getElem?_iff_mem,
      (ensureListener_touches rt user).entry_eq other heq] at hother
    exact h.active other (Std.HashMap.isSome_getElem?_iff_mem.mp hother)

variable (P fromUser) in
theorem registerUser_among {acc : BackendRuntime × UserTables} (h : Among ids ports acc.1)
    {user : PanelUser} (hid : user.userId ∈ ids) :
    Among ids ports (registerUser P fromUser acc user).1 := by
  have hnew {α : Type} {r : Registry Nat α} {fresh : α} {update : α → α}
      (hold : ∀ u ∈ r.entries, u ∈ ids) :
      ∀ u ∈ (r.ensure user.userId fresh update).2.entries, u ∈ ids := by
    intro u hu
    rcases r.mem_ensure user.userId fresh update hu with rfl | hmem
    · exact hid
    · exact hold u hmem
  refine ⟨?_, ?_, hnew h.conns, hnew h.speeds, h.active⟩
  · intro u hu
    rcases acc.1.traffic.mem_ensureUser user.userId hu with rfl | hmem
    · exact hid
    · exact h.counters u hmem
  · intro u hu
    have hcheckpoints : u ∈ (acc.1.traffic.ensureUser user.userId).2.checkpoints := hu
    rw [TrafficLedger.ensureUser] at hcheckpoints
    split at hcheckpoints
    · exact h.checkpoints u hcheckpoints
    · rcases Std.HashMap.mem_insertIfNew.mp hcheckpoints with heq | hold
      · rw [← eq_of_beq heq]
        exact hid
      · exact h.checkpoints u hold

/-- A loop that keeps to the users and ports. -/
theorem Among.foldl {α : Type} {f : BackendRuntime → α → BackendRuntime} {xs : List α}
    (hf : ∀ rt, ∀ x ∈ xs, Among ids ports rt → Among ids ports (f rt x))
    (h : Among ids ports rt) : Among ids ports (xs.foldl f rt) := by
  induction xs generalizing rt with
  | nil => exact h
  | cons x xs ih =>
      apply ih
      · exact fun rt y hy => hf rt y (List.mem_cons_of_mem x hy)
      · exact hf rt x List.mem_cons_self h

theorem publishTables_among (h : Among ids ports rt) (hids : users.map PanelUser.userId ⊆ ids) :
    Among ids ports (publishTables P fromUser users rt) := by
  have hbuilt : ∀ acc : BackendRuntime × UserTables, Among ids ports acc.1 →
      Among ids ports (users.foldl (registerUser P fromUser) acc).1 := by
    induction users with
    | nil => exact fun acc hacc => hacc
    | cons user users ih =>
        intro acc hacc
        rw [List.map_cons, List.cons_subset] at hids
        exact ih hids.2 _ (registerUser_among P fromUser hacc hids.1)
  have hpublished := hbuilt (rt, .empty) h
  exact ⟨hpublished.counters, hpublished.checkpoints, hpublished.conns, hpublished.speeds,
    hpublished.active⟩

theorem listenerUsers_sublist (users : List PanelUser) :
    (listenerUsers users).Sublist users := by
  have hmerge : ∀ rows kept : List PanelUser, (rows.foldl (fun kept user =>
      if kept.any fun existing => existing.port = user.port then kept else kept ++ [user])
        kept).Sublist (kept ++ rows) := by
    intro rows
    induction rows with
    | nil => exact fun kept => by rw [List.append_nil]; exact List.Sublist.refl _
    | cons user rows ih =>
        intro kept
        rw [List.foldl_cons]
        split
        · exact (ih kept).trans ((List.Sublist.refl kept).append (List.sublist_cons_self _ _))
        · have hnext := ih (kept ++ [user])
          rwa [← List.append_cons] at hnext
  rw [listenerUsers]
  split
  · exact (hmerge _ []).trans List.filter_sublist
  · exact List.filter_sublist

theorem ensured_among (h : Among ids ports rt) {rows : List PanelUser} (hrows : rows ⊆ users)
    (hids : users.map PanelUser.userId ⊆ ids) (hports : users.map PanelUser.port ⊆ ports) :
    Among ids ports (ensured P fromUser users rows rt) := by
  apply Among.foldl
  · intro rt user hmem h
    exact ensureListener_among h (hports (List.mem_map_of_mem (hrows hmem)))
  · exact publishTables_among h hids

/-- At a wait the ledgers and entries are of users and ports of the list before or of this one. -/
theorem Awaits.among (hwaits : Awaits P fromUser users rt mid) (h : Among ids ports rt) :
    Among (users.map PanelUser.userId ++ ids) (users.map PanelUser.port ++ ports) mid := by
  have hboth := h.mono (List.subset_append_right (users.map PanelUser.userId) ids)
    (List.subset_append_right (users.map PanelUser.port) ports)
  have hselected := (listenerUsers_sublist users).subset
  cases hwaits with
  | row hrows =>
      apply removePort_among
      refine ensured_among hboth ?_ (List.subset_append_left _ _) (List.subset_append_left _ _)
      rw [hrows] at hselected
      exact fun row hrow => hselected (List.mem_append_left _ hrow)
  | stale =>
      apply removePort_among
      apply Among.foldl
      · exact fun rt port _ h => removePort_among h port
      · exact ensured_among hboth hselected (List.subset_append_left _ _)
          (List.subset_append_left _ _)

/-- The tables are the new ones already, and the maps as they were. -/
theorem Awaits.moved (h : Awaits P fromUser users rt mid) :
    ListenersMoved (publishTables P fromUser users rt) mid := by
  have hensured (rows : List PanelUser) : ListenersMoved (publishTables P fromUser users rt)
      (ensured P fromUser users rows rt) := .foldl ensureListener_moved rows _
  cases h with
  | row => exact (hensured _).trans (removePort_moved _ _)
  | stale =>
      exact ((hensured _).trans (.foldl removePort_moved _ _)).trans (removePort_moved _ _)

/-! ### The listeners at work -/

theorem tasks_length_le (active : ActiveUser) : active.tasks.length ≤ 2 := by
  rw [ActiveUser.tasks, List.length_append]
  have htcp := Option.length_toList_le (o := active.tcp)
  have hudp := Option.length_toList_le (o := active.udp)
  omega

theorem ensureListener_nextTask (rt : BackendRuntime) (user : PanelUser) :
    (rt.ensureListener user).nextTask ≤ rt.nextTask + 2 := by
  rcases ensureListener_cases rt user with ⟨hkept, -⟩ | ⟨profile, -, -, hrestart⟩
  · rw [hkept]
    omega
  · rw [hrestart, restart_nextTask]
    exact Nat.add_le_add_left (tasks_length_le _) _

theorem ensureListeners_nextTask (rows : List PanelUser) (rt : BackendRuntime) :
    (rows.foldl ensureListener rt).nextTask ≤ rt.nextTask + 2 * rows.length := by
  induction rows generalizing rt with
  | nil => exact Nat.le_refl _
  | cons user rows ih =>
      have hfirst := ensureListener_nextTask rt user
      have hrest := ih (rt.ensureListener user)
      rw [List.foldl_cons, List.length_cons]
      omega

variable (P fromUser) in
/-- A poll spawns at most two listeners for a row. -/
theorem applyUsers_nextTask (users : List PanelUser) (rt : BackendRuntime) :
    (applyUsers P fromUser users rt).nextTask ≤ rt.nextTask + 2 * users.length := by
  have hpublished := (registerUsers_listeners P fromUser users (rt, .empty)).2.1
  have hloop := ensureListeners_nextTask (listenerUsers users) (publishTables P fromUser users rt)
  have hstart : (publishTables P fromUser users rt).nextTask = rt.nextTask := hpublished
  have hrows := (listenerUsers_sublist users).length_le
  have hports : ∀ (stale : List UInt16) (rt : BackendRuntime),
      (stale.foldl removePort rt).nextTask = rt.nextTask := by
    intro stale
    induction stale with
    | nil => exact fun _ => rfl
    | cons port stale ih =>
        intro rt
        rw [List.foldl_cons, ih, removePort_nextTask]
  have happlied : (applyUsers P fromUser users rt).nextTask =
      ((listenerUsers users).foldl ensureListener (publishTables P fromUser users rt)).nextTask :=
    hports _ _
  omega

/-- At no moment of the log more listeners are at work than so many. -/
def Peaked (n : Nat) (rt : BackendRuntime) : Prop :=
  ∀ front, front <+: rt.actions → ∃ r, roster front = some r ∧ r.working.length ≤ n

theorem Peaked.of_actions {n : Nat} (h : Peaked n rt) (hactions : mid.actions <+: rt.actions) :
    Peaked n mid :=
  fun front hfront => h front (hfront.trans hactions)

/-- A part of the log behind which few numbers have been used up. -/
theorem Peaked.grows {n : Nat} {rt' : BackendRuntime} {working working' : List ListenerTask}
    (h : Peaked n rt) (hmanaged : Managed rt working) (hmanaged' : Managed rt' working')
    (hgoes : rt.actions <+: rt'.actions)
    (hnext : working.length + rt'.nextTask ≤ n + rt.nextTask) : Peaked n rt' := by
  intro front hfront
  have hsplit : front <+: rt.actions ∨ rt.actions <+: front :=
    List.prefix_or_prefix_of_prefix hfront hgoes
  rcases hsplit with hearly | hlate
  · exact h front hearly
  · rcases Roster.read_since hmanaged.roster_eq hmanaged'.roster_eq
        (hgoes.map ListenerAction.note) (hfront.map ListenerAction.note) with hbefore | hsince
    · -- a front part that is as long as the log before the poll is that log
      have hle := hbefore.length_le
      rw [List.length_map, List.length_map] at hle
      have hsame : front = rt.actions :=
        (hlate.eq_of_length (Nat.le_antisymm hlate.length_le hle)).symm
      rw [hsame]
      exact h _ List.prefix_rfl
    · obtain ⟨r, hr, hworking⟩ := hsince
      refine ⟨r, hr, ?_⟩
      dsimp only at hworking
      omega

/-- The listeners at work are at most two for an entry. -/
theorem Managed.length_le {working : List ListenerTask} (h : Managed rt working) :
    working.length ≤ 2 * rt.activeUsers.size := by
  have hnodup := (Roster.read_orderly h.roster_eq).places
  have hplaces : working.map ListenerTask.place ⊆ rt.activeUsers.keys.flatMap fun port =>
      [(port, ListenerKind.tcp), (port, ListenerKind.udp)] := by
    intro place hplace
    obtain ⟨task, htask, rfl⟩ := List.mem_map.mp hplace
    obtain ⟨port, active, hentry, hmem⟩ := (h.mem_iff task).mp htask
    have hport : port ∈ rt.activeUsers.keys := by
      rw [Std.HashMap.mem_keys, Std.HashMap.mem_iff_isSome_getElem?, hentry]
      rfl
    refine List.mem_flatMap.mpr ⟨port, hport, ?_⟩
    rw [ListenerTask.place, (h.placed port active hentry).port_eq hmem]
    cases task.kind with
    | tcp => exact List.mem_cons_self
    | udp => exact List.mem_cons_of_mem _ (List.mem_singleton_self _)
  have hle := (hnodup.subperm hplaces).length_le
  rw [List.length_map, List.length_flatMap] at hle
  simp only [List.length_cons, List.length_nil, List.map_const', List.sum_replicate_nat,
    Std.HashMap.length_keys] at hle
  omega

end BackendRuntime

end SsrBackend
