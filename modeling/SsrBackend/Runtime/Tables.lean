import SsrBackend.Runtime.Listeners

/-!
The tables that `sync_users` publishes. They are filled by one loop under
different conditions; what they share with the ledgers are the objects, so a
table is looked at beside the entries of its ledger.
-/

namespace SsrBackend

/-- A table holds, for some users and no others, the objects of a ledger. -/
structure Tracks (ids : List Nat) (entries : Std.HashMap Nat Nat)
    (table : Std.HashMap Nat Nat) : Prop where
  table_eq : ∀ u, table[u]? = if u ∈ ids then entries[u]? else none
  registered : ∀ u ∈ ids, u ∈ entries

namespace Tracks

theorem empty (entries : Std.HashMap Nat Nat) : Tracks [] entries ∅ := by
  refine ⟨?_, ?_⟩
  · intro u
    rw [Std.HashMap.getElem?_empty, if_neg List.not_mem_nil]
  · intro u hmem
    cases hmem

/-- The object of one more user is put down. -/
theorem insert {ids : List Nat} {entries entries' table : Std.HashMap Nat Nat} {user h : Nat}
    (ht : Tracks ids entries table) (hself : entries'[user]? = some h)
    (hkeeps : ∀ {u o : Nat}, entries[u]? = some o → entries'[u]? = some o) :
    Tracks (user :: ids) entries' (table.insert user h) := by
  have hregistered : ∀ u ∈ ids, entries'[u]? = entries[u]? := by
    intro u hu
    have hsome := Std.HashMap.getElem?_eq_some_getElem (ht.registered u hu)
    rw [hsome]
    exact hkeeps hsome
  refine ⟨?_, ?_⟩
  · intro u
    rw [Std.HashMap.getElem?_insert, ht.table_eq]
    by_cases heq : user = u
    · subst heq
      simp [hself]
    · by_cases hu : u ∈ ids
      · simp [heq, hu, hregistered u hu]
      · simp [heq, hu, Ne.symm heq]
  · intro u hu
    rw [Std.HashMap.mem_iff_isSome_getElem?]
    cases List.mem_cons.mp hu with
    | inl heq => rw [heq, hself, Option.isSome_some]
    | inr hu =>
        rw [hregistered u hu, ← Std.HashMap.mem_iff_isSome_getElem?]
        exact ht.registered u hu

theorem mem_iff {ids : List Nat} {entries table : Std.HashMap Nat Nat}
    (ht : Tracks ids entries table) (u : Nat) : u ∈ table ↔ u ∈ ids := by
  rw [Std.HashMap.mem_iff_isSome_getElem?, ht.table_eq]
  by_cases hu : u ∈ ids
  · rw [if_pos hu, ← Std.HashMap.mem_iff_isSome_getElem?]
    exact ⟨fun _ => hu, fun _ => ht.registered u hu⟩
  · rw [if_neg hu]
    exact ⟨fun h => (nomatch h), fun h => absurd h hu⟩

end Tracks

theorem TrafficLedger.ensureUser_self (l : TrafficLedger) (userId : Nat) :
    (l.ensureUser userId).2.counters.entries[userId]? = some (l.ensureUser userId).1 := by
  rw [ensureUser]
  cases hentry : l.counters.entries[userId]? with
  | some h => exact hentry
  | none => exact Registry.ensure_self l.counters userId {} id

theorem TrafficLedger.ensureUser_keeps (l : TrafficLedger) (userId : Nat) {u h : Nat}
    (hentry : l.counters.entries[u]? = some h) :
    (l.ensureUser userId).2.counters.entries[u]? = some h := by
  rw [ensureUser]
  cases l.counters.entries[userId]? with
  | some h' => exact hentry
  | none => exact Registry.ensure_keeps l.counters userId {} id hentry

namespace BackendRuntime

/-- The tables of the rows so far, beside the ledgers. -/
structure Published (ids : List Nat) (rt : BackendRuntime) (tables : UserTables) : Prop where
  counters : Tracks ids rt.traffic.counters.entries tables.countersByUser
  conns : Tracks ids rt.conns.entries tables.connsByUser
  speeds : Tracks ids rt.speeds.entries tables.speedsByUser
  auth : ∀ u ∈ tables.authUsers, u ∈ ids
  policies : ∀ u ∈ tables.policies, u ∈ ids

theorem mem_insertIf {α : Type} {m : Std.HashMap Nat α} {c : Prop} [Decidable c] {user u : Nat}
    {x : α} {ids : List Nat} (h : ∀ v ∈ m, v ∈ ids)
    (hu : u ∈ if c then m.insert user x else m) : u ∈ user :: ids := by
  split at hu
  · rw [Std.HashMap.mem_insert] at hu
    cases hu with
    | inl heq => exact eq_of_beq heq ▸ List.mem_cons_self ..
    | inr hmem => exact List.mem_cons_of_mem user (h u hmem)
  · exact List.mem_cons_of_mem user (h u hu)

variable (P : Primitives) (fromUser : PanelUser → UserPolicy)

theorem registerUser_published {ids : List Nat} {acc : BackendRuntime × UserTables}
    (h : Published ids acc.1 acc.2) (user : PanelUser) :
    Published (user.userId :: ids) (registerUser P fromUser acc user).1
      (registerUser P fromUser acc user).2 := by
  refine ⟨?_, ?_, ?_, ?_, ?_⟩
  · exact h.counters.insert (acc.1.traffic.ensureUser_self user.userId)
      (acc.1.traffic.ensureUser_keeps user.userId)
  · exact h.conns.insert (Registry.ensure_self acc.1.conns user.userId ∅ id)
      (Registry.ensure_keeps acc.1.conns user.userId ∅ id)
  · exact h.speeds.insert (Registry.ensure_self acc.1.speeds user.userId _ _)
      (Registry.ensure_keeps acc.1.speeds user.userId _ _)
  · intro u hu
    exact mem_insertIf h.auth hu
  · intro u hu
    exact mem_insertIf h.policies hu

theorem registerUsers_published (users : List PanelUser) {ids : List Nat}
    {acc : BackendRuntime × UserTables} (h : Published ids acc.1 acc.2) :
    Published ((users.map PanelUser.userId).reverse ++ ids)
      (users.foldl (registerUser P fromUser) acc).1
      (users.foldl (registerUser P fromUser) acc).2 := by
  induction users generalizing ids acc with
  | nil => exact h
  | cons user users ih =>
      have hnext := ih (registerUser_published P fromUser h user)
      rw [List.map_cons, List.reverse_cons, List.append_assoc]
      exact hnext

/-- The ledgers and the published tables are left as they are. -/
structure SameLedgers (rt rt' : BackendRuntime) : Prop where
  traffic_eq : rt'.traffic = rt.traffic
  conns_eq : rt'.conns = rt.conns
  speeds_eq : rt'.speeds = rt.speeds
  tables_eq : rt'.tables = rt.tables

/-- Only the listeners have moved: their entries, the task counter and the actions. -/
def ListenersMoved (rt rt' : BackendRuntime) : Prop :=
  ∃ active next actions,
    rt' = { rt with activeUsers := active, nextTask := next, actions := actions }

theorem ListenersMoved.refl (rt : BackendRuntime) : ListenersMoved rt rt :=
  ⟨rt.activeUsers, rt.nextTask, rt.actions, rfl⟩

theorem ListenersMoved.trans {rt rt' rt'' : BackendRuntime} (h : ListenersMoved rt rt')
    (h' : ListenersMoved rt' rt'') : ListenersMoved rt rt'' := by
  obtain ⟨_, _, _, rfl⟩ := h
  obtain ⟨active, next, actions, rfl⟩ := h'
  exact ⟨active, next, actions, rfl⟩

theorem ListenersMoved.foldl {α : Type} {f : BackendRuntime → α → BackendRuntime}
    (h : ∀ rt x, ListenersMoved rt (f rt x)) (xs : List α) (rt : BackendRuntime) :
    ListenersMoved rt (xs.foldl f rt) := by
  induction xs generalizing rt with
  | nil => exact .refl rt
  | cons x xs ih => exact (h rt x).trans (ih (f rt x))

theorem removePort_moved (rt : BackendRuntime) (port : UInt16) :
    ListenersMoved rt (rt.removePort port) := by
  rw [removePort]
  cases rt.activeUsers[port]? with
  | none => exact .refl rt
  | some active => exact ⟨_, rt.nextTask, _, rfl⟩

theorem ensureListener_moved (rt : BackendRuntime) (user : PanelUser) :
    ListenersMoved rt (rt.ensureListener user) := by
  rcases ensureListener_cases rt user with ⟨hkept, -⟩ | ⟨profile, -, -, hrestart⟩
  · rw [hkept]
    exact .refl rt
  · rw [hrestart, restart]
    simp only [spawnIf_state]
    exact (removePort_moved rt user.port).trans ⟨_, _, _, rfl⟩

/-- A table holds exactly the objects of a ledger, and these are the ones of the listed users. -/
structure Mirrors (users : List PanelUser) (entries table : Std.HashMap Nat Nat) : Prop where
  table_eq : ∀ u : Nat, table[u]? = entries[u]?
  mem_iff : ∀ u : Nat, u ∈ table ↔ isLive users u

/-- The ledgers and the tables between two polls. -/
structure Serving (users : List PanelUser) (rt : BackendRuntime) : Prop where
  counters : Mirrors users rt.traffic.counters.entries rt.tables.countersByUser
  conns : Mirrors users rt.conns.entries rt.tables.connsByUser
  speeds : Mirrors users rt.speeds.entries rt.tables.speedsByUser
  auth : ∀ u ∈ rt.tables.authUsers, isLive users u
  policies : ∀ u ∈ rt.tables.policies, isLive users u

theorem isLive_iff (users : List PanelUser) (u : Nat) :
    isLive users u ↔ u ∈ (users.map PanelUser.userId).reverse := by
  rw [isLive, List.any_eq_true, List.mem_reverse, List.mem_map]
  simp only [decide_eq_true_eq]

theorem Mirrors.of_tracks {users : List PanelUser} {α : Type} {r : Registry Nat α}
    {table : Std.HashMap Nat Nat}
    (h : Tracks (users.map PanelUser.userId).reverse r.entries table) :
    Mirrors users (r.retain (isLive users)).entries table := by
  refine ⟨?_, ?_⟩
  · intro u
    rw [h.table_eq, Registry.retain_entries]
    by_cases hlive : isLive users u
    · rw [if_pos hlive, if_pos ((isLive_iff users u).mp hlive)]
    · rw [if_neg hlive, if_neg fun hmem => hlive ((isLive_iff users u).mpr hmem)]
  · intro u
    rw [h.mem_iff, isLive_iff]

theorem publishTables_published (users : List PanelUser) (rt : BackendRuntime) :
    Published (users.map PanelUser.userId).reverse (publishTables P fromUser users rt)
      (publishTables P fromUser users rt).tables := by
  have hempty : Published [] rt UserTables.empty :=
    ⟨.empty _, .empty _, .empty _, fun u hu => absurd hu Std.HashMap.not_mem_empty,
      fun u hu => absurd hu Std.HashMap.not_mem_empty⟩
  have hacc : Published [] (rt, UserTables.empty).1 (rt, UserTables.empty).2 := hempty
  have h := registerUsers_published P fromUser users hacc
  rw [List.append_nil] at h
  exact ⟨h.counters, h.conns, h.speeds, h.auth, h.policies⟩

/-- The loops over the listeners are left out. -/
theorem applyUsers_moved (users : List PanelUser) (rt : BackendRuntime) :
    ListenersMoved ((publishTables P fromUser users rt).removeStaleUsers users)
      (applyUsers P fromUser users rt) := by
  have hloop := ListenersMoved.foldl ensureListener_moved (listenerUsers users)
    (publishTables P fromUser users rt)
  rw [applyUsers]
  generalize (listenerUsers users).foldl ensureListener (publishTables P fromUser users rt) =
    ensured at hloop ⊢
  have hclean : ListenersMoved ensured
      (ensured.removeStalePorts (livePorts ensured.config (listenerUsers users))) :=
    .foldl removePort_moved _ ensured
  obtain ⟨active, next, actions, heq⟩ := hloop.trans hclean
  refine ⟨active, next, actions, ?_⟩
  rw [heq]
  rfl

theorem applyUsers_ledgers (users : List PanelUser) (rt : BackendRuntime) :
    SameLedgers ((publishTables P fromUser users rt).removeStaleUsers users)
      (applyUsers P fromUser users rt) := by
  obtain ⟨_, _, _, heq⟩ := applyUsers_moved P fromUser users rt
  rw [heq]
  exact ⟨rfl, rfl, rfl, rfl⟩

theorem applyUsers_serving (users : List PanelUser) (rt : BackendRuntime) :
    Serving users (applyUsers P fromUser users rt) := by
  have h := publishTables_published P fromUser users rt
  have hsame := applyUsers_ledgers P fromUser users rt
  refine ⟨?_, ?_, ?_, ?_, ?_⟩
  · rw [hsame.traffic_eq, hsame.tables_eq]
    exact .of_tracks h.counters
  · rw [hsame.conns_eq, hsame.tables_eq]
    exact .of_tracks h.conns
  · rw [hsame.speeds_eq, hsame.tables_eq]
    exact .of_tracks h.speeds
  · rw [hsame.tables_eq]
    intro u hu
    exact (isLive_iff users u).mpr (h.auth u hu)
  · rw [hsame.tables_eq]
    intro u hu
    exact (isLive_iff users u).mpr (h.policies u hu)

/-- The row that a user's key is taken from: its last ordinary one. -/
def ordinaryRow? (users : List PanelUser) (u : Nat) : Option PanelUser :=
  (users.filter fun user => user.isMultiUser = 0 ∧ user.userId = u).getLast?

theorem ordinaryRow?_cons (user : PanelUser) (users : List PanelUser) (u : Nat) :
    ordinaryRow? (user :: users) u = (ordinaryRow? users u).or
      (if user.isMultiUser = 0 ∧ user.userId = u then some user else none) := by
  rw [ordinaryRow?, ordinaryRow?, List.filter_cons]
  by_cases h : user.isMultiUser = 0 ∧ user.userId = u
  · rw [if_pos (decide_eq_true h), if_pos h, List.getLast?_cons]
    cases (users.filter fun user => user.isMultiUser = 0 ∧ user.userId = u).getLast? <;> rfl
  · rw [if_neg (by rw [decide_eq_true_eq]; exact h), if_neg h, Option.or_none]

theorem registerUsers_auth (users : List PanelUser) (acc : BackendRuntime × UserTables) (u : Nat) :
    (users.foldl (registerUser P fromUser) acc).2.authUsers[u]? =
      ((ordinaryRow? users u).map fun row => deriveUserAuthKey P row.password).or
        acc.2.authUsers[u]? := by
  induction users generalizing acc with
  | nil => rfl
  | cons user users ih =>
      rw [List.foldl_cons, ih, ordinaryRow?_cons]
      cases ordinaryRow? users u with
      | some row => rfl
      | none =>
          rw [Option.map_none, Option.none_or, Option.none_or, registerUser]
          by_cases hmode : user.isMultiUser = 0
          · simp only [hmode, if_true, true_and, Std.HashMap.getElem?_insert]
            by_cases hid : user.userId = u
            · simp [hid]
            · simp [hid]
          · simp only [hmode, if_false, false_and, Option.map_none, Option.none_or]

/-- The keys that a list of rows is published with. -/
theorem applyUsers_auth (users : List PanelUser) (rt : BackendRuntime) (u : Nat) :
    (applyUsers P fromUser users rt).tables.authUsers[u]? =
      (ordinaryRow? users u).map fun row => deriveUserAuthKey P row.password := by
  rw [(applyUsers_ledgers P fromUser users rt).tables_eq]
  refine (registerUsers_auth P fromUser users (rt, .empty) u).trans ?_
  have hempty : (UserTables.empty).authUsers[u]? = none := Std.HashMap.getElem?_empty
  rw [hempty, Option.or_none]

/-- The objects of a user in the ledgers. -/
structure Holds (rt : BackendRuntime) (u counters conns speeds : Nat) : Prop where
  counters_eq : rt.traffic.counters.entries[u]? = some counters
  conns_eq : rt.conns.entries[u]? = some conns
  speeds_eq : rt.speeds.entries[u]? = some speeds

theorem registerUsers_holds (users : List PanelUser) {acc : BackendRuntime × UserTables}
    {u counters conns speeds : Nat} (h : Holds acc.1 u counters conns speeds) :
    Holds (users.foldl (registerUser P fromUser) acc).1 u counters conns speeds := by
  induction users generalizing acc with
  | nil => exact h
  | cons user users ih =>
      apply ih
      exact ⟨acc.1.traffic.ensureUser_keeps user.userId h.counters_eq,
        Registry.ensure_keeps acc.1.conns user.userId ∅ id h.conns_eq,
        Registry.ensure_keeps acc.1.speeds user.userId _ _ h.speeds_eq⟩

/-- A listed user keeps its objects. -/
theorem applyUsers_holds {users : List PanelUser} {rt : BackendRuntime}
    {u counters conns speeds : Nat} (h : Holds rt u counters conns speeds)
    (hlive : isLive users u) :
    Holds (applyUsers P fromUser users rt) u counters conns speeds := by
  have hacc : Holds (rt, UserTables.empty).1 u counters conns speeds := h
  have hbuilt := registerUsers_holds P fromUser users hacc
  have hpublish : Holds (publishTables P fromUser users rt) u counters conns speeds :=
    ⟨hbuilt.counters_eq, hbuilt.conns_eq, hbuilt.speeds_eq⟩
  have hsame := applyUsers_ledgers P fromUser users rt
  refine ⟨?_, ?_, ?_⟩
  · rw [hsame.traffic_eq]
    refine (Registry.retain_entries _ _ u).trans ?_
    rw [if_pos hlive]
    exact hpublish.counters_eq
  · rw [hsame.conns_eq]
    refine (Registry.retain_entries _ _ u).trans ?_
    rw [if_pos hlive]
    exact hpublish.conns_eq
  · rw [hsame.speeds_eq]
    refine (Registry.retain_entries _ _ u).trans ?_
    rw [if_pos hlive]
    exact hpublish.speeds_eq

theorem registerUsers_conns (users : List PanelUser) {acc : BackendRuntime × UserTables}
    {owner : Nat → Nat} (h : acc.1.conns.Owned owner) :
    ∃ owner', Registry.Grown ∅ acc.1.conns owner
      (users.foldl (registerUser P fromUser) acc).1.conns owner' := by
  induction users generalizing acc owner with
  | nil => exact ⟨owner, .refl h⟩
  | cons user users ih =>
      obtain ⟨owner', hfirst⟩ : ∃ owner', Registry.Grown ∅ acc.1.conns owner
          (acc.1.conns.ensureUser user.userId).2 owner' := Registry.ensure_grown h user.userId
      have hnext : (registerUser P fromUser acc user).1.conns.Owned owner' := hfirst.owned
      obtain ⟨owner'', hrest⟩ := ih hnext
      exact ⟨owner'', hfirst.trans hrest⟩

/-- A poll takes no set from its owner and changes none. -/
theorem synced_conns {rt : BackendRuntime} {owner : Nat → Nat} (h : rt.conns.Owned owner)
    (answer : Except String (List PanelUser)) :
    ∃ owner', Registry.Grown ∅ rt.conns owner (synced P fromUser answer rt).conns owner' := by
  rcases synced_cases P fromUser answer rt with hsame | ⟨users, -, happly⟩
  · rw [hsame]
    exact ⟨owner, .refl h⟩
  · have hacc : (rt, UserTables.empty).1.conns.Owned owner := h
    obtain ⟨owner', hgrown⟩ := registerUsers_conns P fromUser users hacc
    rw [happly, (applyUsers_ledgers P fromUser users rt).conns_eq]
    exact ⟨owner', hgrown.trans (Registry.retain_grown hgrown.owned (isLive users))⟩

/-! ### Polls, one after another -/

/-- The runtime after some calls of `sync_users`. -/
def polls (rt : BackendRuntime) (answers : List (Except String (List PanelUser))) :
    BackendRuntime :=
  Machine.run (fun rt answer => synced P fromUser answer rt) rt answers

theorem new_serving (config : Config) : Serving [] (new config) := by
  have hempty : Mirrors [] ∅ ∅ := by
    refine ⟨fun u => rfl, ?_⟩
    intro u
    exact ⟨fun hu => absurd hu Std.HashMap.not_mem_empty, fun hu => (nomatch hu)⟩
  exact ⟨hempty, hempty, hempty, fun u hu => absurd hu Std.HashMap.not_mem_empty,
    fun u hu => absurd hu Std.HashMap.not_mem_empty⟩

theorem polls_serving (config : Config) (answers : List (Except String (List PanelUser))) :
    ∃ users, Serving users (polls P fromUser (new config) answers) := by
  have hstep : ∀ rt answer, (∃ users, Serving users rt) →
      ∃ users, Serving users (synced P fromUser answer rt) := by
    intro rt answer h
    rcases synced_cases P fromUser answer rt with hsame | ⟨users, -, happly⟩
    · rw [hsame]
      exact h
    · rw [happly]
      exact ⟨users, applyUsers_serving P fromUser users rt⟩
  exact Machine.run_keeps hstep ⟨[], new_serving config⟩ answers

theorem synced_holds {rt : BackendRuntime} {u counters conns speeds : Nat}
    (h : Holds rt u counters conns speeds) {answer : Except String (List PanelUser)}
    (hlisted : ∀ users, answer = .ok users → isLive users u) :
    Holds (synced P fromUser answer rt) u counters conns speeds := by
  rcases synced_cases P fromUser answer rt with hsame | ⟨users, hok, happly⟩
  · rw [hsame]
    exact h
  · rw [happly]
    exact applyUsers_holds P fromUser h (hlisted users hok)

/-- A user that every list has keeps its objects. -/
theorem polls_holds {rt : BackendRuntime} {u counters conns speeds : Nat}
    (h : Holds rt u counters conns speeds) {answers : List (Except String (List PanelUser))}
    (hlisted : ∀ users, .ok users ∈ answers → isLive users u) :
    Holds (polls P fromUser rt answers) u counters conns speeds := by
  induction answers generalizing rt with
  | nil => exact h
  | cons answer answers ih =>
      apply ih
      · apply synced_holds P fromUser h
        intro users hok
        rw [hok] at hlisted
        exact hlisted users (List.mem_cons_self ..)
      · intro users hmem
        exact hlisted users (List.mem_cons_of_mem answer hmem)

end BackendRuntime

end SsrBackend
