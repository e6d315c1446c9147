import SsrBackend.Relay.Connection
import SsrBackend.Runtime.Tables
import SsrBackend.Traffic.DeviceSlots

/-!
The device cap of a node. Sessions are opened under any snapshot that has been
published: the handshake may end long after the accept. A session is admitted by
the code between the address header and the audit, and what it holds until it
closes is the guard that this code has taken.
-/

namespace SsrBackend

open Call

namespace Connection

/-- The part of `handle_stream` from the address header to the device limit. -/
def admission (ctx : StreamContext) (world : World) (userId : Nat) : StreamTask Bool := do
  let _ ← lookupCounters ctx userId
  acquireSlot ctx world userId ctx.tables.policies[userId]?

/-- The set that an action takes a slot of. -/
def slotOf? : Action → Option Handle
  | .takeSlot ips _ => some ips
  | _ => none

/-- The guard of an admitted session, `none` inside where it holds none. -/
def admitted? (ctx : StreamContext) (world : World) (userId : Nat) : Option (Option Handle) :=
  match (admission ctx world userId).run [] with
  | (.ok true, log) => some (log.findSome? slotOf?)
  | _ => none

/-- The limit of a user in a snapshot; a user without a policy has none. -/
def limitOf (tables : UserTables) (userId : Nat) : Nat :=
  ((tables.policies[userId]?).map UserPolicy.connLimit).getD 0

theorem lookupCounters_run (ctx : StreamContext) (userId : Nat) :
    (∃ counters, ∀ log, (lookupCounters ctx userId).run log = (.ok counters, log)) ∨
      ∀ log, (lookupCounters ctx userId).run log = (.err (.noCounter userId), log) := by
  unfold lookupCounters
  split
  · exact Or.inl ⟨_, fun _ => rfl⟩
  · split
    · exact Or.inl ⟨_, fun _ => rfl⟩
    · exact Or.inr fun _ => rfl

/-- What the device limit does: it lets a user without a limit pass, and asks the set of any other. -/
theorem acquireSlot_run (ctx : StreamContext) (world : World) (userId : Nat)
    (hon : ctx.enforcement.connLimit = true) (log : List Action) :
    (limitOf ctx.tables userId = 0 ∧
      (acquireSlot ctx world userId ctx.tables.policies[userId]?).run log = (.ok true, log)) ∨
    (0 < limitOf ctx.tables userId ∧ ∃ set ips, ctx.tables.connsByUser[userId]? = some set ∧
      ConnGuard.acquire (world.ips set) ctx.peerIp (limitOf ctx.tables userId) = some ips ∧
      (acquireSlot ctx world userId ctx.tables.policies[userId]?).run log =
        (.ok true, log ++ [.takeSlot set ctx.peerIp])) ∨
    (0 < limitOf ctx.tables userId ∧
      (∀ set, ctx.tables.connsByUser[userId]? = some set →
        ConnGuard.acquire (world.ips set) ctx.peerIp (limitOf ctx.tables userId) = none) ∧
      ((acquireSlot ctx world userId ctx.tables.policies[userId]?).run log).1 ≠ .ok true) := by
  rw [limitOf]
  cases ctx.tables.policies[userId]? with
  | none => exact Or.inl ⟨rfl, rfl⟩
  | some policy =>
      rw [Option.map_some, Option.getD_some, acquireSlot]
      by_cases hlimit : 0 < policy.connLimit
      · rw [if_pos ⟨hon, hlimit⟩]
        cases ctx.tables.connsByUser[userId]? with
        | none => exact Or.inr (Or.inr ⟨hlimit, nofun, nofun⟩)
        | some set =>
            dsimp only
            cases hacquire : ConnGuard.acquire (world.ips set) ctx.peerIp policy.connLimit with
            | none =>
                refine Or.inr (Or.inr ⟨hlimit, ?_, nofun⟩)
                intro set' hset
                cases hset
                exact hacquire
            | some ips => exact Or.inr (Or.inl ⟨hlimit, set, ips, rfl, hacquire, rfl⟩)
      · rw [if_neg fun h => hlimit h.2]
        exact Or.inl ⟨Nat.eq_zero_of_not_pos hlimit, rfl⟩

/-- With the limit enforced, a session without a limit holds no guard. -/
theorem admitted?_cases {ctx : StreamContext} {world : World} {userId : Nat}
    (hon : ctx.enforcement.connLimit = true) {guard : Option Handle}
    (h : admitted? ctx world userId = some guard) :
    (limitOf ctx.tables userId = 0 ∧ guard = none) ∨
      (0 < limitOf ctx.tables userId ∧ ∃ set ips, ctx.tables.connsByUser[userId]? = some set ∧
        ConnGuard.acquire (world.ips set) ctx.peerIp (limitOf ctx.tables userId) = some ips ∧
        guard = some set) := by
  rw [admitted?, admission, run_bind] at h
  rcases lookupCounters_run ctx userId with ⟨counters, hlookup⟩ | hlookup
  · rw [hlookup] at h
    dsimp only at h
    rcases acquireSlot_run ctx world userId hon [] with
      ⟨hlimit, hrun⟩ | ⟨hlimit, set, ips, hset, hacquire, hrun⟩ | ⟨-, -, hrefused⟩
    · rw [hrun] at h
      cases h
      exact Or.inl ⟨hlimit, rfl⟩
    · rw [hrun] at h
      cases h
      exact Or.inr ⟨hlimit, set, ips, hset, hacquire, rfl⟩
    · split at h
      · rename_i heq
        rw [heq] at hrefused
        exact absurd rfl hrefused
      · cases h
  · rw [hlookup] at h
    cases h

/-- A user without a limit is admitted, and so is one whose set has room. -/
theorem admitted?_of_room {ctx : StreamContext} {world : World} {userId counters : Nat}
    (hon : ctx.enforcement.connLimit = true)
    (hcounters : ctx.tables.countersByUser[userId]? = some counters)
    (hroom : 0 < limitOf ctx.tables userId → ∃ set ips,
      ctx.tables.connsByUser[userId]? = some set ∧
      ConnGuard.acquire (world.ips set) ctx.peerIp (limitOf ctx.tables userId) = some ips) :
    (admitted? ctx world userId).isSome := by
  have hlookup : (lookupCounters ctx userId).run [] = (.ok counters, []) := by
    rw [lookupCounters, hcounters]
    rfl
  rw [admitted?, admission, run_bind, hlookup]
  dsimp only
  rcases acquireSlot_run ctx world userId hon [] with
    ⟨-, hrun⟩ | ⟨-, set, ips, -, -, hrun⟩ | ⟨hlimit, hnone, -⟩
  · rw [hrun]
    rfl
  · rw [hrun]
    rfl
  · obtain ⟨set, ips, hset, hacquire⟩ := hroom hlimit
    rw [hnone set hset] at hacquire
    cases hacquire

end Connection

/-! ### Sessions and polls -/

/-- An admitted session, with the set it holds a guard of. -/
structure Admitted where
  userId : Nat
  ip : String
  guard : Option Handle

/-- A node: the runtime, every snapshot it has published, and the admitted sessions. -/
structure Node where
  runtime : BackendRuntime
  published : List UserTables
  sessions : List Admitted

/-- A poll; the end of a handshake of a connection that was accepted under a snapshot;
the end of an admitted session, by its place. -/
inductive NodeEvent where
  | poll (answer : Except String (List PanelUser))
  | opened (snapshot : Nat) (ctx : StreamContext) (userId : Nat)
  | closed (session : Nat)

namespace Node

variable (P : Primitives) (fromUser : PanelUser → UserPolicy)

def start (config : Config) : Node := ⟨.new config, [UserTables.empty], []⟩

/-- The set behind a handle. -/
def ips (s : Node) (set : Handle) : UserIpSet := (s.runtime.conns.objects.get? set).getD ∅

def world (s : Node) : World := ⟨s.ips, []⟩

def setIps (s : Node) (set : Handle) (f : UserIpSet → UserIpSet) : Node :=
  { s with runtime := { s.runtime with
      conns := { s.runtime.conns with objects := s.runtime.conns.objects.modify set f } } }

/-- The context of a connection that was accepted under a snapshot. -/
def context (s : Node) (ctx : StreamContext) (tables : UserTables) : StreamContext :=
  { ctx with tables := tables, enforcement := BackendRuntime.enforcement s.runtime.config }

/-- The admission of a session. The refusal of a full set has left it as it was. -/
def openSession (s : Node) (ctx : StreamContext) (userId : Nat) : Node :=
  match Connection.admitted? ctx s.world userId with
  | none => s
  | some guard =>
      let s := match guard with
        | none => s
        | some set => s.setIps set fun ips =>
            (ConnGuard.acquire ips ctx.peerIp (Connection.limitOf ctx.tables userId)).getD ips
      { s with sessions := ⟨userId, ctx.peerIp, guard⟩ :: s.sessions }

/-- The drop of the guard of a session. -/
def dropGuard (s : Node) (x : Admitted) : Node :=
  match x.guard with
  | none => s
  | some set => s.setIps set fun ips => ConnGuard.drop ips x.ip

def step (s : Node) : NodeEvent → Node
  | .poll answer =>
      let rt := BackendRuntime.synced P fromUser answer s.runtime
      ⟨rt, s.published ++ [rt.tables], s.sessions⟩
  | .opened snapshot ctx userId =>
      match s.published[snapshot]? with
      | none => s
      | some tables => s.openSession (s.context ctx tables) userId
  | .closed session =>
      match s.sessions[session]? with
      | none => s
      | some x => { s.dropGuard x with sessions := s.sessions.eraseIdx session }

/-- The IPs of the live sessions of a user. -/
def userIps (s : Node) (userId : Nat) : List String :=
  (s.sessions.filter fun x => x.userId = userId).map Admitted.ip

/-- The IPs of the guards of a set. -/
def guarded (sessions : List Admitted) (set : Handle) : List String :=
  (sessions.filter fun x => x.guard = some set).map Admitted.ip

/-- Every set counts the guards that the sessions hold of it, and they are its owner's. -/
structure Tidy (s : Node) (owner : Nat → Nat) : Prop where
  counts : ∀ set, Counts (guarded s.sessions set) (s.ips set)
  entries : s.runtime.conns.Owned owner
  current : s.runtime.tables ∈ s.published
  published : ∀ tables ∈ s.published, ∀ u set : Nat, tables.connsByUser[u]? = some set →
    set < s.runtime.conns.objects.size ∧ owner set = u
  sessions : ∀ x ∈ s.sessions, ∀ set : Nat, x.guard = some set →
    set < s.runtime.conns.objects.size ∧ owner set = x.userId

theorem ips_setIps {s : Node} {set : Handle} (hset : set < s.runtime.conns.objects.size)
    (f : UserIpSet → UserIpSet) (set' : Handle) :
    (s.setIps set f).ips set' = if set = set' then f (s.ips set') else s.ips set' := by
  rw [ips, setIps]
  dsimp only
  rw [Arena.get?_modify]
  by_cases heq : set = set'
  · obtain ⟨object, hobject⟩ : ∃ object, s.runtime.conns.objects.get? set' = some object := by
      rw [← heq]
      exact ⟨_, List.getElem?_eq_getElem hset⟩
    rw [if_pos heq, if_pos heq, ips, hobject]
    rfl
  · rw [if_neg heq, if_neg heq]
    rfl

theorem size_setIps (s : Node) (set : Handle) (f : UserIpSet → UserIpSet) :
    (s.setIps set f).runtime.conns.objects.size = s.runtime.conns.objects.size :=
  Arena.size_modify ..

theorem start_tidy (config : Config) : (start config).Tidy fun _ => 0 := by
  refine ⟨fun _ => Counts.empty, ?_, List.mem_singleton_self _, ?_, nofun⟩
  · intro u set hset
    exact absurd (hset.symm.trans Std.HashMap.getElem?_empty) nofun
  · intro tables hmem u set hset
    rw [List.mem_singleton.mp hmem] at hset
    exact absurd (hset.symm.trans Std.HashMap.getElem?_empty) nofun

theorem poll_tidy {s : Node} {owner : Nat → Nat} (h : s.Tidy owner)
    (answer : Except String (List PanelUser)) :
    ∃ owner', (step P fromUser s (.poll answer)).Tidy owner' := by
  obtain ⟨owner', hgrown⟩ := BackendRuntime.synced_conns P fromUser h.entries answer
  have hold : ∀ u set : Nat, set < s.runtime.conns.objects.size ∧ owner set = u →
      set < (BackendRuntime.synced P fromUser answer s.runtime).conns.objects.size ∧
        owner' set = u := by
    intro u set hset
    exact ⟨Nat.lt_of_lt_of_le hset.1 hgrown.size_le, (hgrown.owner_eq set hset.1).trans hset.2⟩
  refine ⟨owner', ?_, hgrown.owned, List.mem_append_right _ (List.mem_singleton_self _), ?_, ?_⟩
  · intro set
    have hsame : (step P fromUser s (.poll answer)).ips set = s.ips set := hgrown.value_eq set
    rw [hsame]
    exact h.counts set
  · intro tables hmem u set hset
    cases List.mem_append.mp hmem with
    | inl hearlier => exact hold u set (h.published tables hearlier u set hset)
    | inr hnew =>
        rw [List.mem_singleton.mp hnew] at hset
        rcases BackendRuntime.synced_cases P fromUser answer s.runtime with
          hsame | ⟨users, -, happly⟩
        · rw [hsame] at hset
          exact hold u set (h.published _ h.current u set hset)
        · have hmirrors := (BackendRuntime.applyUsers_serving P fromUser users s.runtime).conns
          rw [← happly] at hmirrors
          rw [hmirrors.table_eq] at hset
          exact hgrown.owned u set hset
  · intro x hmem set hset
    exact hold x.userId set (h.sessions x hmem set hset)

theorem guarded_cons_of_ne {x : Admitted} {set : Handle} (h : x.guard ≠ some set)
    (sessions : List Admitted) : guarded (x :: sessions) set = guarded sessions set := by
  simp [guarded, h]

theorem guarded_cons_of_eq {x : Admitted} {set : Handle} (h : x.guard = some set)
    (sessions : List Admitted) : guarded (x :: sessions) set = x.ip :: guarded sessions set := by
  simp [guarded, h]

theorem guarded_perm {sessions sessions' : List Admitted} (h : sessions.Perm sessions')
    (set : Handle) : (guarded sessions set).Perm (guarded sessions' set) :=
  (h.filter _).map _

/-- What an opening does when the limit is enforced. -/
theorem openSession_cases {s : Node} {ctx : StreamContext} (hon : ctx.enforcement.connLimit = true)
    (userId : Nat) :
    (Connection.admitted? ctx s.world userId = none ∧ s.openSession ctx userId = s) ∨
    (Connection.limitOf ctx.tables userId = 0 ∧
      s.openSession ctx userId =
        { s with sessions := ⟨userId, ctx.peerIp, none⟩ :: s.sessions }) ∨
    (0 < Connection.limitOf ctx.tables userId ∧ ∃ set ips f,
      ctx.tables.connsByUser[userId]? = some set ∧
      ConnGuard.acquire (s.ips set) ctx.peerIp (Connection.limitOf ctx.tables userId) = some ips ∧
      f (s.ips set) = ips ∧
      s.openSession ctx userId =
        { s.setIps set f with sessions := ⟨userId, ctx.peerIp, some set⟩ :: s.sessions }) := by
  rw [openSession]
  cases hadmitted : Connection.admitted? ctx s.world userId with
  | none => exact Or.inl ⟨rfl, rfl⟩
  | some guard =>
      rcases Connection.admitted?_cases hon hadmitted with
        ⟨hlimit, rfl⟩ | ⟨hlimit, set, ips, hset, hacquire, rfl⟩
      · exact Or.inr (Or.inl ⟨hlimit, rfl⟩)
      · refine Or.inr (Or.inr ⟨hlimit, set, ips, _, hset, hacquire, ?_, rfl⟩)
        have hsame : s.world.ips set = s.ips set := rfl
        rw [hsame] at hacquire
        rw [hacquire, Option.getD_some]

theorem openSession_tidy {s : Node} {owner : Nat → Nat} (h : s.Tidy owner) {ctx : StreamContext}
    (hon : ctx.enforcement.connLimit = true) (hpublished : ctx.tables ∈ s.published)
    (userId : Nat) : (s.openSession ctx userId).Tidy owner := by
  rcases openSession_cases hon userId with
    ⟨-, hsame⟩ | ⟨-, hfree⟩ | ⟨hlimit, set, ips, f, hset, hacquire, hf, htaken⟩
  · rw [hsame]
    exact h
  · rw [hfree]
    refine ⟨?_, h.entries, h.current, h.published, ?_⟩
    · intro set
      have hnone : (⟨userId, ctx.peerIp, none⟩ : Admitted).guard ≠ some set := nofun
      rw [guarded_cons_of_ne hnone]
      exact h.counts set
    · intro x hmem set hset
      cases List.mem_cons.mp hmem with
      | inl heq =>
          rw [heq] at hset
          cases hset
      | inr hmem => exact h.sessions x hmem set hset
  · obtain ⟨hlt, howner⟩ := h.published _ hpublished userId set hset
    rw [htaken]
    refine ⟨?_, ?_, h.current, ?_, ?_⟩
    · intro set'
      change Counts _ ((s.setIps set f).ips set')
      rw [ips_setIps hlt]
      by_cases heq : set = set'
      · subst heq
        rw [guarded_cons_of_eq rfl, if_pos rfl, hf]
        rcases (h.counts set).acquire ctx.peerIp (Connection.limitOf ctx.tables userId) with
          ⟨hnone, -⟩ | ⟨ips', hsome, hcounts, -⟩
        · rw [hnone] at hacquire
          cases hacquire
        · rw [hsome] at hacquire
          cases hacquire
          exact hcounts
      · rw [guarded_cons_of_ne (by simpa using heq), if_neg heq]
        exact h.counts set'
    · intro u set' hentry
      rw [size_setIps]
      exact h.entries u set' hentry
    · intro tables hmem u set' hset'
      rw [size_setIps]
      exact h.published tables hmem u set' hset'
    · intro x hmem set' hset'
      rw [size_setIps]
      cases List.mem_cons.mp hmem with
      | inl heq =>
          rw [heq] at hset'
          cases hset'
          exact ⟨hlt, by rw [heq]; exact howner⟩
      | inr hmem => exact h.sessions x hmem set' hset'

theorem closed_tidy {s : Node} {owner : Nat → Nat} (h : s.Tidy owner) {session : Nat}
    {x : Admitted} (hx : s.sessions[session]? = some x) :
    Tidy { s.dropGuard x with sessions := s.sessions.eraseIdx session } owner := by
  obtain ⟨hlt, heq⟩ := List.getElem?_eq_some_iff.mp hx
  have hperm : s.sessions.Perm (x :: s.sessions.eraseIdx session) := by
    rw [← heq]
    exact (List.getElem_cons_eraseIdx_perm hlt).symm
  have hothers : ∀ y ∈ s.sessions.eraseIdx session, ∀ set : Nat, y.guard = some set →
      set < s.runtime.conns.objects.size ∧ owner set = y.userId := by
    intro y hmem set hset
    exact h.sessions y (List.mem_of_mem_eraseIdx hmem) set hset
  rw [dropGuard]
  cases hguard : x.guard with
  | none =>
      refine ⟨?_, h.entries, h.current, h.published, hothers⟩
      intro set
      have hcounts := (h.counts set).perm (guarded_perm hperm set)
      rw [guarded_cons_of_ne (by rw [hguard]; nofun)] at hcounts
      exact hcounts
  | some held =>
      obtain ⟨hheld, -⟩ := h.sessions x (List.mem_of_getElem? hx) held hguard
      refine ⟨?_, ?_, h.current, ?_, ?_⟩
      · intro set
        have hcounts := (h.counts set).perm (guarded_perm hperm set)
        change Counts _ ((s.setIps held _).ips set)
        rw [ips_setIps hheld]
        by_cases hset : held = set
        · subst hset
          rw [guarded_cons_of_eq hguard] at hcounts
          rw [if_pos rfl]
          exact hcounts.drop
        · rw [guarded_cons_of_ne (by rw [hguard]; simpa using hset)] at hcounts
          rw [if_neg hset]
          exact hcounts
      · intro u set hentry
        rw [size_setIps]
        exact h.entries u set hentry
      · intro tables hmem u set hset
        rw [size_setIps]
        exact h.published tables hmem u set hset
      · intro y hmem set hset
        rw [size_setIps]
        exact hothers y hmem set hset

/-- What holds of a node whose configuration is `config`, after any run. -/
def Sound (config : Config) (s : Node) : Prop :=
  s.runtime.config = config ∧ ∃ owner, s.Tidy owner

/-- An admitted session is one more of its user. -/
theorem openSession_userIps {s : Node} {ctx : StreamContext} {userId : Nat}
    (h : (Connection.admitted? ctx s.world userId).isSome) :
    (s.openSession ctx userId).userIps userId = ctx.peerIp :: s.userIps userId := by
  obtain ⟨guard, hguard⟩ := Option.isSome_iff_exists.mp h
  rw [openSession, hguard]
  cases guard with
  | none => simp [userIps]
  | some set => simp [userIps, setIps]

theorem openSession_config (s : Node) (ctx : StreamContext) (userId : Nat) :
    (s.openSession ctx userId).runtime.config = s.runtime.config := by
  rw [openSession]
  split
  · rfl
  · split
    · rfl
    · rfl

theorem dropGuard_config (s : Node) (x : Admitted) :
    (s.dropGuard x).runtime.config = s.runtime.config := by
  rw [dropGuard]
  split
  · rfl
  · rfl

variable {config : Config} (hon : config.node.enforceConnLimit = true)

include hon

theorem context_enforces {s : Node} (h : s.Sound config) (ctx : StreamContext)
    (tables : UserTables) : (s.context ctx tables).enforcement.connLimit = true := by
  have hconfig : (s.context ctx tables).enforcement.connLimit =
      s.runtime.config.node.enforceConnLimit := rfl
  rw [hconfig, h.1]
  exact hon

theorem step_sound {s : Node} (h : s.Sound config) (event : NodeEvent) :
    (step P fromUser s event).Sound config := by
  obtain ⟨hconfig, owner, htidy⟩ := h
  cases event with
  | poll answer =>
      refine ⟨?_, poll_tidy P fromUser htidy answer⟩
      refine Eq.trans ?_ hconfig
      change (BackendRuntime.synced P fromUser answer s.runtime).config = _
      rcases BackendRuntime.synced_cases P fromUser answer s.runtime with
        hsame | ⟨users, -, happly⟩
      · rw [hsame]
      · rw [happly]
        exact (BackendRuntime.applyUsers_touches P fromUser users s.runtime).config_eq
  | opened snapshot ctx userId =>
      rw [step]
      cases hsnapshot : s.published[snapshot]? with
      | none => exact ⟨hconfig, owner, htidy⟩
      | some tables =>
          refine ⟨(openSession_config s _ userId).trans hconfig, owner, ?_⟩
          apply openSession_tidy htidy
          · exact context_enforces hon ⟨hconfig, owner, htidy⟩ ctx tables
          · exact List.mem_of_getElem? hsnapshot
  | closed session =>
      rw [step]
      cases hsession : s.sessions[session]? with
      | none => exact ⟨hconfig, owner, htidy⟩
      | some x =>
          exact ⟨(dropGuard_config s x).trans hconfig, owner, closed_tidy htidy hsession⟩

theorem run_sound (events : List NodeEvent) :
    (Machine.run (step P fromUser) (start config) events).Sound config := by
  have hstep : ∀ (s : Node) (event : NodeEvent), s.Sound config →
      (step P fromUser s event).Sound config := by
    intro s event h
    exact step_sound P fromUser hon h event
  exact Machine.run_keeps hstep ⟨rfl, _, start_tidy config⟩ events

omit hon

/-- A session of a user with a limit meets it, the new one included: what the cap is for. -/
def Capped (s : Node) : NodeEvent → Prop
  | .opened snapshot ctx userId => ∀ tables, s.published[snapshot]? = some tables →
      0 < Connection.limitOf tables userId → ctx.peerIp ∉ s.userIps userId →
      (Connection.admitted? (s.context ctx tables) s.world userId).isSome →
      ((step P fromUser s (.opened snapshot ctx userId)).userIps userId).dedup.length ≤
        Connection.limitOf tables userId
  | _ => True

/-- Every client IP of the user is held by a guard of the set that the snapshot has. -/
def Tracked (s : Node) : NodeEvent → Prop
  | .opened snapshot _ userId => ∀ tables set, s.published[snapshot]? = some tables →
      0 < Connection.limitOf tables userId → tables.connsByUser[userId]? = some set →
      ∀ ip ∈ s.userIps userId, ip ∈ guarded s.sessions set
  | _ => True

/-- The guards of a user's set are of sessions of the user. -/
theorem userIps_of_guarded {s : Node} {owner : Nat → Nat} (h : s.Tidy owner) {u set : Nat}
    (howner : owner set = u) {ip : String} (hip : ip ∈ guarded s.sessions set) :
    ip ∈ s.userIps u := by
  obtain ⟨x, hx, rfl⟩ := List.mem_map.mp hip
  obtain ⟨hmem, hguard⟩ := List.mem_filter.mp hx
  have huser := (h.sessions x hmem set (of_decide_eq_true hguard)).2
  apply List.mem_map_of_mem
  rw [List.mem_filter]
  exact ⟨hmem, decide_eq_true (huser.symm.trans howner)⟩

include hon

theorem capped_of_tracked {s : Node} (h : s.Sound config) {event : NodeEvent}
    (htracked : s.Tracked event) : s.Capped P fromUser event := by
  cases event with
  | poll answer => trivial
  | closed session => trivial
  | opened snapshot ctx userId =>
      intro tables hsnapshot hlimit hnew hadmitted
      have henforces := context_enforces hon h ctx tables
      obtain ⟨-, owner, htidy⟩ := h
      rw [step, hsnapshot]
      dsimp only
      rcases openSession_cases (s := s) henforces userId with
        ⟨hrefused, -⟩ | ⟨hfree, -⟩ | ⟨-, set, ips, f, hset, hacquire, -, -⟩
      · rw [hrefused] at hadmitted
        cases hadmitted
      · exact absurd hfree (Nat.ne_of_gt hlimit)
      · have hset : tables.connsByUser[userId]? = some set := hset
        have howner := (htidy.published tables (List.mem_of_getElem? hsnapshot) userId set hset).2
        have hfresh : ctx.peerIp ∉ guarded s.sessions set := fun hip =>
          hnew (userIps_of_guarded htidy howner hip)
        have hroom : (guarded s.sessions set).dedup.length < Connection.limitOf tables userId := by
          rcases (htidy.counts set).acquire ctx.peerIp (Connection.limitOf tables userId) with
            ⟨hnone, -⟩ | ⟨ips', -, -, hroom⟩
          · exact absurd (hnone.symm.trans hacquire) nofun
          · exact Nat.lt_of_not_le fun hfull => hroom ⟨hlimit, hfresh, hfull⟩
        have hsub : (s.userIps userId).dedup.length ≤ (guarded s.sessions set).dedup.length := by
          apply List.Subperm.length_le
          apply List.subperm_of_subset (List.nodup_dedup _)
          intro ip hip
          rw [List.mem_dedup] at hip ⊢
          exact htracked tables set hsnapshot hlimit hset ip hip
        have hips : (s.openSession (s.context ctx tables) userId).userIps userId =
            ctx.peerIp :: s.userIps userId := openSession_userIps hadmitted
        rw [hips, List.dedup_cons_of_notMem hnew, List.length_cons]
        exact Nat.lt_of_le_of_lt hsub hroom

/-- In a run whose openings all find the user's clients tracked, every opening meets the cap. -/
theorem device_cap_of_tracked (events : List NodeEvent)
    (htracked : ∀ before event after, events = before ++ event :: after →
      (Machine.run (step P fromUser) (start config) before).Tracked event) :
    ∀ before event after, events = before ++ event :: after →
      (Machine.run (step P fromUser) (start config) before).Capped P fromUser event := by
  intro before event after hevents
  apply capped_of_tracked P fromUser hon
  · exact run_sound P fromUser hon before
  · exact htracked before event after hevents

omit hon

/-! ### A limit that comes late -/

/-- The policy of a row whose only control is its device limit. -/
def connectorPolicy (user : PanelUser) : UserPolicy :=
  ⟨0, (max (user.nodeConnector.getD 0) 0).toNat % 2 ^ 32, [], []⟩

/-- User 7 with a device limit. -/
def connectorRow (limit : Int) : PanelUser :=
  { BackendRuntime.sampleRow 7 443 "a" 0 with nodeConnector := some limit }

def connectorContext (ip : String) : StreamContext where
  password := "a"
  fallbackUserId := 7
  tables := .empty
  enforcement := BackendRuntime.enforcement BackendRuntime.sampleConfig
  isMultiUser := 0
  cipherKind := .rc4Md5
  peerIp := ip
  peer := ip ++ ":4000"

theorem limitOf_single (rt : BackendRuntime) (limit : Int) :
    Connection.limitOf (BackendRuntime.applyUsers .standard connectorPolicy [connectorRow limit]
      rt).tables 7 = (max limit 0).toNat % 2 ^ 32 := by
  rw [(BackendRuntime.applyUsers_ledgers .standard connectorPolicy [connectorRow limit] rt).tables_eq]
  change Connection.limitOf (BackendRuntime.registerUser .standard connectorPolicy
    (rt, UserTables.empty) (connectorRow limit)).2 7 = _
  have hpolicy : (connectorPolicy (connectorRow limit)).connLimit =
      (max limit 0).toNat % 2 ^ 32 := rfl
  have hid : (connectorRow limit).userId = 7 := rfl
  rw [Connection.limitOf, BackendRuntime.registerUser, ← hpolicy]
  dsimp only
  rw [hid]
  split
  · rw [Std.HashMap.getElem?_insert_self]
    rfl
  · rename_i hneeds
    have hzero : (connectorPolicy (connectorRow limit)).connLimit = 0 := by
      apply Nat.eq_zero_of_not_pos
      intro hpos
      apply hneeds
      rw [UserPolicy.needsConnectionPolicy, decide_eq_true hpos, Bool.true_or, Bool.true_or]
    rw [hzero]
    exact congrArg (fun o => (Option.map UserPolicy.connLimit o).getD 0) Std.HashMap.getElem?_empty

/-- The tables after a poll of user 7. -/
theorem connector_tables {s : Node} (hs : s.Sound BackendRuntime.sampleConfig) (limit : Int) :
    let tables :=
      (step .standard connectorPolicy s (.poll (.ok [connectorRow limit]))).runtime.tables
    (∃ counters, tables.countersByUser[7]? = some counters) ∧
      (∃ set, tables.connsByUser[7]? = some set) ∧
      Connection.limitOf tables 7 = (max limit 0).toNat % 2 ^ 32 := by
  have hok : ¬BackendRuntime.Rejects (.ok [connectorRow limit]) s.runtime := by
    apply BackendRuntime.not_rejects_ok
    rw [hs.1]
    exact Nat.not_lt_of_le (by decide : 1 ≤ 100)
  dsimp only [step]
  rw [(BackendRuntime.synced_accepts .standard connectorPolicy hok).1]
  have hserving := BackendRuntime.applyUsers_serving .standard connectorPolicy
    [connectorRow limit] s.runtime
  have hlive : BackendRuntime.isLive [connectorRow limit] 7 := rfl
  have hcounters := Std.HashMap.getElem?_eq_some_getElem ((hserving.counters.mem_iff 7).mpr hlive)
  have hconns := Std.HashMap.getElem?_eq_some_getElem ((hserving.conns.mem_iff 7).mpr hlive)
  exact ⟨⟨_, hcounters⟩, ⟨_, hconns⟩, limitOf_single s.runtime limit⟩

/-- A client of user 7 is admitted under the snapshot of the last poll when the set has room. -/
theorem connector_admits {s : Node} (hs : s.Sound BackendRuntime.sampleConfig) (limit : Int)
    (ip : String)
    (hroom : ∀ set, (guarded s.sessions set).dedup.length < (max limit 0).toNat % 2 ^ 32 ∨
      (max limit 0).toNat % 2 ^ 32 = 0) :
    let s' := step .standard connectorPolicy s (.poll (.ok [connectorRow limit]))
    (Connection.admitted? (s'.context (connectorContext ip) s'.runtime.tables) s'.world 7).isSome
      := by
  obtain ⟨⟨counters, hcounters⟩, ⟨set, hset⟩, hlimit⟩ := connector_tables hs limit
  have hon : BackendRuntime.sampleConfig.node.enforceConnLimit = true := rfl
  have hs' := step_sound .standard connectorPolicy hon hs (.poll (.ok [connectorRow limit]))
  generalize hnext : step .standard connectorPolicy s (.poll (.ok [connectorRow limit])) = s'
    at hcounters hset hlimit hs'
  have hsessions : s'.sessions = s.sessions := by rw [← hnext]; rfl
  apply Connection.admitted?_of_room (context_enforces hon hs' _ _) hcounters
  intro hpos
  obtain ⟨-, owner, htidy⟩ := hs'
  rcases (htidy.counts set).acquire ip (Connection.limitOf s'.runtime.tables 7) with
    ⟨-, -, -, hfull⟩ | ⟨ips, hips, -⟩
  · have hset' := hroom set
    have hpos : 0 < Connection.limitOf s'.runtime.tables 7 := hpos
    rw [hsessions] at hfull
    rw [hlimit] at hfull hpos
    omega
  · exact ⟨set, ips, hset, hips⟩

/-- The first client of user 7 under the limit 1. -/
theorem device_cap_first_client :
    let s := step .standard connectorPolicy (start BackendRuntime.sampleConfig)
      (.poll (.ok [connectorRow 1]))
    (Connection.admitted? (s.context (connectorContext "192.0.2.1") s.runtime.tables) s.world
      7).isSome ∧
    s.Capped .standard connectorPolicy (.opened 1 (connectorContext "192.0.2.1") 7) := by
  have hstart : (start BackendRuntime.sampleConfig).Sound BackendRuntime.sampleConfig :=
    ⟨rfl, _, start_tidy _⟩
  refine ⟨connector_admits hstart 1 "192.0.2.1" fun _ => Or.inl Nat.zero_lt_one, ?_⟩
  have hcap := device_cap_of_tracked .standard connectorPolicy (rfl : BackendRuntime.sampleConfig.node.enforceConnLimit = true)
    [.poll (.ok [connectorRow 1]), .opened 1 (connectorContext "192.0.2.1") 7] (by
      intro before event after hevents
      rcases before with _ | ⟨first, _ | ⟨second, rest⟩⟩
      · cases (List.cons.inj hevents).1
        trivial
      · obtain ⟨hfirst, hrest⟩ := List.cons.inj hevents
        cases (List.cons.inj hrest).1
        subst hfirst
        exact fun _ _ _ _ _ ip hip => (nomatch hip)
      · have hlength := congrArg List.length hevents
        simp at hlength)
  exact hcap [.poll (.ok [connectorRow 1])] _ [] rfl

/-- User 7 without a limit opens a session, gets the limit 1, and comes from another IP. -/
def lateLimit : List NodeEvent :=
  [.poll (.ok [connectorRow 0]), .opened 1 (connectorContext "192.0.2.1") 7,
    .poll (.ok [connectorRow 1])]

/-- A session that is opened without a limit takes no guard. -/
theorem opened_free {s : Node} (hs : s.Sound BackendRuntime.sampleConfig) {tables : UserTables}
    {snapshot userId : Nat} (hsnapshot : s.published[snapshot]? = some tables)
    (hlimit : Connection.limitOf tables userId = 0) {ctx : StreamContext}
    (hadmits : (Connection.admitted? (s.context ctx tables) s.world userId).isSome) :
    step .standard connectorPolicy s (.opened snapshot ctx userId) =
      { s with sessions := ⟨userId, ctx.peerIp, none⟩ :: s.sessions } := by
  rw [step, hsnapshot]
  have hon : BackendRuntime.sampleConfig.node.enforceConnLimit = true := rfl
  rcases openSession_cases (s := s) (context_enforces hon hs ctx tables) userId with
    ⟨hrefused, -⟩ | ⟨-, hfree⟩ | ⟨hpos, -⟩
  · rw [hrefused] at hadmits
    cases hadmits
  · exact hfree
  · exact absurd hlimit (Nat.ne_of_gt hpos)

theorem lateLimit_run :
    ∃ s : Node, s.Sound BackendRuntime.sampleConfig ∧
      s.sessions = [⟨7, "192.0.2.1", none⟩] ∧ s.published.length = 2 ∧
      Machine.run (step .standard connectorPolicy) (start BackendRuntime.sampleConfig) lateLimit =
        step .standard connectorPolicy s (.poll (.ok [connectorRow 1])) := by
  have hon : BackendRuntime.sampleConfig.node.enforceConnLimit = true := rfl
  have hstart : (start BackendRuntime.sampleConfig).Sound BackendRuntime.sampleConfig :=
    ⟨rfl, _, start_tidy _⟩
  have hadmits := connector_admits hstart 0 "192.0.2.1" fun _ => Or.inr rfl
  obtain ⟨-, -, hlimit⟩ := connector_tables hstart 0
  have hs := step_sound .standard connectorPolicy hon hstart (.poll (.ok [connectorRow 0]))
  have hsnapshot : (step .standard connectorPolicy (start BackendRuntime.sampleConfig)
      (.poll (.ok [connectorRow 0]))).published[1]? = some
        (step .standard connectorPolicy (start BackendRuntime.sampleConfig)
          (.poll (.ok [connectorRow 0]))).runtime.tables := rfl
  have hopened := opened_free hs hsnapshot hlimit hadmits
  have hnext := step_sound .standard connectorPolicy hon hs
    (.opened 1 (connectorContext "192.0.2.1") 7)
  exact ⟨_, hnext, by rw [hopened]; rfl, by rw [hopened]; rfl, rfl⟩

theorem late_limit_exceeds :
    ¬∀ (config : Config) (events : List NodeEvent), config.node.enforceConnLimit = true →
      ∀ before event after, events = before ++ event :: after →
        (Machine.run (step .standard connectorPolicy) (start config) before).Capped .standard
          connectorPolicy event := by
  intro hclaim
  have hcap := hclaim BackendRuntime.sampleConfig
    (lateLimit ++ [.opened 2 (connectorContext "192.0.2.2") 7]) rfl lateLimit _ [] rfl
  obtain ⟨s, hs, hsessions, hpublished, hrun⟩ := lateLimit_run
  have hadmits := connector_admits hs 1 "192.0.2.2" (by
    intro set
    rw [hsessions]
    exact Or.inl (Nat.zero_lt_one))
  obtain ⟨-, -, hlimit⟩ := connector_tables hs 1
  have hsnapshot : (step .standard connectorPolicy s (.poll (.ok [connectorRow 1]))).published[2]? =
      some (step .standard connectorPolicy s (.poll (.ok [connectorRow 1]))).runtime.tables := by
    rw [← hpublished]
    exact List.getElem?_concat_length
  have hips : (step .standard connectorPolicy s (.poll (.ok [connectorRow 1]))).userIps 7 =
      ["192.0.2.1"] := by
    change ((s.sessions.filter _).map _) = _
    rw [hsessions]
    rfl
  rw [hrun] at hcap
  generalize step .standard connectorPolicy s (.poll (.ok [connectorRow 1])) = s' at *
  have hle := hcap s'.runtime.tables hsnapshot (by rw [hlimit]; decide) (by rw [hips]; decide)
    hadmits
  rw [step, hsnapshot, openSession_userIps hadmits, hips, hlimit] at hle
  have htwo : ["192.0.2.2", "192.0.2.1"].dedup.length ≤ 1 := hle
  exact absurd htwo (by decide)

end Node

end SsrBackend
