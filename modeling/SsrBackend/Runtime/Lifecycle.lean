import SsrBackend.Foundation.Roster
import SsrBackend.Runtime.MainLoop

/-!
The listeners over a whole run of the supervisor's loop, read off its log of spawns
and stops. A port has a place for a TCP and for a UDP listener. The log is the one of
a roster: a listener is spawned where none is at work, so that a rebind comes after
the stop, and only a listener at work is stopped.
-/

namespace SsrBackend

deriving instance DecidableEq for EnforcementConfig
deriving instance DecidableEq for ListenerTask

def ListenerTask.place (task : ListenerTask) : UInt16 × ListenerKind := (task.port, task.kind)

def ListenerAction.note : ListenerAction → Roster.Note ListenerTask
  | spawn task => .start task
  | stop _ task => .finish task

/-- The listeners at work after some actions. -/
def roster (actions : List ListenerAction) : Option (Roster ListenerTask) :=
  Roster.read ListenerTask.place ListenerTask.id (actions.map ListenerAction.note)

/-- The listeners of an entry are in the places of its port. -/
structure ActiveUser.Placed (port : UInt16) (active : ActiveUser) : Prop where
  tcp : ∀ task ∈ active.tcp, task.place = (port, .tcp)
  udp : ∀ task ∈ active.udp, task.place = (port, .udp)

theorem ActiveUser.mem_tasks {active : ActiveUser} {task : ListenerTask} :
    task ∈ active.tasks ↔ task ∈ active.tcp ∨ task ∈ active.udp := by
  rw [tasks, List.mem_append, Option.mem_toList, Option.mem_toList]
  rfl

theorem ActiveUser.Placed.port_eq {port : UInt16} {active : ActiveUser} (h : active.Placed port)
    {task : ListenerTask} (hmem : task ∈ active.tasks) : task.port = port := by
  cases ActiveUser.mem_tasks.mp hmem with
  | inl htcp => exact congrArg Prod.fst (h.tcp task htcp)
  | inr hudp => exact congrArg Prod.fst (h.udp task hudp)

theorem ActiveUser.Placed.nodup {port : UInt16} {active : ActiveUser} (h : active.Placed port) :
    active.tasks.Nodup := by
  rw [tasks, List.nodup_append]
  refine ⟨?_, ?_, ?_⟩
  · cases active.tcp <;> simp
  · cases active.udp <;> simp
  · intro task htcp other hudp heq
    have hplace := h.tcp task (Option.mem_toList.mp htcp)
    rw [heq, h.udp other (Option.mem_toList.mp hudp)] at hplace
    cases congrArg Prod.snd hplace

/-- A profile whose cipher the listener can make. -/
def Profile.Supported (profile : Profile) : Prop :=
  ∃ kind, CipherKind.fromMethod profile.method = .ok kind

theorem Profile.supported_of_new {method protocol obfs : String} {timeout : Nat}
    {profile : Profile} (h : Profile.new method protocol obfs timeout = .ok profile) :
    profile.Supported := by
  simp only [new, bind, Except.bind, pure, Except.pure] at h
  split at h
  · cases h
  · rename_i hsupported
    cases h
    simp only [ensureSupported, bind, Except.bind, pure, Except.pure] at hsupported
    split at hsupported
    · split at hsupported
      · cases hsupported
      · exact ⟨_, ‹_›⟩
    · cases hsupported

namespace BackendRuntime

/-- The log is the one of a roster, and the listeners at work are those of the entries. -/
structure Managed (rt : BackendRuntime) (working : List ListenerTask) : Prop where
  roster_eq : roster rt.actions = some ⟨working, rt.nextTask⟩
  mem_iff : ∀ task, task ∈ working ↔
    ∃ (port : UInt16) (active : ActiveUser), rt.activeUsers[port]? = some active ∧
      task ∈ active.tasks
  placed : ∀ (port : UInt16) (active : ActiveUser), rt.activeUsers[port]? = some active →
    active.Placed port
  supported : ∀ task, .spawn task ∈ rt.actions → task.profile.Supported

variable {rt rt' : BackendRuntime} {working : List ListenerTask}

/-- Only the entries, the counter and the log matter. -/
theorem Managed.of_listeners (h : Managed rt working) (hactive : rt'.activeUsers = rt.activeUsers)
    (hnext : rt'.nextTask = rt.nextTask) (hactions : rt'.actions = rt.actions) :
    Managed rt' working := by
  refine ⟨?_, ?_, ?_, ?_⟩
  · rw [hactions, hnext]
    exact h.roster_eq
  · rw [hactive]
    exact h.mem_iff
  · rw [hactive]
    exact h.placed
  · rw [hactions]
    exact h.supported

/-- A listener at work on a port is one of its entry. -/
theorem Managed.mem_tasks (h : Managed rt working) {port : UInt16} {active : ActiveUser}
    (hentry : rt.activeUsers[port]? = some active) {task : ListenerTask} (hmem : task ∈ working) :
    task ∈ active.tasks ↔ task.port = port := by
  refine ⟨(h.placed port active hentry).port_eq, ?_⟩
  intro hport
  obtain ⟨other, active', hentry', htask⟩ := (h.mem_iff task).mp hmem
  have hother := (h.placed other active' hentry').port_eq htask
  rw [← hother, hport, hentry] at hentry'
  cases hentry'
  exact htask

theorem map_note_stop (active : ActiveUser) (port : UInt16) :
    (active.stop port).map ListenerAction.note = active.tasks.map .finish := by
  rw [ActiveUser.stop, List.map_map]
  rfl

theorem removePort_managed (h : Managed rt working) (port : UInt16) :
    Managed (rt.removePort port) (working.filter fun task => task.port ≠ port) := by
  cases hentry : rt.activeUsers[port]? with
  | none =>
      have hsame : rt.removePort port = rt := removePort_of_none hentry
      have hall : (working.filter fun task => task.port ≠ port) = working := by
        rw [List.filter_eq_self]
        intro task hmem
        obtain ⟨other, active, hentry', htask⟩ := (h.mem_iff task).mp hmem
        have hport := (h.placed other active hentry').port_eq htask
        rw [decide_eq_true_eq]
        intro heq
        rw [← hport, heq, hentry] at hentry'
        cases hentry'
      rw [hsame, hall]
      exact h
  | some active =>
      have hplaced := h.placed port active hentry
      have hmem : ∀ task ∈ active.tasks, task ∈ working := fun task htask =>
        (h.mem_iff task).mpr ⟨port, active, hentry, htask⟩
      have hread := Roster.read_finish h.roster_eq hplaced.nodup hmem
      have hfilter : (working.filter fun task => task ∉ active.tasks) =
          working.filter fun task => task.port ≠ port := by
        apply List.filter_congr
        intro task htask
        rw [decide_eq_decide, not_iff_not]
        exact h.mem_tasks hentry htask
      have hactions : (rt.removePort port).actions = rt.actions ++ active.stop port := by
        rw [removePort, hentry]
      refine ⟨?_, ?_, ?_, ?_⟩
      · rw [roster, hactions, List.map_append, map_note_stop, hread, hfilter, removePort_nextTask]
      · intro task
        rw [List.mem_filter, h.mem_iff, decide_eq_true_eq]
        constructor
        · rintro ⟨⟨other, active', hentry', htask⟩, hport⟩
          refine ⟨other, active', ?_, htask⟩
          rw [removePort_entry, if_neg, hentry']
          intro heq
          exact hport ((h.placed other active' hentry').port_eq htask |>.trans heq.symm)
        · rintro ⟨other, active', hentry', htask⟩
          rw [removePort_entry] at hentry'
          split at hentry'
          · cases hentry'
          · rename_i hne
            refine ⟨⟨other, active', hentry', htask⟩, ?_⟩
            intro hport
            exact hne (hport.symm.trans ((h.placed other active' hentry').port_eq htask))
      · intro other active' hentry'
        rw [removePort_entry] at hentry'
        split at hentry'
        · cases hentry'
        · exact h.placed other active' hentry'
      · intro task hspawn
        rw [hactions] at hspawn
        cases List.mem_append.mp hspawn with
        | inl hold => exact h.supported task hold
        | inr hstop =>
            obtain ⟨_, -, heq⟩ := List.mem_map.mp hstop
            cases heq

/-- One of the two spawns of a row. -/
theorem spawnIf_roster (h : roster rt.actions = some ⟨working, rt.nextTask⟩) (enabled : Bool)
    (kind : ListenerKind) (user : PanelUser) (profile : Profile)
    (hfree : ∀ task ∈ working, task.place ≠ (user.port, kind)) :
    let spawned := rt.spawnIf enabled kind user profile
    roster spawned.2.actions = some ⟨working ++ spawned.1.toList, spawned.2.nextTask⟩ ∧
      ∀ task ∈ spawned.1, task.place = (user.port, kind) ∧ task.profile = profile := by
  cases enabled with
  | false =>
      refine ⟨?_, by rintro task ⟨⟩⟩
      exact h.trans (by simp [spawnIf])
  | true =>
      refine ⟨?_, ?_⟩
      · have hplace : ∀ task : ListenerTask, task.place = (user.port, kind) →
            task.place ∉ working.map ListenerTask.place := by
          intro task htask hmem
          obtain ⟨other, hother, heq⟩ := List.mem_map.mp hmem
          exact hfree other hother (heq.trans htask)
        change roster (rt.actions ++ [.spawn (rt.spawnListener kind user profile).1]) = _
        rw [roster, List.map_append]
        exact Roster.read_start h rfl (hplace _ rfl)
      · intro task hmem
        cases hmem
        exact ⟨rfl, rfl⟩

theorem restart_managed (h : Managed rt working) (user : PanelUser) {profile : Profile}
    (hprofile : profile.Supported) :
    Managed (rt.restart user profile)
      ((working.filter fun task => task.port ≠ user.port) ++
        (rt.restarted user profile).tasks) := by
  have hremoved := removePort_managed h user.port
  have hother : ∀ task ∈ working.filter (fun task => task.port ≠ user.port), ∀ kind,
      task.place ≠ (user.port, kind) := by
    intro task hmem kind heq
    have hport := (List.mem_filter.mp hmem).2
    rw [decide_eq_true_eq] at hport
    exact hport (congrArg Prod.fst heq)
  obtain ⟨htcp, htcps⟩ := spawnIf_roster hremoved.roster_eq
    (rt.removePort user.port).config.node.tcpEnabled .tcp user profile
    fun task hmem => hother task hmem .tcp
  have hfree : ∀ task ∈ working.filter (fun task => task.port ≠ user.port) ++
      ((rt.removePort user.port).spawnIf (rt.removePort user.port).config.node.tcpEnabled .tcp user
        profile).1.toList, task.place ≠ (user.port, .udp) := by
    intro task hmem heq
    cases List.mem_append.mp hmem with
    | inl hold => exact hother task hold .udp heq
    | inr hnew =>
        rw [(htcps task (Option.mem_toList.mp hnew)).1] at heq
        cases congrArg Prod.snd heq
  obtain ⟨hudp, hudps⟩ := spawnIf_roster htcp
    (rt.removePort user.port).config.node.udpEnabled .udp user profile hfree
  have hplaced : (rt.restarted user profile).Placed user.port :=
    ⟨fun task hmem => (htcps task hmem).1, fun task hmem => (hudps task hmem).1⟩
  have hentry : ∀ (port : UInt16) (active : ActiveUser),
      (rt.restart user profile).activeUsers[port]? = some active ↔
        (port = user.port ∧ active = rt.restarted user profile) ∨
        (port ≠ user.port ∧ (rt.removePort user.port).activeUsers[port]? = some active) := by
    intro port active
    rw [restart_entry, removePort_entry]
    by_cases hport : user.port = port
    · simp [hport, eq_comm]
    · simp [hport, Ne.symm hport]
  refine ⟨?_, ?_, ?_, ?_⟩
  · rw [ActiveUser.tasks, ← List.append_assoc]
    exact hudp
  · intro task
    rw [List.mem_append, hremoved.mem_iff]
    constructor
    · rintro (⟨port, active, hold, htask⟩ | htask)
      · refine ⟨port, active, (hentry port active).mpr (Or.inr ⟨?_, hold⟩), htask⟩
        intro heq
        rw [removePort_entry, if_pos heq.symm] at hold
        cases hold
      · exact ⟨user.port, _, (hentry _ _).mpr (Or.inl ⟨rfl, rfl⟩), htask⟩
    · rintro ⟨port, active, hactive, htask⟩
      rcases (hentry port active).mp hactive with ⟨-, rfl⟩ | ⟨-, hold⟩
      · exact Or.inr htask
      · exact Or.inl ⟨port, active, hold, htask⟩
  · intro port active hactive
    rcases (hentry port active).mp hactive with ⟨rfl, rfl⟩ | ⟨-, hold⟩
    · exact hplaced
    · exact hremoved.placed port active hold
  · intro task hspawn
    rw [restart_actions] at hspawn
    cases List.mem_append.mp hspawn with
    | inl hold => exact hremoved.supported task hold
    | inr hnew =>
        obtain ⟨other, hmem, heq⟩ := List.mem_map.mp hnew
        cases heq
        cases ActiveUser.mem_tasks.mp hmem with
        | inl hmem => exact (htcps task hmem).2 ▸ hprofile
        | inr hmem => exact (hudps task hmem).2 ▸ hprofile

theorem ensureListener_managed (h : Managed rt working) (user : PanelUser) :
    ∃ working', Managed (rt.ensureListener user) working' := by
  rw [ensureListener]
  cases hprofile : Profile.fromUser user rt.config.node with
  | error reason => exact ⟨working, h⟩
  | ok profile =>
      dsimp only
      rw [ensureActiveUser_eq]
      split
      · exact ⟨working, h⟩
      · exact ⟨_, restart_managed h user (Profile.supported_of_new hprofile)⟩

/-- A loop over rows or ports keeps the log in order. -/
theorem Managed.foldl {α : Type} {f : BackendRuntime → α → BackendRuntime}
    (hf : ∀ rt x, (∃ working, Managed rt working) → ∃ working, Managed (f rt x) working)
    (xs : List α) (rt : BackendRuntime) (h : ∃ working, Managed rt working) :
    ∃ working, Managed (xs.foldl f rt) working := by
  induction xs generalizing rt with
  | nil => exact h
  | cons x xs ih => exact ih (f rt x) (hf rt x h)

variable (P : Primitives) (fromUser : PanelUser → UserPolicy)

theorem registerUsers_listeners (users : List PanelUser) (acc : BackendRuntime × UserTables) :
    let built := (users.foldl (registerUser P fromUser) acc).1
    built.activeUsers = acc.1.activeUsers ∧ built.nextTask = acc.1.nextTask ∧
      built.actions = acc.1.actions := by
  induction users generalizing acc with
  | nil => exact ⟨rfl, rfl, rfl⟩
  | cons user users ih => exact ih (registerUser P fromUser acc user)

theorem applyUsers_managed (h : Managed rt working) (users : List PanelUser) :
    ∃ working', Managed (applyUsers P fromUser users rt) working' := by
  obtain ⟨hactive, hnext, hactions⟩ := registerUsers_listeners P fromUser users (rt, .empty)
  have hpublished : Managed (publishTables P fromUser users rt) working :=
    h.of_listeners hactive hnext hactions
  have hrows : ∃ working', Managed
      ((listenerUsers users).foldl ensureListener (publishTables P fromUser users rt)) working' := by
    apply Managed.foldl _ _ _ ⟨working, hpublished⟩
    rintro rt user ⟨working, h⟩
    exact ensureListener_managed h user
  rw [applyUsers]
  generalize (listenerUsers users).foldl ensureListener (publishTables P fromUser users rt) =
    ensured at hrows ⊢
  have hports : ∃ working', Managed
      (ensured.removeStalePorts (livePorts ensured.config (listenerUsers users))) working' := by
    apply Managed.foldl _ _ _ hrows
    rintro rt port ⟨working, h⟩
    exact ⟨_, removePort_managed h port⟩
  obtain ⟨working', hworking⟩ := hports
  exact ⟨working', hworking.of_listeners rfl rfl rfl⟩

theorem mem_entries (rt : BackendRuntime) (entry : UInt16 × ActiveUser) :
    entry ∈ rt.activeUsers.toList ↔ rt.activeUsers[entry.1]? = some entry.2 :=
  Std.HashMap.mem_toList_iff_getElem?_eq_some

/-- The listeners of different entries are different ones. -/
theorem Managed.nodup_entries (h : Managed rt working) :
    (rt.activeUsers.toList.flatMap fun entry => entry.2.tasks).Nodup := by
  rw [List.nodup_flatMap]
  refine ⟨?_, ?_⟩
  · intro entry hmem
    exact (h.placed entry.1 entry.2 ((mem_entries rt entry).mp hmem)).nodup
  · refine Std.HashMap.distinct_keys_toList.imp_of_mem ?_
    intro entry other hmem hmem' hne task htask htask'
    have hport := (h.placed _ _ ((mem_entries rt entry).mp hmem)).port_eq htask
    have hport' := (h.placed _ _ ((mem_entries rt other).mp hmem')).port_eq htask'
    rw [hport.symm.trans hport'] at hne
    simp at hne

theorem stopAll_managed (h : Managed rt working) : Managed rt.stopAll [] := by
  have hflat : ∀ task, task ∈ rt.activeUsers.toList.flatMap (fun entry => entry.2.tasks) ↔
      task ∈ working := by
    intro task
    rw [h.mem_iff, List.mem_flatMap]
    constructor
    · rintro ⟨entry, hmem, htask⟩
      exact ⟨entry.1, entry.2, (mem_entries rt entry).mp hmem, htask⟩
    · rintro ⟨port, active, hentry, htask⟩
      exact ⟨(port, active), (mem_entries rt (port, active)).mpr hentry, htask⟩
  have hread := Roster.read_finish h.roster_eq h.nodup_entries fun task htask =>
    (hflat task).mp htask
  have hnone : working.filter (fun task =>
      task ∉ rt.activeUsers.toList.flatMap fun entry => entry.2.tasks) = [] := by
    rw [List.filter_eq_nil_iff]
    intro task hmem hstays
    rw [decide_eq_true_eq] at hstays
    exact hstays ((hflat task).mpr hmem)
  refine ⟨?_, ?_, ?_, ?_⟩
  · rw [hnone] at hread
    rw [roster, stopAll, List.map_append, List.map_flatMap]
    simp only [map_note_stop]
    rw [← List.map_flatMap]
    exact hread
  · intro task
    simp [stopAll]
  · intro port active hentry
    simp [stopAll] at hentry
  · intro task hspawn
    rw [stopAll] at hspawn
    cases List.mem_append.mp hspawn with
    | inl hold => exact h.supported task hold
    | inr hstop =>
        obtain ⟨entry, -, hstop⟩ := List.mem_flatMap.mp hstop
        obtain ⟨_, -, heq⟩ := List.mem_map.mp hstop
        cases heq

end BackendRuntime

/-! ### The whole loop -/

/-- The listeners are left as they are. -/
structure BackendRuntime.SameListeners (rt rt' : BackendRuntime) : Prop where
  activeUsers_eq : rt'.activeUsers = rt.activeUsers
  nextTask_eq : rt'.nextTask = rt.nextTask
  actions_eq : rt'.actions = rt.actions

theorem BackendRuntime.TrafficMoved.sameListeners {rt rt' : BackendRuntime}
    (h : TrafficMoved rt rt') : SameListeners rt rt' := by
  obtain ⟨_, _, _, _, -, rfl⟩ := h
  exact ⟨rfl, rfl, rfl⟩

theorem BackendRuntime.SameListeners.managed {rt rt' : BackendRuntime} (h : SameListeners rt rt')
    {working : List ListenerTask} (hrt : rt.Managed working) : rt'.Managed working :=
  hrt.of_listeners h.activeUsers_eq h.nextTask_eq h.actions_eq

/-- The task has not yet polled, or its first poll has failed. -/
def LoopPhase.spawnless : LoopPhase → Bool
  | ping => true
  | nodeInfo => true
  | probeDetectRules => true
  | relayRules => true
  | firstRules => true
  | firstUsers => true
  | returned (.error _) => true
  | _ => false

theorem MainLoop.Goes.spawnless {before later : LoopPhase} (h : Goes before later)
    (hlater : later.spawnless) : before.spawnless := by
  cases h <;> first | rfl | cases hlater

namespace MainLoop

variable {V : Type} (L : Libraries V)

/-- The listeners at a moment of the loop. -/
structure Tended (s : MainLoop V) : Prop where
  managed : ∃ working, s.runtime.Managed working
  early : s.phase.spawnless → s.runtime.actions = []
  done : s.phase = .returned (.ok ()) → s.runtime.Managed []

theorem synced_managed {rt : BackendRuntime} (h : ∃ working, rt.Managed working)
    (answer : Except String (List PanelUser)) :
    ∃ working, (BackendRuntime.synced L.primitives L.fromUser answer rt).Managed working := by
  obtain ⟨working, h⟩ := h
  rcases BackendRuntime.synced_cases L.primitives L.fromUser answer rt with
    hsame | ⟨users, -, happly⟩
  · rw [hsame]
    exact ⟨working, h⟩
  · rw [happly]
    exact BackendRuntime.applyUsers_managed L.primitives L.fromUser h users

/-- The poll of a listening task, or the first one. -/
theorem poll_tended {s : MainLoop V} (h : s.Tended) {reply : HttpReply V}
    {session alive detect : Nat} (hphase : s.phase = .firstUsers ∨ s.phase = .pollUsers)
    (hsynced : (BackendRuntime.synced L.primitives L.fromUser
      (PanelClient.readUsers L.serde (PanelClient.users s.panel) reply) s.runtime).TrafficMoved
        (step L s (.reply reply session alive detect)).runtime) :
    (step L s (.reply reply session alive detect)).Tended := by
  have hwaits : (s.exchanged reply).request? ≠ none := by
    change s.request? ≠ none
    rw [request?]
    rcases hphase with hphase | hphase <;> rw [hphase] <;> rintro ⟨⟩
  have hgoes := answered_goes L (s.exchanged reply) reply session alive detect hwaits
  change Goes s.phase (step L s (.reply reply session alive detect)).phase at hgoes
  refine ⟨?_, ?_, ?_⟩
  · obtain ⟨working, hworking⟩ := synced_managed L h.managed
      (PanelClient.readUsers L.serde (PanelClient.users s.panel) reply)
    exact ⟨working, hsynced.sameListeners.managed hworking⟩
  · intro hearly
    rcases hphase with hphase | hphase
    · have hfirst : step L s (.reply reply session alive detect) =
          (s.exchanged reply).firstSync L
            (PanelClient.readUsers L.serde (PanelClient.users s.panel) reply) := by
        have hsame : (s.exchanged reply).phase = .firstUsers := hphase
        rw [step, answered, hsame]
        rfl
      rw [hphase] at hgoes
      generalize hlater : (step L s (.reply reply session alive detect)).phase = later
        at hgoes hearly
      cases hgoes with
      | opened => cases hearly
      | stuck => cases hearly
      | failed reason =>
          rw [hfirst] at hlater ⊢
          rw [(firstSync_failed L hlater).1]
          exact h.early (by rw [hphase]; rfl)
    · rw [hphase] at hgoes
      generalize (step L s (.reply reply session alive detect)).phase = later at hgoes hearly
      cases hgoes
      cases hearly
  · intro hdone
    rw [hdone] at hgoes
    exact absurd hgoes Goes.not_returned

theorem step_tended {s : MainLoop V} (h : s.Tended) (event : LoopEvent V) :
    (step L s event).Tended := by
  rcases step_moved L s event with
    ⟨-, hmoved⟩ | ⟨answer, hanswer, hsynced⟩ | ⟨rfl, hphase, heq⟩
  · have hsame := hmoved.sameListeners
    obtain ⟨working, hworking⟩ := h.managed
    have hends := step_phase L s event
    refine ⟨⟨working, hsame.managed hworking⟩, ?_, ?_⟩
    · intro hearly
      rw [hsame.actions_eq]
      rcases hends with hphase | hgoes | ⟨-, -, heq⟩
      · exact h.early (hphase ▸ hearly)
      · exact h.early (hgoes.spawnless hearly)
      · rw [heq] at hearly
        cases hearly
    · intro hdone
      rcases hends with hphase | hgoes | ⟨-, -, heq⟩
      · exact hsame.managed (h.done (hphase.symm.trans hdone))
      · rw [hdone] at hgoes
        exact absurd hgoes Goes.not_returned
      · rw [heq]
        exact BackendRuntime.stopAll_managed hworking
  · obtain ⟨reply, session, alive, detect, rfl, rfl, hphase⟩ := pollAnswer?_eq_some L hanswer
    exact poll_tended L h hphase hsynced
  · rw [heq]
    obtain ⟨working, hworking⟩ := h.managed
    have hstopped := BackendRuntime.stopAll_managed hworking
    exact ⟨⟨[], hstopped⟩, fun hearly => Bool.noConfusion hearly, fun _ => hstopped⟩

theorem start_tended (config : Config) (panel : PanelConfig) :
    (start config panel : MainLoop V).Tended := by
  refine ⟨⟨[], rfl, ?_, ?_, ?_⟩, fun _ => rfl, by rintro ⟨⟩⟩
  · intro task
    simp [start, BackendRuntime.new]
  · intro port active hentry
    simp [start, BackendRuntime.new] at hentry
  · intro task hspawn
    cases hspawn

theorem run_tended (config : Config) (panel : PanelConfig) (events : List (LoopEvent V)) :
    (after L config panel events).Tended := by
  have hstep : ∀ (s : MainLoop V) (event : LoopEvent V), s.Tended → (step L s event).Tended :=
    fun s event h => step_tended L h event
  exact Machine.run_keeps hstep (start_tended config panel) events

/-- The log of every run is the one of a roster in every front part of it, between two stops too;
at the waits of the task for the panel and in its `select!` the listeners at work are those of the
entries, with a profile their cipher can be made of; and none is left when the task returns. -/
theorem listeners_in_order (config : Config) (panel : PanelConfig) (events : List (LoopEvent V)) :
    let s := after L config panel events
    ∃ working, roster s.runtime.actions = some ⟨working, s.runtime.nextTask⟩ ∧
      (∀ task, task ∈ working ↔ ∃ (port : UInt16) (active : ActiveUser),
        s.runtime.activeUsers[port]? = some active ∧ task ∈ active.tasks) ∧
      (∀ before, before <+: s.runtime.actions →
        ∃ r, roster before = some r ∧ (r.working.map ListenerTask.place).Nodup) ∧
      (∀ task, .spawn task ∈ s.runtime.actions →
        (task.profile.cipherKind : Outcome String CipherKind) ≠ .panic) ∧
      (s.phase = .returned (.ok ()) → working = []) ∧
      ∀ reason, s.phase = .returned (.error reason) → s.runtime.actions = [] := by
  have htended := run_tended L config panel events
  obtain ⟨working, hworking⟩ := htended.managed
  intro s
  refine ⟨working, hworking.roster_eq, hworking.mem_iff, ?_, ?_, ?_, ?_⟩
  · intro before hbefore
    obtain ⟨r, hr, horderly⟩ := Roster.read_moment hworking.roster_eq
      (hbefore.map ListenerAction.note)
    exact ⟨r, hr, horderly.places⟩
  · intro task hspawn
    obtain ⟨kind, hkind⟩ := hworking.supported task hspawn
    rw [Profile.cipherKind, hkind]
    rintro ⟨⟩
  · intro hdone
    have hnone := (htended.done hdone).roster_eq
    rw [hworking.roster_eq] at hnone
    cases hnone
    rfl
  · intro reason hfailed
    exact htended.early (by rw [hfailed]; rfl)

end MainLoop

end SsrBackend
