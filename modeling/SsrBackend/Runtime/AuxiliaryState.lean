import SsrBackend.Relay.Audit
import SsrBackend.Runtime.KeyLog
import SsrBackend.Runtime.Tables

/-!
The alive-IP and detect-log reports of `runtime/supervisor.rs`. The two maps are
drained by one function whose second POST comes only after the first one is
acknowledged; a POST without items is not made. Each map is a log of keys, so what
a report holds follows from the laws of such a log.
-/

namespace SsrBackend

open Call

structure AliveIpReport where
  userId : Nat
  ip : String
  deriving DecidableEq, Repr

def AliveIpKey.report (key : AliveIpKey) : AliveIpReport := ⟨key.userId, key.ip⟩

def DetectLogKey.report (key : DetectLogKey) : DetectLogReport := ⟨key.userId, key.listId⟩

/-- A POST that was made, with the panel's answer. -/
inductive AuxiliaryPost where
  | aliveIps (items : List AliveIpReport) (answer : Except String Unit)
  | detectLogs (items : List DetectLogReport) (answer : Except String Unit)

/-- The clock and the walk of an insert. -/
structure Reading (κ ν : Type) where
  now : Nat
  walk : Walk (κ × Entry ν)

namespace BoundedTtlMap

variable {κ : Type} [BEq κ] [Hashable κ] {ν : Type}

def keys (m : BoundedTtlMap κ ν) : List κ := m.map.keys

def values (m : BoundedTtlMap κ ν) : List ν := m.map.toList.map fun item => item.2.value

end BoundedTtlMap

/-- The runtime and the POSTs it has made. -/
structure Reporter where
  runtime : BackendRuntime
  posts : List AuxiliaryPost

namespace BackendRuntime

def recordEvent (rt : BackendRuntime) (event : RelayEvent) (session : Reading SessionKey Unit)
    (alive : Reading AliveIpKey Unit) (detect : Reading DetectLogKey DetectLogReport) :
    BackendRuntime :=
  match event with
  | .connect userId ip peer => { rt with
      sessions := rt.sessions.insert ⟨userId, peer⟩ () session.now session.walk
      aliveIps := rt.aliveIps.insert ⟨userId, ip⟩ () alive.now alive.walk }
  | .detect userId listId ip => { rt with
      detectLogs := rt.detectLogs.insert ⟨userId, listId, ip⟩ ⟨userId, listId⟩ detect.now
        detect.walk }

/-- Each map reads the clock for itself. -/
def expireLocalState (rt : BackendRuntime) (session alive detect : Nat) : BackendRuntime :=
  { rt with
    sessions := rt.sessions.expire session
    aliveIps := rt.aliveIps.expire alive
    detectLogs := rt.detectLogs.expire detect }

end BackendRuntime

namespace Reporter

/-- `post_ack`. -/
def postAck (post : AuxiliaryPost) (answer : Except String Unit) : Call String Reporter Unit := do
  modify fun s => { s with posts := s.posts ++ [post] }
  match answer with
  | .ok _ => pure ()
  | .error reason => bail reason

def reportAliveIps (items : List AliveIpReport) (answer : Except String Unit) :
    Call String Reporter Unit :=
  if items = [] then pure () else postAck (.aliveIps items answer) answer

def reportDetectLogs (items : List DetectLogReport) (answer : Except String Unit) :
    Call String Reporter Unit :=
  if items = [] then pure () else postAck (.detectLogs items answer) answer

def clearAliveIps (s : Reporter) : Reporter :=
  { s with runtime := { s.runtime with aliveIps := s.runtime.aliveIps.retain fun _ _ => false } }

def clearDetectLogs (s : Reporter) : Reporter :=
  { s with runtime := { s.runtime with
      detectLogs := s.runtime.detectLogs.retain fun _ _ => false } }

/-- The part of `report_auxiliary_state` after the alive-IP report. -/
def drainDetectLogs (detect : Except String Unit) : Call String Reporter Unit := do
  let s ← get
  let detectLogs := s.runtime.detectLogs.values
  if detectLogs = [] then
    return ()
  else
    reportDetectLogs detectLogs detect
    modify clearDetectLogs

def reportAuxiliaryState (alive detect : Except String Unit) : Call String Reporter Unit := do
  let s ← get
  reportAliveIps (s.runtime.aliveIps.keys.map AliveIpKey.report) alive
  modify clearAliveIps
  drainDetectLogs detect

end Reporter

/-- The steps of the supervisor's loop that the two maps see. -/
inductive AuxiliaryEvent where
  | record (event : RelayEvent) (session : Reading SessionKey Unit)
      (alive : Reading AliveIpKey Unit) (detect : Reading DetectLogKey DetectLogReport)
  | expire (session alive detect : Nat)
  | sync (answer : Except String (List PanelUser))
  | report (alive detect : Except String Unit)

namespace Reporter

variable (P : Primitives) (fromUser : PanelUser → UserPolicy)

def start (config : Config) : Reporter := ⟨.new config, []⟩

def step (s : Reporter) : AuxiliaryEvent → Reporter
  | .record event session alive detect =>
      { s with runtime := s.runtime.recordEvent event session alive detect }
  | .expire session alive detect =>
      { s with runtime := s.runtime.expireLocalState session alive detect }
  | .sync answer => { s with runtime := BackendRuntime.synced P fromUser answer s.runtime }
  | .report alive detect => ((reportAuxiliaryState alive detect).run s).2

/-- What a poll does to a map whose keys name a user. -/
def syncOp {κ ν : Type} (s : Reporter) (user : κ → Nat) :
    Except String (List PanelUser) → LogOp κ ν
  | .ok users =>
      if s.runtime.config.limits.maxUsers < users.length then .idle
      else .retain fun key => BackendRuntime.isLive users (user key)
  | .error _ => .idle

/-- A report that has nothing to send goes through. -/
def AliveAcked (s : Reporter) (alive : Except String Unit) : Prop :=
  s.runtime.aliveIps.keys = [] ∨ alive.isOk

instance (s : Reporter) (alive : Except String Unit) : Decidable (s.AliveAcked alive) :=
  inferInstanceAs (Decidable (_ ∨ _))

/-- What an event does to the alive IPs. -/
def aliveOp (s : Reporter) : AuxiliaryEvent → LogOp AliveIpKey Unit
  | .record (.connect userId ip _) _ alive _ => .record ⟨userId, ip⟩ () alive.now alive.walk
  | .record (.detect _ _ _) _ _ _ => .idle
  | .expire _ alive _ => .expire alive
  | .sync answer => s.syncOp AliveIpKey.userId answer
  | .report alive _ => if s.AliveAcked alive then .clear else .idle

/-- What an event does to the detect logs. -/
def detectOp (s : Reporter) : AuxiliaryEvent → LogOp DetectLogKey DetectLogReport
  | .record (.connect _ _ _) _ _ _ => .idle
  | .record (.detect userId listId ip) _ _ detect =>
      .record ⟨userId, listId, ip⟩ ⟨userId, listId⟩ detect.now detect.walk
  | .expire _ _ detect => .expire detect
  | .sync answer => s.syncOp DetectLogKey.userId answer
  | .report alive detect =>
      if s.AliveAcked alive ∧ s.runtime.detectLogs.values ≠ [] ∧ detect.isOk then .clear else .idle

/-- The POSTs of a report. -/
def newPosts (s : Reporter) (alive detect : Except String Unit) : List AuxiliaryPost :=
  (if s.runtime.aliveIps.keys = [] then []
    else [.aliveIps (s.runtime.aliveIps.keys.map AliveIpKey.report) alive]) ++
  if s.AliveAcked alive ∧ s.runtime.detectLogs.values ≠ [] then
    [.detectLogs s.runtime.detectLogs.values detect]
  else []

theorem drainDetectLogs_run (detect : Except String Unit) (s : Reporter) :
    ((drainDetectLogs detect).run s).2 =
      if s.runtime.detectLogs.values = [] then s
      else
        let sent := { s with posts := s.posts ++ [.detectLogs s.runtime.detectLogs.values detect] }
        if detect.isOk then clearDetectLogs sent else sent := by
  rw [drainDetectLogs, run_get_bind]
  dsimp only
  by_cases hnone : s.runtime.detectLogs.values = []
  · rw [if_pos hnone, if_pos hnone]
    rfl
  · rw [if_neg hnone, if_neg hnone, reportDetectLogs, if_neg hnone]
    cases detect with
    | ok _ => rfl
    | error reason => rfl

/-- The detect logs after an acknowledged alive-IP report. -/
theorem drainDetectLogs_acked {s : Reporter} {alive : Except String Unit}
    (hacked : s.AliveAcked alive) (detect : Except String Unit) (posts : List AuxiliaryPost) :
    ((drainDetectLogs detect).run (clearAliveIps { s with posts := posts })).2 =
      ⟨{ s.runtime with
          aliveIps := s.runtime.aliveIps.apply .clear
          detectLogs := s.runtime.detectLogs.apply (s.detectOp (.report alive detect)) },
        posts ++ if s.AliveAcked alive ∧ s.runtime.detectLogs.values ≠ [] then
          [.detectLogs s.runtime.detectLogs.values detect] else []⟩ := by
  rw [drainDetectLogs_run]
  change (if s.runtime.detectLogs.values = [] then _ else _) = _
  by_cases hnone : s.runtime.detectLogs.values = []
  · have hop : s.detectOp (.report alive detect) = .idle := if_neg fun h => h.2.1 hnone
    rw [if_pos hnone, hop, if_neg fun h => h.2 hnone, List.append_nil]
    rfl
  · rw [if_neg hnone, if_pos (⟨hacked, hnone⟩ : s.AliveAcked alive ∧ _)]
    cases detect with
    | ok _ =>
        have hop : s.detectOp (.report alive (.ok ())) = .clear := if_pos ⟨hacked, hnone, rfl⟩
        rw [hop]
        rfl
    | error reason =>
        have hop : s.detectOp (.report alive (.error reason)) = .idle :=
          if_neg fun h => Bool.noConfusion h.2.2
        rw [hop]
        rfl

/-- A report: the POSTs it makes, and what is left in the two maps. -/
theorem report_run (s : Reporter) (alive detect : Except String Unit) :
    ((reportAuxiliaryState alive detect).run s).2 =
      ⟨{ s.runtime with
          aliveIps := s.runtime.aliveIps.apply (s.aliveOp (.report alive detect))
          detectLogs := s.runtime.detectLogs.apply (s.detectOp (.report alive detect)) },
        s.posts ++ s.newPosts alive detect⟩ := by
  rw [reportAuxiliaryState, run_get_bind, run_bind, reportAliveIps, newPosts, aliveOp]
  by_cases hkeys : s.runtime.aliveIps.keys = []
  · have hacked : s.AliveAcked alive := Or.inl hkeys
    rw [if_pos (by rw [hkeys, List.map_nil]), if_pos hacked, if_pos hkeys, List.nil_append]
    exact drainDetectLogs_acked hacked detect s.posts
  · rw [if_neg (by rw [List.map_eq_nil_iff]; exact hkeys), if_neg hkeys]
    cases alive with
    | ok _ =>
        have hacked : s.AliveAcked (.ok ()) := Or.inr rfl
        rw [if_pos hacked, ← List.append_assoc]
        exact drainDetectLogs_acked hacked detect _
    | error reason =>
        have hfailed : ¬s.AliveAcked (.error reason) := by
          rintro (hnone | hok)
          · exact hkeys hnone
          · cases hok
        rw [if_neg hfailed, if_neg fun h => hfailed h.1, List.append_nil, detectOp,
          if_neg fun h => hfailed h.1]
        rfl

end Reporter

/-! ### The polls -/

namespace BackendRuntime

/-- The maps of the reports are left as they are. -/
structure SameMaps (rt rt' : BackendRuntime) : Prop where
  aliveIps_eq : rt'.aliveIps = rt.aliveIps
  detectLogs_eq : rt'.detectLogs = rt.detectLogs

theorem SameMaps.trans {rt rt' rt'' : BackendRuntime} (h : SameMaps rt rt')
    (h' : SameMaps rt' rt'') : SameMaps rt rt'' where
  aliveIps_eq := h'.aliveIps_eq.trans h.aliveIps_eq
  detectLogs_eq := h'.detectLogs_eq.trans h.detectLogs_eq

variable (P : Primitives) (fromUser : PanelUser → UserPolicy)

theorem registerUsers_sameMaps (users : List PanelUser) (acc : BackendRuntime × UserTables) :
    SameMaps acc.1 (users.foldl (registerUser P fromUser) acc).1 := by
  induction users generalizing acc with
  | nil => exact ⟨rfl, rfl⟩
  | cons user users ih =>
      have hfirst : SameMaps acc.1 (registerUser P fromUser acc user).1 := ⟨rfl, rfl⟩
      exact hfirst.trans (ih (registerUser P fromUser acc user))

/-- A poll keeps the keys of the listed users. -/
theorem applyUsers_maps (users : List PanelUser) (rt : BackendRuntime) :
    (applyUsers P fromUser users rt).aliveIps =
        rt.aliveIps.retain (fun key _ => isLive users key.userId) ∧
      (applyUsers P fromUser users rt).detectLogs =
        rt.detectLogs.retain fun key _ => isLive users key.userId := by
  have hpublish : SameMaps rt (publishTables P fromUser users rt) := by
    have h := registerUsers_sameMaps P fromUser users (rt, .empty)
    exact ⟨h.aliveIps_eq, h.detectLogs_eq⟩
  obtain ⟨_, _, _, heq⟩ := applyUsers_moved P fromUser users rt
  rw [heq]
  refine ⟨?_, ?_⟩
  · rw [← hpublish.aliveIps_eq]
    rfl
  · rw [← hpublish.detectLogs_eq]
    rfl

end BackendRuntime

namespace Reporter

variable (P : Primitives) (fromUser : PanelUser → UserPolicy)

theorem synced_maps (s : Reporter) (answer : Except String (List PanelUser)) :
    (BackendRuntime.synced P fromUser answer s.runtime).aliveIps =
        s.runtime.aliveIps.apply (s.syncOp AliveIpKey.userId answer) ∧
      (BackendRuntime.synced P fromUser answer s.runtime).detectLogs =
        s.runtime.detectLogs.apply (s.syncOp DetectLogKey.userId answer) := by
  cases answer with
  | error reason => exact ⟨rfl, rfl⟩
  | ok users =>
      rw [BackendRuntime.synced, BackendRuntime.syncUsers_ok, syncOp, syncOp]
      by_cases hmax : s.runtime.config.limits.maxUsers < users.length
      · rw [if_pos hmax, if_pos hmax, if_pos hmax]
        exact ⟨rfl, rfl⟩
      · rw [if_neg hmax, if_neg hmax, if_neg hmax]
        exact BackendRuntime.applyUsers_maps P fromUser users s.runtime

theorem alive_follows : KeyLog.Follows (step P fromUser) (·.runtime.aliveIps) aliveOp := by
  intro s event
  cases event with
  | record event session alive detect =>
      cases event with
      | connect userId ip peer => rfl
      | detect userId listId ip => rfl
  | expire session alive detect => rfl
  | sync answer => exact (synced_maps P fromUser s answer).1
  | report alive detect =>
      dsimp only [step]
      rw [report_run]

theorem detect_follows : KeyLog.Follows (step P fromUser) (·.runtime.detectLogs) detectOp := by
  intro s event
  cases event with
  | record event session alive detect =>
      cases event with
      | connect userId ip peer => rfl
      | detect userId listId ip => rfl
  | expire session alive detect => rfl
  | sync answer => exact (synced_maps P fromUser s answer).2
  | report alive detect =>
      dsimp only [step]
      rw [report_run]

/-- The item of a key is the one it was recorded with. -/
def Labelled (s : Reporter) : Prop :=
  ∀ key value, s.runtime.detectLogs.value? key = some value → value = key.report

theorem syncOp_ne_record {κ ν : Type} (s : Reporter) (user : κ → Nat)
    (answer : Except String (List PanelUser)) (key : κ) (value : ν) (now : Nat)
    (walk : Walk (κ × Entry ν)) : s.syncOp user answer ≠ .record key value now walk := by
  cases answer with
  | error reason => nofun
  | ok users =>
      rw [syncOp]
      split
      · nofun
      · nofun

/-- Only a connect event records an alive IP. -/
theorem aliveOp_record {s : Reporter} {event : AuxiliaryEvent} {key : AliveIpKey} {value : Unit}
    {now : Nat} {walk : Walk (AliveIpKey × Entry Unit)}
    (h : s.aliveOp event = .record key value now walk) :
    ∃ peer session alive detect,
      event = .record (.connect key.userId key.ip peer) session alive detect := by
  cases event with
  | record event session alive detect =>
      cases event with
      | connect userId ip peer =>
          cases h
          exact ⟨peer, session, alive, detect, rfl⟩
      | detect userId listId ip => cases h
  | expire session alive detect => cases h
  | sync answer => exact absurd h (syncOp_ne_record s _ answer key value now walk)
  | report alive detect =>
      rw [aliveOp] at h
      split at h
      · cases h
      · cases h

/-- Only a detect event records a detect log, with the item of its key. -/
theorem detectOp_record {s : Reporter} {event : AuxiliaryEvent} {key : DetectLogKey}
    {value : DetectLogReport} {now : Nat} {walk : Walk (DetectLogKey × Entry DetectLogReport)}
    (h : s.detectOp event = .record key value now walk) :
    value = key.report ∧ ∃ session alive detect,
      event = .record (.detect key.userId key.listId key.ip) session alive detect := by
  cases event with
  | record event session alive detect =>
      cases event with
      | connect userId ip peer => cases h
      | detect userId listId ip =>
          cases h
          exact ⟨rfl, session, alive, detect, rfl⟩
  | expire session alive detect => cases h
  | sync answer => exact absurd h (syncOp_ne_record s _ answer key value now walk)
  | report alive detect =>
      rw [detectOp] at h
      split at h
      · cases h
      · cases h

theorem step_labelled {s : Reporter} (h : s.Labelled) (event : AuxiliaryEvent) :
    (step P fromUser s event).Labelled := by
  intro key value hvalue
  have hfollows := detect_follows P fromUser s event
  dsimp only at hfollows
  rw [hfollows] at hvalue
  rcases BoundedTtlMap.value?_apply hvalue with hold | ⟨now, walk, hrecord⟩
  · exact h key value hold
  · exact (detectOp_record hrecord).1

theorem run_labelled (config : Config) (events : List AuxiliaryEvent) :
    (Machine.run (step P fromUser) (start config) events).Labelled := by
  have hstep : ∀ (s : Reporter) (event : AuxiliaryEvent), s.Labelled →
      (step P fromUser s event).Labelled := by
    intro s event h
    exact step_labelled P fromUser h event
  apply Machine.run_keeps hstep
  intro key value hvalue
  rw [BoundedTtlMap.value?] at hvalue
  exact absurd (hvalue.symm.trans (congrArg _ Std.HashMap.getElem?_empty)) (by rintro ⟨⟩)

theorem Labelled.values_eq {s : Reporter} (h : s.Labelled) :
    s.runtime.detectLogs.values = s.runtime.detectLogs.keys.map DetectLogKey.report := by
  rw [BoundedTtlMap.values, BoundedTtlMap.keys, ← Std.HashMap.map_fst_toList_eq_keys, List.map_map]
  apply List.map_congr_left
  intro item hmem
  apply h item.1
  rw [BoundedTtlMap.value?, Std.HashMap.mem_toList_iff_getElem?_eq_some.mp hmem]
  rfl

theorem mem_newPosts_alive {s : Reporter} {alive detect answer : Except String Unit}
    {items : List AliveIpReport} (h : .aliveIps items answer ∈ s.newPosts alive detect) :
    s.runtime.aliveIps.keys ≠ [] ∧ answer = alive ∧
      items = s.runtime.aliveIps.keys.map AliveIpKey.report := by
  rw [newPosts] at h
  cases List.mem_append.mp h with
  | inl h =>
      split at h
      · cases h
      · rename_i hkeys
        cases List.mem_singleton.mp h
        exact ⟨hkeys, rfl, rfl⟩
  | inr h =>
      split at h
      · cases List.mem_singleton.mp h
      · cases h

theorem mem_newPosts_detect {s : Reporter} {alive detect answer : Except String Unit}
    {items : List DetectLogReport} (h : .detectLogs items answer ∈ s.newPosts alive detect) :
    s.AliveAcked alive ∧ s.runtime.detectLogs.values ≠ [] ∧ answer = detect ∧
      items = s.runtime.detectLogs.values := by
  rw [newPosts] at h
  cases List.mem_append.mp h with
  | inl h =>
      split at h
      · cases h
      · cases List.mem_singleton.mp h
  | inr h =>
      split at h
      · rename_i hsent
        cases List.mem_singleton.mp h
        exact ⟨hsent.1, hsent.2, rfl, rfl⟩
      · cases h

/-- The keys since the last acknowledged alive-IP report. -/
def AliveSince (config : Config) (events : List AuxiliaryEvent) (key : AliveIpKey) : Prop :=
  KeyLog.Outstanding (step P fromUser) (·.runtime.aliveIps) aliveOp (start config) events key

/-- The keys since the last acknowledged detect-log report. -/
def DetectedSince (config : Config) (events : List AuxiliaryEvent) (key : DetectLogKey) : Prop :=
  KeyLog.Outstanding (step P fromUser) (·.runtime.detectLogs) detectOp (start config) events key

variable {P fromUser}

/-- An acknowledged alive-IP POST starts the keys anew. -/
theorem AliveSince.recorded {config : Config} {before after : List AuxiliaryEvent}
    {alive detect : Except String Unit} {items : List AliveIpReport}
    (hpost : .aliveIps items (.ok ()) ∈
      (Machine.run (step P fromUser) (start config) before).newPosts alive detect)
    {key : AliveIpKey}
    (hsince : AliveSince P fromUser config (before ++ .report alive detect :: after) key) :
    ∃ peer session reading reading',
      .record (.connect key.userId key.ip peer) session reading reading' ∈ after := by
  obtain ⟨-, hanswer, -⟩ := mem_newPosts_alive hpost
  have hclear : aliveOp (Machine.run (step P fromUser) (start config) before)
      (.report alive detect) = .clear := if_pos (Or.inr (by rw [← hanswer]; rfl))
  obtain ⟨mid, next, rest, rfl, value, now, walk, hrecord⟩ := hsince.since hclear
  obtain ⟨peer, session, reading, reading', rfl⟩ := aliveOp_record hrecord
  exact ⟨peer, session, reading, reading', List.mem_append_right _ (List.mem_cons_self ..)⟩

theorem DetectedSince.recorded {config : Config} {before after : List AuxiliaryEvent}
    {alive detect : Except String Unit} {items : List DetectLogReport}
    (hpost : .detectLogs items (.ok ()) ∈
      (Machine.run (step P fromUser) (start config) before).newPosts alive detect)
    {key : DetectLogKey}
    (hsince : DetectedSince P fromUser config (before ++ .report alive detect :: after) key) :
    ∃ session reading reading',
      .record (.detect key.userId key.listId key.ip) session reading reading' ∈ after := by
  obtain ⟨hacked, hvalues, hanswer, -⟩ := mem_newPosts_detect hpost
  have hclear : detectOp (Machine.run (step P fromUser) (start config) before)
      (.report alive detect) = .clear := if_pos ⟨hacked, hvalues, by rw [← hanswer]; rfl⟩
  obtain ⟨mid, next, rest, rfl, value, now, walk, hrecord⟩ := hsince.since hclear
  obtain ⟨-, session, reading, reading', rfl⟩ := detectOp_record hrecord
  exact ⟨session, reading, reading', List.mem_append_right _ (List.mem_cons_self ..)⟩

variable (P fromUser)

/-- What a report does after any run, and what its acknowledged POSTs hold. -/
theorem auxiliary_reports (config : Config) (events : List AuxiliaryEvent)
    (alive detect : Except String Unit) :
    let s := Machine.run (step P fromUser) (start config) events
    let s' := step P fromUser s (.report alive detect)
    s'.posts = s.posts ++ s.newPosts alive detect ∧
    (∀ items reason, .aliveIps items (.error reason) ∈ s.newPosts alive detect →
      s'.runtime.aliveIps = s.runtime.aliveIps ∧ s'.runtime.detectLogs = s.runtime.detectLogs) ∧
    (∀ items reason, .detectLogs items (.error reason) ∈ s.newPosts alive detect →
      s'.runtime.detectLogs = s.runtime.detectLogs) ∧
    (∀ items, .aliveIps items (.ok ()) ∈ s.newPosts alive detect →
      ∃ keys : List AliveIpKey, keys.Nodup ∧ items = keys.map AliveIpKey.report ∧
        ∀ key, key ∈ keys ↔ AliveSince P fromUser config events key) ∧
    (∀ items, .detectLogs items (.ok ()) ∈ s.newPosts alive detect →
      ∃ keys : List DetectLogKey, keys.Nodup ∧ items = keys.map DetectLogKey.report ∧
        ∀ key, key ∈ keys ↔ DetectedSince P fromUser config events key) ∧
    ∀ before alive' detect' after, events = before ++ .report alive' detect' :: after →
      let earlier := Machine.run (step P fromUser) (start config) before
      ((∃ items, .aliveIps items (.ok ()) ∈ earlier.newPosts alive' detect') →
        ∀ key, AliveSince P fromUser config events key →
          ∃ peer session reading reading',
            .record (.connect key.userId key.ip peer) session reading reading' ∈ after) ∧
      ((∃ items, .detectLogs items (.ok ()) ∈ earlier.newPosts alive' detect') →
        ∀ key, DetectedSince P fromUser config events key →
          ∃ session reading reading',
            .record (.detect key.userId key.listId key.ip) session reading reading' ∈ after) := by
  have hlabelled := run_labelled P fromUser config events
  have halive := KeyLog.mem_run_iff (alive_follows P fromUser)
    (rfl : (start config).runtime.aliveIps = _) events
  have hdetect := KeyLog.mem_run_iff (detect_follows P fromUser)
    (rfl : (start config).runtime.detectLogs = _) events
  dsimp only at halive hdetect ⊢
  generalize Machine.run (step P fromUser) (start config) events = s at hlabelled halive hdetect ⊢
  rw [step, report_run]
  refine ⟨rfl, ?_, ?_, ?_, ?_, ?_⟩
  · intro items reason hpost
    obtain ⟨hkeys, hanswer, -⟩ := mem_newPosts_alive hpost
    have hfailed : ¬s.AliveAcked alive := by
      rw [← hanswer]
      exact fun hacked => hacked.elim hkeys nofun
    have halive : s.aliveOp (.report alive detect) = .idle := if_neg hfailed
    have hdetect : s.detectOp (.report alive detect) = .idle := if_neg fun h => hfailed h.1
    rw [halive, hdetect]
    exact ⟨rfl, rfl⟩
  · intro items reason hpost
    obtain ⟨-, -, hanswer, -⟩ := mem_newPosts_detect hpost
    have hdetect : s.detectOp (.report alive detect) = .idle := by
      rw [← hanswer]
      exact if_neg fun h => Bool.noConfusion h.2.2
    rw [hdetect]
    rfl
  · intro items hpost
    obtain ⟨-, -, hitems⟩ := mem_newPosts_alive hpost
    refine ⟨s.runtime.aliveIps.keys, Std.HashMap.nodup_keys, hitems, ?_⟩
    intro key
    exact Std.HashMap.mem_keys.trans (halive key)
  · intro items hpost
    obtain ⟨-, -, -, hitems⟩ := mem_newPosts_detect hpost
    refine ⟨s.runtime.detectLogs.keys, Std.HashMap.nodup_keys, hitems.trans hlabelled.values_eq, ?_⟩
    intro key
    exact Std.HashMap.mem_keys.trans (hdetect key)
  · rintro before alive' detect' after rfl
    refine ⟨?_, ?_⟩
    · rintro ⟨items, hpost⟩ key hsince
      exact hsince.recorded hpost
    · rintro ⟨items, hpost⟩ key hsince
      exact hsince.recorded hpost

end Reporter

end SsrBackend
