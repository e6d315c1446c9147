import SsrBackend.Foundation.Interleaving
import SsrBackend.Relay.Connection

/-!
The TCP listener of a port: `run_listener` of `tcp.rs` and the sessions it spawns,
as one machine. An accepted connection takes a permit and a snapshot of the tables
and runs in a task of its own, which gives the permit back when it ends; the end of
the listener does not end the tasks. Each session is one run of `handle_stream`, on
its own events and on the tables of its accept.
-/

namespace SsrBackend

open Interleaving

/-- The arguments of `run_listener` that a session is made with. -/
structure TcpConfig where
  userId : Nat
  password : String
  enforcement : EnforcementConfig
  isMultiUser : Int
  maxAccepts : Nat
  cipherKind : CipherKind

/-- The context of an accepted connection. -/
def TcpConfig.context (cfg : TcpConfig) (tables : UserTables) (peerIp peer : String) :
    StreamContext :=
  ⟨cfg.password, cfg.userId, tables, cfg.enforcement, cfg.isMultiUser, cfg.cipherKind, peerIp, peer⟩

/-- The task of a session: not polled yet, in `handle_stream`, or at its end. -/
inductive SessionTask where
  | spawned
  | live (connection : Connection)
  | ended

structure TcpSession where
  ctx : StreamContext
  task : SessionTask

/-- The first poll of a task, what its connection waits for, and its return. -/
inductive TaskEvent where
  | opened (getrandom : GetRandom)
  | stream (event : StreamEvent)
  | finish

def TaskEvent.stream? : TaskEvent → Option StreamEvent
  | stream event => some event
  | _ => none

namespace TcpSession

def step (P : Primitives) (s : TcpSession) (event : TaskEvent) : TcpSession :=
  match s.task, event with
  | .spawned, .opened getrandom =>
      match ServerSession.new P s.ctx.password s.ctx.tables.authUsers s.ctx.isMultiUser
          s.ctx.cipherKind getrandom with
      | .ok session => { s with task := .live (Connection.start session) }
      | _ => { s with task := .ended }
  | .live c, .stream event => { s with task := .live (Connection.step P s.ctx c event) }
  | .live ⟨.closed _, _⟩, .finish => { s with task := .ended }
  | _, _ => s

/-- The task still has its permit. -/
def holds (s : TcpSession) : Bool :=
  match s.task with
  | .ended => false
  | _ => true

theorem step_ctx (P : Primitives) (s : TcpSession) (event : TaskEvent) :
    (s.step P event).ctx = s.ctx := by
  unfold step
  split
  · split
    · rfl
    · rfl
  · rfl
  · rfl
  · rfl

end TcpSession

structure TcpListener where
  tables : UserTables
  permits : Nat
  sessions : List TcpSession
  refused : List String
  stopped : Bool

/-- What the socket, the supervisor and the sessions' own sockets deliver. -/
inductive TcpEvent where
  | republish (tables : UserTables)
  | accept (peerIp peer : String)
  | acceptFailed (reason : String)
  | task (i : Nat) (event : TaskEvent)
  | stop

namespace TcpListener

variable (P : Primitives) (cfg : TcpConfig)

def step (l : TcpListener) : TcpEvent → TcpListener
  | .republish tables => { l with tables := tables }
  | .accept peerIp peer =>
      if l.stopped then l
      else
        match l.permits with
        | 0 => { l with refused := l.refused ++ [peer] }
        | permits + 1 => { l with
            permits := permits
            sessions := l.sessions ++ [⟨cfg.context l.tables peerIp peer, .spawned⟩] }
  | .acceptFailed _ => { l with stopped := true }
  | .task i event =>
      match l.sessions[i]? with
      | none => l
      | some session =>
          let released := session.holds && !(session.step P event).holds
          { l with
            sessions := l.sessions.modify i fun session => session.step P event
            permits := if released then l.permits + 1 else l.permits }
  | .stop => { l with stopped := true }

/-- The listener once its bind has returned; a failed bind ends it. -/
def start (tables : UserTables) (bind : Except String Unit) : TcpListener where
  tables := tables
  permits := max cfg.maxAccepts 1
  sessions := []
  refused := []
  stopped := match bind with
    | .ok () => false
    | .error _ => true

variable {P cfg}

/-! ### The permits -/

/-- The sessions that hold a permit. -/
def holding (l : TcpListener) : Nat := l.sessions.countP TcpSession.holds

theorem step_permits (l : TcpListener) (event : TcpEvent) :
    (step P cfg l event).permits + (step P cfg l event).holding = l.permits + l.holding := by
  cases event with
  | republish tables => rfl
  | acceptFailed reason => rfl
  | stop => rfl
  | accept peerIp peer =>
      rw [step]
      cases l.stopped with
      | true => rfl
      | false =>
          obtain ⟨tables, permits, sessions, refused, stopped⟩ := l
          cases permits with
          | zero => rfl
          | succ permits =>
              have hone : (sessions ++ [TcpSession.mk (cfg.context tables peerIp peer)
                  .spawned]).countP TcpSession.holds = sessions.countP TcpSession.holds + 1 := by
                rw [List.countP_append]
                rfl
              simp only [Bool.false_eq_true, if_false, holding, hone]
              omega
  | task i event =>
      rw [step]
      cases hsession : l.sessions[i]? with
      | none => rfl
      | some session =>
          have hcount := countP_modify hsession (fun session => session.step P event)
            TcpSession.holds
          -- a task that has ended stays so
          have hended : session.holds = false → (session.step P event).holds = false := by
            intro hnot
            obtain ⟨ctx, task⟩ := session
            cases task with
            | spawned => cases hnot
            | live c => cases hnot
            | ended => rfl
          simp only [holding]
          cases hbefore : session.holds with
          | false =>
              rw [hbefore, hended hbefore] at hcount
              simp only [hended hbefore, Bool.false_and, Bool.false_eq_true, if_false] at hcount ⊢
              omega
          | true =>
              rw [hbefore] at hcount
              cases hafter : (session.step P event).holds with
              | false =>
                  rw [hafter] at hcount
                  simp only [Bool.not_false, Bool.and_self, Bool.false_eq_true, if_false,
                    if_true] at hcount ⊢
                  omega
              | true =>
                  rw [hafter] at hcount
                  simp only [Bool.not_true, Bool.and_false, Bool.false_eq_true, if_false,
                    if_true] at hcount ⊢
                  omega

/-- The permits of a run are never lost nor made: with the sessions that hold one they are the
limit, which is at least one, and a connection is turned away exactly when that many sessions
are there. -/
theorem sessions_bounded (P : Primitives) (cfg : TcpConfig) (tables : UserTables)
    (bind : Except String Unit) (events : List TcpEvent) :
    let l := Machine.run (step P cfg) (start cfg tables bind) events
    l.permits + l.holding = max cfg.maxAccepts 1 ∧ l.holding ≤ max cfg.maxAccepts 1 ∧
    ∀ peerIp peer, l.stopped = false →
      ((step P cfg l (.accept peerIp peer)).refused = l.refused ++ [peer] ↔
        l.holding = max cfg.maxAccepts 1) ∧
      ((step P cfg l (.accept peerIp peer)).sessions.length = l.sessions.length + 1 ↔
        l.holding < max cfg.maxAccepts 1) := by
  intro l
  have hstep : ∀ l event, l.permits + l.holding = max cfg.maxAccepts 1 →
      (step P cfg l event).permits + (step P cfg l event).holding = max cfg.maxAccepts 1 := by
    intro l event h
    rw [step_permits, h]
  have hkept : l.permits + l.holding = max cfg.maxAccepts 1 :=
    Machine.run_keeps hstep (Nat.add_zero _) events
  refine ⟨hkept, by omega, ?_⟩
  intro peerIp peer hrunning
  generalize l = l' at hkept hrunning ⊢
  obtain ⟨tables', permits, sessions, refused, stopped⟩ := l'
  dsimp only at hrunning
  subst hrunning
  simp only [step, Bool.false_eq_true, if_false]
  cases permits with
  | zero =>
      dsimp only at hkept ⊢
      refine ⟨⟨fun _ => by omega, fun _ => rfl⟩, ⟨fun h => by omega, fun h => by omega⟩⟩
  | succ permits =>
      dsimp only at hkept ⊢
      refine ⟨⟨?_, fun h => by omega⟩, ⟨fun _ => by omega, fun _ => List.length_append⟩⟩
      intro hsame
      have hlength := congrArg List.length hsame
      rw [List.length_append] at hlength
      exact absurd hlength (by simp)

/-! ### The sessions -/

/-- What an event does to the sessions. -/
def move? (cfg : TcpConfig) (l : TcpListener) : TcpEvent → Option (Move TcpSession TaskEvent)
  | .accept peerIp peer =>
      if l.stopped ∨ l.permits = 0 then none
      else some (.join ⟨cfg.context l.tables peerIp peer, .spawned⟩)
  | .task i event => some (.tick i event)
  | _ => none

def moves (P : Primitives) (cfg : TcpConfig) (l : TcpListener) :
    List TcpEvent → List (Move TcpSession TaskEvent)
  | [] => []
  | event :: events => (move? cfg l event).toList ++ moves P cfg (step P cfg l event) events

/-- The tables in force after some events. -/
def published (tables : UserTables) : List TcpEvent → UserTables
  | [] => tables
  | .republish tables' :: events => published tables' events
  | _ :: events => published tables events

/-- The events of the task of a session. -/
def taskEvents (i : Nat) (events : List TcpEvent) : List TaskEvent :=
  events.filterMap fun
    | .task j event => if j = i then some event else none
    | _ => none

theorem step_sessions (l : TcpListener) (event : TcpEvent) :
    (step P cfg l event).sessions =
      Machine.run (advance (TcpSession.step P)) l.sessions (move? cfg l event).toList := by
  cases event with
  | republish tables => rfl
  | acceptFailed reason => rfl
  | stop => rfl
  | accept peerIp peer =>
      obtain ⟨tables, permits, sessions, refused, stopped⟩ := l
      cases stopped with
      | true => rfl
      | false =>
          cases permits with
          | zero => rfl
          | succ permits => rfl
  | task i event =>
      rw [step]
      cases hsession : l.sessions[i]? with
      | none =>
          have hlong : l.sessions.length ≤ i := List.getElem?_eq_none_iff.mp hsession
          exact (List.modify_eq_self hlong).symm
      | some session => rfl

theorem run_sessions (l : TcpListener) (events : List TcpEvent) :
    (Machine.run (step P cfg) l events).sessions =
      Machine.run (advance (TcpSession.step P)) l.sessions (moves P cfg l events) := by
  induction events generalizing l with
  | nil => rfl
  | cons event events ih =>
      rw [moves, Machine.run_append, ← step_sessions]
      exact ih _

theorem run_tables (l : TcpListener) (events : List TcpEvent) :
    (Machine.run (step P cfg) l events).tables = published l.tables events := by
  induction events generalizing l with
  | nil => rfl
  | cons event events ih =>
      have hstays (hsame : (step P cfg l event).tables = l.tables)
          (hpublished : published l.tables (event :: events) = published l.tables events) :
          (Machine.run (step P cfg) l (event :: events)).tables =
            published l.tables (event :: events) := by
        rw [Machine.run_cons, ih, hsame, hpublished]
      cases event with
      | republish tables => exact ih _
      | acceptFailed reason => exact hstays rfl rfl
      | stop => exact hstays rfl rfl
      | accept peerIp peer =>
          refine hstays ?_ rfl
          rw [step]
          split
          · rfl
          · split
            · rfl
            · rfl
      | task i event =>
          refine hstays ?_ rfl
          rw [step]
          split
          · rfl
          · rfl

/-- A session that joins is one that was accepted. -/
theorem moves_join {l : TcpListener} {events : List TcpEvent} {first : TcpSession}
    {front back : List (Move TcpSession TaskEvent)}
    (h : moves P cfg l events = front ++ .join first :: back) :
    ∃ before peerIp peer after, events = before ++ .accept peerIp peer :: after ∧
      first = ⟨cfg.context (published l.tables before) peerIp peer, .spawned⟩ ∧
      ∃ l', moves P cfg l' after = back := by
  induction events generalizing l front with
  | nil =>
      rw [moves] at h
      exact absurd h.symm (by simp)
  | cons event events ih =>
      rw [moves] at h
      -- the move is made by a later event
      have hlater {front' : List (Move TcpSession TaskEvent)}
          (h' : moves P cfg (step P cfg l event) events = front' ++ .join first :: back) :
          ∃ before peerIp peer after, event :: events = before ++ .accept peerIp peer :: after ∧
            first = ⟨cfg.context (published l.tables before) peerIp peer, .spawned⟩ ∧
            ∃ l', moves P cfg l' after = back := by
        obtain ⟨before, peerIp, peer, after, rfl, rfl, hrest⟩ := ih h'
        refine ⟨event :: before, peerIp, peer, after, rfl, ?_, hrest⟩
        rw [← run_tables (P := P) l, ← run_tables (P := P) (step P cfg l event)]
        rfl
      cases hmove : move? cfg l event with
      | none =>
          rw [hmove, Option.toList_none, List.nil_append] at h
          exact hlater h
      | some move =>
          rw [hmove, Option.toList_some, List.singleton_append] at h
          cases front with
          | cons move' front =>
              rw [List.cons_append, List.cons.injEq] at h
              exact hlater h.2
          | nil =>
              rw [List.nil_append, List.cons.injEq] at h
              obtain ⟨rfl, hback⟩ := h
              cases event with
              | accept peerIp peer =>
                  rw [move?] at hmove
                  split at hmove
                  · cases hmove
                  · cases hmove
                    exact ⟨[], peerIp, peer, events, rfl, rfl, _, hback⟩
              | republish tables => cases hmove
              | acceptFailed reason => cases hmove
              | task i event => cases hmove
              | stop => cases hmove

theorem own_moves (l : TcpListener) (events : List TcpEvent) (i : Nat) :
    own i (moves P cfg l events) = taskEvents i events := by
  induction events generalizing l with
  | nil => rfl
  | cons event events ih =>
      rw [moves, own, List.filterMap_append, ← own, ← own, ih]
      cases event with
      | republish tables => rfl
      | acceptFailed reason => rfl
      | stop => rfl
      | accept peerIp peer =>
          rw [move?]
          split
          · rfl
          · rfl
      | task j event =>
          by_cases hij : j = i
          · simp [move?, own, taskEvents, hij]
          · simp [move?, own, taskEvents, hij]

theorem step_opened (ctx : StreamContext) (getrandom : GetRandom) :
    TcpSession.step P ⟨ctx, .spawned⟩ (.opened getrandom) =
      match ServerSession.new P ctx.password ctx.tables.authUsers ctx.isMultiUser ctx.cipherKind
          getrandom with
      | .ok session => ⟨ctx, .live (Connection.start session)⟩
      | _ => ⟨ctx, .ended⟩ := rfl

theorem run_ended (ctx : StreamContext) (events : List TaskEvent) :
    Machine.run (TcpSession.step P) ⟨ctx, .ended⟩ events = ⟨ctx, .ended⟩ := by
  induction events with
  | nil => rfl
  | cons event events ih => exact ih

/-- A task that stays in `handle_stream` has only taken the events of its sockets. -/
theorem run_live {ctx : StreamContext} {c c' : Connection} {events : List TaskEvent}
    (h : (Machine.run (TcpSession.step P) ⟨ctx, .live c⟩ events).task = .live c') :
    c' = Machine.run (Connection.step P ctx) c (events.filterMap TaskEvent.stream?) := by
  induction events generalizing c with
  | nil => exact (SessionTask.live.inj h).symm
  | cons event events ih =>
      cases event with
      | opened getrandom => exact ih h
      | stream event => exact ih h
      | finish =>
          obtain ⟨phase, log⟩ := c
          cases phase with
          | handshake hs => exact ih h
          | connecting session served target initial => exact ih h
          | relay session served => exact ih h
          | closed result =>
              change (Machine.run (TcpSession.step P) ⟨ctx, .ended⟩ events).task = _ at h
              rw [run_ended] at h
              cases h

/-- A live task is `handle_stream` on what its sockets have delivered since its first poll. -/
theorem live_handles {ctx : StreamContext} {events : List TaskEvent} {c : Connection}
    (h : (Machine.run (TcpSession.step P) ⟨ctx, .spawned⟩ events).task = .live c) :
    ∃ front getrandom back, events = front ++ .opened getrandom :: back ∧
      Connection.handleStream P ctx getrandom (back.filterMap TaskEvent.stream?) = .ok c := by
  induction events with
  | nil => cases h
  | cons event events ih =>
      cases event with
      | stream event =>
          obtain ⟨front, getrandom, back, rfl, hhandled⟩ := ih h
          exact ⟨.stream event :: front, getrandom, back, rfl, hhandled⟩
      | finish =>
          obtain ⟨front, getrandom, back, rfl, hhandled⟩ := ih h
          exact ⟨.finish :: front, getrandom, back, rfl, hhandled⟩
      | opened getrandom =>
          refine ⟨[], getrandom, events, rfl, ?_⟩
          rw [Machine.run_cons, step_opened] at h
          rw [Connection.handleStream]
          cases hnew : ServerSession.new P ctx.password ctx.tables.authUsers ctx.isMultiUser
              ctx.cipherKind getrandom with
          | ok session =>
              rw [hnew] at h
              exact congrArg Outcome.ok (run_live h).symm
          | err e =>
              rw [hnew] at h
              dsimp only at h
              rw [run_ended] at h
              cases h
          | panic =>
              rw [hnew] at h
              dsimp only at h
              rw [run_ended] at h
              cases h

/-- Every session of a run is one `handle_stream`: on the tables that were published when it was
accepted, whatever is published later, and on the events of its own task alone, whatever the
other sessions and the listener do. -/
theorem sessions_isolated (P : Primitives) (cfg : TcpConfig) (tables : UserTables)
    (bind : Except String Unit) (events : List TcpEvent) {i : Nat} {session : TcpSession}
    (h : (Machine.run (step P cfg) (start cfg tables bind) events).sessions[i]? = some session) :
    ∃ before peerIp peer after, events = before ++ .accept peerIp peer :: after ∧
      session.ctx = cfg.context (published tables before) peerIp peer ∧
      session = Machine.run (TcpSession.step P) ⟨session.ctx, .spawned⟩ (taskEvents i after) ∧
      ∀ c, session.task = .live c → ∃ front getrandom back,
        taskEvents i after = front ++ .opened getrandom :: back ∧
        Connection.handleStream P session.ctx getrandom (back.filterMap TaskEvent.stream?) =
          .ok c := by
  rw [run_sessions] at h
  obtain ⟨front, first, back, hmoves, -, rfl⟩ := run_member h
  obtain ⟨before, peerIp, peer, after, rfl, rfl, l', hback⟩ := moves_join hmoves
  have hctx (events : List TaskEvent) (s : TcpSession) :
      (Machine.run (TcpSession.step P) s events).ctx = s.ctx := by
    have hstep : ∀ (t : TcpSession) (event : TaskEvent), t.ctx = s.ctx →
        (t.step P event).ctx = s.ctx := fun t event ht => (TcpSession.step_ctx P t event).trans ht
    exact Machine.run_keeps hstep rfl events
  rw [← hback, own_moves]
  refine ⟨before, peerIp, peer, after, rfl, hctx _ _, ?_, ?_⟩
  · rw [hctx]
  · intro c hlive
    rw [hctx]
    exact live_handles hlive

def sampleConfig : TcpConfig := ⟨1, "carrier", ⟨false, false, false, false⟩, 0, 1, .rc4Md5⟩

def noTables : UserTables := ⟨∅, ∅, ∅, ∅, ∅⟩

def sampleRandom : GetRandom := fun n => .ok (Vector.replicate n 0)

/-- Two bytes of a client's IV. -/
def sampleRead : StreamEvent := .clientRead [0x42, 0x42] ⟨fun _ => ∅, []⟩ .done

/-- The tables are published anew before the first poll of the session, and the listener ends
before its client sends. -/
def republished : List TcpEvent :=
  [.accept "192.0.2.1" "192.0.2.1:4000",
    .republish { noTables with authUsers := (∅ : Users).insert 7 [1] },
    .task 0 (.opened sampleRandom), .stop, .task 0 (.stream sampleRead)]

/-- The session is on the tables of its accept and reads on. -/
theorem sessions_isolated_sample : ∃ session c,
    (Machine.run (step .standard sampleConfig) (start sampleConfig noTables (.ok ()))
      republished).sessions[0]? = some session ∧
    session.task = .live c ∧
    Connection.handleStream .standard
      (sampleConfig.context noTables "192.0.2.1" "192.0.2.1:4000") sampleRandom [sampleRead] =
      .ok c := by
  obtain ⟨codec, hnew⟩ : ∃ codec, ServerSession.new .standard sampleConfig.password
      noTables.authUsers sampleConfig.isMultiUser sampleConfig.cipherKind sampleRandom =
        .ok codec :=
    ⟨_, (ServerSession.new_spec _ _ _ _ _).trans rfl⟩
  have hsession : (Machine.run (step .standard sampleConfig)
      (start sampleConfig noTables (.ok ())) republished).sessions[0]? =
      some (Machine.run (TcpSession.step .standard)
        ⟨sampleConfig.context noTables "192.0.2.1" "192.0.2.1:4000", .spawned⟩
        [.opened sampleRandom, .stream sampleRead]) := rfl
  rw [Machine.run_cons, step_opened] at hsession
  simp only [TcpConfig.context, hnew] at hsession
  obtain ⟨before, peerIp, peer, after, hevents, -, -, hlive⟩ := sessions_isolated .standard
    sampleConfig noTables (.ok ()) republished hsession
  obtain ⟨front, getrandom, back, hown, hhandled⟩ := hlive _ rfl
  refine ⟨_, _, hsession, rfl, ?_⟩
  obtain ⟨rfl, rfl, rfl, rfl⟩ : before = [] ∧ peerIp = "192.0.2.1" ∧ peer = "192.0.2.1:4000" ∧
      after = republished.tail := by
    simpa [republished, List.cons_eq_append_iff, and_assoc] using hevents
  obtain ⟨-, rfl, rfl⟩ : front = [] ∧ getrandom = sampleRandom ∧ back = [.stream sampleRead] := by
    simpa [republished, taskEvents, List.cons_eq_append_iff] using hown
  exact hhandled

end TcpListener

end SsrBackend
