import SsrBackend.Relay.ServedUser
import SsrBackend.Relay.TcpListener
import SsrBackend.Relay.UdpRuns
import SsrBackend.Traffic.LedgerLaws

/-!
What the relays do to the objects that they share with the supervisor: they record
bytes on counters and emit events. The counters are those of the tables that a relay
has been given, at its accept, with its datagram or when its association was made.
-/

namespace SsrBackend

open Call

inductive RelayOutput where
  | record (counters : Handle) (direction : Direction) (bytes : Nat)
  | emit (event : RelayEvent)

def Action.output? : Action → Option RelayOutput
  | .recordUpload counters bytes => some (.record counters .upload bytes)
  | .recordDownload counters bytes => some (.record counters .download bytes)
  | .emit event => some (.emit event)
  | _ => none

def UdpAction.output? : UdpAction → Option RelayOutput
  | .recordUpload counters bytes => some (.record counters .upload bytes)
  | .recordDownload counters bytes => some (.record counters .download bytes)
  | .emit event => some (.emit event)
  | _ => none

/-- What is recorded on is known. -/
def RelayOutput.Within (known : Handle → Prop) : RelayOutput → Prop
  | record counters _ _ => known counters
  | emit _ => True

/-- The counters of the tables are known. -/
def UserTables.Within (known : Handle → Prop) (tables : UserTables) : Prop :=
  ∀ (u h : Nat), tables.countersByUser[u]? = some h → known h

/-! ### A connection -/

namespace Connection

variable {P : Primitives} {ctx : StreamContext} {known : Handle → Prop}

/-- The action records on a known counter, if it records. -/
def RecordsOn (known : Handle → Prop) (action : Action) : Prop :=
  ∀ output, action.output? = some output → output.Within known

theorem counters?_within (htables : ctx.tables.Within known) {userId : Nat} {h : Handle}
    (hcounters : counters? ctx userId = some h) : known h := by
  rcases Option.or_eq_some_iff.mp hcounters with hown | ⟨-, hport⟩
  · exact htables userId h hown
  · exact htables ctx.fallbackUserId h hport

theorem permits_known (htables : ctx.tables.Within known) (userId : Nat) :
    Permits ctx userId (RecordsOn known) fun _ => True := by
  refine ⟨?_, fun _ _ => trivial⟩
  intro action hacts _ output houtput
  cases action with
  | recordUpload counters bytes =>
      cases houtput
      exact counters?_within htables hacts
  | recordDownload counters bytes =>
      cases houtput
      exact counters?_within htables hacts
  | emit event =>
      cases houtput
      trivial
  | _ => cases houtput

/-- What the phase holds on to comes from the tables. -/
def Holds (ctx : StreamContext) : StreamPhase → Prop
  | .connecting _ served _ _ => ∃ u, ServedFor ctx u served
  | .relay _ served => ∃ u, ServedFor ctx u served
  | _ => True

theorem recordsOn_acquire (limiter : Handle) (amount : Nat) :
    RecordsOn known (.acquire limiter amount) := by
  intro output houtput
  cases houtput

theorem handshakeTurn_known (htables : ctx.tables.Within known) (h : Handshake)
    (chunk : List UInt8) (world : World) :
    Does (Appends (RecordsOn known)) (fun _ => True) (Holds ctx)
      (handshakeTurn P ctx h chunk world) := by
  have hR := appends_chains (RecordsOn known)
  rw [handshakeTurn]
  dsimp only
  split
  · exact .pure hR trivial
  apply Does.bind hR (perform_does (.read chunk) (by rintro _ ⟨⟩))
  intro _ _
  apply Does.bind hR (V := fun _ => True) (lift_does (fun _ _ => trivial) fun _ => trivial)
  intro decoded _
  split
  · exact .pure hR trivial
  apply Does.bind hR (V := fun _ => True) (lift_does (fun _ _ => trivial) fun _ => trivial)
  intro parsed _
  cases parsed with
  | none =>
      dsimp only
      split
      · exact .bail hR trivial
      · exact .pure hR trivial
  | some found =>
      apply Does.bind hR (Does.of_slice hR _ found.2 _)
      intro initial _
      have hdoes := authenticated_does (permits_known htables _) world
        ((ServerSession.decrypt P chunk).run h.session).2 found.1 initial
        (saturatingAdd h.preAuthUpload chunk.length) rfl
      refine ⟨hdoes.state, ?_, hdoes.error⟩
      intro log phase hphase
      rcases hdoes.value log phase hphase with rfl | ⟨served, hserved, rfl⟩
      · trivial
      · exact ⟨_, hserved⟩

theorem turn_known (htables : ctx.tables.Within known) {phase : StreamPhase}
    (hphase : Holds ctx phase) (event : StreamEvent) :
    Does (Appends (RecordsOn known)) (fun _ => True) (Holds ctx) (turn P ctx phase event) := by
  have hR := appends_chains (RecordsOn known)
  have hstay : Does (Appends (RecordsOn known)) (fun _ => True) (Holds ctx)
      (pure phase : StreamTask StreamPhase) := .pure hR hphase
  cases phase with
  | handshake h =>
      cases event with
      | clientRead chunk world write => exact handshakeTurn_known htables h chunk world
      | clientFailed reason => exact .bail hR trivial
      | idle => exact .bail hR trivial
      | _ => exact hstay
  | connecting session served target initial =>
      obtain ⟨u, hserved⟩ := hphase
      cases event with
      | connected net failure =>
          have hdoes := connectTurn_does (permits_known htables u) session served target initial
            (fun limiter _ => recordsOn_acquire limiter _) net failure
          refine ⟨hdoes.state, ?_, hdoes.error⟩
          intro log phase hvalue
          rw [hdoes.value log phase hvalue]
          exact ⟨u, hserved⟩
      | _ => exact hstay
  | relay session served =>
      obtain ⟨u, hserved⟩ := hphase
      have hends {phase : StreamPhase} {session' : ServerSession}
          (h : phase = .closed (.ok ()) ∨ phase = .relay session' served) : Holds ctx phase := by
        rcases h with rfl | rfl
        · trivial
        · exact ⟨u, hserved⟩
      cases event with
      | clientRead chunk world write =>
          have hdoes := clientTurn_does (P := P) (permits_known htables u) hserved session chunk
            (fun limiter _ _ _ => recordsOn_acquire limiter _) write
          exact ⟨hdoes.state, fun log phase hvalue => hends (hdoes.value log phase hvalue),
            hdoes.error⟩
      | remoteRead chunk write =>
          have hdoes := remoteTurn_does (P := P) (permits_known htables u) hserved session chunk
            (fun limiter _ _ _ _ => recordsOn_acquire limiter _) write
          exact ⟨hdoes.state, fun log phase hvalue => hends (hdoes.value log phase hvalue),
            hdoes.error⟩
      | clientFailed reason => exact .bail hR trivial
      | remoteFailed reason => exact .bail hR trivial
      | idle => exact .bail hR trivial
      | connected net failure => exact hstay
  | closed result => cases event <;> exact hstay

/-- A step adds actions that record on known counters, and goes on from the tables. -/
theorem step_known (htables : ctx.tables.Within known) {c : Connection} (h : Holds ctx c.phase)
    (event : StreamEvent) :
    Holds ctx (step P ctx c event).phase ∧ ∃ extra, (step P ctx c event).log = c.log ++ extra ∧
      ∀ action ∈ extra, RecordsOn known action := by
  have hdoes := turn_known (P := P) htables h event
  have hstate := hdoes.state c.log
  have hvalue := hdoes.value c.log
  rw [step]
  generalize (turn P ctx c.phase event).run c.log = r at hstate hvalue ⊢
  obtain ⟨o, log⟩ := r
  cases o with
  | ok phase => exact ⟨hvalue phase rfl, hstate⟩
  | err e => exact ⟨trivial, hstate⟩
  | panic => exact ⟨trivial, hstate⟩

end Connection

/-! ### The TCP listener -/

namespace TcpSession

variable {P : Primitives} {known : Handle → Prop}

def log (s : TcpSession) : List Action :=
  match s.task with
  | .live c => c.log
  | _ => []

/-- What a step of the task does to the shared objects. -/
def outputs (P : Primitives) (s : TcpSession) (event : TaskEvent) : List RelayOutput :=
  ((s.step P event).log.drop s.log.length).filterMap Action.output?

/-- The tables of the session are known, and its connection goes by them. -/
structure Within (known : Handle → Prop) (s : TcpSession) : Prop where
  tables : s.ctx.tables.Within known
  phase : ∀ c, s.task = .live c → Connection.Holds s.ctx c.phase

theorem step_within {s : TcpSession} (h : s.Within known) (event : TaskEvent) :
    (s.step P event).Within known ∧ ∀ output ∈ s.outputs P event, output.Within known := by
  have hended {t : TcpSession} (hctx : t.ctx = s.ctx) (htask : ∀ c, t.task ≠ .live c) :
      t.Within known :=
    ⟨by rw [hctx]; exact h.tables, fun c hc => absurd hc (htask c)⟩
  have hsilent {t : TcpSession} (hlog : t.log.drop s.log.length = []) :
      ∀ output ∈ (t.log.drop s.log.length).filterMap Action.output?, output.Within known := by
    rw [hlog]
    exact List.forall_mem_nil _
  obtain ⟨ctx, task⟩ := s
  rw [outputs]
  cases task with
  | spawned =>
      cases event with
      | opened getrandom =>
          rw [TcpListener.step_opened]
          split
          · refine ⟨⟨h.tables, ?_⟩, hsilent rfl⟩
            rintro c ⟨⟩
            trivial
          · exact ⟨hended rfl (by rintro _ ⟨⟩), hsilent rfl⟩
      | stream event => exact ⟨h, hsilent rfl⟩
      | finish => exact ⟨h, hsilent rfl⟩
  | live c =>
      cases event with
      | opened getrandom => exact ⟨h, hsilent List.drop_length⟩
      | stream event =>
          obtain ⟨hholds, extra, hlog, hextra⟩ :=
            Connection.step_known (P := P) h.tables (h.phase c rfl) event
          refine ⟨⟨h.tables, ?_⟩, ?_⟩
          · rintro c' ⟨⟩
            exact hholds
          · intro output hmem
            change output ∈ ((Connection.step P ctx c event).log.drop c.log.length).filterMap _
              at hmem
            rw [hlog, List.drop_left] at hmem
            obtain ⟨action, haction, houtput⟩ := List.mem_filterMap.mp hmem
            exact hextra action haction output houtput
      | finish =>
          obtain ⟨phase, log⟩ := c
          cases phase with
          | closed result => exact ⟨hended rfl (by rintro _ ⟨⟩), hsilent List.drop_nil⟩
          | _ => exact ⟨h, hsilent List.drop_length⟩
  | ended => cases event <;> exact ⟨h, hsilent rfl⟩

end TcpSession

namespace TcpListener

variable {P : Primitives} {cfg : TcpConfig} {known : Handle → Prop}

def outputs (P : Primitives) (l : TcpListener) : TcpEvent → List RelayOutput
  | .task i event => (l.sessions[i]?.map fun session => session.outputs P event).getD []
  | _ => []

structure Within (known : Handle → Prop) (l : TcpListener) : Prop where
  tables : l.tables.Within known
  sessions : ∀ session ∈ l.sessions, session.Within known

theorem step_tables {l : TcpListener} {event : TcpEvent}
    (hevent : ∀ tables, event ≠ .republish tables) : (step P cfg l event).tables = l.tables := by
  cases event with
  | republish tables => exact absurd rfl (hevent tables)
  | accept peerIp peer =>
      rw [step]
      split
      · rfl
      · split <;> rfl
  | acceptFailed reason => rfl
  | stop => rfl
  | task i event =>
      rw [step]
      split <;> rfl

/-- A session after a step is one from before, one that has been accepted, or one whose task has
taken a step. -/
theorem mem_step_sessions {l : TcpListener} {event : TcpEvent} {session : TcpSession}
    (h : session ∈ (step P cfg l event).sessions) :
    session ∈ l.sessions ∨
    (∃ peerIp peer, event = .accept peerIp peer ∧
      session = ⟨cfg.context l.tables peerIp peer, .spawned⟩) ∨
    ∃ i taskEvent, event = .task i taskEvent ∧ ∃ old, l.sessions[i]? = some old ∧
      session = old.step P taskEvent := by
  cases event with
  | republish tables => exact Or.inl h
  | acceptFailed reason => exact Or.inl h
  | stop => exact Or.inl h
  | accept peerIp peer =>
      rw [step] at h
      split at h
      · exact Or.inl h
      · split at h
        · exact Or.inl h
        · cases List.mem_append.mp h with
          | inl hold => exact Or.inl hold
          | inr hnew => exact Or.inr (Or.inl ⟨peerIp, peer, rfl, List.mem_singleton.mp hnew⟩)
  | task i event =>
      rw [step] at h
      cases hsession : l.sessions[i]? with
      | none =>
          rw [hsession] at h
          exact Or.inl h
      | some found =>
          rw [hsession] at h
          obtain ⟨j, hj⟩ := List.mem_iff_getElem?.mp h
          dsimp only at hj
          rw [List.getElem?_modify] at hj
          obtain ⟨old, hold, rfl⟩ := Option.map_eq_some_iff.mp hj
          by_cases hij : i = j
          · subst hij
            rw [if_pos rfl]
            exact Or.inr (Or.inr ⟨i, event, rfl, old, hold, rfl⟩)
          · rw [if_neg hij]
            exact Or.inl (List.mem_of_getElem? hold)

theorem step_within {l : TcpListener} (h : l.Within known) {event : TcpEvent}
    (hevent : ∀ tables, event = .republish tables → tables.Within known) :
    (step P cfg l event).Within known ∧ ∀ output ∈ l.outputs P event, output.Within known := by
  refine ⟨⟨?_, ?_⟩, ?_⟩
  · cases event with
    | republish tables => exact hevent tables rfl
    | _ =>
        rw [step_tables (by rintro _ ⟨⟩)]
        exact h.tables
  · intro session hmem
    rcases mem_step_sessions hmem with hold | ⟨peerIp, peer, -, rfl⟩ |
      ⟨i, taskEvent, -, old, hold, rfl⟩
    · exact h.sessions session hold
    · exact ⟨h.tables, by rintro _ ⟨⟩⟩
    · exact (TcpSession.step_within (h.sessions old (List.mem_of_getElem? hold)) taskEvent).1
  · intro output hmem
    cases event with
    | task i event =>
        rw [outputs] at hmem
        cases hsession : l.sessions[i]? with
        | none =>
            rw [hsession] at hmem
            cases hmem
        | some session =>
            rw [hsession] at hmem
            exact (TcpSession.step_within (h.sessions session (List.mem_of_getElem? hsession))
              event).2 output hmem
    | _ => cases hmem

end TcpListener

/-! ### The UDP listener -/

namespace UdpListener

variable {P : Primitives} {ctx : UdpContext} {known : Handle → Prop}

def outputs (P : Primitives) (ctx : UdpContext) (s : UdpListener) (event : UdpEvent) :
    List RelayOutput :=
  ((step P ctx s event).log.drop s.log.length).filterMap UdpAction.output?

def RecordsOn (known : Handle → Prop) (action : UdpAction) : Prop :=
  ∀ output, action.output? = some output → output.Within known

structure Within (known : Handle → Prop) (s : UdpListener) : Prop where
  tables : s.tables.Within known
  associations : ∀ key association, s.associations.value? key = some association →
    known association.counters

/-- A part of the listener's work that goes by what is known. -/
structure Keeps (known : Handle → Prop) (s s' : UdpListener) : Prop where
  tables_eq : s'.tables = s.tables
  log_eq : ∃ extra, s'.log = s.log ++ extra ∧ ∀ action ∈ extra, RecordsOn known action
  entries : ∀ key association, s'.associations.value? key = some association →
    s.associations.value? key = some association ∨ known association.counters

theorem Keeps.of_entries {s s' : UdpListener} (htables : s'.tables = s.tables)
    (hlog : s'.log = s.log) (hentries : ∀ key association,
      s'.associations.value? key = some association →
        s.associations.value? key = some association) : Keeps known s s' :=
  ⟨htables, ⟨[], by rw [hlog, List.append_nil], List.forall_mem_nil _⟩,
    fun key association h => Or.inl (hentries key association h)⟩

theorem Keeps.close {s s' : UdpListener} (h : Keeps known s s') : Keeps known s s'.close :=
  ⟨h.tables_eq, h.log_eq, fun key association hfound =>
    h.entries key association (BoundedTtlMap.value?_retain hfound)⟩

theorem handleInbound_keeps {s : UdpListener} (htables : s.tables.Within known)
    (inbound : Inbound) :
    Keeps known s ((handleInbound P ctx s.tables inbound).run s).2 := by
  have hsame : Keeps known s s := .of_entries rfl rfl fun _ _ h => h
  cases hdecrypt : udpDecryptPacket P ctx.masterKey s.tables.authUsers ctx.isMultiUser
      inbound.datagram ctx.cipherKind with
  | err e =>
      rw [handleInbound, hdecrypt]
      exact hsame
  | panic =>
      rw [handleInbound, hdecrypt]
      exact hsame
  | ok verified =>
      have hcounters {userId : Nat} {h : Handle}
          (hfound : counters? ctx s.tables userId = some h) : known h := by
        rcases Option.or_eq_some_iff.mp hfound with hown | ⟨-, hport⟩
        · exact htables userId h hown
        · exact htables ctx.userId h hport
      rw [handleInbound_run ctx s.tables inbound hdecrypt]
      have hdoes : Does (Handles (RecordsOn known) ⟨inbound.peer, verified.2.getD ctx.userId⟩
          (Made ctx s.tables inbound (responseKey ctx s.tables verified.2)
            (verified.2.getD ctx.userId))) (fun _ => True) (fun _ => True)
          (deliver ctx s.tables (verified.2.getD ctx.userId)
            (responseKey ctx s.tables verified.2) verified.1 inbound) := by
        apply deliver_does ctx s.tables inbound verified.1
        · rintro event _ ⟨⟩
          trivial
        · rintro rules data _ ⟨⟩
        · rintro counters hfound _ ⟨⟩
          exact hcounters hfound
        · rintro outbound target contact payload - _ ⟨⟩
        · exact fun _ _ => trivial
        · exact fun _ => trivial
      have hstate := hdoes.state { s with log := s.log ++ [.verified
        ⟨inbound.peer, verified.2.getD ctx.userId⟩ (responseKey ctx s.tables verified.2)] }
      obtain ⟨extra, hlog, hextra⟩ := hstate.log_eq
      refine ⟨hstate.tables_eq, ⟨[.verified ⟨inbound.peer, verified.2.getD ctx.userId⟩
        (responseKey ctx s.tables verified.2)] ++ extra, ?_, ?_⟩, ?_⟩
      · rw [hlog, List.append_assoc]
      · intro action hmem
        rcases List.mem_cons.mp hmem with rfl | hrest
        · rintro _ ⟨⟩
        · exact hextra action hrest
      · intro key association hfound
        rcases hstate.entries key association hfound with hold | ⟨-, -, -, -, -, hmade⟩
        · exact Or.inl hold
        · exact Or.inr (hcounters hmade)

theorem pumpTurn_keeps {s : UdpListener} {key : AssociationKey} {association : Association}
    (hknown : known association.counters) (source : SocketAddr) (data : List UInt8)
    (getrandom : GetRandom) (sent : Bool) :
    Keeps known s (pumpTurn P s key association source data getrandom sent) := by
  rw [pumpTurn]
  dsimp only
  cases udpEncryptPacket P association.masterKey association.responseKey
      (packSocketAddr source.ip source.port ++ data) association.cipherKind getrandom with
  | err e => exact .of_entries rfl rfl fun _ _ h => h
  | panic => exact .of_entries rfl rfl fun _ _ h => h
  | ok packet =>
      cases sent with
      | false =>
          refine ⟨rfl, ⟨[_], rfl, ?_⟩, fun _ _ h => Or.inl h⟩
          intro action hmem
          rw [List.mem_singleton.mp hmem]
          rintro _ ⟨⟩
          exact hknown
      | true =>
          refine ⟨rfl, ⟨[_, _], List.append_assoc .., ?_⟩, fun _ _ h => Or.inl h⟩
          intro action hmem
          rcases List.mem_cons.mp hmem with rfl | hrest
          · rintro _ ⟨⟩
            exact hknown
          · rw [List.mem_singleton.mp hrest]
            rintro _ ⟨⟩

/-- What the listener does by itself goes by what is known. -/
theorem step_keeps {s : UdpListener} (h : s.Within known) {event : UdpEvent}
    (hevent : ∀ tables, event ≠ .republish tables) : Keeps known s (step P ctx s event) := by
  have hstay : Keeps known s s := .of_entries rfl rfl fun _ _ hfound => hfound
  cases event with
  | republish tables => exact absurd rfl (hevent tables)
  | datagram inbound =>
      have hexpired : Keeps known s { s with
          associations := s.associations.expire inbound.expireAt } :=
        .of_entries rfl rfl fun _ _ hfound => BoundedTtlMap.value?_evictExpired hfound
      have hinbound : Keeps known { s with
            associations := s.associations.expire inbound.expireAt }
          ((handleInbound P ctx s.tables inbound).run { s with
            associations := s.associations.expire inbound.expireAt }).2 :=
        handleInbound_keeps (s := { s with
          associations := s.associations.expire inbound.expireAt }) h.tables inbound
      have hboth : Keeps known s ((handleInbound P ctx s.tables inbound).run { s with
          associations := s.associations.expire inbound.expireAt }).2 := by
        refine ⟨hinbound.tables_eq, hinbound.log_eq, ?_⟩
        intro key association hfound
        rcases hinbound.entries key association hfound with hold | hnew
        · exact hexpired.entries key association hold
        · exact Or.inr hnew
      exact step_datagram hstay hboth fun s' hs' => hs'.close
  | response key source data getrandom sent =>
      rw [step]
      cases hpump : s.pumpOf? key with
      | none => exact hstay
      | some association =>
          apply pumpTurn_keeps
          exact h.associations key association (Option.filter_eq_some_iff.mp hpump).1
  | pumpFailed key =>
      rw [step]
      cases s.pumpOf? key with
      | none => exact hstay
      | some association => exact .of_entries rfl rfl fun _ _ hfound => hfound
  | stop => exact hstay.close

theorem step_within {s : UdpListener} (h : s.Within known) {event : UdpEvent}
    (hevent : ∀ tables, event = .republish tables → tables.Within known) :
    (step P ctx s event).Within known ∧
      ∀ output ∈ outputs P ctx s event, output.Within known := by
  rw [outputs]
  by_cases hrepublish : ∃ tables, event = .republish tables
  · obtain ⟨tables, rfl⟩ := hrepublish
    refine ⟨⟨hevent tables rfl, h.associations⟩, ?_⟩
    change ∀ output ∈ (s.log.drop s.log.length).filterMap UdpAction.output?, output.Within known
    rw [List.drop_length]
    exact List.forall_mem_nil _
  · have hkeeps : Keeps known s (step P ctx s event) :=
      step_keeps h fun tables heq => hrepublish ⟨tables, heq⟩
    obtain ⟨extra, hlog, hextra⟩ := hkeeps.log_eq
    refine ⟨⟨by rw [hkeeps.tables_eq]; exact h.tables, ?_⟩, ?_⟩
    · intro key association hfound
      rcases hkeeps.entries key association hfound with hold | hnew
      · exact h.associations key association hold
      · exact hnew
    · rw [hlog, List.drop_left]
      intro output hmem
      obtain ⟨action, haction, houtput⟩ := List.mem_filterMap.mp hmem
      exact hextra action haction output houtput

end UdpListener

end SsrBackend
