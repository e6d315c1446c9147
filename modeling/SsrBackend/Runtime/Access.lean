import SsrBackend.Relay.Emissions
import SsrBackend.Relay.UdpSockets
import SsrBackend.Runtime.Components
import SsrBackend.Runtime.InForce
import SsrBackend.Runtime.OwnEntries
import SsrBackend.Ssr.Attribution

/-!
Who is served under whose number. The keys of the tables are those of rows that the
panel has answered with, and the codecs let nothing pass for a user but what verifies
with the key of that user; so that a client is served as a user of the panel, on that
user's entries, or on the account of the port, whatever is published, stopped or
replaced meanwhile.
-/

namespace SsrBackend

open Call

/-- The keys of the tables are of users that are admitted with them. -/
def UserTables.Admits (admitted : Nat → List UInt8 → Prop) (tables : UserTables) : Prop :=
  ∀ u key, tables.authUsers[u]? = some key → admitted u key

theorem UserTables.Admits.mono {admitted admitted' : Nat → List UInt8 → Prop}
    {tables : UserTables} (h : tables.Admits admitted)
    (himp : ∀ u key, admitted u key → admitted' u key) : tables.Admits admitted' :=
  fun u key hkey => himp u key (h u key hkey)

/-! ### TCP sessions -/

/-- The action counts, limits or lets in, on an object that the users of the tables share. -/
def Action.Shared : Action → Prop
  | .recordUpload _ _ => True
  | .recordDownload _ _ => True
  | .takeSlot _ _ => True
  | .acquire _ _ => True
  | _ => False

namespace ServerSession

variable {P : Primitives}

theorem params_settings {s t : ServerSession} (h : t.settings = s.settings) (wire : List UInt8) :
    t.params wire = s.params wire := by
  simp only [settings, Prod.mk.injEq] at h
  obtain ⟨hcipher, hkey, husers, hmulti⟩ := h
  simp only [params, hcipher, hkey, husers, hmulti]

theorem plain_settings {s t : ServerSession} (h : t.settings = s.settings) (wire : List UInt8) :
    t.plain P wire = s.plain P wire := by
  simp only [settings, Prod.mk.injEq] at h
  obtain ⟨hcipher, hkey, -, -⟩ := h
  simp only [plain, hcipher, hkey]

/-- What a session that has accepted its auth packet has taken in verifies with its key. -/
theorem Took.carries {s : ServerSession} {wire : List UInt8}
    {r : Resumable.Drained UInt8 UInt8 Phase} (h : s.Took P wire r) (hidentified : s.Identified) :
    ∃ key, s.userKey? = some key ∧ Carries P (s.params wire) key (s.plain P wire).1 r.1 := by
  obtain ⟨packId, -, hstate⟩ := h.state_eq
  rcases factors_of_drain h.decoded_eq with ⟨-, hwaits⟩ | ⟨who, id, hphase, ⟨hfac⟩⟩
  · obtain ⟨decryptor, protocol, hdecryptor, hprotocol, hheader⟩ := hidentified
    rw [received, hwaits] at hstate
    split at hstate
    · rw [hstate] at hdecryptor
      cases hdecryptor
    · rw [congrArg ServerSession.protocol hstate] at hprotocol
      rw [← Option.some.inj hprotocol] at hheader
      cases hheader
  · refine ⟨who.userKey, ?_, hfac.carries⟩
    rw [hstate, received_streaming packId h.decoded_eq hphase]
    rfl

end ServerSession

namespace Connection

variable {P : Primitives} {ctx : StreamContext}

/-- What holds once a step is over by which the codec has identified `u`: the key that it has
chosen is the one of `u` in the tables, and what has been done is done on the entries of `u`;
and where that is anything at all, the bytes read from the client are an auth packet and data
packets all of whose MACs verify with the key, up to those that have ended the connection. -/
structure ServedWith (P : Primitives) (ctx : StreamContext) (codec : ServerSession)
    (c : Connection) (event : StreamEvent) (u : Nat) (key : List UInt8) : Prop where
  listed : ctx.tables.authUsers[u]? = some key
  chosen : (codecSession P c.phase event).bind ServerSession.userKey? = some key
  own : ∀ action ∈ (step P ctx c event).log, UsesOwn ctx.tables u action
  verified : (∀ action ∈ (step P ctx c event).log, ¬ action.Shared) ∨
    ∃ taken payload, taken <+: wire (step P ctx c event).log ∧
      Carries P (codec.params taken) key (codec.plain P taken).1 payload

theorem settle_past {task : StreamTask StreamPhase} {log : List Action}
    (h : ∀ phase, (task.run log).1 = .ok phase → ∀ hs, phase ≠ .handshake hs) :
    ∀ hs, (settle (task.run log)).phase ≠ .handshake hs := by
  generalize task.run log = r at h ⊢
  obtain ⟨o, log'⟩ := r
  cases o with
  | ok phase => exact h phase rfl
  | err e => rintro hs ⟨⟩
  | panic => rintro hs ⟨⟩

/-- The handshake is not come back to. -/
theorem step_past {c : Connection} (hserves : ServesOne ctx c)
    (hpast : ∀ hs, c.phase ≠ .handshake hs) (event : StreamEvent) :
    ∀ hs, (step P ctx c event).phase ≠ .handshake hs := by
  obtain ⟨phase, log⟩ := c
  rw [step]
  cases phase with
  | handshake hs => exact absurd rfl (hpast hs)
  | closed result => cases event <;> exact hpast
  | connecting session served target initial =>
      have hbound : Bound ctx log session served := hserves
      cases event with
      | connected net failure =>
          apply settle_past
          intro phase hok
          have hdoes := connectTurn_does (permits_user ctx _) session served target initial
            hbound.served.limiter_eq net failure
          rw [hdoes.value log phase hok]
          rintro hs ⟨⟩
      | clientRead chunk world write => exact hpast
      | clientFailed reason => exact hpast
      | idle => exact hpast
      | remoteRead chunk write => exact hpast
      | remoteFailed reason => exact hpast
  | relay session served =>
      have hbound : Bound ctx log session served := hserves
      have hends {session' : ServerSession} {phase : StreamPhase}
          (h : phase = .closed (.ok ()) ∨ phase = .relay session' served) (hs : Handshake) :
          phase ≠ .handshake hs := by
        rcases h with rfl | rfl <;> rintro ⟨⟩
      cases event with
      | clientRead chunk world write =>
          apply settle_past
          intro phase hok
          have hdoes := clientTurn_does (P := P) (permits_user ctx _) hbound.served session chunk
            (fun limiter _ hlimiter _ => hbound.served.limiter_eq limiter hlimiter) write
          exact hends (hdoes.value log phase hok)
      | remoteRead chunk write =>
          apply settle_past
          intro phase hok
          have hdoes := remoteTurn_does (P := P) (permits_user ctx _) hbound.served session chunk
            (fun limiter _ hlimiter _ _ => hbound.served.limiter_eq limiter hlimiter) write
          exact hends (hdoes.value log phase hok)
      | connected net failure => exact hpast
      | clientFailed reason => rintro hs ⟨⟩
      | remoteFailed reason => rintro hs ⟨⟩
      | idle => rintro hs ⟨⟩

/-- Before the header is complete nothing is counted, limited or let in. -/
def Waiting (c : Connection) : Prop :=
  ∀ hs, c.phase = .handshake hs → ∀ action ∈ c.log, ¬ action.Shared

/-- A read of the handshake that counts anything has made the codec accept the auth packet. -/
theorem handshakeTurn_verified (ctx : StreamContext) {s : ServerSession} {auditBlock : Bool}
    {h : Handshake} {log : List Action} (hinv : Inv P s auditBlock log (.handshake h))
    (hquiet : ∀ action ∈ log, ¬ action.Shared) (chunk : List UInt8) (world : World) :
    let c := settle ((handshakeTurn P ctx h chunk world).run log)
    (∀ action ∈ c.log, ¬ action.Shared) ∨ (∀ hs, c.phase ≠ .handshake hs) ∧
      ((ServerSession.decrypt P chunk).run h.session).2.Identified := by
  obtain ⟨r, -, htook, -⟩ := hinv
  by_cases hchunk : chunk = []
  · rw [handshakeTurn, if_pos hchunk]
    exact Or.inl hquiet
  have hread : ∀ action ∈ log ++ [.read chunk], ¬ action.Shared := by
    intro action hmem
    cases List.mem_append.mp hmem with
    | inl hold => exact hquiet action hold
    | inr hnew =>
        rw [List.mem_singleton.mp hnew]
        exact id
  rcases handshakeTurn_cases ctx h hchunk world log with
    ⟨o, hrun, -⟩ | ⟨out, target, initial, upload, hok, hout, -, hrun⟩
  · rw [hrun]
    left
    cases o <;> exact hread
  · rw [hrun]
    refine Or.inr ⟨settle_past ?_, identified_next htook hok hout⟩
    intro phase hphase hs
    have hdoes := authenticated_does (permits_user ctx _) world
      ((ServerSession.decrypt P chunk).run h.session).2 target initial upload rfl
    rcases hdoes.value _ phase hphase with rfl | ⟨served, -, rfl⟩ <;> rintro ⟨⟩

theorem step_verified {s : ServerSession} {c : Connection}
    (hgood : Good P s ctx.enforcement.auditBlock c) (hserves : ServesOne ctx c)
    (hwaiting : Waiting c) (event : StreamEvent) :
    Waiting (step P ctx c event) ∧ ∀ t, codecSession P c.phase event = some t →
      (∀ action ∈ (step P ctx c event).log, ¬ action.Shared) ∨ t.Identified := by
  obtain ⟨phase, log⟩ := c
  have hpast (hphase : ∀ hs, phase ≠ .handshake hs) : Waiting (step P ctx ⟨phase, log⟩ event) :=
    fun hs heq => absurd heq (step_past hserves hphase event hs)
  cases phase with
  | closed result => exact ⟨hpast (by rintro hs ⟨⟩), by rintro t ⟨⟩⟩
  | connecting session served target initial =>
      have hbound : Bound ctx log session served := hserves
      refine ⟨hpast (by rintro hs ⟨⟩), ?_⟩
      rintro t ⟨⟩
      exact Or.inr hbound.identified
  | relay session served =>
      have hbound : Bound ctx log session served := hserves
      refine ⟨hpast (by rintro hs ⟨⟩), ?_⟩
      rintro t ⟨⟩
      exact Or.inr hbound.identified
  | handshake h =>
      have hquiet : ∀ action ∈ log, ¬ action.Shared := hwaiting h rfl
      cases event with
      | clientRead chunk world write =>
          have hturn := handshakeTurn_verified ctx hgood hquiet chunk world
          rcases hturn with hnone | ⟨hphase, hidentified⟩
          · exact ⟨fun _ _ => hnone, fun _ _ => Or.inl hnone⟩
          · refine ⟨fun hs heq => absurd heq (hphase hs), ?_⟩
            intro t ht
            rw [codecSession] at ht
            generalize (ServerSession.decrypt P chunk).run h.session = call at ht hidentified
            obtain ⟨o, session⟩ := call
            cases o with
            | ok out =>
                cases ht
                exact Or.inr hidentified
            | err e => cases ht
            | panic => cases ht
      | clientFailed reason => exact ⟨fun _ _ => hquiet, fun _ _ => Or.inl hquiet⟩
      | connected net failure => exact ⟨fun _ _ => hquiet, fun _ _ => Or.inl hquiet⟩
      | remoteRead chunk write => exact ⟨fun _ _ => hquiet, fun _ _ => Or.inl hquiet⟩
      | remoteFailed reason => exact ⟨fun _ _ => hquiet, fun _ _ => Or.inl hquiet⟩
      | idle => exact ⟨fun _ _ => hquiet, fun _ _ => Or.inl hquiet⟩

theorem run_waiting {s : ServerSession} (hs : s.Fresh P) (ctx : StreamContext)
    (events : List StreamEvent) :
    Waiting (Machine.run (step P ctx) (start s) events) := by
  induction events using List.reverseRecOn with
  | nil => exact fun _ _ _ hmem => absurd hmem List.not_mem_nil
  | append_singleton events event ih =>
      rw [Machine.run_append, Machine.run_cons, Machine.run_nil]
      exact (step_verified (good_run hs ctx events) (run_serves hs ctx events) ih event).1

/-- What the codec has taken in once a step is over has been read by then. -/
theorem codecSession_reads {s t : ServerSession} {c : Connection}
    (hgood : Good P s ctx.enforcement.auditBlock c) {event : StreamEvent}
    (ht : codecSession P c.phase event = some t) :
    t.settings = s.settings ∧ ∃ taken r, t.Took P taken r ∧
      taken <+: wire (step P ctx c event).log := by
  obtain ⟨hset, taken, r, htook, hwire⟩ := codecSession_took hgood ht
  refine ⟨hset, taken, r, htook, ?_⟩
  have hbefore : wire c.log <+: wire (step P ctx c event).log := by
    obtain ⟨extra, hlog, -⟩ : ∃ extra, (step P ctx c event).log = c.log ++ extra ∧ _ :=
      step_tells c event
    rw [hlog, wire_append]
    exact List.prefix_append _ _
  rcases hwire with rfl | ⟨h, chunk, world, write, hphase, rfl, rfl⟩
  · exact hbefore
  · obtain ⟨phase, log⟩ := c
    cases hphase
    by_cases hchunk : chunk = []
    · rw [hchunk, List.append_nil]
      exact hchunk ▸ hbefore
    have hread : wire (log ++ [.read chunk]) = wire log ++ chunk := by
      rw [wire_append]
      exact congrArg (wire log ++ ·) (List.append_nil chunk)
    change wire log ++ chunk <+: wire (settle ((handshakeTurn P ctx h chunk world).run log)).log
    rw [← hread]
    rcases handshakeTurn_cases ctx h hchunk world log with
      ⟨o, hrun, -⟩ | ⟨out, target, initial, upload, -, -, -, hrun⟩
    · rw [hrun]
      cases o <;> exact List.prefix_rfl
    · rw [hrun]
      have hdoes := authenticated_does (permits_user ctx _) world
        ((ServerSession.decrypt P chunk).run h.session).2 target initial upload rfl
      obtain ⟨more, hmore, -⟩ := hdoes.state (log ++ [.read chunk])
      have hsettled : (settle ((authenticated ctx world
          ((ServerSession.decrypt P chunk).run h.session).2 target initial upload).run
            (log ++ [.read chunk]))).log = log ++ [.read chunk] ++ more := by
        rw [← hmore]
        generalize (authenticated ctx world ((ServerSession.decrypt P chunk).run h.session).2
          target initial upload).run (log ++ [.read chunk]) = r
        obtain ⟨o, log'⟩ := r
        cases o <;> rfl
      rw [hsettled, wire_append _ more]
      exact List.prefix_append _ _

/-- A step of a connection by which the codec has identified the user of its client. -/
theorem identified_served {codec : ServerSession} {getrandom : GetRandom}
    (htables : Complete ctx.tables)
    (hnew : ServerSession.new P ctx.password ctx.tables.authUsers ctx.isMultiUser ctx.cipherKind
      getrandom = .ok codec) (before : List StreamEvent) (event : StreamEvent) {u : Nat}
    (hu : codecUser P (Machine.run (step P ctx) (start codec) before).phase event = some u) :
    ∃ key, ServedWith P ctx codec (Machine.run (step P ctx) (start codec) before) event u key := by
  obtain ⟨-, hown, -⟩ := identified_step htables hnew before event hu
  rw [Machine.run_append, Machine.run_cons, Machine.run_nil] at hown
  obtain ⟨hfresh, -, -, husers, -⟩ := ServerSession.fresh_of_new hnew
  have hgood := good_run hfresh ctx before
  have hserves := run_serves hfresh ctx before
  have hwaiting := run_waiting hfresh ctx before
  generalize Machine.run (step P ctx) (start codec) before = c at hu hown hgood hserves hwaiting ⊢
  rw [codecUser_eq] at hu
  obtain ⟨t, ht, huser⟩ := Option.bind_eq_some_iff.mp hu
  obtain ⟨hset, taken, r, htook, htaken⟩ := codecSession_reads hgood ht
  obtain ⟨key, hkey, hchosen⟩ := htook.keyed huser
  have hsame : t.users = codec.users := congrArg (fun settings => settings.2.2.1) hset
  rw [hsame, husers] at hkey
  refine ⟨key, hkey, ?_, hown, ?_⟩
  · rw [ht]
    exact hchosen
  · refine ((step_verified hgood hserves hwaiting event).2 t ht).imp id ?_
    intro hidentified
    obtain ⟨key', hchosen', hcarries⟩ := htook.carries hidentified
    rw [ServerSession.params_settings hset, ServerSession.plain_settings hset] at hcarries
    rw [← Option.some.inj (hchosen'.symm.trans hchosen)]
    exact ⟨taken, r.1, htaken, hcarries⟩

end Connection

namespace TcpSession

variable {P : Primitives}

/-- The task has run on its context from its spawn. -/
def Genuine (P : Primitives) (s : TcpSession) : Prop :=
  ∃ events, s = Machine.run (step P) ⟨s.ctx, .spawned⟩ events

theorem step_genuine {s : TcpSession} (h : s.Genuine P) (event : TaskEvent) :
    (s.step P event).Genuine P := by
  obtain ⟨events, heq⟩ := h
  refine ⟨events ++ [event], ?_⟩
  rw [step_ctx, Machine.run_append, ← heq]
  rfl

/-- A live connection has come from a new session with the arguments of its context. -/
theorem Genuine.live {s : TcpSession} (h : s.Genuine P) {c : Connection}
    (hlive : s.task = .live c) : ∃ session getrandom events,
      ServerSession.new P s.ctx.password s.ctx.tables.authUsers s.ctx.isMultiUser s.ctx.cipherKind
        getrandom = .ok session ∧
      c = Machine.run (Connection.step P s.ctx) (Connection.start session) events := by
  obtain ⟨events, heq⟩ := h
  rw [heq] at hlive
  obtain ⟨-, getrandom, back, -, hhandled⟩ := TcpListener.live_handles hlive
  rw [Connection.handleStream] at hhandled
  cases hnew : ServerSession.new P s.ctx.password s.ctx.tables.authUsers s.ctx.isMultiUser
      s.ctx.cipherKind getrandom with
  | ok session =>
      rw [hnew] at hhandled
      cases hhandled
      exact ⟨session, getrandom, _, hnew, rfl⟩
  | err e =>
      rw [hnew] at hhandled
      cases hhandled
  | panic =>
      rw [hnew] at hhandled
      cases hhandled

/-- A live connection serves whom its codec identifies, step by step. -/
theorem Genuine.served {s : TcpSession} (h : s.Genuine P) (htables : Complete s.ctx.tables)
    {c : Connection} (hlive : s.task = .live c) : ∃ codec getrandom events,
      ServerSession.new P s.ctx.password s.ctx.tables.authUsers s.ctx.isMultiUser s.ctx.cipherKind
        getrandom = .ok codec ∧
      c = Machine.run (Connection.step P s.ctx) (Connection.start codec) events ∧
      ∀ before event u, before ++ [event] <+: events →
        Connection.codecUser P
          (Machine.run (Connection.step P s.ctx) (Connection.start codec) before).phase event =
            some u →
        ∃ key, Connection.ServedWith P s.ctx codec
          (Machine.run (Connection.step P s.ctx) (Connection.start codec) before) event u key := by
  obtain ⟨codec, getrandom, events, hnew, hrun⟩ := h.live hlive
  refine ⟨codec, getrandom, events, hnew, hrun, ?_⟩
  intro before event u _ hu
  exact Connection.identified_served htables hnew before event hu

end TcpSession

/-- The sessions of a listener are on tables that were published. -/
theorem TcpListener.RunOn.sessions {P : Primitives} {cfg : TcpConfig}
    {published : List UserTables} {l : TcpListener} (h : l.RunOn P cfg published) :
    ∀ session ∈ l.sessions, session.ctx.tables ∈ published ∧ session.Genuine P := by
  obtain ⟨tables, htables, hreaches⟩ := h
  have hkept : l.tables ∈ published ∧
      ∀ session ∈ l.sessions, session.ctx.tables ∈ published ∧ session.Genuine P := by
    apply hreaches.keeps (Q := fun l => l.tables ∈ published ∧
      ∀ session ∈ l.sessions, session.ctx.tables ∈ published ∧ session.Genuine P)
    · rintro l event hevent ⟨hcurrent, hsessions⟩
      refine ⟨?_, ?_⟩
      · cases event with
        | republish other => exact hevent other rfl
        | _ =>
            rw [step_tables (by rintro _ ⟨⟩)]
            exact hcurrent
      · intro session hmem
        rcases mem_step_sessions hmem with hold | ⟨peerIp, peer, -, rfl⟩ |
          ⟨i, taskEvent, -, old, hold, rfl⟩
        · exact hsessions session hold
        · exact ⟨hcurrent, [], rfl⟩
        · obtain ⟨hpublished, hgenuine⟩ := hsessions old (List.mem_of_getElem? hold)
          rw [TcpSession.step_ctx]
          exact ⟨hpublished, TcpSession.step_genuine hgenuine taskEvent⟩
    · exact ⟨htables, List.forall_mem_nil _⟩
  exact hkept.2

/-! ### UDP clients -/

namespace UdpListener

variable {P : Primitives} {ctx : UdpContext} {admitted : Nat → List UInt8 → Prop}

/-- The account of the port with the port's key, or a user that is admitted with the key. -/
def Vouched (ctx : UdpContext) (admitted : Nat → List UInt8 → Prop) (userId : Nat)
    (key : List UInt8) : Prop :=
  userId = ctx.userId ∧ key = ctx.masterKey ∨ admitted userId key

/-- The datagrams that have passed and the associations that are kept are of such accounts. -/
structure Vouches (ctx : UdpContext) (admitted : Nat → List UInt8 → Prop) (s : UdpListener) :
    Prop where
  verified : ∀ key signWith, .verified key signWith ∈ s.log →
    Vouched ctx admitted key.userId signWith
  associations : ∀ key association, s.associations.value? key = some association →
    Vouched ctx admitted key.userId association.responseKey

/-- A step that verifies nothing and keeps associations at most. -/
theorem Vouches.of_aside {s s' : UdpListener} (h : Vouches ctx admitted s)
    {acts : List UdpAction} (hlog : s'.log = s.log ++ acts)
    (haside : ∀ action ∈ acts, action.Aside)
    (hentries : ∀ key association, s'.associations.value? key = some association →
      s.associations.value? key = some association) : Vouches ctx admitted s' := by
  refine ⟨?_, fun key association hfound => h.associations key association
    (hentries key association hfound)⟩
  intro key signWith hmem
  rw [hlog] at hmem
  cases List.mem_append.mp hmem with
  | inl hold => exact h.verified key signWith hold
  | inr hnew => exact absurd (haside _ hnew) id

theorem Vouches.of_entries {s s' : UdpListener} (h : Vouches ctx admitted s)
    (hlog : s'.log = s.log)
    (hentries : ∀ key association, s'.associations.value? key = some association →
      s.associations.value? key = some association) : Vouches ctx admitted s' :=
  h.of_aside (hlog.trans (List.append_nil _).symm) (List.forall_mem_nil _) hentries

/-- The client of a datagram that the codec has let pass. -/
theorem decrypted_vouched {tables : UserTables} (htables : tables.Admits admitted)
    {datagram plain : List UInt8} {authenticated : Option Nat}
    (hdecrypt : udpDecryptPacket P ctx.masterKey tables.authUsers ctx.isMultiUser datagram
      ctx.cipherKind = .ok (plain, authenticated)) :
    Vouched ctx admitted (authenticated.getD ctx.userId)
      (responseKey ctx tables authenticated) := by
  cases authenticated with
  | none => exact Or.inl ⟨rfl, rfl⟩
  | some u =>
      have hlisted := udpDecryptPacket_mem P hdecrypt
      have hkey := Std.HashMap.getElem?_eq_some_getElem hlisted
      have hresponse : responseKey ctx tables (some u) = tables.authUsers[u] := by
        rw [responseKey, hkey]
        rfl
      rw [hresponse]
      exact Or.inr (htables u _ hkey)

/-- A datagram that passes for a user verifies with the key of that user. -/
theorem decrypted_keyed (htakes : ctx.cipherKind.Takes ctx.masterKey) {tables : UserTables}
    {datagram plain : List UInt8} {u : Nat}
    (hdecrypt : udpDecryptPacket P ctx.masterKey tables.authUsers ctx.isMultiUser datagram
      ctx.cipherKind = .ok (plain, some u)) :
    ∃ key, tables.authUsers[u]? = some key ∧
      DatagramKeyed P key (udpBody P ctx.masterKey datagram ctx.cipherKind) := by
  obtain ⟨hlong, hmac, -, hid⟩ := (udpDecryptPacket_ok_iff P _ _ _ htakes _ _).mp hdecrypt
  have hlen := length_udpBody P ctx.masterKey datagram ctx.cipherKind
  refine ⟨_, udpSelect_userId hid.symm, by omega, hmac.symm⟩

theorem handleInbound_vouches {tables : UserTables} (htables : tables.Admits admitted)
    {s : UdpListener} (h : Vouches ctx admitted s) (inbound : Inbound) :
    Vouches ctx admitted ((handleInbound P ctx tables inbound).run s).2 := by
  cases hdecrypt : udpDecryptPacket P ctx.masterKey tables.authUsers ctx.isMultiUser
      inbound.datagram ctx.cipherKind with
  | err e =>
      rw [handleInbound, hdecrypt]
      exact h
  | panic =>
      rw [handleInbound, hdecrypt]
      exact h
  | ok verified =>
      have hvouched := decrypted_vouched htables hdecrypt
      rw [handleInbound_run ctx tables inbound hdecrypt]
      have hdoes : Does (Handles Quiet ⟨inbound.peer, verified.2.getD ctx.userId⟩
          (Made ctx tables inbound (responseKey ctx tables verified.2)
            (verified.2.getD ctx.userId))) (fun _ => True) (fun _ => True)
          (deliver ctx tables (verified.2.getD ctx.userId) (responseKey ctx tables verified.2)
            verified.1 inbound) :=
        deliver_does ctx tables inbound verified.1 (fun _ => trivial) (fun _ _ => trivial)
          (fun _ _ => trivial) (fun _ _ _ _ _ => trivial) (fun _ _ => trivial) (fun _ => trivial)
      have hstate := hdoes.state { s with log := s.log ++ [.verified
        ⟨inbound.peer, verified.2.getD ctx.userId⟩ (responseKey ctx tables verified.2)] }
      obtain ⟨extra, hlog, hquiet⟩ := hstate.log_eq
      refine ⟨?_, ?_⟩
      · intro key signWith hmem
        rw [hlog] at hmem
        cases List.mem_append.mp hmem with
        | inl hbefore =>
            cases List.mem_append.mp hbefore with
            | inl hold => exact h.verified key signWith hold
            | inr hnew =>
                cases List.mem_singleton.mp hnew
                exact hvouched
        | inr hextra => exact absurd (hquiet _ hextra) id
      · intro key association hfound
        rcases hstate.entries key association hfound with hold | ⟨rfl, -, hsign, -⟩
        · exact h.associations key association hold
        · rw [hsign]
          exact hvouched

theorem step_vouches {s : UdpListener} (htables : s.tables.Admits admitted)
    (h : Vouches ctx admitted s) (event : UdpEvent) :
    Vouches ctx admitted (step P ctx s event) := by
  cases event with
  | republish tables => exact h.of_entries rfl fun _ _ hv => hv
  | datagram inbound =>
      have hexpired : Vouches ctx admitted { s with
          associations := s.associations.expire inbound.expireAt } :=
        h.of_entries rfl fun _ _ hv => BoundedTtlMap.value?_evictExpired hv
      refine step_datagram h (handleInbound_vouches htables hexpired inbound) ?_
      intro s' hs'
      exact hs'.of_entries rfl fun _ _ hv => BoundedTtlMap.value?_retain hv
  | response key source data getrandom sent =>
      rw [step]
      cases s.pumpOf? key with
      | none => exact h
      | some association =>
          obtain ⟨acts, hlog, haside, -, -, -, -, hmap⟩ :=
            pumpTurn_aside (P := P) s key association source data getrandom sent
          apply h.of_aside hlog haside
          intro k v hv
          rwa [hmap] at hv
  | pumpFailed key =>
      rw [step]
      cases s.pumpOf? key with
      | none => exact h
      | some association => exact h.of_entries rfl fun _ _ hv => hv
  | stop => exact h.of_entries rfl fun _ _ hv => BoundedTtlMap.value?_retain hv

theorem step_tables {s : UdpListener} {event : UdpEvent}
    (hevent : ∀ tables, event ≠ .republish tables) : (step P ctx s event).tables = s.tables := by
  have hkeeps : Keeps (fun _ => True) s (step P ctx s event) :=
    step_keeps ⟨fun _ _ _ => trivial, fun _ _ _ => trivial⟩ hevent
  exact hkeeps.tables_eq

theorem RunOn.vouches {limits : RelayLimits} {published : List UserTables} {l : UdpListener}
    (h : l.RunOn P limits ctx published)
    (hadmits : ∀ tables ∈ published, tables.Admits admitted) : Vouches ctx admitted l := by
  obtain ⟨tables, htables, hreaches⟩ := h
  have hkept : l.tables ∈ published ∧ Vouches ctx admitted l := by
    apply hreaches.keeps (Q := fun l => l.tables ∈ published ∧ Vouches ctx admitted l)
    · rintro l event hevent ⟨hcurrent, hvouches⟩
      refine ⟨?_, step_vouches (hadmits _ hcurrent) hvouches event⟩
      cases event with
      | republish other => exact hevent other rfl
      | _ =>
          rw [step_tables (by rintro _ ⟨⟩)]
          exact hcurrent
    · refine ⟨htables, ?_, ?_⟩
      · rintro _ _ ⟨⟩
      · intro key association hfound
        rw [start_value?] at hfound
        cases hfound
  exact hkept.2

end UdpListener

/-- The master key of a spawn fits its cipher. -/
theorem ListenerTask.args_takes {P : Primitives} {limits : RelayLimits} {task : ListenerTask}
    {ctx : UdpContext} (h : task.args? P limits = some (.udp ctx)) :
    ctx.cipherKind.Takes ctx.masterKey := by
  rw [args?, ListenerLoop.opened] at h
  cases hkind : (task.profile.cipherKind : Outcome String CipherKind) with
  | ok kind =>
      rw [hkind] at h
      cases htask : task.kind with
      | tcp =>
          rw [htask] at h
          cases h
      | udp =>
          rw [htask] at h
          cases h
          exact CipherKind.takes_of_length (by simp [deriveMasterKey])
  | err e =>
      rw [hkind] at h
      cases h
  | panic =>
      rw [hkind] at h
      cases h

/-! ### The tables -/

/-- A row of the list that is published for its own user, with the key of its password. -/
def BackendRuntime.Authorizes (P : Primitives) (users : List PanelUser) (u : Nat)
    (key : List UInt8) : Prop :=
  ∃ row ∈ users, row.isMultiUser = 0 ∧ row.userId = u ∧ key = deriveUserAuthKey P row.password

namespace BackendRuntime

variable (P : Primitives) (fromUser : PanelUser → UserPolicy)

theorem applyUsers_admits (users : List PanelUser) (rt : BackendRuntime) :
    (applyUsers P fromUser users rt).tables.Admits (Authorizes P users) := by
  intro u key hkey
  rw [applyUsers_auth] at hkey
  obtain ⟨row, hrow, rfl⟩ := Option.map_eq_some_iff.mp hkey
  have hmem := List.mem_filter.mp (List.mem_of_getLast? hrow)
  obtain ⟨hmode, hid⟩ := of_decide_eq_true hmem.2
  exact ⟨row, hmem.1, hmode, hid, rfl⟩

/-- After any polls the keys are those of rows of a list among the answers. -/
theorem polls_admits (config : Config) (answers : List (Except String (List PanelUser))) :
    (polls P fromUser (new config) answers).tables.Admits fun u key =>
      ∃ users, .ok users ∈ answers ∧ Authorizes P users u key := by
  induction answers using List.reverseRecOn with
  | nil =>
      intro u key hkey
      have hempty : (UserTables.empty).authUsers[u]? = none := Std.HashMap.getElem?_empty
      cases hempty.symm.trans hkey
  | append_singleton answers answer ih =>
      have hlast : polls P fromUser (new config) (answers ++ [answer]) =
          synced P fromUser answer (polls P fromUser (new config) answers) := polls_append ..
      rw [hlast]
      rcases synced_cases P fromUser answer (polls P fromUser (new config) answers) with
        hsame | ⟨users, rfl, happly⟩
      · rw [hsame]
        refine ih.mono ?_
        rintro u key ⟨users, hmem, hauthorizes⟩
        exact ⟨users, List.mem_append_left _ hmem, hauthorizes⟩
      · rw [happly]
        refine (applyUsers_admits P fromUser users _).mono ?_
        intro u key hauthorizes
        exact ⟨users, List.mem_append_right _ (List.mem_singleton_self _), hauthorizes⟩

end BackendRuntime

/-- A step of the books publishes the tables that it leaves, or nothing. -/
theorem Accounting.mem_step_published {P : Primitives} {fromUser : PanelUser → UserPolicy}
    {s : Accounting} {event : AccountingEvent} {tables : UserTables}
    (h : tables ∈ (step P fromUser s event).published) :
    tables ∈ s.published ∨ tables = (step P fromUser s event).runtime.tables := by
  cases event with
  | record snapshot userId direction bytes =>
      rw [step] at h
      split at h
      · exact Or.inl h
      · exact Or.inl h
  | sync answer =>
      rw [step] at h ⊢
      cases hflight : s.inFlight with
      | some deltas =>
          rw [hflight] at h
          exact Or.inl h
      | none =>
          rw [hflight] at h
          exact (List.mem_append.mp h).imp id List.mem_singleton.mp
  | report =>
      rw [step] at h
      split at h
      · exact Or.inl h
      · exact Or.inl h
  | answered answer =>
      rw [step] at h
      split at h
      · exact Or.inl h
      · cases answer with
        | error reason => exact Or.inl h
        | ok _ => exact Or.inl h

namespace MainLoop

variable {V : Type} (L : Libraries V)

/-- The panel has answered with a row that gives the user the key. -/
def Entitled (exchanges : List (Request × HttpReply V)) (u : Nat) (key : List UInt8) : Prop :=
  ∃ exchange ∈ exchanges, ∃ users, usersAnswer? L exchange = some (.ok users) ∧
    BackendRuntime.Authorizes L.primitives users u key

variable {L}

theorem mem_step_published {s : MainLoop V} {event : LoopEvent V} {tables : UserTables}
    (h : tables ∈ (step L s event).published) :
    tables ∈ s.published ∨ tables = (step L s event).runtime.tables := by
  obtain ⟨rt, -, -, htables, heq⟩ := step_ledgers L s event
  have hpublished : (step L s event).published = (s.booked L event).published :=
    congrArg Accounting.published heq
  have hruntime : (step L s event).runtime = rt := congrArg Accounting.runtime heq
  rw [hpublished, booked] at h
  rw [hruntime, htables, booked]
  cases hevent : s.ledgerEvent L event with
  | none =>
      rw [hevent] at h
      exact Or.inl h
  | some ledgerEvent =>
      rw [hevent] at h
      exact Accounting.mem_step_published h

variable (L)

/-- The tables in force have the keys of the panel's answers, and the entries of their users. -/
theorem tables_entitled (config : Config) (panel : PanelConfig) (events : List (LoopEvent V)) :
    let s := after L config panel events
    Complete s.runtime.tables ∧ s.runtime.tables.Admits (Entitled L s.exchanges) := by
  intro s
  rw [(run_polled L config panel events).alike.tables_eq]
  refine ⟨?_, ?_⟩
  · obtain ⟨users, hserving⟩ := BackendRuntime.polls_serving L.primitives L.fromUser config
      (s.exchanges.filterMap (usersAnswer? L))
    exact hserving.complete
  · refine (BackendRuntime.polls_admits L.primitives L.fromUser config _).mono ?_
    rintro u key ⟨users, hmem, hauthorizes⟩
    obtain ⟨exchange, hexchange, hanswer⟩ := List.mem_filterMap.mp hmem
    exact ⟨exchange, hexchange, users, hanswer, hauthorizes⟩

/-- So have all that have been published. -/
theorem published_entitled (config : Config) (panel : PanelConfig)
    (events : List (LoopEvent V)) :
    let s := after L config panel events
    ∀ tables ∈ s.published, Complete tables ∧ tables.Admits (Entitled L s.exchanges) := by
  induction events using List.reverseRecOn with
  | nil =>
      intro s tables hmem
      rw [List.mem_singleton.mp hmem]
      exact tables_entitled L config panel []
  | append_singleton events event ih =>
      intro s tables hmem
      have hlast : s = step L (after L config panel events) event := Machine.run_append ..
      have hcurrent := tables_entitled L config panel (events ++ [event])
      rw [hlast] at hmem
      cases mem_step_published hmem with
      | inl hold =>
          obtain ⟨hcomplete, hadmits⟩ := ih tables hold
          refine ⟨hcomplete, hadmits.mono ?_⟩
          rintro u key ⟨exchange, hexchange, hanswer⟩
          refine ⟨exchange, ?_, hanswer⟩
          rw [hlast, (step_noted L _ event).2]
          exact List.mem_append_left _ hexchange
      | inr hnew =>
          rw [hnew, ← hlast]
          exact hcurrent

end MainLoop

/-! ### The whole -/

namespace Backend

variable {V : Type} (L : Libraries V) (limits : RelayLimits)

/-- In every run of the backend a TCP session is on tables that were published, and after every
step of it by which its codec has identified a user, steps that end it among them: the codec has
chosen the key of that user in these tables, a key that the panel has answered with for the user;
all that is counted, limited and let in is so on the entries of the user there; and none of it is
before the client's bytes have verified with the key. A datagram that passes for a user under
published tables verifies with the key of the user there, again one that the panel has answered
with; and the key that the answers to a client are signed with is that of its user, or the port's
for the account of the port. -/
theorem served_users_entitled (config : Config) (panel : PanelConfig)
    (events : List (BackendEvent V)) :
    let b := after L limits config panel events
    ∀ relay ∈ b.relays,
      (∀ cfg listener, relay.loop = .tcp cfg listener → ∀ session ∈ listener.sessions,
        ∀ c, session.task = .live c → session.ctx.tables ∈ b.loop.published ∧
          ∃ codec getrandom served,
            ServerSession.new L.primitives session.ctx.password session.ctx.tables.authUsers
              session.ctx.isMultiUser session.ctx.cipherKind getrandom = .ok codec ∧
            c = Machine.run (Connection.step L.primitives session.ctx) (Connection.start codec)
              served ∧
            ∀ before event u, before ++ [event] <+: served →
              let c' := Machine.run (Connection.step L.primitives session.ctx)
                (Connection.start codec) before
              Connection.codecUser L.primitives c'.phase event = some u →
              ∃ key, MainLoop.Entitled L b.loop.exchanges u key ∧
                Connection.ServedWith L.primitives session.ctx codec c' event u key) ∧
      ∀ ctx listener, relay.loop = .udp ctx listener →
        (∀ tables ∈ b.loop.published, ∀ datagram payload u,
          udpDecryptPacket L.primitives ctx.masterKey tables.authUsers ctx.isMultiUser datagram
            ctx.cipherKind = .ok (payload, some u) →
          ∃ key, MainLoop.Entitled L b.loop.exchanges u key ∧
            tables.authUsers[u]? = some key ∧ DatagramKeyed L.primitives key
              (udpBody L.primitives ctx.masterKey datagram ctx.cipherKind)) ∧
        listener.Vouches ctx (MainLoop.Entitled L b.loop.exchanges) := by
  intro b relay hmem
  have hentitled : ∀ tables ∈ b.loop.published,
      Complete tables ∧ tables.Admits (MainLoop.Entitled L b.loop.exchanges) := by
    rw [(run_tied L limits config panel events).loop_eq]
    exact MainLoop.published_entitled L config panel b.trace
  have hruns := run_separate L limits config panel events relay hmem
  refine ⟨?_, ?_⟩
  · intro cfg listener hloop session hsession c hlive
    rw [hloop] at hruns
    obtain ⟨hpublished, hgenuine⟩ := TcpListener.RunOn.sessions hruns session hsession
    obtain ⟨hcomplete, hadmits⟩ := hentitled _ hpublished
    obtain ⟨codec, getrandom, served, hnew, hrun, hserved⟩ := hgenuine.served hcomplete hlive
    refine ⟨hpublished, codec, getrandom, served, hnew, hrun, ?_⟩
    intro before event u hbefore c' hu
    obtain ⟨key, hkey⟩ := hserved before event u hbefore hu
    exact ⟨key, hadmits u key hkey.listed, hkey⟩
  · intro ctx listener hloop
    rw [hloop] at hruns
    refine ⟨?_, UdpListener.RunOn.vouches hruns fun tables htables => (hentitled tables htables).2⟩
    intro tables htables datagram payload u hdecrypt
    have hserves := (run_staffed L limits config panel events).serves relay hmem
    have htakes : ctx.cipherKind.Takes ctx.masterKey :=
      ListenerTask.args_takes (hserves.args (.udp ctx) (by rw [hloop]; rfl))
    obtain ⟨key, hkey, hkeyed⟩ := UdpListener.decrypted_keyed htakes hdecrypt
    exact ⟨key, (hentitled tables htables).2 u key hkey, hkey, hkeyed⟩

end Backend

end SsrBackend
