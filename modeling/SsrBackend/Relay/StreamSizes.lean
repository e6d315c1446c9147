import SsrBackend.Relay.ServedUser
import SsrBackend.Ssr.ReceiveBounds

/-!
How much one connection handles at a time. The buffers of `handle_stream` hold
`READ_CHUNK` bytes, what the codec holds back is short, and a header that is not
complete is shorter still: so the handshake buffer stays small without the limit
the source puts on it, and no single charge to a limiter is large.
-/

namespace SsrBackend

open Call Resumable

variable {P : Primitives}

def readChunk : Nat := 16 * 1024

/-- The reads of an event fill at most the buffer they are given. -/
def StreamEvent.Fits : StreamEvent → Prop
  | clientRead chunk _ _ => chunk.length ≤ readChunk
  | remoteRead chunk _ => chunk.length ≤ readChunk
  | _ => True

namespace ServerSession

theorem decrypt_sendIv {s : ServerSession} (hkey : s.masterKey.length = s.cipher.keyLen)
    (raw : List UInt8) : ((decrypt P raw).run s).2.sendIv = s.sendIv := by
  obtain ⟨_, _, _, hframe⟩ := decrypt_frame (P := P) hkey raw
  rw [hframe]

theorem encrypt_sendIv (s : ServerSession) (plaintext : List UInt8) :
    ((encrypt P plaintext).run s).2.sendIv = s.sendIv := by
  cases hp : s.protocol with
  | none => rw [encrypt_of_none hp]
  | some protocol => rw [encrypt_of_protocol hp]

theorem length_encrypt {s : ServerSession} (hiv : s.sendIv.length ≤ 16)
    {plaintext wire : List UInt8} (h : ((encrypt P plaintext).run s).1 = .ok wire) :
    wire.length ≤ 16 + plaintext.length + 9 * ((plaintext.length - 1) / unitLen + 1) := by
  cases hp : s.protocol with
  | none =>
      rw [encrypt_of_none hp] at h
      cases h
  | some protocol =>
      rw [encrypt_of_protocol hp] at h
      rw [← Outcome.ok.inj h, List.length_append, sealed, StreamCipher.length_process,
        length_serverUnits]
      split
      · simp
      · omega

end ServerSession

namespace Connection

open StreamTask

/-- No single charge to a limiter is larger than `bound`. -/
def Charges (bound : Nat) : Action → Prop
  | .acquire _ amount => amount ≤ bound
  | _ => True

/-- The most that one turn charges: what was left of the handshake and of the codec, and a read. -/
def maxCharge : Nat := 258 + maxUnread + readChunk

theorem permits_charges (ctx : StreamContext) (userId : Nat) :
    Permits ctx userId (Charges maxCharge) (· ≠ .handshakeTooLong) := by
  refine ⟨?_, fun _ h => h⟩
  intro action _ hother
  cases action with
  | acquire limiter amount => exact absurd rfl (hother limiter amount)
  | _ => trivial

/-- The amount that a step passes to `acquire` when the connection has a limiter. -/
def charge? (P : Primitives) : StreamPhase → StreamEvent → Option Nat
  | .connecting _ _ _ initial, .connected _ _ => some initial.length
  | .relay session _, .clientRead chunk _ _ =>
      match ((ServerSession.decrypt P chunk).run session).1 with
      | .ok data => some data.length
      | _ => none
  | .relay session _, .remoteRead chunk _ =>
      match ((ServerSession.encrypt P chunk).run session).1 with
      | .ok wire => some wire.length
      | _ => none
  | _, _ => none

/-- The task has not hit the length limit of the handshake. -/
def Unhurt (c : Connection) : Prop := c.phase ≠ .closed (.err .handshakeTooLong)

section Step

variable {ctx : StreamContext} {Q : Action → Prop}

theorem within_turn {task : StreamTask StreamPhase} {V : StreamPhase → Prop}
    (h : Does (Appends Q) (· ≠ .handshakeTooLong) V task) {log : List Action}
    (hlog : ∀ action ∈ log, Q action)
    (hV : ∀ phase, V phase → phase ≠ .closed (.err .handshakeTooLong)) :
    (∀ action ∈ (settle (task.run log)).log, Q action) ∧ Unhurt (settle (task.run log)) := by
  obtain ⟨hacts, hphase | ⟨e, he, hphase⟩ | hphase⟩ := settle_within h hlog
  · exact ⟨hacts, hV _ hphase⟩
  · refine ⟨hacts, ?_⟩
    intro hlong
    rw [hphase] at hlong
    cases hlong
    exact he rfl
  · refine ⟨hacts, ?_⟩
    intro hlong
    rw [hphase] at hlong
    cases hlong

theorem handshakeTurn_within (hperm : ∀ u, Permits ctx u Q (· ≠ .handshakeTooLong))
    (h : Handshake) (chunk : List UInt8) (world : World) {log : List Action}
    (hlog : ∀ action ∈ log, Q action) :
    (∀ action ∈ (settle ((handshakeTurn P ctx h chunk world).run log)).log, Q action) ∧
      Unhurt (settle ((handshakeTurn P ctx h chunk world).run log)) := by
  by_cases hchunk : chunk = []
  · rw [handshakeTurn, if_pos hchunk]
    exact ⟨hlog, by rintro ⟨⟩⟩
  have hread : ∀ action ∈ log ++ [.read chunk], Q action := by
    intro action hmem
    cases List.mem_append.mp hmem with
    | inl hold => exact hlog action hold
    | inr hnew =>
        rw [List.mem_singleton.mp hnew]
        exact (hperm 0).action trivial (by rintro _ _ ⟨⟩)
  rcases handshakeTurn_cases ctx h hchunk world log with
    ⟨o, hrun, hend⟩ | ⟨out, target, initial, upload, -, -, -, hrun⟩
  · rw [hrun]
    rcases hend with ⟨h', rfl, -⟩ | rfl | ⟨e, rfl, hshort, -⟩
    · exact ⟨hread, by rintro ⟨⟩⟩
    · exact ⟨hread, by rintro ⟨⟩⟩
    · refine ⟨hread, ?_⟩
      intro hlong
      cases hlong
      exact hshort rfl
  · rw [hrun]
    apply within_turn (authenticated_does (hperm _) world _ target initial upload rfl) hread
    rintro phase (rfl | ⟨served, -, rfl⟩) hlong <;> cases hlong

/-- What a step adds to the log, and that it never hits the limit of the handshake. -/
theorem step_within (hperm : ∀ u, Permits ctx u Q (· ≠ .handshakeTooLong)) {c : Connection}
    (hserves : ServesOne ctx c) (event : StreamEvent)
    (hcharge : ∀ limiter amount, charge? P c.phase event = some amount →
      Q (.acquire limiter amount))
    (hlog : ∀ action ∈ c.log, Q action) (hunhurt : Unhurt c) :
    (∀ action ∈ (step P ctx c event).log, Q action) ∧ Unhurt (step P ctx c event) := by
  obtain ⟨phase, log⟩ := c
  rw [step]
  cases phase with
  | closed result => cases event <;> exact ⟨hlog, hunhurt⟩
  | handshake h =>
      cases event with
      | clientRead chunk world write => exact handshakeTurn_within hperm h chunk world hlog
      | clientFailed reason => exact ⟨hlog, by rintro ⟨⟩⟩
      | idle => exact ⟨hlog, by rintro ⟨⟩⟩
      | connected net failure => exact ⟨hlog, hunhurt⟩
      | remoteRead chunk write => exact ⟨hlog, hunhurt⟩
      | remoteFailed reason => exact ⟨hlog, hunhurt⟩
  | connecting session served target initial =>
      cases event with
      | connected net failure =>
          have hdoes := connectTurn_does (hperm 0) session served target initial
            (fun limiter _ => hcharge limiter _ rfl) net failure
          apply within_turn hdoes hlog
          rintro phase rfl hlong
          cases hlong
      | clientRead chunk world write => exact ⟨hlog, hunhurt⟩
      | clientFailed reason => exact ⟨hlog, hunhurt⟩
      | idle => exact ⟨hlog, hunhurt⟩
      | remoteRead chunk write => exact ⟨hlog, hunhurt⟩
      | remoteFailed reason => exact ⟨hlog, hunhurt⟩
  | relay session served =>
      have hbound : Bound ctx log session served := hserves
      cases event with
      | clientRead chunk world write =>
          have hdoes := clientTurn_does (P := P) (hperm _) hbound.served session chunk
            (fun limiter data _ hdata => hcharge limiter data.length (by
              simp only [charge?, hdata])) write
          apply within_turn hdoes hlog
          rintro phase (rfl | rfl) hlong <;> cases hlong
      | remoteRead chunk write =>
          have hdoes := remoteTurn_does (P := P) (hperm _) hbound.served session chunk
            (fun limiter wire _ _ hwire => hcharge limiter wire.length (by
              simp only [charge?, hwire])) write
          apply within_turn hdoes hlog
          rintro phase (rfl | rfl) hlong <;> cases hlong
      | clientFailed reason => exact ⟨hlog, by rintro ⟨⟩⟩
      | remoteFailed reason => exact ⟨hlog, by rintro ⟨⟩⟩
      | idle => exact ⟨hlog, by rintro ⟨⟩⟩
      | connected net failure => exact ⟨hlog, hunhurt⟩

end Step

/-- Every step of a run is taken from a state that serves one user, with a log under `Q`. -/
theorem run_within {s : ServerSession} (hs : s.Fresh P) {ctx : StreamContext} {Q : Action → Prop}
    (hperm : ∀ u, Permits ctx u Q (· ≠ .handshakeTooLong)) (events : List StreamEvent)
    (hcharge : ∀ before event after, events = before ++ event :: after →
      ∀ limiter amount, charge? P (Machine.run (step P ctx) (start s) before).phase event =
        some amount → Q (.acquire limiter amount)) :
    (∀ action ∈ (Machine.run (step P ctx) (start s) events).log, Q action) ∧
      Unhurt (Machine.run (step P ctx) (start s) events) := by
  have hstep : ∀ (c : Connection) (event : StreamEvent),
      (Good P s ctx.enforcement.auditBlock c ∧ ServesOne ctx c) ∧
        (∀ action ∈ c.log, Q action) ∧ Unhurt c →
      (∀ limiter amount, charge? P c.phase event = some amount → Q (.acquire limiter amount)) →
      (Good P s ctx.enforcement.auditBlock (step P ctx c event) ∧
        ServesOne ctx (step P ctx c event)) ∧
        (∀ action ∈ (step P ctx c event).log, Q action) ∧ Unhurt (step P ctx c event) := by
    rintro c event ⟨⟨hgood, hserves⟩, hlog, hunhurt⟩ hcharge
    exact ⟨⟨good_step hgood event, (step_serves hgood hserves event).1⟩,
      step_within hperm hserves event hcharge hlog hunhurt⟩
  have hstart : (Good P s ctx.enforcement.auditBlock (start s) ∧ ServesOne ctx (start s)) ∧
      (∀ action ∈ (start s).log, Q action) ∧ Unhurt (start s) :=
    ⟨⟨good_start hs _, fun _ _ hmem => (nomatch hmem)⟩, fun _ hmem => (nomatch hmem), nofun⟩
  exact (Machine.run_keeps_where hstep hstart events hcharge).2

/-- What a phase holds is of the sizes that a turn adds up to. -/
def Fitting (c : Connection) : Prop :=
  match c.phase with
  | .handshake h => h.session.sendIv.length ≤ 16
  | .connecting session _ _ initial => session.sendIv.length ≤ 16 ∧ initial.length ≤ maxCharge
  | .relay session _ => session.sendIv.length ≤ 16
  | .closed _ => True

section Fitting

variable {s : ServerSession} {ctx : StreamContext} {log : List Action}

theorem fitting_turn {task : StreamTask StreamPhase} {V : StreamPhase → Prop}
    (h : Does (Appends fun _ => True) (fun _ => True) V task)
    (hV : ∀ phase, V phase → Fitting ⟨phase, log⟩) : Fitting (settle (task.run log)) := by
  obtain ⟨-, hphase | ⟨e, -, hphase⟩ | hphase⟩ := settle_within h (fun _ _ => trivial)
  · exact hV _ hphase
  · rw [Fitting, hphase]
    trivial
  · rw [Fitting, hphase]
    trivial

theorem permits_any (ctx : StreamContext) (userId : Nat) :
    Permits ctx userId (fun _ => True) (fun _ => True) := ⟨fun _ _ => trivial, fun _ _ => trivial⟩

theorem handshakeTurn_fitting {auditBlock : Bool} {h : Handshake}
    (hinv : Inv P s auditBlock log (.handshake h)) (hiv : h.session.sendIv.length ≤ 16)
    {chunk : List UInt8} (hfits : chunk.length ≤ readChunk) (world : World) :
    Fitting (settle ((handshakeTurn P ctx h chunk world).run log)) := by
  obtain ⟨r, -, htook, happ, hwait, -⟩ := hinv
  by_cases hchunk : chunk = []
  · rw [handshakeTurn, if_pos hchunk]
    trivial
  have hnext : ((ServerSession.decrypt P chunk).run h.session).2.sendIv.length ≤ 16 := by
    rw [ServerSession.decrypt_sendIv htook.masterKey_length]
    exact hiv
  rcases handshakeTurn_cases ctx h hchunk world log with
    ⟨o, hrun, hend⟩ | ⟨out, target, initial, upload, hout, -, hlength, hrun⟩
  · rw [hrun]
    rcases hend with ⟨h', rfl, hsession⟩ | rfl | ⟨e, rfl, -⟩
    · rw [← hsession] at hnext
      exact hnext
    · trivial
    · trivial
  · rw [hrun]
    have hgiven := (htook.decrypt_holdsLittle hout).2
    have happBuf : h.appBuf.length ≤ 258 := by
      rw [happ]
      exact addressAttempt_wait hwait
    apply fitting_turn (authenticated_does (permits_any ctx _) world _ target initial upload rfl)
    rintro phase (rfl | ⟨served, -, rfl⟩)
    · trivial
    · refine ⟨hnext, ?_⟩
      unfold maxCharge
      omega

theorem step_fitting {c : Connection} (hgood : Good P s ctx.enforcement.auditBlock c)
    (hserves : ServesOne ctx c) (h : Fitting c) {event : StreamEvent} (hfits : event.Fits) :
    Fitting (step P ctx c event) := by
  obtain ⟨phase, log⟩ := c
  rw [step]
  cases phase with
  | closed result => cases event <;> trivial
  | handshake hs =>
      cases event with
      | clientRead chunk world write => exact handshakeTurn_fitting hgood h hfits world
      | clientFailed reason => trivial
      | idle => trivial
      | connected net failure => exact h
      | remoteRead chunk write => exact h
      | remoteFailed reason => exact h
  | connecting session served target initial =>
      have hiv : session.sendIv.length ≤ 16 := h.1
      cases event with
      | connected net failure =>
          apply fitting_turn (connectTurn_does (permits_any ctx 0) session served target initial
            (fun _ _ => trivial) net failure)
          rintro phase rfl
          exact hiv
      | clientRead chunk world write => exact h
      | clientFailed reason => exact h
      | idle => exact h
      | remoteRead chunk write => exact h
      | remoteFailed reason => exact h
  | relay session served =>
      have hiv : session.sendIv.length ≤ 16 := h
      have hbound : Bound ctx log session served := hserves
      obtain ⟨-, r, n, target, initial, front, back, htook, -⟩ := hgood
      cases event with
      | clientRead chunk world write =>
          apply fitting_turn (clientTurn_does (P := P) (permits_any ctx _) hbound.served session
            chunk (fun _ _ _ _ => trivial) write)
          rintro phase (rfl | rfl)
          · trivial
          · change ((ServerSession.decrypt P chunk).run session).2.sendIv.length ≤ 16
            rw [ServerSession.decrypt_sendIv htook.masterKey_length]
            exact hiv
      | remoteRead chunk write =>
          apply fitting_turn (remoteTurn_does (P := P) (permits_any ctx _) hbound.served session
            chunk (fun _ _ _ _ _ => trivial) write)
          rintro phase (rfl | rfl)
          · trivial
          · change ((ServerSession.encrypt P chunk).run session).2.sendIv.length ≤ 16
            rw [ServerSession.encrypt_sendIv]
            exact hiv
      | clientFailed reason => trivial
      | remoteFailed reason => trivial
      | idle => trivial
      | connected net failure => exact h

/-- No step passes more than `maxCharge` to `acquire`. -/
theorem charge_le {c : Connection} (hgood : Good P s ctx.enforcement.auditBlock c)
    (h : Fitting c) {event : StreamEvent} (hfits : event.Fits) {amount : Nat}
    (hcharge : charge? P c.phase event = some amount) : amount ≤ maxCharge := by
  obtain ⟨phase, log⟩ := c
  cases phase with
  | closed result => cases hcharge
  | handshake hs => cases hcharge
  | connecting session served target initial =>
      cases event with
      | connected net failure =>
          cases hcharge
          exact h.2
      | _ => cases hcharge
  | relay session served =>
      obtain ⟨-, r, n, target, initial, front, back, htook, -⟩ := hgood
      cases event with
      | clientRead chunk world write =>
          have hchunk : chunk.length ≤ readChunk := hfits
          simp only [charge?] at hcharge
          cases hcall : ((ServerSession.decrypt P chunk).run session).1 with
          | ok data =>
              rw [hcall] at hcharge
              cases hcharge
              have hdata := (htook.decrypt_holdsLittle hcall).2
              unfold maxCharge
              omega
          | err e =>
              rw [hcall] at hcharge
              cases hcharge
          | panic =>
              rw [hcall] at hcharge
              cases hcharge
      | remoteRead chunk write =>
          have hchunk : chunk.length ≤ readChunk := hfits
          simp only [charge?] at hcharge
          cases hcall : ((ServerSession.encrypt P chunk).run session).1 with
          | ok wire =>
              rw [hcall] at hcharge
              cases hcharge
              have hwire := ServerSession.length_encrypt h hcall
              unfold maxCharge maxUnread readChunk unitLen at *
              omega
          | err e =>
              rw [hcall] at hcharge
              cases hcharge
          | panic =>
              rw [hcall] at hcharge
              cases hcharge
      | _ => cases hcharge

/-- What `step_fitting` needs of a state and gives back. -/
structure Fits (P : Primitives) (s : ServerSession) (ctx : StreamContext) (c : Connection) :
    Prop where
  good : Good P s ctx.enforcement.auditBlock c
  serves : ServesOne ctx c
  fitting : Fitting c

theorem run_fits (hs : s.Fresh P) (ctx : StreamContext) {events : List StreamEvent}
    (hfits : ∀ event ∈ events, event.Fits) :
    Fits P s ctx (Machine.run (step P ctx) (start s) events) := by
  have hstep (c : Connection) (event : StreamEvent) (h : Fits P s ctx c) (hevent : event.Fits) :
      Fits P s ctx (step P ctx c event) :=
    ⟨good_step h.good event, (step_serves h.good h.serves event).1,
      step_fitting h.good h.serves h.fitting hevent⟩
  have hiv : s.sendIv.length ≤ 16 := by
    rw [hs.sendIv_length]
    cases s.cipher <;> decide
  have hstart : Fits P s ctx (start s) := ⟨good_start hs _, fun _ _ hmem => (nomatch hmem), hiv⟩
  apply Machine.run_keeps_where hstep hstart
  rintro before event after rfl
  exact hfits event (by simp)

/-- Every amount a connection passes to `acquire` is at most `maxCharge`. -/
theorem run_charges (hs : s.Fresh P) (ctx : StreamContext) {events : List StreamEvent}
    (hfits : ∀ event ∈ events, event.Fits) :
    ∀ action ∈ (Machine.run (step P ctx) (start s) events).log, Charges maxCharge action := by
  apply (run_within hs (permits_charges ctx) events ?_).1
  rintro before event after rfl limiter amount hcharge
  have hbefore : ∀ e ∈ before, e.Fits := fun e he => hfits e (List.mem_append_left _ he)
  have hstate := run_fits hs ctx hbefore
  exact charge_le hstate.good hstate.fitting (hfits event (by simp)) hcharge

end Fitting

/-- The memory a client can claim: less than an IV, less than a packet, and in the handshake
less than an address header. -/
theorem receive_memory_bounded {s : ServerSession} (hs : s.Fresh P) :
    (∀ (ops : List SessionOp) (raw out : List UInt8),
      (raw = [] → ∀ result ∈ ServerSession.decrypted P s ops, ∃ out, result = .ok out) →
      ((ServerSession.decrypt P raw).run (ServerSession.runOps P s ops).2).1 = .ok out →
      let t := ((ServerSession.decrypt P raw).run (ServerSession.runOps P s ops).2).2
      t.recvIvBuf.length < t.cipher.ivLen ∧
        (∀ protocol, t.protocol = some protocol → protocol.recvBuf.length ≤ 8190) ∧
        out.length ≤ 8190 + raw.length) ∧
    ∀ (ctx : StreamContext) (events : List StreamEvent),
      let c := Machine.run (step P ctx) (start s) events
      (∀ h, c.phase = .handshake h → h.appBuf.length ≤ 258) ∧
        c.phase ≠ .closed (.err .handshakeTooLong) := by
  refine ⟨?_, ?_⟩
  · intro ops raw out hraw hout
    obtain ⟨hlittle, hlength⟩ := hs.decrypt_bounded ops hraw hout
    exact ⟨hlittle.recvIvBuf_lt, hlittle.recvBuf_le, hlength⟩
  · intro ctx events
    refine ⟨?_, ?_⟩
    · intro h hphase
      have hgood := good_run hs ctx events
      rw [Good, hphase] at hgood
      obtain ⟨r, -, -, happ, hwait, -⟩ := hgood
      rw [happ]
      exact addressAttempt_wait hwait
    · have hperm : ∀ u, Permits ctx u (fun _ => True) (· ≠ .handshakeTooLong) :=
        fun _ => ⟨fun _ _ => trivial, fun _ h => h⟩
      exact (run_within hs hperm events fun _ _ _ _ _ _ _ => trivial).2

section Sample

open ClientCodec

/-- The port of the tests, with no user on it. -/
def testContext : StreamContext where
  password := "carrier"
  fallbackUserId := 1
  tables := ⟨∅, ∅, ∅, ∅, ∅⟩
  enforcement := ⟨false, false, false, false⟩
  isMultiUser := 0
  cipherKind := .rc4Md5
  peerIp := "192.0.2.1"
  peer := "192.0.2.1:4000"

/-- The client's packet with the first byte of an address header. -/
def testWire : List UInt8 := testClient.wire .standard (testHello 0) [1] []

theorem testWire_decoded : testSession.decoded .standard testWire =
    .ok ([1], .stream ⟨List.replicate 16 0, none⟩ 1, []) :=
  testSession_decoded (by decide) nofun

theorem testWire_decrypted : (ServerSession.decrypt .standard testWire).run testSession =
    (.ok [1], testSession.received .standard testWire 1
      ([1], .stream ⟨List.replicate 16 0, none⟩ 1, [])) := by
  have hstep := ServerSession.decrypt_received testSession_fresh.masterKey_length
    (fun _ => rfl) (testSession.decoded_nil (P := .standard)) testWire
  rw [testSession_fresh.received_nil, List.nil_append, testWire_decoded] at hstep
  obtain ⟨out, hout, hcall⟩ := hstep
  rw [hcall, ← show [1] = out from hout]

theorem testWire_more : ∃ session protocol,
    (ServerSession.decrypt .standard [0x5a]).run
        (ServerSession.runOps .standard testSession [.decrypt testWire]).2 = (.ok [], session) ∧
      session.protocol = some protocol ∧ protocol.hasRecvHeader = true ∧
      protocol.recvBuf.length = 1 := by
  have hmore := ServerSession.decrypt_of_few testSession_fresh.masterKey_length testWire_decoded
    (show [(0x5a : UInt8)].length ≤ 4 by decide)
  change ∃ session protocol, (ServerSession.decrypt .standard [0x5a]).run
    ((ServerSession.decrypt .standard testWire).run testSession).2 = _ ∧ _
  rw [testWire_decrypted]
  exact hmore

/-- A part of an address header that comes first waits for the rest. -/
theorem run_holds (ctx : StreamContext) {session next : ServerSession}
    {chunk out : List UInt8} (hchunk : chunk ≠ [])
    (hcall : (ServerSession.decrypt P chunk).run session = (.ok out, next)) (hout : out ≠ [])
    (hparse : parse out = .ok none) (hshort : ¬ maxHandshakeBytes < out.length) (world : World)
    (write : Delivery) :
    (Machine.run (step P ctx) (start session) [.clientRead chunk world write]).phase =
      .handshake ⟨next, out, saturatingAdd 0 chunk.length⟩ := by
  have hadds : Adds (handshakeTurn P ctx ⟨session, [], 0⟩ chunk world)
      (.ok (.handshake ⟨next, out, saturatingAdd 0 chunk.length⟩)) ([.read chunk] ++ []) := by
    simp only [handshakeTurn, if_neg hchunk, hcall, if_neg hout, if_neg hshort, lift_ok,
      pure_bind, List.nil_append, hparse]
    exact (adds_perform _).bind (adds_pure _)
  rw [Machine.run_cons, Machine.run_nil]
  change (settle ((handshakeTurn P ctx ⟨session, [], 0⟩ chunk world).run [])).phase = _
  rw [hadds []]
  rfl

/-- Past the header, and in the handshake, with bytes left in both buffers. -/
theorem receive_memory_bounded_test :
    (∃ session protocol, (ServerSession.decrypt .standard [0x5a]).run
        (ServerSession.runOps .standard testSession [.decrypt testWire]).2 = (.ok [], session) ∧
      session.protocol = some protocol ∧ protocol.hasRecvHeader = true ∧
      protocol.recvBuf.length = 1 ∧ protocol.recvBuf.length ≤ 8190) ∧
    ∃ h, (Machine.run (step .standard testContext) (start testSession)
        [.clientRead testWire ⟨fun _ => ∅, []⟩ .done]).phase = .handshake h ∧
      h.appBuf = [1] ∧ h.appBuf.length ≤ 258 := by
  obtain ⟨session, protocol, hcall, hprotocol, hheader, hlength⟩ := testWire_more
  have hbounded := receive_memory_bounded testSession_fresh
  have hpiece := hbounded.1 [.decrypt testWire] [0x5a] [] (by rintro ⟨⟩)
    (congrArg Prod.fst hcall)
  rw [hcall] at hpiece
  have hne : testWire ≠ [] := by
    intro hnil
    have hd := testWire_decoded
    rw [hnil, ServerSession.decoded_nil] at hd
    cases hd
  have hphase := run_holds testContext hne testWire_decrypted (List.cons_ne_nil 1 []) rfl
    (by decide) ⟨fun _ => ∅, []⟩ .done
  have hhandshake := (hbounded.2 testContext
    [.clientRead testWire ⟨fun _ => ∅, []⟩ .done]).1 _ hphase
  exact ⟨⟨session, protocol, hcall, hprotocol, hheader, hlength, hpiece.2.1 protocol hprotocol⟩,
    _, hphase, rfl, hhandshake⟩

/-- The IV, and `n` zero bytes under the cipher. -/
def zeroWire (n : Nat) : List UInt8 :=
  List.replicate 16 0 ++ ((CipherKind.rc4Md5.stream .standard (List.replicate 16 0)
    (List.replicate 16 0)).process .standard (List.replicate n 0)).1

theorem zeroWire_plain (n : Nat) :
    (testSession.plain .standard (zeroWire n)).1 = List.replicate n 0 := by
  have hiv : (List.replicate 16 (0 : UInt8)).length = testSession.cipher.ivLen := rfl
  rw [ServerSession.plain, zeroWire, List.take_left' hiv, List.drop_left' hiv]
  exact congrArg Prod.fst (StreamCipher.process_involutive _ _ _)

theorem zeroWire_rejected {n : Nat} (hn : 7 ≤ n) :
    headerAttempt .standard (testSession.params (zeroWire n))
      (testSession.params (zeroWire n)).initial (testSession.plain .standard (zeroWire n)).1 =
      .reject .checkHead := by
  have hiv : (zeroWire n).take testSession.cipher.ivLen = List.replicate 16 0 :=
    List.take_left' rfl
  have hmac : mac .standard (testSession.params (zeroWire n)).macKey [0] 6 ≠
      List.replicate 6 0 := by
    rw [Params.macKey, ServerSession.params, hiv]
    decide +kernel
  have hhead : window (List.replicate n (0 : UInt8)) 0 1 = [0] := by
    rw [window, List.take_replicate, Nat.min_eq_left (by omega)]
    rfl
  have hcheck : window (List.replicate n (0 : UInt8)) 1 7 = List.replicate 6 0 := by
    rw [window, List.take_replicate, Nat.min_eq_left (by omega)]
    rfl
  rw [zeroWire_plain, headerAttempt, hhead, hcheck, List.length_replicate, if_neg (by omega),
    if_pos hmac]

/-- A header that fails stays in the buffer with all that came behind it, and an empty
call after it succeeds. -/
theorem zeroWire_kept {n : Nat} (hn : 7 ≤ n) :
    (ServerSession.feed .standard testSession [zeroWire n, []]).1 = [.err .checkHead, .ok []] ∧
      ∃ protocol, (ServerSession.feed .standard testSession [zeroWire n, []]).2.protocol =
        some protocol ∧ protocol.recvBuf.length = n := by
  have hlong : testSession.cipher.ivLen < (zeroWire n).length := by
    rw [zeroWire, List.length_append, StreamCipher.length_process, List.length_replicate,
      List.length_replicate]
    change 16 < 16 + n
    omega
  have hfirst := ServerSession.decrypt_of_reject testSession_fresh hlong (zeroWire_rejected hn)
  obtain ⟨hempty, protocol, hprotocol, hbuf⟩ :=
    ServerSession.empty_after_reject testSession_fresh hlong (zeroWire_rejected hn)
  refine ⟨?_, protocol, hprotocol, ?_⟩
  · simp only [ServerSession.feed]
    rw [hempty, hfirst]
  · rw [hbuf, zeroWire_plain, List.length_replicate]

theorem oversized_after_error :
    (ServerSession.feed .standard testSession [zeroWire 9000, []]).1 =
        [.err .checkHead, .ok []] ∧
      ∃ protocol, (ServerSession.feed .standard testSession [zeroWire 9000, []]).2.protocol =
        some protocol ∧ 8190 < protocol.recvBuf.length := by
  obtain ⟨hcalls, protocol, hprotocol, hlength⟩ := zeroWire_kept (show 7 ≤ 9000 by omega)
  exact ⟨hcalls, protocol, hprotocol, by omega⟩

end Sample

end Connection

end SsrBackend
