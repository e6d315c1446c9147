import SsrBackend.Relay.UdpSockets
import SsrBackend.Ssr.AddressLaws

/-!
What a client and its targets see of the UDP listener. The payloads that reach the
targets are those of the datagrams received, in their order and none of them twice;
what is billed is every datagram that was verified, relayed or not; and a client
reads from the responses what the targets have answered, with their addresses.
-/

namespace SsrBackend

open Call

namespace UdpListener

variable {P : Primitives} {ctx : UdpContext}

/-! ### From the clients to the targets -/

/-- The datagrams up to the end of the listener, each with the tables it is handled under. -/
def received (tables : UserTables) : List UdpEvent → List (UserTables × Inbound)
  | [] => []
  | .republish tables' :: events => received tables' events
  | .datagram inbound :: events => (tables, inbound) :: received tables events
  | .response _ _ _ _ _ :: events => received tables events
  | .pumpFailed _ :: events => received tables events
  | .stop :: _ => []

/-- What a run of the listener adds to the log, against the datagrams it received. -/
structure Passes (P : Primitives) (ctx : UdpContext) (datagrams : List (UserTables × Inbound))
    (extra : List UdpAction) : Prop where
  forwards : ∀ current, ((forwarded current extra).map Prod.snd).Sublist
    (datagrams.filterMap (relayed? P ctx))
  all : (∀ r ∈ datagrams, r.2.bind = .ok () ∧ r.2.send = .ok ()) → ∀ current,
    (forwarded current extra).map Prod.snd = datagrams.filterMap (relayed? P ctx)
  bills : uploads extra = datagrams.flatMap (billed P ctx)

theorem passes_aside {acts : List UdpAction} (haside : ∀ action ∈ acts, action.Aside)
    (hnone : uploads acts = []) : Passes P ctx [] acts := by
  refine ⟨?_, ?_, hnone⟩
  · intro current
    rw [(forwarded_aside haside current).1]
    exact List.nil_sublist _
  · intro _ current
    rw [(forwarded_aside haside current).1]
    rfl

theorem Passes.append {xs ys : List (UserTables × Inbound)} {acts more : List UdpAction}
    (h : Passes P ctx xs acts) (h' : Passes P ctx ys more) :
    Passes P ctx (xs ++ ys) (acts ++ more) := by
  refine ⟨?_, ?_, ?_⟩
  · intro current
    rw [forwarded_append, List.map_append, List.filterMap_append]
    exact (h.forwards current).append (h'.forwards _)
  · intro hok current
    rw [forwarded_append, List.map_append, List.filterMap_append,
      h.all (fun r hr => hok r (List.mem_append_left ys hr)) current,
      h'.all (fun r hr => hok r (List.mem_append_right xs hr)) _]
  · rw [uploads_append, List.flatMap_append, h.bills, h'.bills]

/-- One datagram. -/
theorem Receives.passes {inbound : Inbound} {s s' : UdpListener}
    (h : Receives P ctx inbound s s') :
    ∃ acts, s'.log = s.log ++ acts ∧ Passes P ctx [(s.tables, inbound)] acts := by
  obtain ⟨acts, hlog, hbilled, hforwarded⟩ := h.log_eq
  refine ⟨acts, hlog, ?_, ?_, ?_⟩
  · intro current
    rcases hforwarded current with ⟨hnone, -⟩ | ⟨outbound, f, hone, hrelayed, -⟩
    · rw [hnone]
      exact List.nil_sublist _
    · rw [hone, List.filterMap_cons, hrelayed]
      exact List.Sublist.refl _
  · intro hok current
    obtain ⟨hbind, hsend⟩ := hok _ List.mem_cons_self
    rcases hforwarded current with ⟨hnone, hfailed⟩ | ⟨outbound, f, hone, hrelayed, -⟩
    · rw [hnone, List.filterMap_cons]
      cases hrelayed : relayed? P ctx (s.tables, inbound) with
      | none => rfl
      | some f => exact absurd hsend (hfailed (by rw [hrelayed]; rfl) hbind)
    · rw [hone, List.filterMap_cons, hrelayed]
      rfl
  · rw [hbilled, List.flatMap_cons, List.flatMap_nil, List.append_nil]

theorem step_stopped {s : UdpListener} (h : s.stopped = true) (event : UdpEvent) :
    (step P ctx s event).stopped = true := by
  cases event with
  | republish tables => exact h
  | datagram inbound => rw [step, if_pos h, h]
  | response key source data getrandom sent =>
      rw [step]
      cases s.pumpOf? key with
      | none => exact h
      | some association =>
          obtain ⟨-, -, -, -, -, hstopped, -⟩ :=
            pumpTurn_aside (P := P) s key association source data getrandom sent
          exact hstopped.trans h
  | pumpFailed key =>
      rw [step]
      cases s.pumpOf? key with
      | none => exact h
      | some association => exact h
  | stop => rfl

/-- A stopped listener forwards and bills nothing; its pumps have ended with its associations. -/
theorem run_stopped {s : UdpListener} (h : s.stopped = true) (events : List UdpEvent) :
    ∃ acts, (Machine.run (step P ctx) s events).log = s.log ++ acts ∧ Passes P ctx [] acts := by
  induction events generalizing s with
  | nil => exact ⟨[], (List.append_nil _).symm, passes_aside (List.forall_mem_nil _) rfl⟩
  | cons event events ih =>
      have hidles : Idles s (step P ctx s event) := step_idles event (Or.inl h)
      obtain ⟨acts, hlog, haside, hnone⟩ := hidles.log_eq
      obtain ⟨more, hmore, hpasses⟩ := ih (step_stopped h event)
      refine ⟨acts ++ more, ?_, (passes_aside haside hnone).append hpasses⟩
      rw [Machine.run_cons, hmore, hlog, List.append_assoc]

/-- The events that leave a listener running receive as `received` says. -/
theorem step_passes (hkey : ctx.cipherKind.Takes ctx.masterKey) {s : UdpListener}
    (hrunning : s.stopped = false) (event : UdpEvent) (hevent : event ≠ .stop)
    (events : List UdpEvent) :
    let s' := step P ctx s event
    s'.stopped = false ∧ ∃ acts datagrams, s'.log = s.log ++ acts ∧
      received s.tables (event :: events) = datagrams ++ received s'.tables events ∧
      Passes P ctx datagrams acts := by
  have hidle (hnot : ∀ inbound, event ≠ .datagram inbound)
      (hsame : received s.tables (event :: events) =
        received (step P ctx s event).tables events)
      (hstays : (step P ctx s event).stopped = false) :
      (step P ctx s event).stopped = false ∧ ∃ acts datagrams,
        (step P ctx s event).log = s.log ++ acts ∧
        received s.tables (event :: events) =
          datagrams ++ received (step P ctx s event).tables events ∧
        Passes P ctx datagrams acts := by
    have hidles : Idles s (step P ctx s event) := step_idles event (Or.inr hnot)
    obtain ⟨acts, hlog, haside, hnone⟩ := hidles.log_eq
    exact ⟨hstays, acts, [], hlog, hsame, passes_aside haside hnone⟩
  cases event with
  | republish tables => exact hidle (by rintro _ ⟨⟩) rfl hrunning
  | datagram inbound =>
      have hreceives : Receives P ctx inbound s (step P ctx s (.datagram inbound)) :=
        datagram_receives hrunning
      obtain ⟨acts, hlog, hpasses⟩ := hreceives.passes
      refine ⟨(hreceives.stopped_eq hkey).trans hrunning, acts, _, hlog, ?_, hpasses⟩
      rw [received, hreceives.tables_eq]
      rfl
  | response key source data getrandom sent =>
      apply hidle (by rintro _ ⟨⟩)
      · rw [received, step]
        cases s.pumpOf? key with
        | none => rfl
        | some association =>
            obtain ⟨-, -, -, -, htables, -⟩ :=
              pumpTurn_aside (P := P) s key association source data getrandom sent
            rw [htables]
      · rw [step]
        cases s.pumpOf? key with
        | none => exact hrunning
        | some association =>
            obtain ⟨-, -, -, -, -, hstopped, -⟩ :=
              pumpTurn_aside (P := P) s key association source data getrandom sent
            exact hstopped.trans hrunning
  | pumpFailed key =>
      apply hidle (by rintro _ ⟨⟩)
      · rw [received, step]
        cases s.pumpOf? key with
        | none => rfl
        | some association => rfl
      · rw [step]
        cases s.pumpOf? key with
        | none => exact hrunning
        | some association => exact hrunning
  | stop => exact absurd rfl hevent

theorem run_passes (hkey : ctx.cipherKind.Takes ctx.masterKey) {s : UdpListener}
    (hrunning : s.stopped = false) (events : List UdpEvent) :
    ∃ acts, (Machine.run (step P ctx) s events).log = s.log ++ acts ∧
      Passes P ctx (received s.tables events) acts := by
  induction events generalizing s with
  | nil => exact ⟨[], (List.append_nil _).symm, passes_aside (List.forall_mem_nil _) rfl⟩
  | cons event events ih =>
      by_cases hevent : event = .stop
      · subst hevent
        -- the stop itself adds nothing, and nothing is received behind it
        exact run_stopped (s := s.close) rfl events
      · obtain ⟨hstays, acts, datagrams, hlog, hreceived, hpasses⟩ :=
          step_passes (P := P) hkey hrunning event hevent events
        obtain ⟨more, hmore, hrest⟩ := ih hstays
        refine ⟨acts ++ more, ?_, ?_⟩
        · rw [Machine.run_cons, hmore, hlog, List.append_assoc]
        · rw [hreceived]
          exact hpasses.append hrest

/-- A datagram that a listed user's client has made for the target `ip:port`. -/
theorem relayed?_client (hkey : ctx.cipherKind.Takes ctx.masterKey) {tables : UserTables}
    {inbound : Inbound} {uid : UInt32} {userKey iv : List UInt8} {counters : Handle}
    (hlisted : tables.authUsers[uid.toNat]? = some userKey)
    (hcounters : counters? ctx tables uid.toNat = some counters)
    (hiv : iv.length = ctx.cipherKind.ivLen) (ip : IpAddr) (port : UInt16) (payload : List UInt8)
    (hdatagram : inbound.datagram = clientDatagram P ctx.cipherKind ctx.masterKey userKey iv uid
      (packSocketAddr ip port ++ payload)) :
    relayed? P ctx (tables, inbound) =
      (udpDestination? ⟨ip.text, port⟩ tables.policies[uid.toNat]? ctx.enforcement inbound.net).map
        fun contact => ⟨⟨inbound.peer, uid.toNat⟩, contact, payload⟩ := by
  have hopened : opened? P ctx tables inbound =
      some (packSocketAddr ip port ++ payload, some uid.toNat) := by
    rw [opened?, hdatagram, udpDecryptPacket_listed P ctx.isMultiUser hkey hlisted hiv]
  rw [relayed?, hopened, Option.bind_some, Option.getD_some, destination?, hcounters,
    parse_packSocketAddr]
  dsimp only
  rw [List.drop_left]

/-- The uplink of a run, where the key fits the cipher as those of `derive_master_key` do: the
payloads forwarded are those of the datagrams received, in their order and each at most once, all
of them when no socket fails; every verified datagram of a user with a counter is billed with its
whole length, and nothing else is; and what a listed user's client has packed for a target is what
is relayed. -/
theorem uplink_faithful (hkey : ctx.cipherKind.Takes ctx.masterKey) (P : Primitives)
    (tables : UserTables) (associationTtl maxAssociations : Nat) (events : List UdpEvent) :
    let s := Machine.run (step P ctx) (start tables associationTtl maxAssociations) events
    let datagrams := received tables events
    ((forwarded none s.log).map Prod.snd).Sublist (datagrams.filterMap (relayed? P ctx)) ∧
    ((∀ r ∈ datagrams, r.2.bind = .ok () ∧ r.2.send = .ok ()) →
      (forwarded none s.log).map Prod.snd = datagrams.filterMap (relayed? P ctx)) ∧
    uploads s.log = datagrams.flatMap (billed P ctx) ∧
    ∀ (now : UserTables) (inbound : Inbound) (uid : UInt32) (userKey iv : List UInt8)
      (counters : Handle) (ip : IpAddr) (port : UInt16) (payload : List UInt8),
      now.authUsers[uid.toNat]? = some userKey → counters? ctx now uid.toNat = some counters →
      iv.length = ctx.cipherKind.ivLen →
      inbound.datagram = clientDatagram P ctx.cipherKind ctx.masterKey userKey iv uid
        (packSocketAddr ip port ++ payload) →
      relayed? P ctx (now, inbound) =
        (udpDestination? ⟨ip.text, port⟩ now.policies[uid.toNat]? ctx.enforcement inbound.net).map
          fun contact => ⟨⟨inbound.peer, uid.toNat⟩, contact, payload⟩ := by
  intro s datagrams
  have hrunning : (start tables associationTtl maxAssociations).stopped = false := rfl
  obtain ⟨acts, hlog, hpasses⟩ := run_passes (P := P) hkey hrunning events
  have hlog' : s.log = acts := hlog
  rw [hlog']
  refine ⟨hpasses.forwards none, fun hok => hpasses.all hok none, hpasses.bills, ?_⟩
  intro now inbound uid userKey iv counters ip port payload hlisted hcounters hiv hdatagram
  exact relayed?_client hkey hlisted hcounters hiv ip port payload hdatagram

/-- A datagram of user 7 for `127.0.0.1:80` with a payload. -/
def sampleSent (userKey payload : List UInt8) : Inbound :=
  { sampleInbound userKey with
    datagram := clientDatagram .standard .chacha20Ietf (List.replicate 32 0) userKey
      (List.replicate 12 0x42) 7 (samplePlain ++ payload) }

/-- User 7 has two payloads relayed, the second under the key that has been published after the
first. -/
theorem uplink_faithful_sample :
    (forwarded none (Machine.run (step .standard sampleUdp) (start (sampleTables [1]) 60 10)
      [.datagram (sampleSent [1] [104, 105]), .republish (sampleTables [2]),
        .datagram (sampleSent [2] [33])]).log).map Prod.snd =
      [⟨sampleKey, .hostPort "127.0.0.1" 80, [104, 105]⟩,
        ⟨sampleKey, .hostPort "127.0.0.1" 80, [33]⟩] := by
  have hkey : sampleUdp.cipherKind.Takes sampleUdp.masterKey := fun _ => rfl
  obtain ⟨-, hall, -, hclient⟩ := uplink_faithful hkey .standard (sampleTables [1]) 60 10
    [.datagram (sampleSent [1] [104, 105]), .republish (sampleTables [2]),
      .datagram (sampleSent [2] [33])]
  have hpolicy (userKey : List UInt8) :
      (sampleTables userKey).policies[(7 : UInt32).toNat]? = none :=
    Std.HashMap.getElem?_empty
  have hrelayed (userKey payload : List UInt8) :
      relayed? .standard sampleUdp (sampleTables userKey, sampleSent userKey payload) =
        some ⟨sampleKey, .hostPort "127.0.0.1" 80, payload⟩ := by
    rw [hclient (sampleTables userKey) (sampleSent userKey payload) 7 userKey
      (List.replicate 12 0x42) 0 (.v4 #v[127, 0, 0, 1]) 80 payload (by simp [sampleTables])
      (by simp [sampleTables, counters?]) rfl rfl, hpolicy]
    rfl
  have hreceived : received (sampleTables [1])
      [.datagram (sampleSent [1] [104, 105]), .republish (sampleTables [2]),
        .datagram (sampleSent [2] [33])] =
      [(sampleTables [1], sampleSent [1] [104, 105]),
        (sampleTables [2], sampleSent [2] [33])] := rfl
  rw [hreceived] at hall
  rw [hall (by simp [sampleSent, sampleInbound]), List.filterMap_cons, hrelayed]
  dsimp only
  rw [List.filterMap_cons, hrelayed]
  rfl

/-! ### From the targets to the clients -/

/-- A response as the client of the tests reads it: who has answered, and what. -/
def clientRead? (P : Primitives) (ctx : UdpContext) (userKey packet : List UInt8) :
    Option (Address × List UInt8) :=
  let body := udpBody P ctx.masterKey packet ctx.cipherKind
  let plain := body.take (body.length - 4)
  if mac P userKey plain 4 = body.drop (body.length - 4) then
    match parse plain with
    | .ok (some (address, consumed)) => some (address, plain.drop consumed)
    | _ => none
  else none

/-- The responses of a log, each as its client reads it with the key it is signed with. -/
def readings (P : Primitives) (ctx : UdpContext) (log : List UdpAction) :
    List (AssociationKey × Option (Address × List UInt8)) :=
  log.filterMap fun
    | .respond peer userId signWith packet =>
        some (⟨peer, userId⟩, clientRead? P ctx signWith packet)
    | _ => none

def downloads (log : List UdpAction) : List (Handle × Nat) :=
  log.filterMap fun
    | .recordDownload counters bytes => some (counters, bytes)
    | _ => none

/-- An answer of a target that a pump takes up, and whether the server's socket takes it. -/
structure Answer where
  client : AssociationKey
  source : SocketAddr
  data : List UInt8
  counters : Handle
  sent : Bool

/-- The length of the packet that an answer makes. -/
def Answer.packetLength (ctx : UdpContext) (a : Answer) : Nat :=
  ctx.cipherKind.ivLen + (packSocketAddr a.source.ip a.source.port).length + a.data.length + 4

/-- What the client is to read. -/
def Answer.reading (a : Answer) : AssociationKey × Option (Address × List UInt8) :=
  (a.client, some (⟨a.source.ip.text, a.source.port⟩, a.data))

def answer? (ctx : UdpContext) (s : UdpListener) : UdpEvent → Option Answer
  | .response key source data getrandom sent =>
      match s.pumpOf? key, getrandom ctx.cipherKind.ivLen with
      | some association, .ok _ => some ⟨key, source, data, association.counters, sent⟩
      | _, _ => none
  | _ => none

/-- The answers that the pumps take up in a run. -/
def answers (P : Primitives) (ctx : UdpContext) (s : UdpListener) : List UdpEvent → List Answer
  | [] => []
  | event :: events => (answer? ctx s event).toList ++ answers P ctx (step P ctx s event) events

@[simp] theorem readings_append (xs ys : List UdpAction) :
    readings P ctx (xs ++ ys) = readings P ctx xs ++ readings P ctx ys := List.filterMap_append

@[simp] theorem downloads_append (xs ys : List UdpAction) :
    downloads (xs ++ ys) = downloads xs ++ downloads ys := List.filterMap_append

/-- Nothing for a client. -/
def Upward : UdpAction → Prop
  | .recordDownload _ _ => False
  | .respond _ _ _ _ => False
  | _ => True

theorem readings_upward {acts : List UdpAction} (h : ∀ action ∈ acts, Upward action) :
    readings P ctx acts = [] ∧ downloads acts = [] := by
  refine ⟨List.filterMap_eq_nil_iff.mpr ?_, List.filterMap_eq_nil_iff.mpr ?_⟩
  · intro action hmem
    have hup := h action hmem
    cases action with
    | respond peer userId signWith packet => exact hup.elim
    | _ => rfl
  · intro action hmem
    have hup := h action hmem
    cases action with
    | recordDownload counters bytes => exact hup.elim
    | _ => rfl

/-- The keys, the cipher and the peer of a client's association are the listener's and its own. -/
def Fits (ctx : UdpContext) (key : AssociationKey) (association : Association) : Prop :=
  association.masterKey = ctx.masterKey ∧ association.cipherKind = ctx.cipherKind ∧
    association.peer = key.peer

def Fitted (ctx : UdpContext) (s : UdpListener) : Prop :=
  ∀ key association, s.associations.value? key = some association → Fits ctx key association

/-- The packet of an answer, read by its client. -/
theorem udpEncryptPacket_read (hkey : ctx.cipherKind.Takes ctx.masterKey) (signWith : List UInt8)
    (source : SocketAddr) (data : List UInt8) {getrandom : GetRandom}
    {iv : Vector UInt8 ctx.cipherKind.ivLen} (hrandom : getrandom ctx.cipherKind.ivLen = .ok iv) :
    ∃ packet, udpEncryptPacket P ctx.masterKey signWith
        (packSocketAddr source.ip source.port ++ data) ctx.cipherKind getrandom = .ok packet ∧
      packet.length = ctx.cipherKind.ivLen + (packSocketAddr source.ip source.port).length +
        data.length + 4 ∧
      clientRead? P ctx signWith packet = some (⟨source.ip.text, source.port⟩, data) := by
  obtain ⟨packet, hpacket, hiv, hbody⟩ := udpEncryptPacket_body P signWith
    (packSocketAddr source.ip source.port ++ data) hkey hrandom
  have hmac : (mac P signWith (packSocketAddr source.ip source.port ++ data) 4).length = 4 :=
    length_mac P _ _ (by omega)
  have hlength := congrArg List.length hbody
  have hfront : ctx.cipherKind.ivLen ≤ packet.length := by
    have htaken := congrArg List.length hiv
    rw [List.length_take, Vector.length_toList] at htaken
    omega
  rw [length_udpBody, List.length_append, List.length_append, hmac] at hlength
  refine ⟨packet, hpacket, by omega, ?_⟩
  rw [clientRead?, hbody, List.length_append, hmac, Nat.add_sub_cancel, List.take_left, List.drop_left, if_pos rfl,
    parse_packSocketAddr]
  dsimp only
  rw [List.drop_left]

/-- What a step adds for the clients. -/
def Answers (P : Primitives) (ctx : UdpContext) (taken : List Answer) (extra : List UdpAction) :
    Prop :=
  readings P ctx extra = (taken.filter Answer.sent).map Answer.reading ∧
    downloads extra = taken.map fun a => (a.counters, a.packetLength ctx)

theorem Answers.append {xs ys : List Answer} {acts more : List UdpAction}
    (h : Answers P ctx xs acts) (h' : Answers P ctx ys more) :
    Answers P ctx (xs ++ ys) (acts ++ more) := by
  refine ⟨?_, ?_⟩
  · rw [readings_append, List.filter_append, List.map_append, h.1, h'.1]
  · rw [downloads_append, List.map_append, h.2, h'.2]

/-- A pump's turn. -/
theorem pumpTurn_answers (hkey : ctx.cipherKind.Takes ctx.masterKey) {s : UdpListener}
    {key : AssociationKey} {association : Association} (hpump : s.pumpOf? key = some association)
    (hfits : Fits ctx key association) (source : SocketAddr) (data : List UInt8)
    (getrandom : GetRandom) (sent : Bool) :
    ∃ acts, (pumpTurn P s key association source data getrandom sent).log = s.log ++ acts ∧
      Answers P ctx (answer? ctx s (.response key source data getrandom sent)).toList acts := by
  obtain ⟨hmaster, hcipher, hpeer⟩ := hfits
  rw [pumpTurn, answer?, hpump, hmaster, hcipher]
  dsimp only
  cases hrandom : getrandom ctx.cipherKind.ivLen with
  | error reason =>
      have hfails : udpEncryptPacket P ctx.masterKey association.responseKey
          (packSocketAddr source.ip source.port ++ data) ctx.cipherKind getrandom =
          .err (.randomIv reason) := by
        have hmac : (hmacMd5Prefix P association.responseKey
            (packSocketAddr source.ip source.port ++ data) 4 : Outcome CodecError _) =
            .ok (mac P association.responseKey _ 4) := hmacMd5Prefix_of_le P _ _ (by omega)
        simp only [udpEncryptPacket, udpServerPreEncrypt, hmac, Outcome.pure_def, Outcome.ok_bind,
          hrandom]
      rw [hfails]
      exact ⟨[], (List.append_nil _).symm, rfl, rfl⟩
  | ok iv =>
      obtain ⟨packet, hpacket, hlength, hread⟩ :=
        udpEncryptPacket_read (P := P) hkey association.responseKey source data hrandom
      rw [hpacket]
      cases sent with
      | false =>
          refine ⟨[_], rfl, rfl, ?_⟩
          change [(association.counters, packet.length)] = _
          rw [hlength]
          rfl
      | true =>
          refine ⟨[_, _], List.append_assoc .., ?_, ?_⟩
          · change [(AssociationKey.mk association.peer key.userId,
              clientRead? P ctx association.responseKey packet)] = _
            rw [hread, hpeer]
            rfl
          · change [(association.counters, packet.length)] = _
            rw [hlength]
            rfl

/-- A datagram: nothing for a client, and an association that fits. -/
theorem handleInbound_upward (ctx : UdpContext) (tables : UserTables) (inbound : Inbound) (s : UdpListener) :
    let s' := ((handleInbound P ctx tables inbound).run s).2
    (∃ acts, s'.log = s.log ++ acts ∧ ∀ action ∈ acts, Upward action) ∧
      ∀ k v, s'.associations.value? k = some v →
        s.associations.value? k = some v ∨ Fits ctx k v := by
  have hsame : (∃ acts, s.log = s.log ++ acts ∧ ∀ action ∈ acts, Upward action) ∧
      ∀ k v, s.associations.value? k = some v →
        s.associations.value? k = some v ∨ Fits ctx k v :=
    ⟨⟨[], (List.append_nil _).symm, by rintro _ ⟨⟩⟩, fun _ _ h => Or.inl h⟩
  dsimp only
  cases hdecrypt : udpDecryptPacket P ctx.masterKey tables.authUsers ctx.isMultiUser
      inbound.datagram ctx.cipherKind with
  | err e =>
      rw [handleInbound, hdecrypt]
      exact hsame
  | panic =>
      rw [handleInbound, hdecrypt]
      exact hsame
  | ok verified =>
      rw [handleInbound_run ctx tables inbound hdecrypt]
      have hdoes : Does (Handles Upward ⟨inbound.peer, verified.2.getD ctx.userId⟩
          (Made ctx tables inbound (responseKey ctx tables verified.2)
            (verified.2.getD ctx.userId))) (fun _ => True) (fun _ => True)
          (deliver ctx tables (verified.2.getD ctx.userId) (responseKey ctx tables verified.2)
            verified.1 inbound) :=
        deliver_does ctx tables inbound verified.1 (fun _ => trivial) (fun _ _ => trivial)
          (fun _ _ => trivial) (fun _ _ _ _ _ => trivial) (fun _ _ => trivial) (fun _ => trivial)
      have hstate := hdoes.state { s with log := s.log ++ [.verified
        ⟨inbound.peer, verified.2.getD ctx.userId⟩ (responseKey ctx tables verified.2)] }
      obtain ⟨acts, hlog, hup⟩ := hstate.log_eq
      refine ⟨⟨[.verified ⟨inbound.peer, verified.2.getD ctx.userId⟩
        (responseKey ctx tables verified.2)] ++ acts, ?_, ?_⟩, ?_⟩
      · rw [hlog, List.append_assoc]
      · intro action hmem
        rcases List.mem_cons.mp hmem with rfl | hrest
        · trivial
        · exact hup action hrest
      · intro k v hv
        rcases hstate.entries k v hv with hold | ⟨rfl, hmaster, -, hpeer, hcipher, -⟩
        · exact Or.inl hold
        · exact Or.inr ⟨hmaster, hcipher, hpeer⟩

theorem step_answers (hkey : ctx.cipherKind.Takes ctx.masterKey) {s : UdpListener}
    (h : Fitted ctx s) (event : UdpEvent) :
    Fitted ctx (step P ctx s event) ∧ ∃ acts, (step P ctx s event).log = s.log ++ acts ∧
      Answers P ctx (answer? ctx s event).toList acts := by
  have hstays {s' : UdpListener} (hlog : s'.log = s.log)
      (hentries : ∀ k v, s'.associations.value? k = some v → s.associations.value? k = some v)
      (hnone : answer? ctx s event = none) :
      Fitted ctx s' ∧ ∃ acts, s'.log = s.log ++ acts ∧
        Answers P ctx (answer? ctx s event).toList acts := by
    refine ⟨fun k v hv => h k v (hentries k v hv), [], by rw [hlog, List.append_nil], ?_⟩
    rw [hnone]
    exact ⟨rfl, rfl⟩
  cases event with
  | republish tables => exact hstays rfl (fun _ _ hv => hv) rfl
  | datagram inbound =>
      obtain ⟨⟨acts, hlog, hup⟩, hentries⟩ := handleInbound_upward (P := P) ctx s.tables
        inbound { s with associations := s.associations.expire inbound.expireAt }
      have hfitted : Fitted ctx ((handleInbound P ctx s.tables inbound).run { s with
          associations := s.associations.expire inbound.expireAt }).2 := by
        intro k v hv
        rcases hentries k v hv with hold | hfits
        · exact h k v (BoundedTtlMap.value?_evictExpired hold)
        · exact hfits
      apply step_datagram (Q := fun s' => Fitted ctx s' ∧ ∃ acts, s'.log = s.log ++ acts ∧
        Answers P ctx _ acts)
      · exact hstays rfl (fun _ _ hv => hv) rfl
      · exact ⟨hfitted, acts, hlog, readings_upward hup⟩
      · intro s' hs'
        refine ⟨?_, hs'.2⟩
        intro k v hv
        exact hs'.1 k v (BoundedTtlMap.value?_retain hv)
  | response key source data getrandom sent =>
      rw [step]
      cases hpump : s.pumpOf? key with
      | none =>
          apply hstays rfl (fun _ _ hv => hv)
          rw [answer?, hpump]
      | some association =>
          have hfits := h key association (Option.filter_eq_some_iff.mp hpump).1
          refine ⟨?_, pumpTurn_answers hkey hpump hfits source data getrandom sent⟩
          obtain ⟨-, -, -, -, -, -, -, hmap⟩ :=
            pumpTurn_aside (P := P) s key association source data getrandom sent
          intro k v hv
          dsimp only at hv
          rw [hmap] at hv
          exact h k v hv
  | pumpFailed key =>
      rw [step]
      cases s.pumpOf? key with
      | none => exact hstays rfl (fun _ _ hv => hv) rfl
      | some association => exact hstays rfl (fun _ _ hv => hv) rfl
  | stop => exact hstays rfl (fun _ _ hv => BoundedTtlMap.value?_retain hv) rfl

theorem run_answers (hkey : ctx.cipherKind.Takes ctx.masterKey) {s : UdpListener}
    (h : Fitted ctx s) (events : List UdpEvent) :
    ∃ acts, (Machine.run (step P ctx) s events).log = s.log ++ acts ∧
      Answers P ctx (answers P ctx s events) acts := by
  induction events generalizing s with
  | nil => exact ⟨[], (List.append_nil _).symm, rfl, rfl⟩
  | cons event events ih =>
      obtain ⟨hfitted, acts, hlog, hanswers⟩ := step_answers (P := P) hkey h event
      obtain ⟨more, hmore, hrest⟩ := ih hfitted
      refine ⟨acts ++ more, ?_, hanswers.append hrest⟩
      rw [Machine.run_cons, hmore, hlog, List.append_assoc]

/-- The downlink of a run, where the key fits the cipher as those of `derive_master_key` do: what
the clients read from their responses is what the targets have answered on the pumps, in the order
of the answers, with the source of each; and every answer taken up is billed with the length of
its packet, sent or not. -/
theorem downlink_faithful (hkey : ctx.cipherKind.Takes ctx.masterKey) (P : Primitives)
    (tables : UserTables) (associationTtl maxAssociations : Nat) (events : List UdpEvent) :
    let s₀ := start tables associationTtl maxAssociations
    let s := Machine.run (step P ctx) s₀ events
    readings P ctx s.log =
      ((answers P ctx s₀ events).filter Answer.sent).map Answer.reading ∧
    downloads s.log = (answers P ctx s₀ events).map fun a => (a.counters, a.packetLength ctx) := by
  intro s₀ s
  have hstart : Fitted ctx s₀ := by
    intro key association hfound
    rw [start_value?] at hfound
    cases hfound
  obtain ⟨acts, hlog, hanswers⟩ := run_answers (P := P) hkey hstart events
  have hlog' : s.log = acts := hlog
  rw [hlog']
  exact hanswers

/-- The answer of `127.0.0.1:80` reaches the client of user 7. -/
theorem downlink_faithful_sample :
    readings .standard sampleUdp (Machine.run (step .standard sampleUdp)
      (start (sampleTables [1]) 60 10) [.datagram (sampleInbound [1]), sampleResponse]).log =
      [(sampleKey, some (⟨"127.0.0.1", 80⟩, [5]))] := by
  have hkey : sampleUdp.cipherKind.Takes sampleUdp.masterKey := fun _ => rfl
  obtain ⟨hentry, -, hended, -⟩ := sample_created
  have hpump : (step .standard sampleUdp (start (sampleTables [1]) 60 10)
      (.datagram (sampleInbound [1]))).pumpOf? sampleKey = some sampleAssociation := by
    rw [pumpOf?, BoundedTtlMap.value?, hentry, hended]
    simp
  have hfirst : answer? sampleUdp (start (sampleTables [1]) 60 10)
      (.datagram (sampleInbound [1])) = none := rfl
  rw [(downlink_faithful hkey .standard (sampleTables [1]) 60 10 _).1, answers, answers, answers,
    hfirst, sampleResponse, answer?, hpump]
  rfl

end UdpListener

end SsrBackend
