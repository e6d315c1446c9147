import SsrBackend.Relay.ServedUser
import SsrBackend.Relay.UdpRuns
import SsrBackend.Runtime.Tables

/-!
The tables of `sync_users` against their readers. A user that the codec identifies
has an entry in every table that the relays look it up in, so neither of them falls
back to the port's user.
-/

namespace SsrBackend

open Call

/-- The shared objects of an action are the entries of the user. -/
def UsesOwn (tables : UserTables) (u : Nat) : Action → Prop
  | .recordUpload counters _ => tables.countersByUser[u]? = some counters
  | .recordDownload counters _ => tables.countersByUser[u]? = some counters
  | .takeSlot ips _ => tables.connsByUser[u]? = some ips
  | .acquire limiter _ => tables.speedsByUser[u]? = some limiter
  | _ => True

def UdpUsesOwn (tables : UserTables) (u : Nat) : UdpAction → Prop
  | .recordUpload counters _ => tables.countersByUser[u]? = some counters
  | .recordDownload counters _ => tables.countersByUser[u]? = some counters
  | _ => True

/-- Every user of the codec and every policy has its objects. -/
structure Complete (tables : UserTables) : Prop where
  auth : ∀ u ∈ tables.authUsers, u ∈ tables.countersByUser
  policies : ∀ u ∈ tables.policies, u ∈ tables.countersByUser
  conns : ∀ u, u ∈ tables.countersByUser ↔ u ∈ tables.connsByUser
  speeds : ∀ u, u ∈ tables.countersByUser ↔ u ∈ tables.speedsByUser

theorem entry_of_mem {table : Std.HashMap Nat Handle} {u : Nat} (h : u ∈ table) :
    ∃ object, table[u]? = some object :=
  Option.isSome_iff_exists.mp (Std.HashMap.isSome_getElem?_iff_mem.mpr h)

namespace Connection

variable {P : Primitives} {ctx : StreamContext} {u : Nat}

theorem counters?_own (h : u ∈ ctx.tables.countersByUser) :
    counters? ctx u = ctx.tables.countersByUser[u]? := by
  obtain ⟨object, hobject⟩ := entry_of_mem h
  rw [counters?, hobject, Option.some_or]

theorem usesOwn_of_actsFor (h : u ∈ ctx.tables.countersByUser) {action : Action}
    (hacts : ActsFor ctx u action) : UsesOwn ctx.tables u action := by
  cases action with
  | recordUpload counters bytes => exact (counters?_own h).symm.trans hacts
  | recordDownload counters bytes => exact (counters?_own h).symm.trans hacts
  | takeSlot ips ip => exact hacts
  | acquire limiter amount => exact hacts
  | _ => trivial

/-- A step under a user of complete tables. -/
theorem StepsFor.own {c : Connection} (h : StepsFor ctx u c) (htables : Complete ctx.tables)
    (hu : u ∈ ctx.tables.authUsers) :
    (∀ action ∈ c.log, UsesOwn ctx.tables u action) ∧
      ∀ v, c.phase ≠ .closed (.err (.noCounter v)) ∧
        c.phase ≠ .closed (.err (.noConnectionCounter v)) := by
  have hentry := htables.auth u hu
  refine ⟨fun action hmem => usesOwn_of_actsFor hentry (h.acts action hmem), ?_⟩
  intro v
  refine ⟨?_, ?_⟩
  · intro hclosed
    have hnone : counters? ctx u = none := h.fails _ hclosed
    obtain ⟨object, hobject⟩ := entry_of_mem hentry
    rw [counters?_own hentry, hobject] at hnone
    cases hnone
  · intro hclosed
    obtain ⟨hnone, -⟩ := h.fails _ hclosed
    obtain ⟨object, hobject⟩ := entry_of_mem ((htables.conns u).mp hentry)
    rw [hobject] at hnone
    cases hnone

/-- The steps of a connection whose client the codec has identified. -/
theorem identified_step {session : ServerSession} {getrandom : GetRandom}
    (htables : Complete ctx.tables)
    (hnew : ServerSession.new P ctx.password ctx.tables.authUsers ctx.isMultiUser ctx.cipherKind
      getrandom = .ok session) (before : List StreamEvent) (event : StreamEvent)
    (hu : codecUser P (Machine.run (step P ctx) (start session) before).phase event = some u) :
    u ∈ ctx.tables.authUsers ∧
      (∀ action ∈ (Machine.run (step P ctx) (start session) (before ++ [event])).log,
        UsesOwn ctx.tables u action) ∧
      ∀ v, (Machine.run (step P ctx) (start session) (before ++ [event])).phase ≠
          .closed (.err (.noCounter v)) ∧
        (Machine.run (step P ctx) (start session) (before ++ [event])).phase ≠
          .closed (.err (.noConnectionCounter v)) := by
  obtain ⟨hfresh, -, -, husers, -⟩ := ServerSession.fresh_of_new hnew
  have hgood := good_run hfresh ctx before
  have hlisted := codecUser_listed hgood event hu
  rw [husers] at hlisted
  have hsteps := (step_serves hgood (run_serves hfresh ctx before) event).2 u hu
  rw [Machine.run_append, Machine.run_cons, Machine.run_nil]
  exact ⟨hlisted, hsteps.own htables hlisted⟩

end Connection

namespace UdpListener

variable {P : Primitives} (ctx : UdpContext) {tables : UserTables} (inbound : Inbound) {u : Nat}

/-- A datagram that the codec has identified the user of. -/
theorem identified_datagram (htables : Complete tables) {plain : List UInt8}
    (hdecrypt : udpDecryptPacket P ctx.masterKey tables.authUsers ctx.isMultiUser inbound.datagram
      ctx.cipherKind = .ok (plain, some u)) (s : UdpListener) :
    u ∈ tables.authUsers ∧
      (∃ extra, ((handleInbound P ctx tables inbound).run s).2.log = s.log ++ extra ∧
        ∀ action ∈ extra, UdpUsesOwn tables u action) ∧
      (∀ key association,
        ((handleInbound P ctx tables inbound).run s).2.associations.value? key = some association →
        s.associations.value? key = some association ∨
          tables.countersByUser[u]? = some association.counters) ∧
      ∀ v, ((handleInbound P ctx tables inbound).run s).1 ≠ .err (.noCounter v) := by
  have hlisted := udpDecryptPacket_mem P hdecrypt
  obtain ⟨object, hobject⟩ := entry_of_mem (htables.auth u hlisted)
  have hown : counters? ctx tables u = tables.countersByUser[u]? := by
    rw [counters?, hobject, Option.some_or]
  have hdoes : Does (Handles (UdpUsesOwn tables u) ⟨inbound.peer, u⟩
      (Made ctx tables inbound (responseKey ctx tables (some u)) u))
      (fun e => ∀ v, e ≠ .noCounter v) (fun _ => True)
      (deliver ctx tables u (responseKey ctx tables (some u)) plain inbound) := by
    apply deliver_does ctx tables inbound plain (fun _ => trivial) (fun _ _ => trivial)
    · intro counters hcounters
      rw [hown] at hcounters
      exact hcounters
    · exact fun _ _ _ _ _ => trivial
    · exact fun e he => he
    · intro hnone
      rw [hown, hobject] at hnone
      cases hnone
  have hstate := hdoes.state { s with log := s.log ++
    [.verified ⟨inbound.peer, u⟩ (responseKey ctx tables (some u))] }
  rw [handleInbound_run ctx tables inbound hdecrypt]
  refine ⟨hlisted, ?_, ?_, ?_⟩
  · obtain ⟨extra, hextra, hall⟩ := hstate.log_eq
    refine ⟨_, hextra.trans (List.append_assoc ..), ?_⟩
    intro action hmem
    cases List.mem_append.mp hmem with
    | inl hverified =>
        rw [List.mem_singleton.mp hverified]
        exact trivial
    | inr hnew => exact hall action hnew
  · intro key association hfound
    rcases hstate.entries key association hfound with hold | ⟨-, -, -, -, -, hmade⟩
    · exact Or.inl hold
    · rw [hown] at hmade
      exact Or.inr hmade
  · intro v herr
    exact hdoes.error _ _ herr v rfl

end UdpListener

namespace BackendRuntime

variable (P : Primitives) (fromUser : PanelUser → UserPolicy)

theorem Serving.complete {users : List PanelUser} {rt : BackendRuntime} (h : Serving users rt) :
    Complete rt.tables where
  auth u hu := (h.counters.mem_iff u).mpr (h.auth u hu)
  policies u hu := (h.counters.mem_iff u).mpr (h.policies u hu)
  conns u := (h.counters.mem_iff u).trans (h.conns.mem_iff u).symm
  speeds u := (h.counters.mem_iff u).trans (h.speeds.mem_iff u).symm

/-- The tables hold the objects of a user that the ledgers hold. -/
structure SharesObjects (u : Nat) (tables : UserTables) (rt : BackendRuntime) : Prop where
  counters_eq : tables.countersByUser[u]? = rt.traffic.counters.entries[u]?
  conns_eq : tables.connsByUser[u]? = rt.conns.entries[u]?
  speeds_eq : tables.speedsByUser[u]? = rt.speeds.entries[u]?

theorem Serving.sharesObjects {users : List PanelUser} {rt : BackendRuntime}
    (h : Serving users rt) (u : Nat) : SharesObjects u rt.tables rt :=
  ⟨h.counters.table_eq u, h.conns.table_eq u, h.speeds.table_eq u⟩

theorem polls_append (rt : BackendRuntime) (xs ys : List (Except String (List PanelUser))) :
    polls P fromUser rt (xs ++ ys) = polls P fromUser (polls P fromUser rt xs) ys :=
  Machine.run_append ..

/-- The snapshots of a user that every later list has. -/
theorem polls_sharesObjects {config : Config} {answers later : List (Except String (List PanelUser))}
    {u : Nat} (hu : u ∈ (polls P fromUser (new config) answers).tables.countersByUser)
    (hlisted : ∀ users, .ok users ∈ later → isLive users u) :
    SharesObjects u (polls P fromUser (new config) answers).tables
      (polls P fromUser (new config) (answers ++ later)) := by
  obtain ⟨users, hserving⟩ := polls_serving P fromUser config answers
  have hcomplete := hserving.complete
  have hshares := hserving.sharesObjects u
  obtain ⟨counters, hcounters⟩ := entry_of_mem hu
  obtain ⟨conns, hconns⟩ := entry_of_mem ((hcomplete.conns u).mp hu)
  obtain ⟨speeds, hspeeds⟩ := entry_of_mem ((hcomplete.speeds u).mp hu)
  have hholds : Holds (polls P fromUser (new config) answers) u counters conns speeds :=
    ⟨hshares.counters_eq.symm.trans hcounters, hshares.conns_eq.symm.trans hconns,
      hshares.speeds_eq.symm.trans hspeeds⟩
  have hkept := polls_holds P fromUser hholds hlisted
  rw [polls_append]
  exact ⟨hcounters.trans hkept.counters_eq.symm, hconns.trans hkept.conns_eq.symm,
    hspeeds.trans hkept.speeds_eq.symm⟩

/-- An identified user is served from its own entries, whatever lists the panel has sent. -/
theorem identified_users_own_entries (config : Config)
    (answers : List (Except String (List PanelUser))) :
    let rt := polls P fromUser (new config) answers
    Complete rt.tables ∧
    (∀ (ctx : StreamContext) (getrandom : GetRandom) (session : ServerSession)
      (before : List StreamEvent) (event : StreamEvent) (u : Nat), ctx.tables = rt.tables →
      ServerSession.new P ctx.password ctx.tables.authUsers ctx.isMultiUser ctx.cipherKind
        getrandom = .ok session →
      Connection.codecUser P
        (Machine.run (Connection.step P ctx) (Connection.start session) before).phase event =
          some u →
      let c := Machine.run (Connection.step P ctx) (Connection.start session) (before ++ [event])
      u ∈ rt.tables.authUsers ∧ (∀ action ∈ c.log, UsesOwn rt.tables u action) ∧
        ∀ v, c.phase ≠ .closed (.err (.noCounter v)) ∧
          c.phase ≠ .closed (.err (.noConnectionCounter v))) ∧
    (∀ (ctx : UdpContext) (inbound : Inbound) (s : UdpListener) (plain : List UInt8) (u : Nat),
      udpDecryptPacket P ctx.masterKey rt.tables.authUsers ctx.isMultiUser inbound.datagram
        ctx.cipherKind = .ok (plain, some u) →
      let r := (UdpListener.handleInbound P ctx rt.tables inbound).run s
      u ∈ rt.tables.authUsers ∧
        (∃ extra, r.2.log = s.log ++ extra ∧ ∀ action ∈ extra, UdpUsesOwn rt.tables u action) ∧
        (∀ key association, r.2.associations.value? key = some association →
          s.associations.value? key = some association ∨
            rt.tables.countersByUser[u]? = some association.counters) ∧
        ∀ v, r.1 ≠ .err (.noCounter v)) ∧
    ∀ (u : Nat) (later : List (Except String (List PanelUser))),
      u ∈ rt.tables.countersByUser → (∀ users, .ok users ∈ later → isLive users u) →
      SharesObjects u rt.tables (polls P fromUser (new config) (answers ++ later)) ∧
        SharesObjects u (polls P fromUser (new config) (answers ++ later)).tables
          (polls P fromUser (new config) (answers ++ later)) := by
  obtain ⟨users, hserving⟩ := polls_serving P fromUser config answers
  have hcomplete := hserving.complete
  refine ⟨hcomplete, ?_, ?_, ?_⟩
  · intro ctx getrandom session before event u htables hnew hu
    rw [← htables] at hcomplete ⊢
    exact Connection.identified_step hcomplete hnew before event hu
  · intro ctx inbound s plain u hdecrypt
    exact UdpListener.identified_datagram ctx inbound hcomplete hdecrypt s
  · intro u later hu hlisted
    obtain ⟨users', hserving'⟩ := polls_serving P fromUser config (answers ++ later)
    exact ⟨polls_sharesObjects P fromUser hu hlisted, hserving'.sharesObjects u⟩

/-! ### A poll with one user -/

theorem codecUser_of_decoded {s : ServerSession} (hs : s.Fresh P) {wire : List UInt8}
    {r : Resumable.Drained UInt8 UInt8 Phase} {who : Identity} {n : UInt32}
    (hd : s.decoded P wire = .ok r) (hphase : r.2.1 = .stream who n) (world : World)
    (write : Delivery) :
    Connection.codecUser P (Connection.start s).phase (.clientRead wire world write) =
      who.userId := by
  have hstep := ServerSession.decrypt_took hs.took wire
  rw [List.nil_append, hd] at hstep
  obtain ⟨out, -, hok, hnext⟩ := hstep
  obtain ⟨packId, -, hstate⟩ := hnext.state_eq
  rw [Connection.start, Connection.codecUser]
  generalize (ServerSession.decrypt P wire).run s = call at hok hnext hstate ⊢
  obtain ⟨o, session⟩ := call
  cases hok
  have huser : (session.received P wire packId r).userId = who.userId :=
    ServerSession.received_userId hnext.decoded_eq hphase
  rw [← hstate] at huser
  exact huser

/-- User 7 of port 443. -/
def ownRow : PanelUser := sampleRow 7 443 "a" 0

def ownKey : List UInt8 := deriveUserAuthKey .standard "a"

def ownPolls : BackendRuntime := polls .standard noLimits (new sampleConfig) [.ok [ownRow]]

theorem ownPolls_auth : ownPolls.tables.authUsers[7]? = some ownKey := by
  have hok : ¬Rejects (.ok [ownRow]) (new sampleConfig) := not_rejects_ok (by decide)
  have hrow : ordinaryRow? [ownRow] 7 = some ownRow := by
    simp [ordinaryRow?, ownRow, sampleRow, PanelUser.userId]
  rw [ownPolls, polls, Machine.run_cons, Machine.run_nil, (synced_accepts .standard noLimits hok).1,
    applyUsers_auth, hrow]
  rfl

def ownContext : StreamContext where
  password := "a"
  fallbackUserId := 7
  tables := ownPolls.tables
  enforcement := enforcement sampleConfig
  isMultiUser := 0
  cipherKind := .rc4Md5
  peerIp := "192.0.2.1"
  peer := "192.0.2.1:4000"

/-- The first send of user 7 with its own key. -/
def ownWire : List UInt8 :=
  (ClientCodec.new .standard .rc4Md5 (deriveMasterKey .standard "a" .rc4Md5) ownKey
    (List.replicate 16 7)).wire .standard (ClientCodec.testHello 7) [10] []

theorem ownWire_user {s : ServerSession} {getrandom : GetRandom}
    (hnew : ServerSession.new .standard ownContext.password ownContext.tables.authUsers
      ownContext.isMultiUser ownContext.cipherKind getrandom = .ok s) (world : World) :
    Connection.codecUser .standard (Connection.start s).phase (.clientRead ownWire world .done) =
      some 7 := by
  obtain ⟨hfresh, hcipher, hkey, husers, hmulti⟩ := ServerSession.fresh_of_new hnew
  have hlookup : s.users[(ClientCodec.testHello 7).uid.toNat]? = some ownKey := by
    rw [husers]
    exact ownPolls_auth
  have hselect : (Params.mk s.masterKey (List.replicate 16 7) s.users s.isMultiUser).select
      ⟨s.masterKey, none⟩ (ClientCodec.testHello 7).uid.toNat = ⟨ownKey, some 7⟩ := by
    simp only [Params.select, hlookup]
    rfl
  have hiv : (List.replicate 16 7 : List UInt8).length = s.cipher.ivLen := by
    rw [hcipher]
    rfl
  have hdecoded := ClientCodec.decoded_wire s (ClientCodec.testHello 7) ownKey (List.replicate 16 7)
    [10] [] Primitives.standard_aesInverts hiv (by rw [hselect]) (by decide) (by rintro _ ⟨⟩)
  rw [hselect, hcipher, hkey] at hdecoded
  exact codecUser_of_decoded .standard hfresh hdecoded rfl world .done

theorem ownDatagram_user :
    udpDecryptPacket .standard UdpListener.sampleUdp.masterKey ownPolls.tables.authUsers
      UdpListener.sampleUdp.isMultiUser (UdpListener.sampleInbound ownKey).datagram
      UdpListener.sampleUdp.cipherKind = .ok (UdpListener.samplePlain, some 7) := by
  have hkey : CipherKind.chacha20Ietf.Takes (List.replicate 32 0) := fun _ => rfl
  exact udpDecryptPacket_listed .standard 2 hkey ownPolls_auth rfl UdpListener.samplePlain

theorem identified_users_sample :
    (∃ s, ServerSession.new .standard ownContext.password ownContext.tables.authUsers
        ownContext.isMultiUser ownContext.cipherKind UdpListener.zeroRandom = .ok s ∧
      ∀ action ∈ (Machine.run (Connection.step .standard ownContext) (Connection.start s)
        ([] ++ [.clientRead ownWire ⟨fun _ => ∅, []⟩ .done])).log,
          UsesOwn ownPolls.tables 7 action) ∧
    (∀ v, ((UdpListener.handleInbound .standard UdpListener.sampleUdp ownPolls.tables
      (UdpListener.sampleInbound ownKey)).run (UdpListener.start ownPolls.tables 60 10)).1 ≠
        .err (.noCounter v)) ∧
    SharesObjects 7 ownPolls.tables (polls .standard noLimits (new sampleConfig)
      ([.ok [ownRow]] ++ [.error "down", .ok [ownRow]])) := by
  obtain ⟨hcomplete, htcp, hudp, hlater⟩ := identified_users_own_entries .standard noLimits
    sampleConfig [.ok [ownRow]]
  have hlisted : 7 ∈ ownPolls.tables.authUsers := by
    rw [← Std.HashMap.isSome_getElem?_iff_mem, ownPolls_auth]
    rfl
  refine ⟨?_, ?_, ?_⟩
  · obtain ⟨s, hnew⟩ : ∃ s, ServerSession.new .standard ownContext.password
        ownContext.tables.authUsers ownContext.isMultiUser ownContext.cipherKind
        UdpListener.zeroRandom = .ok s := by
      rw [ServerSession.new_spec]
      exact ⟨_, rfl⟩
    exact ⟨s, hnew, (htcp ownContext _ s [] _ 7 rfl hnew (ownWire_user hnew _)).2.1⟩
  · exact (hudp UdpListener.sampleUdp (UdpListener.sampleInbound ownKey) _ _ 7
      ownDatagram_user).2.2.2
  · refine (hlater 7 _ (hcomplete.auth 7 hlisted) ?_).1
    intro users hmem
    simp only [List.mem_cons, reduceCtorEq, Except.ok.injEq, List.not_mem_nil, or_false,
      false_or] at hmem
    rw [hmem]
    rfl

end BackendRuntime

end SsrBackend
