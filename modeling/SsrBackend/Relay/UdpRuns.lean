import SsrBackend.Foundation.Effects
import SsrBackend.Relay.UdpListener

/-!
Runs of the UDP listener. A datagram that passes the codec adds actions to the
log and at most one association, which signs its responses with the key the
datagram was verified with; no step changes the key of an association.
-/

namespace SsrBackend

open Call

namespace UdpListener

variable {P : Primitives} {Q : UdpAction → Prop} {key : AssociationKey}
  {F : Association → Prop} {E : UdpError → Prop}

/-- What a part of `handle_inbound` may do. -/
structure Handles (Q : UdpAction → Prop) (key : AssociationKey) (F : Association → Prop)
    (s s' : UdpListener) : Prop where
  tables_eq : s'.tables = s.tables
  log_eq : ∃ extra, s'.log = s.log ++ extra ∧ ∀ action ∈ extra, Q action
  entries : ∀ k v, s'.associations.value? k = some v →
    s.associations.value? k = some v ∨ k = key ∧ F v

theorem handles_chains : Chains (Handles Q key F) := by
  constructor
  · intro s
    exact ⟨rfl, ⟨[], (List.append_nil _).symm, fun _ h => (nomatch h)⟩, fun _ _ h => Or.inl h⟩
  · intro s s' s'' h h'
    obtain ⟨extra, hextra, hall⟩ := h.log_eq
    obtain ⟨extra', hextra', hall'⟩ := h'.log_eq
    refine ⟨h'.tables_eq.trans h.tables_eq, ⟨extra ++ extra', ?_, ?_⟩, ?_⟩
    · rw [hextra', hextra, List.append_assoc]
    · intro action hmem
      exact (List.mem_append.mp hmem).elim (hall action) (hall' action)
    · intro k v hv
      cases h'.entries k v hv with
      | inl hkept => exact h.entries k v hkept
      | inr hnew => exact Or.inr hnew

theorem appends_does (actions : List UdpAction) (h : ∀ action ∈ actions, Q action) :
    Does (Handles Q key F) E (fun _ => True)
      (modify fun s => { s with log := s.log ++ actions } : UdpTask PUnit) :=
  .modify fun _ => ⟨rfl, ⟨actions, rfl, h⟩, fun _ _ hv => Or.inl hv⟩

theorem perform_does {action : UdpAction} (h : Q action) :
    Does (Handles Q key F) E (fun _ => True) (perform action) :=
  appends_does [action] fun other hmem => by rw [List.mem_singleton.mp hmem]; exact h

/-- The counter that a datagram of a user is recorded on. -/
def counters? (ctx : UdpContext) (tables : UserTables) (userId : Nat) : Option Handle :=
  (tables.countersByUser[userId]?).or (tables.countersByUser[ctx.userId]?)

theorem lookupCounters_does {R : UdpListener → UdpListener → Prop} (hR : Chains R)
    (ctx : UdpContext) (tables : UserTables) (userId : Nat)
    (herr : counters? ctx tables userId = none → E (.noCounter userId)) :
    Does R E (fun counters => counters? ctx tables userId = some counters)
      (lookupCounters ctx tables userId) := by
  rw [lookupCounters, counters?] at *
  cases hown : tables.countersByUser[userId]? with
  | some counters => exact .pure hR rfl
  | none =>
      cases hport : tables.countersByUser[ctx.userId]? with
      | some counters => exact .pure hR rfl
      | none => exact .bail hR (herr (by rw [hown, hport]; rfl))

section Inbound

variable (ctx : UdpContext) (tables : UserTables) (inbound : Inbound)

/-- The association that a datagram makes. -/
def Made (signWith : List UInt8) (userId : Nat) (association : Association) : Prop :=
  association.masterKey = ctx.masterKey ∧ association.responseKey = signWith ∧
    association.peer = inbound.peer ∧ association.cipherKind = ctx.cipherKind ∧
    counters? ctx tables userId = some association.counters

theorem associate_does {userId : Nat} {signWith : List UInt8} {counters : Handle}
    (hemit : ∀ event, Q (.emit event)) (hio : ∀ reason, E (.io reason))
    (hcounters : counters? ctx tables userId = some counters) :
    Does (Handles Q key (Made ctx tables inbound signWith userId)) E (fun _ => True)
      (associate ctx key signWith counters inbound) := by
  have hrun : ∀ s, Handles Q key (Made ctx tables inbound signWith userId) s
        ((associate ctx key signWith counters inbound).run s).2 ∧
      ∀ e, ((associate ctx key signWith counters inbound).run s).1 = .err e → E e := by
    intro s
    rw [associate, run_get_bind]
    dsimp only
    rw [BoundedTtlMap.touch_fst]
    cases hfound : s.associations.value? key with
    | some association =>
        refine ⟨⟨rfl, ⟨[], (List.append_nil _).symm, fun _ h => (nomatch h)⟩, ?_⟩, nofun⟩
        intro k v hv
        have hv' : (s.associations.touch key inbound.touchAt).2.value? k = some v := hv
        rw [BoundedTtlMap.value?_touch] at hv'
        exact Or.inl hv'
    | none =>
        cases inbound.bind with
        | error reason =>
            refine ⟨⟨rfl, ⟨[_], rfl, ?_⟩, fun _ _ hv => Or.inl hv⟩, ?_⟩
            · intro action hmem
              rw [List.mem_singleton.mp hmem]
              exact hemit _
            · intro e he
              cases he
              exact hio reason
        | ok _ =>
            refine ⟨⟨rfl, ⟨[_], rfl, ?_⟩, ?_⟩, nofun⟩
            · intro action hmem
              rw [List.mem_singleton.mp hmem]
              exact hemit _
            · intro k v hv
              rcases BoundedTtlMap.value?_insert hv with ⟨hk, rfl⟩ | ⟨-, hkept⟩
              · exact Or.inr ⟨hk, rfl, rfl, rfl, rfl, hcounters⟩
              · exact Or.inl hkept
  exact ⟨fun s => (hrun s).1, fun _ _ _ => trivial, fun s => (hrun s).2⟩

/-- The destinations that the checks let a datagram of a user go to. -/
def Cleared (userId : Nat) (target : Address) (contact : Contact) : Prop :=
  portCheck tables.policies[userId]? ctx.enforcement target.port = false ∧
    resolveUdpDest target tables.policies[userId]? ctx.enforcement inbound.net = .ok contact

theorem forward_does {userId : Nat} {signWith : List UInt8} {counters : Handle}
    {target : Address} (payload : List UInt8) (hemit : ∀ event, Q (.emit event))
    (hscan : ∀ rules data, Q (.scan rules data))
    (hsend : ∀ outbound contact, Cleared ctx tables inbound userId target contact →
      Q (.send outbound contact payload))
    (herr : ∀ e, (∀ u, e ≠ .noCounter u) → E e)
    (hcounters : counters? ctx tables userId = some counters) :
    Does (Handles Q ⟨inbound.peer, userId⟩ (Made ctx tables inbound signWith userId)) E
      (fun _ => True)
      (forward ctx tables userId signWith counters target payload inbound) := by
  rw [forward]
  dsimp only
  cases hport : portCheck tables.policies[userId]? ctx.enforcement target.port with
  | true => exact .bail handles_chains (herr _ nofun)
  | false =>
      apply Does.bind handles_chains (perform_does (hscan _ _))
      intro _ _
      apply Does.bind handles_chains
      · apply appends_does
        intro action hmem
        obtain ⟨event, -, rfl⟩ := List.mem_map.mp hmem
        exact hemit event
      intro _ _
      apply Does.bind handles_chains (V := fun contact => Cleared ctx tables inbound userId target contact)
      · exact .ofOutcome handles_chains (fun contact hok => ⟨hport, hok⟩) fun e _ => herr _ nofun
      intro contact hcleared
      apply Does.bind handles_chains
        (associate_does ctx tables inbound hemit (fun reason => herr _ nofun) hcounters)
      intro outbound _
      cases inbound.send with
      | error reason => exact .bail handles_chains (herr _ nofun)
      | ok _ => exact perform_does (hsend outbound contact hcleared)

theorem deliver_does {userId : Nat} {signWith : List UInt8} (plain : List UInt8)
    (hemit : ∀ event, Q (.emit event)) (hscan : ∀ rules data, Q (.scan rules data))
    (hrecord : ∀ counters, counters? ctx tables userId = some counters →
      Q (.recordUpload counters inbound.datagram.length))
    (hsend : ∀ outbound target contact payload, Cleared ctx tables inbound userId target contact →
      Q (.send outbound contact payload))
    (herr : ∀ e, (∀ u, e ≠ .noCounter u) → E e)
    (hnone : counters? ctx tables userId = none → E (.noCounter userId)) :
    Does (Handles Q ⟨inbound.peer, userId⟩ (Made ctx tables inbound signWith userId)) E
      (fun _ => True) (deliver ctx tables userId signWith plain inbound) := by
  rw [deliver]
  apply Does.bind handles_chains (lookupCounters_does handles_chains ctx tables userId hnone)
  intro counters hcounters
  apply Does.bind handles_chains (perform_does (hrecord counters hcounters))
  intro _ _
  apply Does.bind handles_chains (V := fun _ => True)
  · exact .ofOutcome handles_chains (fun _ _ => trivial) fun e _ => herr _ nofun
  intro parsed _
  cases parsed with
  | none => exact .bail handles_chains (herr _ nofun)
  | some found =>
      apply Does.bind handles_chains (Does.of_slice handles_chains plain found.2 plain.length)
      intro payload _
      exact forward_does ctx tables inbound payload hemit hscan
        (fun outbound contact => hsend outbound found.1 contact payload) herr hcounters

theorem handleInbound_run {plain : List UInt8} {authenticated : Option Nat}
    (hdecrypt : udpDecryptPacket P ctx.masterKey tables.authUsers ctx.isMultiUser inbound.datagram
      ctx.cipherKind = .ok (plain, authenticated)) (s : UdpListener) :
    (handleInbound P ctx tables inbound).run s =
      (deliver ctx tables (authenticated.getD ctx.userId) (responseKey ctx tables authenticated)
        plain inbound).run { s with log := s.log ++ [.verified
          ⟨inbound.peer, authenticated.getD ctx.userId⟩ (responseKey ctx tables authenticated)] } := by
  rw [handleInbound, hdecrypt, ofOutcome, pure_bind]
  rfl

end Inbound

/-! ### The keys that responses are signed with -/

/-- The key of the last verified datagram of a client. -/
def lastVerified (log : List UdpAction) (key : AssociationKey) : Option (List UInt8) :=
  log.reverse.findSome? fun
    | .verified k signWith => if k = key then some signWith else none
    | _ => none

/-- Every response is signed with the key of the last datagram of its client. -/
def SignedCurrent (log : List UdpAction) : Prop :=
  ∀ before peer userId signWith packet after,
    log = before ++ .respond peer userId signWith packet :: after →
      lastVerified before ⟨peer, userId⟩ = some signWith

/-- Neither a verified datagram nor a response. -/
def Quiet : UdpAction → Prop
  | .verified _ _ => False
  | .respond _ _ _ _ => False
  | _ => True

theorem lastVerified_append (log extra : List UdpAction) (key : AssociationKey) :
    lastVerified (log ++ extra) key = (lastVerified extra key).or (lastVerified log key) := by
  rw [lastVerified, List.reverse_append, List.findSome?_append]
  rfl

theorem lastVerified_none {extra : List UdpAction} (h : ∀ k signWith, .verified k signWith ∉ extra)
    (key : AssociationKey) : lastVerified extra key = none := by
  rw [lastVerified, List.findSome?_eq_none_iff]
  intro action hmem
  cases action with
  | verified k signWith => exact absurd (List.mem_reverse.mp hmem) (h k signWith)
  | _ => rfl

theorem lastVerified_quiet {extra : List UdpAction} (h : ∀ action ∈ extra, Quiet action)
    (key : AssociationKey) : lastVerified extra key = none :=
  lastVerified_none (fun _ _ hmem => h _ hmem) key

theorem lastVerified_verified (log : List UdpAction) (key key' : AssociationKey)
    (signWith : List UInt8) :
    lastVerified (log ++ [.verified key signWith]) key' =
      if key = key' then some signWith else lastVerified log key' := by
  rw [lastVerified_append]
  by_cases heq : key = key'
  · simp [lastVerified, heq]
  · simp [lastVerified, heq]

/-- Responses come up in the old part of a log or in the new one. -/
theorem SignedCurrent.append {log extra : List UdpAction} (h : SignedCurrent log)
    (hextra : ∀ before peer userId signWith packet after,
      extra = before ++ .respond peer userId signWith packet :: after →
        lastVerified (log ++ before) ⟨peer, userId⟩ = some signWith) :
    SignedCurrent (log ++ extra) := by
  intro before peer userId signWith packet after heq
  rcases List.append_eq_append_iff.mp heq with ⟨mid, hbefore, htail⟩ | ⟨mid, hlog, htail⟩
  · rw [hbefore]
    exact hextra mid peer userId signWith packet after htail
  · cases mid with
    | nil =>
        rw [List.append_nil] at hlog
        rw [← hlog]
        have hnew := hextra [] peer userId signWith packet after htail.symm
        rw [List.append_nil] at hnew
        exact hnew
    | cons first mid =>
        rw [List.cons_append, List.cons.injEq] at htail
        rw [← htail.1] at hlog
        exact h before peer userId signWith packet mid hlog

theorem SignedCurrent.append_silent {log extra : List UdpAction} (h : SignedCurrent log)
    (hextra : ∀ peer userId signWith packet, .respond peer userId signWith packet ∉ extra) :
    SignedCurrent (log ++ extra) := by
  apply h.append
  intro before peer userId signWith packet after heq
  apply absurd _ (hextra peer userId signWith packet)
  rw [heq]
  exact List.mem_append_right _ (List.mem_cons_self ..)

/-- The state of a run in which associations have been reused with their own key only. -/
structure KeysCurrent (s : UdpListener) : Prop where
  signed : SignedCurrent s.log
  current : ∀ key association, s.associations.value? key = some association →
    association.peer = key.peer ∧ lastVerified s.log key = some association.responseKey

/-- A datagram that finds an association of its client was verified with the key that the
association has. -/
def KeyKept (P : Primitives) (ctx : UdpContext) (s : UdpListener) : UdpEvent → Prop
  | .datagram inbound => ∀ plain authenticated association,
      udpDecryptPacket P ctx.masterKey s.tables.authUsers ctx.isMultiUser inbound.datagram
        ctx.cipherKind = .ok (plain, authenticated) →
      (s.associations.expire inbound.expireAt).value?
        ⟨inbound.peer, authenticated.getD ctx.userId⟩ = some association →
      association.responseKey = responseKey ctx s.tables authenticated
  | _ => True

theorem KeysCurrent.of_log {s s' : UdpListener} (h : KeysCurrent s) {extra : List UdpAction}
    (hlog : s'.log = s.log ++ extra) (hnone : ∀ k signWith, .verified k signWith ∉ extra)
    (hsigned : SignedCurrent (s.log ++ extra))
    (hentries : ∀ key association, s'.associations.value? key = some association →
      s.associations.value? key = some association) : KeysCurrent s' := by
  refine ⟨by rw [hlog]; exact hsigned, ?_⟩
  intro key association hfound
  rw [hlog, lastVerified_append, lastVerified_none hnone, Option.none_or]
  exact h.current key association (hentries key association hfound)

theorem KeysCurrent.of_entries {s s' : UdpListener} (h : KeysCurrent s) (hlog : s'.log = s.log)
    (hentries : ∀ key association, s'.associations.value? key = some association →
      s.associations.value? key = some association) : KeysCurrent s' := by
  have hnil : s'.log = s.log ++ [] := by rw [hlog, List.append_nil]
  refine h.of_log hnil (fun _ _ hmem => (nomatch hmem)) ?_ hentries
  rw [List.append_nil]
  exact h.signed

theorem KeysCurrent.close {s : UdpListener} (h : KeysCurrent s) : KeysCurrent s.close :=
  h.of_entries rfl fun _ _ hfound => BoundedTtlMap.value?_retain hfound

/-- A verified datagram makes its key the current one, of its association too. -/
theorem deliver_keysCurrent {ctx : UdpContext} {tables : UserTables} {inbound : Inbound}
    {s : UdpListener} {userId : Nat} {signWith : List UInt8} (plain : List UInt8)
    (h : KeysCurrent s)
    (hkept : ∀ association, s.associations.value? ⟨inbound.peer, userId⟩ = some association →
      association.responseKey = signWith) :
    KeysCurrent ((deliver ctx tables userId signWith plain inbound).run
      { s with log := s.log ++ [.verified ⟨inbound.peer, userId⟩ signWith] }).2 := by
  have hdoes : Does (Handles Quiet ⟨inbound.peer, userId⟩
      (Made ctx tables inbound signWith userId)) (fun _ => True) (fun _ => True)
      (deliver ctx tables userId signWith plain inbound) :=
    deliver_does ctx tables inbound plain (fun _ => trivial) (fun _ _ => trivial)
      (fun _ _ => trivial) (fun _ _ _ _ _ => trivial) (fun _ _ => trivial) (fun _ => trivial)
  have hstate := hdoes.state
    { s with log := s.log ++ [.verified ⟨inbound.peer, userId⟩ signWith] }
  obtain ⟨extra, hextra, hquiet⟩ := hstate.log_eq
  refine ⟨?_, ?_⟩
  · rw [hextra]
    apply SignedCurrent.append_silent
    · apply h.signed.append_silent
      intro peer u k packet hmem
      cases List.mem_singleton.mp hmem
    · intro peer u k packet hmem
      exact hquiet _ hmem
  · intro key association hfound
    rw [hextra, lastVerified_append, lastVerified_quiet hquiet, Option.none_or,
      lastVerified_verified]
    rcases hstate.entries key association hfound with hold | ⟨rfl, -, hsign, hpeer, -⟩
    · obtain ⟨hpeer, hlast⟩ := h.current key association hold
      refine ⟨hpeer, ?_⟩
      by_cases heq : AssociationKey.mk inbound.peer userId = key
      · subst heq
        rw [if_pos rfl, hkept association hold]
      · rw [if_neg heq]
        exact hlast
    · rw [if_pos rfl, hsign]
      exact ⟨hpeer, rfl⟩

theorem pumpTurn_keysCurrent {s : UdpListener} (h : KeysCurrent s) {key : AssociationKey}
    {association : Association} (hfound : s.associations.value? key = some association)
    (source : SocketAddr) (data : List UInt8) (getrandom : GetRandom) (sent : Bool) :
    KeysCurrent (pumpTurn P s key association source data getrandom sent) := by
  obtain ⟨hpeer, hlast⟩ := h.current key association hfound
  have hkey : AssociationKey.mk association.peer key.userId = key := by
    rw [hpeer]
  rw [pumpTurn]
  dsimp only
  cases udpEncryptPacket P association.masterKey association.responseKey
      (packSocketAddr source.ip source.port ++ data) association.cipherKind getrandom with
  | err e => exact h
  | panic => exact h.of_entries rfl fun _ _ hv => hv
  | ok packet =>
      have hrecorded : SignedCurrent
          (s.log ++ [.recordDownload association.counters packet.length]) :=
        h.signed.append_silent fun _ _ _ _ hmem => by cases List.mem_singleton.mp hmem
      cases sent with
      | false =>
          refine h.of_log rfl ?_ hrecorded fun _ _ hv => hv
          intro k signWith hmem
          cases List.mem_singleton.mp hmem
      | true =>
          refine h.of_log (List.append_assoc ..) ?_ ?_ fun _ _ hv => hv
          · intro k signWith hmem
            simp at hmem
          · rw [← List.append_assoc]
            apply hrecorded.append
            intro before peer userId signWith packet' after heq
            cases before with
            | cons first before => simp at heq
            | nil =>
                cases heq
                rw [List.append_nil, hkey, lastVerified_append, lastVerified_none, Option.none_or]
                · exact hlast
                · intro k signWith hmem
                  cases List.mem_singleton.mp hmem

theorem handleInbound_keysCurrent {ctx : UdpContext} {tables : UserTables} {inbound : Inbound}
    {s : UdpListener} (h : KeysCurrent s)
    (hkept : ∀ plain authenticated association,
      udpDecryptPacket P ctx.masterKey tables.authUsers ctx.isMultiUser inbound.datagram
        ctx.cipherKind = .ok (plain, authenticated) →
      s.associations.value? ⟨inbound.peer, authenticated.getD ctx.userId⟩ = some association →
      association.responseKey = responseKey ctx tables authenticated) :
    KeysCurrent ((handleInbound P ctx tables inbound).run s).2 := by
  cases hdecrypt : udpDecryptPacket P ctx.masterKey tables.authUsers ctx.isMultiUser
      inbound.datagram ctx.cipherKind with
  | ok verified =>
      rw [handleInbound_run ctx tables inbound hdecrypt]
      exact deliver_keysCurrent verified.1 h fun association =>
        hkept verified.1 verified.2 association hdecrypt
  | err e =>
      rw [handleInbound, hdecrypt]
      exact h
  | panic =>
      rw [handleInbound, hdecrypt]
      exact h

/-- A stopped listener stays as it is; another is left as `handle_inbound` leaves it, or closed where
that has panicked. -/
theorem step_datagram {Q : UdpListener → Prop} {ctx : UdpContext} {s : UdpListener}
    {inbound : Inbound} (hstays : Q s)
    (hdone : Q ((handleInbound P ctx s.tables inbound).run
      { s with associations := s.associations.expire inbound.expireAt }).2)
    (hclose : ∀ s', Q s' → Q s'.close) : Q (step P ctx s (.datagram inbound)) := by
  rw [step]
  split
  · exact hstays
  · dsimp only
    generalize (handleInbound P ctx s.tables inbound).run _ = r at hdone ⊢
    obtain ⟨o, s'⟩ := r
    cases o with
    | ok _ => exact hdone
    | err e => exact hdone
    | panic => exact hclose s' hdone

theorem step_keysCurrent (ctx : UdpContext) {s : UdpListener} (h : KeysCurrent s)
    (event : UdpEvent) (hkept : KeyKept P ctx s event) : KeysCurrent (step P ctx s event) := by
  cases event with
  | republish tables => exact h.of_entries rfl fun _ _ hv => hv
  | datagram inbound =>
      have hexpired : KeysCurrent { s with
          associations := s.associations.expire inbound.expireAt } :=
        h.of_entries rfl fun _ _ hv => BoundedTtlMap.value?_evictExpired hv
      have hhandled := handleInbound_keysCurrent hexpired fun plain authenticated association =>
        hkept plain authenticated association
      exact step_datagram h hhandled fun s' hs' => hs'.close
  | response key source data getrandom sent =>
      rw [step]
      cases hpump : s.pumpOf? key with
      | none => exact h
      | some association =>
          have hfound := (Option.filter_eq_some_iff.mp hpump).1
          exact pumpTurn_keysCurrent h hfound source data getrandom sent
  | pumpFailed key =>
      rw [step]
      cases s.pumpOf? key with
      | none => exact h
      | some association => exact h.of_entries rfl fun _ _ hv => hv
  | stop => exact h.close

theorem start_value? (tables : UserTables) (associationTtl maxAssociations : Nat)
    (key : AssociationKey) :
    (start tables associationTtl maxAssociations).associations.value? key = none := by
  rw [start, BoundedTtlMap.new, BoundedTtlMap.value?, Std.HashMap.getElem?_empty]
  rfl

/-- In a run whose datagrams find associations with their own keys only, every response is signed
with the key that the last datagram of its client was verified with. -/
theorem responses_signed_current (P : Primitives) (ctx : UdpContext) (tables : UserTables)
    (associationTtl maxAssociations : Nat) (events : List UdpEvent)
    (hkept : ∀ before event after, events = before ++ event :: after →
      KeyKept P ctx
        (Machine.run (step P ctx) (start tables associationTtl maxAssociations) before) event) :
    SignedCurrent
      (Machine.run (step P ctx) (start tables associationTtl maxAssociations) events).log := by
  have hstart : KeysCurrent (start tables associationTtl maxAssociations) := by
    refine ⟨?_, ?_⟩
    · intro before peer userId signWith packet after heq
      cases before with
      | nil => cases heq
      | cons first before => cases heq
    · intro key association hfound
      rw [start_value?] at hfound
      cases hfound
  have hstep : ∀ s event, KeysCurrent s → KeyKept P ctx s event → KeysCurrent (step P ctx s event) :=
    fun s event h hkept => step_keysCurrent ctx h event hkept
  exact (Machine.run_keeps_where hstep hstart events hkept).signed

/-! ### A carrier port with one user -/

def sampleUdp : UdpContext where
  userId := 1
  masterKey := List.replicate 32 0
  enforcement := ⟨false, false, false, false⟩
  isMultiUser := 2
  cipherKind := .chacha20Ietf

/-- User 7 with an auth key. -/
def sampleTables (userKey : List UInt8) : UserTables :=
  ⟨(∅ : Users).insert 7 userKey, (∅ : Std.HashMap Nat Handle).insert 7 0, ∅, ∅, ∅⟩

def samplePeer : SocketAddr := ⟨.v4 #v[192, 0, 2, 1], 4000⟩

def sampleKey : AssociationKey := ⟨samplePeer, 7⟩

/-- The header of `127.0.0.1:80`. -/
def samplePlain : List UInt8 := [1, 127, 0, 0, 1, 0, 80]

/-- A datagram of user 7 with an auth key. -/
def sampleInbound (userKey : List UInt8) : Inbound where
  datagram := clientDatagram .standard .chacha20Ietf (List.replicate 32 0) userKey
    (List.replicate 12 0x42) 7 samplePlain
  peer := samplePeer
  peerIp := "192.0.2.1"
  peerText := "192.0.2.1:4000"
  expireAt := 0
  touchAt := 0
  insertAt := 0
  rules := []
  net := ⟨.ok [], .ok (), fun _ => .ok ()⟩
  bind := .ok ()
  send := .ok ()
  walk := ⟨id, fun _ => .refl _⟩

theorem sample_decrypt (userKey : List UInt8) :
    udpDecryptPacket .standard sampleUdp.masterKey (sampleTables userKey).authUsers
      sampleUdp.isMultiUser (sampleInbound userKey).datagram sampleUdp.cipherKind =
      .ok (samplePlain, some 7) := by
  have hkey : CipherKind.chacha20Ietf.Takes (List.replicate 32 0) := fun _ => rfl
  have hlisted : (sampleTables userKey).authUsers[(7 : UInt32).toNat]? = some userKey := by
    simp [sampleTables]
  exact udpDecryptPacket_listed .standard 2 hkey hlisted rfl samplePlain

theorem sample_parse : ∃ target, parse samplePlain = .ok (some (target, 7)) := by
  rw [parse_spec]
  exact ⟨_, rfl⟩

/-- The associations after a datagram of `sampleInbound` that is delivered. -/
def sampleAssociations (userKey : List UInt8) (s : UdpListener) :
    BoundedTtlMap AssociationKey Association :=
  match s.associations.value? sampleKey with
  | some _ => (s.associations.touch sampleKey 0).2
  | none => s.associations.insert sampleKey ⟨s.nextSocket, sampleUdp.masterKey, userKey, 0,
      samplePeer, .chacha20Ietf⟩ 0 ⟨id, fun _ => .refl _⟩

theorem sample_associate (userKey : List UInt8) (s : UdpListener) :
    ∃ outbound log, (associate sampleUdp sampleKey userKey 0 (sampleInbound userKey)).run s =
      (.ok outbound, { s with
        associations := sampleAssociations userKey s
        nextSocket := s.nextSocket + if (s.associations.value? sampleKey).isSome then 0 else 1
        log := log }) := by
  rw [associate, run_get_bind]
  dsimp only
  rw [BoundedTtlMap.touch_fst, sampleAssociations]
  cases s.associations.value? sampleKey with
  | some association => exact ⟨_, _, rfl⟩
  | none => exact ⟨_, _, rfl⟩

theorem sample_forward (userKey : List UInt8) (target : Address) (s : UdpListener) :
    (forward sampleUdp (sampleTables userKey) 7 userKey 0 target [] (sampleInbound userKey)).run s =
      (associate sampleUdp sampleKey userKey 0 (sampleInbound userKey) >>= fun outbound =>
        perform (.send outbound (.hostPort target.host target.port) [])).run
          { s with log := s.log ++ [.scan [] []] ++ [] } := by
  have hpolicy : (sampleTables userKey).policies[7]? = none := Std.HashMap.getElem?_empty
  rw [forward, hpolicy]
  rfl

theorem sample_deliver (userKey : List UInt8) (s : UdpListener) :
    let r := (deliver sampleUdp (sampleTables userKey) 7 userKey samplePlain
      (sampleInbound userKey)).run s
    r.1 = .ok () ∧ r.2.associations = sampleAssociations userKey s ∧
      r.2.endedPumps = s.endedPumps ∧ r.2.stopped = s.stopped ∧ r.2.tables = s.tables := by
  obtain ⟨target, hparse⟩ := sample_parse
  have hcounters : (sampleTables userKey).countersByUser[7]? = some 0 := by
    simp [sampleTables]
  have hrun : (deliver sampleUdp (sampleTables userKey) 7 userKey samplePlain
      (sampleInbound userKey)).run s =
        (forward sampleUdp (sampleTables userKey) 7 userKey 0 target [] (sampleInbound userKey)).run
          { s with log := s.log ++
            [.recordUpload 0 (sampleInbound userKey).datagram.length] } := by
    rw [deliver, lookupCounters, hcounters, pure_bind, hparse]
    rfl
  obtain ⟨outbound, log, hassociate⟩ := sample_associate userKey { s with
    log := s.log ++ [.recordUpload 0 (sampleInbound userKey).datagram.length] ++ [.scan [] []] ++ [] }
  dsimp only
  rw [hrun, sample_forward, run_bind, hassociate]
  exact ⟨rfl, rfl, rfl, rfl, rfl⟩

/-- The step of a verified datagram that is delivered. -/
theorem step_delivered {ctx : UdpContext} {s : UdpListener} {inbound : Inbound} {userId : Nat}
    {signWith plain : List UInt8} {authenticated : Option Nat} (hstopped : s.stopped = false)
    (hdecrypt : udpDecryptPacket P ctx.masterKey s.tables.authUsers ctx.isMultiUser
      inbound.datagram ctx.cipherKind = .ok (plain, authenticated))
    (huser : authenticated.getD ctx.userId = userId)
    (hkey : responseKey ctx s.tables authenticated = signWith)
    (hok : ((deliver ctx s.tables userId signWith plain inbound).run { s with
      associations := s.associations.expire inbound.expireAt
      log := s.log ++ [.verified ⟨inbound.peer, userId⟩ signWith] }).1 = .ok ()) :
    step P ctx s (.datagram inbound) = ((deliver ctx s.tables userId signWith plain inbound).run
      { s with
        associations := s.associations.expire inbound.expireAt
        log := s.log ++ [.verified ⟨inbound.peer, userId⟩ signWith] }).2 := by
  rw [step, if_neg (by rw [hstopped]; nofun)]
  dsimp only
  rw [handleInbound_run ctx s.tables inbound hdecrypt, huser, hkey]
  generalize (deliver ctx s.tables userId signWith plain inbound).run _ = r at hok ⊢
  obtain ⟨o, s'⟩ := r
  cases hok
  rfl

/-- A datagram of user 7 while the tables have its key. -/
theorem sample_datagram {userKey : List UInt8} {s : UdpListener} (hstopped : s.stopped = false)
    (htables : s.tables = sampleTables userKey) :
    let s' := step .standard sampleUdp s (.datagram (sampleInbound userKey))
    lastVerified s'.log sampleKey = some userKey ∧
      s'.associations = sampleAssociations userKey { s with
        associations := s.associations.expire 0 } ∧
      s'.endedPumps = s.endedPumps ∧ s'.stopped = false := by
  have hkey : responseKey sampleUdp s.tables (some 7) = userKey := by
    rw [htables]
    simp [responseKey, sampleTables]
  have huser : (some 7).getD sampleUdp.userId = 7 := rfl
  have hdecrypt := sample_decrypt userKey
  have hdoes : Does (Handles Quiet sampleKey (Made sampleUdp s.tables
      (sampleInbound userKey) userKey 7)) (fun _ => True) (fun _ => True)
      (deliver sampleUdp s.tables 7 userKey samplePlain (sampleInbound userKey)) :=
    deliver_does sampleUdp s.tables (sampleInbound userKey) samplePlain
      (fun _ => trivial) (fun _ _ => trivial) (fun _ _ => trivial) (fun _ _ _ _ _ => trivial)
      (fun _ _ => trivial) (fun _ => trivial)
  have hdelivered := sample_deliver userKey { s with
    associations := s.associations.expire (sampleInbound userKey).expireAt
    log := s.log ++ [.verified ⟨(sampleInbound userKey).peer, 7⟩ userKey] }
  rw [← htables] at hdecrypt hdelivered
  obtain ⟨hok, hassociations, hended, hstopped', -⟩ := hdelivered
  dsimp only
  rw [step_delivered hstopped hdecrypt huser hkey hok]
  obtain ⟨extra, hextra, hquiet⟩ := (hdoes.state { s with
    associations := s.associations.expire (sampleInbound userKey).expireAt
    log := s.log ++ [.verified ⟨(sampleInbound userKey).peer, 7⟩ userKey] }).log_eq
  refine ⟨?_, hassociations, hended, hstopped'.trans hstopped⟩
  rw [hextra, lastVerified_append, lastVerified_quiet hquiet, Option.none_or,
    lastVerified_verified]
  exact if_pos rfl

/-- The pump of an association sends a response. -/
theorem step_response {ctx : UdpContext} {s : UdpListener} {key : AssociationKey}
    {association : Association} (hfound : s.associations.value? key = some association)
    (hpump : s.endedPumps = []) (htakes : association.cipherKind.Takes association.masterKey)
    (source : SocketAddr) (data : List UInt8) {getrandom : GetRandom}
    {iv : Vector UInt8 association.cipherKind.ivLen}
    (hrandom : getrandom association.cipherKind.ivLen = .ok iv) :
    ∃ bytes packet, (step P ctx s (.response key source data getrandom true)).log =
      s.log ++ [.recordDownload association.counters bytes] ++
        [.respond association.peer key.userId association.responseKey packet] := by
  obtain ⟨packet, hpacket, -⟩ := udpEncryptPacket_body P association.responseKey
    (packSocketAddr source.ip source.port ++ data) htakes hrandom
  refine ⟨packet.length, packet, ?_⟩
  have hof : s.pumpOf? key = some association := by
    rw [pumpOf?, hfound, hpump]
    simp
  rw [step, hof]
  dsimp only
  rw [pumpTurn, hpacket]
  rfl

def sampleAssociation : Association :=
  ⟨0, sampleUdp.masterKey, [1], 0, samplePeer, .chacha20Ietf⟩

/-- The first datagram of user 7 makes an association. -/
theorem sample_created :
    let s := step .standard sampleUdp (start (sampleTables [1]) 60 10) (.datagram (sampleInbound [1]))
    s.associations.map[sampleKey]? = some ⟨sampleAssociation, 0⟩ ∧ s.associations.ttl = 60 ∧
      s.endedPumps = [] ∧ s.stopped = false := by
  have hstart : (start (sampleTables [1]) 60 10).stopped = false := rfl
  have htables : (start (sampleTables [1]) 60 10).tables = sampleTables [1] := rfl
  obtain ⟨-, hmade, hended, hstopped⟩ := sample_datagram hstart htables
  have hnone : ((start (sampleTables [1]) 60 10).associations.expire 0).value? sampleKey = none := by
    rw [Option.eq_none_iff_forall_ne_some]
    intro association hfound
    have h := BoundedTtlMap.value?_evictExpired hfound
    rw [start_value?] at h
    cases h
  rw [sampleAssociations, hnone] at hmade
  refine ⟨?_, ?_, hended, hstopped⟩
  · rw [hmade]
    exact BoundedTtlMap.insert_self ..
  · rw [hmade]
    exact BoundedTtlMap.insert_ttl ..

/-- The second datagram finds it, whatever its key. -/
theorem sample_reused {s : UdpListener} (hentry : s.associations.map[sampleKey]? =
      some ⟨sampleAssociation, 0⟩) (httl : s.associations.ttl = 60) (hstopped : s.stopped = false)
    {userKey : List UInt8} (htables : s.tables = sampleTables userKey) :
    let s' := step .standard sampleUdp s (.datagram (sampleInbound userKey))
    lastVerified s'.log sampleKey = some userKey ∧
      s'.associations.value? sampleKey = some sampleAssociation ∧ s'.endedPumps = s.endedPumps := by
  obtain ⟨hlast, hassociations, hended, -⟩ := sample_datagram hstopped htables
  have hyoung : (s.associations.expire 0).map[sampleKey]? = some ⟨sampleAssociation, 0⟩ :=
    BoundedTtlMap.expire_of_lt hentry (by rw [httl]; decide)
  have hfound : (s.associations.expire 0).value? sampleKey = some sampleAssociation := by
    rw [BoundedTtlMap.value?, hyoung]
    rfl
  refine ⟨hlast, ?_, hended⟩
  rw [hassociations, sampleAssociations, hfound]
  exact (BoundedTtlMap.value?_touch _ sampleKey sampleKey 0).trans hfound

def zeroRandom : GetRandom := fun n => .ok (Vector.replicate n 0)

def sampleResponse : UdpEvent :=
  .response sampleKey ⟨.v4 #v[127, 0, 0, 1], 80⟩ [5] zeroRandom true

theorem responses_signed_sample :
    SignedCurrent (Machine.run (step .standard sampleUdp) (start (sampleTables [1]) 60 10)
      [.datagram (sampleInbound [1]), sampleResponse]).log := by
  apply responses_signed_current
  intro before event after heq
  match before, heq with
  | [], heq =>
      cases heq
      intro plain authenticated association _ hfound
      have h := BoundedTtlMap.value?_evictExpired hfound
      rw [Machine.run_nil, start_value?] at h
      cases h
  | [_], heq =>
      cases heq
      trivial
  | _ :: _ :: before, heq =>
      rw [List.cons_append, List.cons_append] at heq
      simp at heq

/-- The key of user 7 changes while its association lives: the next response has the old key. -/
theorem response_signed_stale :
    ¬SignedCurrent (Machine.run (step .standard sampleUdp) (start (sampleTables [1]) 60 10)
      [.datagram (sampleInbound [1]), .republish (sampleTables [2]),
        .datagram (sampleInbound [2]), sampleResponse]).log := by
  obtain ⟨hentry, httl, hended, hstopped⟩ := sample_created
  rw [Machine.run_cons, Machine.run_cons, Machine.run_cons, Machine.run_cons, Machine.run_nil]
  generalize step .standard sampleUdp (start (sampleTables [1]) 60 10)
    (.datagram (sampleInbound [1])) = s at hentry httl hended hstopped ⊢
  obtain ⟨hlast, hfound, hpumps⟩ :=
    sample_reused (s := step .standard sampleUdp s (.republish (sampleTables [2])))
      hentry httl hstopped rfl
  generalize step .standard sampleUdp (step .standard sampleUdp s (.republish (sampleTables [2])))
    (.datagram (sampleInbound [2])) = s' at hlast hfound hpumps ⊢
  have htakes : sampleAssociation.cipherKind.Takes sampleAssociation.masterKey := fun _ => rfl
  have hrandom : zeroRandom sampleAssociation.cipherKind.ivLen = .ok (Vector.replicate _ 0) := rfl
  obtain ⟨bytes, packet, hlog⟩ := step_response hfound (hpumps.trans hended) htakes
    ⟨.v4 #v[127, 0, 0, 1], 80⟩ [5] hrandom
  intro hsigned
  have hkey := hsigned (s'.log ++ [.recordDownload sampleAssociation.counters bytes])
    sampleAssociation.peer 7 [1] packet [] hlog
  have hquiet : ∀ k signWith, .verified k signWith ∉
      [UdpAction.recordDownload sampleAssociation.counters bytes] := by
    intro k signWith hmem
    cases List.mem_singleton.mp hmem
  rw [lastVerified_append, lastVerified_none hquiet, Option.none_or] at hkey
  cases hlast.symm.trans hkey

end UdpListener

end SsrBackend
