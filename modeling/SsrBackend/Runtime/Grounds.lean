import SsrBackend.Relay.Emissions
import SsrBackend.Runtime.Backend
import SsrBackend.Runtime.InForce

/-!
What stands behind the alive IPs and the detect logs that the panel is told of, over
runs of the whole backend: a client has come from the address, and the rule is one
that the panel itself has sent before.
-/

namespace SsrBackend

theorem RelayEvent.From.mono {ip : String} {rules rules' : RuleSet} {event : RelayEvent}
    (h : event.From ip rules) (hsub : rules ⊆ rules') : event.From ip rules' := by
  cases event with
  | connect userId ip' peer => exact h
  | detect userId listId ip' =>
      obtain ⟨rule, hrule, hid⟩ := List.mem_map.mp h.2
      exact ⟨h.1, List.mem_map.mpr ⟨rule, hsub hrule, hid⟩⟩

/-! ### The clients of a listener -/

/-- The address of the client that an input comes from. -/
def RelayInput.peer? : RelayInput → Option String
  | tcp (.accept peerIp _) => some peerIp
  | udp (.datagram inbound) => some inbound.peerIp
  | _ => none

/-- The clients of the sessions have been seen. -/
def ListenerLoop.Heard (seen : String → Prop) : ListenerLoop → Prop
  | tcp _ listener => ∀ session ∈ listener.sessions, seen session.ctx.peerIp
  | _ => True

theorem TcpListener.step_heard {P : Primitives} {cfg : TcpConfig} {seen : String → Prop}
    {l : TcpListener} (h : ∀ session ∈ l.sessions, seen session.ctx.peerIp) {event : TcpEvent}
    (hpeer : ∀ peerIp peer, event = .accept peerIp peer → seen peerIp) :
    ∀ session ∈ (l.step P cfg event).sessions, seen session.ctx.peerIp := by
  intro session hmem
  rcases mem_step_sessions hmem with hold | ⟨peerIp, peer, heq, rfl⟩ |
    ⟨i, taskEvent, -, old, hold, rfl⟩
  · exact h session hold
  · exact hpeer peerIp peer heq
  · rw [TcpSession.step_ctx]
    exact h old (List.mem_of_getElem? hold)

/-- What the listener emits is of one of its clients. -/
theorem TcpListener.outputs_heard {P : Primitives} {seen : String → Prop} {l : TcpListener}
    (h : ∀ session ∈ l.sessions, seen session.ctx.peerIp) {rules : RuleSet} {event event' : TcpEvent}
    (hwatched : event.watched rules = some event') {emitted : RelayEvent}
    (hmem : .emit emitted ∈ l.outputs P event') : ∃ ip, seen ip ∧ emitted.From ip rules := by
  cases event' with
  | task i event' =>
      rw [outputs] at hmem
      cases hsession : l.sessions[i]? with
      | none =>
          rw [hsession] at hmem
          cases hmem
      | some session =>
          rw [hsession] at hmem
          have hfrom : emitted.From session.ctx.peerIp event'.rules :=
            TcpSession.outputs_from P session event' _ hmem
          refine ⟨_, h session (List.mem_of_getElem? hsession), hfrom.mono ?_⟩
          unfold TcpEvent.watched at hwatched
          split at hwatched <;> cases hwatched
          · exact List.Subset.refl _
          · rename_i hother
            cases event' with
            | opened getrandom => exact List.nil_subset _
            | finish => exact List.nil_subset _
            | stream event' =>
                cases event' with
                | clientRead chunk world write => exact absurd rfl (hother i chunk world write)
                | _ => exact List.nil_subset _
  | _ => cases hmem

namespace Relay

variable {P : Primitives} {limits : RelayLimits} {seen : String → Prop}

theorem step_heard {tables : UserTables} {rules : RuleSet} {relay : Relay}
    (h : relay.loop.Heard seen) {input : RelayInput} (hpeer : ∀ ip ∈ input.peer?, seen ip) :
    (relay.step P limits tables rules input).loop.Heard seen ∧
      ∀ emitted, .emit emitted ∈ relay.outputs P rules input →
        ∃ ip, seen ip ∧ emitted.From ip rules := by
  obtain ⟨task, loop, stopping⟩ := relay
  cases input with
  | bound result =>
      refine ⟨?_, by rintro _ ⟨⟩⟩
      cases loop with
      | binding =>
          change (ListenerLoop.opened P limits tables task result).Heard seen
          cases result with
          | error reason => trivial
          | ok _ =>
              rw [ListenerLoop.opened]
              cases (task.profile.cipherKind : Outcome String CipherKind) with
              | ok kind =>
                  cases task.kind with
                  | tcp => exact List.forall_mem_nil _
                  | udp => trivial
              | _ => trivial
      | _ => exact h
  | tcp event =>
      cases hwatched : event.watched rules with
      | none =>
          simp only [step, outputs, hwatched]
          exact ⟨h, by rintro _ ⟨⟩⟩
      | some event' =>
          simp only [step, outputs, hwatched]
          cases loop with
          | tcp cfg listener =>
              refine ⟨TcpListener.step_heard h ?_, ?_⟩
              · intro peerIp peer heq
                unfold TcpEvent.watched at hwatched
                split at hwatched <;> cases hwatched
                · cases heq
                · rw [heq] at hpeer
                  exact hpeer peerIp rfl
              · intro emitted hmem
                exact TcpListener.outputs_heard h hwatched hmem
          | _ => exact ⟨h, by rintro _ ⟨⟩⟩
  | udp event =>
      cases hwatched : event.watched rules with
      | none =>
          simp only [step, outputs, hwatched]
          exact ⟨h, by rintro _ ⟨⟩⟩
      | some event' =>
          simp only [step, outputs, hwatched]
          cases loop with
          | udp ctx listener =>
              refine ⟨trivial, ?_⟩
              intro emitted hmem
              obtain ⟨ip, rules', horigin, hfrom⟩ :=
                UdpListener.outputs_from P ctx listener event' _ hmem emitted rfl
              unfold UdpEvent.watched at hwatched
              split at hwatched <;> cases hwatched
              · cases horigin
                exact ⟨_, hpeer _ rfl, hfrom⟩
              · rename_i hother
                cases event with
                | datagram inbound => exact absurd rfl (hother inbound)
                | _ => cases horigin
          | _ => exact ⟨h, by rintro _ ⟨⟩⟩
  | receiveFailed reason =>
      refine ⟨?_, by rintro _ ⟨⟩⟩
      cases loop with
      | udp ctx listener => trivial
      | _ => exact h
  | stopped =>
      refine ⟨?_, by rintro _ ⟨⟩⟩
      rw [step]
      split
      · cases loop with
        | tcp cfg listener => exact TcpListener.step_heard h (by rintro _ _ ⟨⟩)
        | _ => trivial
      · exact h

end Relay

/-! ### Runs of the backend -/

def BackendEvent.peer? {V : Type} : BackendEvent V → Option String
  | supervisor _ => none
  | relay _ input => input.peer?

/-- The event has a client behind it, and a rule of the panel where it is a match. -/
def RelayEvent.Grounded (seen : String → Prop) (listed : Nat → Prop) : RelayEvent → Prop
  | connect _ ip _ => seen ip
  | detect _ listId ip => seen ip ∧ listed listId

theorem RelayEvent.Grounded.mono {seen seen' : String → Prop} {listed listed' : Nat → Prop}
    {event : RelayEvent} (h : event.Grounded seen listed) (hseen : ∀ ip, seen ip → seen' ip)
    (hlisted : ∀ id, listed id → listed' id) : event.Grounded seen' listed' := by
  cases event with
  | connect userId ip peer => exact hseen ip h
  | detect userId listId ip => exact ⟨hseen ip h.1, hlisted listId h.2⟩

theorem RelayEvent.From.grounded {seen : String → Prop} {listed : Nat → Prop} {ip : String}
    {rules : RuleSet} {event : RelayEvent} (h : event.From ip rules) (hseen : seen ip)
    (hlisted : ∀ rule ∈ rules, listed rule.id) : event.Grounded seen listed := by
  cases event with
  | connect userId ip' peer =>
      cases h
      exact hseen
  | detect userId listId ip' =>
      obtain ⟨hip, hmem⟩ := h
      obtain ⟨rule, hrule, rfl⟩ := List.mem_map.mp hmem
      cases hip
      exact ⟨hseen, hlisted rule hrule⟩

namespace MainLoop

variable {V : Type} (L : Libraries V)

/-- An answer of the panel has a rule with the number. -/
def Listed (exchanges : List (Request × HttpReply V)) (listId : Nat) : Prop :=
  ∃ exchange ∈ exchanges, ∃ rules, rulesAnswer? L exchange = some rules ∧
    ∃ rule ∈ rules, rule.id = listId

variable {L}

theorem Listed.mono {exchanges exchanges' : List (Request × HttpReply V)} {listId : Nat}
    (h : Listed L exchanges listId) (hgrows : exchanges <+: exchanges') :
    Listed L exchanges' listId := by
  obtain ⟨exchange, hmem, hanswer⟩ := h
  exact ⟨exchange, hgrows.subset hmem, hanswer⟩

variable (L) in
/-- The rules in force are the panel's. -/
theorem rules_listed (config : Config) (panel : PanelConfig) (events : List (LoopEvent V)) :
    let s := after L config panel events
    ∀ rule ∈ s.rules, Listed L s.exchanges rule.id := by
  intro s rule hrule
  rw [(run_ruled L config panel events).rules_eq, ruled] at hrule
  cases hlast : ((s.exchanges.drop 4).filterMap (rulesAnswer? L)).getLast? with
  | none =>
      rw [hlast] at hrule
      cases hrule
  | some rules =>
      rw [hlast] at hrule
      obtain ⟨exchange, hexchange, hanswer⟩ :=
        List.mem_filterMap.mp (List.mem_of_getLast? hlast)
      refine ⟨exchange, List.mem_of_mem_drop hexchange, rules, hanswer, ?_⟩
      have hcompiled : rule ∈ compileRules L.compile rules := hrule
      obtain ⟨source, hsource, hrule'⟩ := List.mem_filterMap.mp hcompiled
      split at hrule'
      · cases hrule'
      · obtain ⟨isMatch, -, rfl⟩ := Option.map_eq_some_iff.mp hrule'
        exact ⟨source, hsource, rfl⟩

end MainLoop

namespace Backend

variable {V : Type} {L : Libraries V} {limits : RelayLimits} {config : Config}
  {panel : PanelConfig}

variable (L) in
/-- The sessions have clients that have been seen, and what the loop has been sent is grounded. -/
structure Grounded (seen : String → Prop) (b : Backend V) : Prop where
  heard : ∀ relay ∈ b.relays, relay.loop.Heard seen
  emitted : ∀ event, .emit event ∈ b.trace →
    event.Grounded seen (MainLoop.Listed L b.loop.exchanges)

theorem supervise_grounded {seen : String → Prop} {b : Backend V} (h : Grounded L seen b)
    {event : LoopEvent V} (hown : event.own = true) : Grounded L seen (b.supervise L event) := by
  refine ⟨?_, ?_⟩
  · refine supervise_relays (Q := fun relay => relay.loop.Heard seen) (fun _ => trivial)
      (fun _ hheard => hheard) ?_
    intro old hold
    have hheard := h.heard old hold
    obtain ⟨task, loop, stopping⟩ := old
    cases loop with
    | tcp cfg listener => exact TcpListener.step_heard hheard (by rintro _ _ ⟨⟩)
    | _ => trivial
  · intro emitted hmem
    cases List.mem_append.mp hmem with
    | inl hold =>
        apply (h.emitted emitted hold).mono fun _ hseen => hseen
        intro id hlisted
        apply hlisted.mono
        change _ <+: (MainLoop.step L b.loop event).exchanges
        rw [(MainLoop.step_noted L b.loop event).2]
        exact List.prefix_append ..
    | inr hnew =>
        rw [← List.mem_singleton.mp hnew] at hown
        cases hown

theorem relayStep_grounded {seen : String → Prop} {b : Backend V} (htied : Tied L config panel b)
    (h : Grounded L seen b) (i : Nat) {input : RelayInput} (hpeer : ∀ ip ∈ input.peer?, seen ip) :
    Grounded L seen (b.relayStep L limits i input) := by
  rw [relayStep]
  cases hrelay : b.relays[i]? with
  | none => exact h
  | some relay =>
      have hin := List.mem_of_getElem? hrelay
      have htakes := (htied.relay_takes limits hin input).2
      obtain ⟨hheard, hemitted⟩ : (relay.step L.primitives limits b.loop.runtime.tables
            b.loop.rules input).loop.Heard seen ∧
          ∀ emitted, .emit emitted ∈ relay.outputs L.primitives b.loop.rules input →
            ∃ ip, seen ip ∧ emitted.From ip b.loop.rules :=
        Relay.step_heard (h.heard relay hin) hpeer
      refine ⟨?_, ?_⟩
      · intro other hmem
        cases List.mem_or_eq_of_mem_set hmem with
        | inl hold => exact h.heard other hold
        | inr hnew =>
            rw [hnew]
            exact hheard
      · intro emitted hmem
        dsimp only
        rw [htakes.exchanges_eq]
        cases List.mem_append.mp hmem with
        | inl hold => exact h.emitted emitted hold
        | inr hnew =>
            obtain ⟨output, houtput, hdelivered⟩ := List.mem_filterMap.mp hnew
            cases output with
            | record counters direction bytes =>
                obtain ⟨place, -, heq⟩ := Option.map_eq_some_iff.mp hdelivered
                cases heq
            | emit event =>
                cases hdelivered
                obtain ⟨ip, hseen, hfrom⟩ := hemitted emitted houtput
                apply hfrom.grounded hseen
                rw [htied.loop_eq]
                exact MainLoop.rules_listed L config panel b.trace

theorem Grounded.mono {seen seen' : String → Prop} {b : Backend V} (h : Grounded L seen b)
    (himp : ∀ ip, seen ip → seen' ip) : Grounded L seen' b := by
  refine ⟨?_, ?_⟩
  · intro relay hmem
    have hheard := h.heard relay hmem
    obtain ⟨task, loop, stopping⟩ := relay
    cases loop with
    | tcp cfg listener => exact fun session hsession => himp _ (hheard session hsession)
    | _ => trivial
  · intro event hmem
    exact (h.emitted event hmem).mono himp fun _ hlisted => hlisted

/-- The addresses of the clients that have come. -/
def clients (events : List (BackendEvent V)) : List String := events.filterMap BackendEvent.peer?

variable (L limits config panel) in
theorem run_grounded (events : List (BackendEvent V)) :
    Grounded L (· ∈ clients events) (after L limits config panel events) := by
  induction events using List.reverseRecOn with
  | nil => exact ⟨List.forall_mem_nil _, by rintro _ ⟨⟩⟩
  | append_singleton events event ih =>
      have htied := run_tied L limits config panel events
      have hbefore : Grounded L (· ∈ clients (events ++ [event]))
          (after L limits config panel events) := by
        apply ih.mono
        intro ip hmem
        rw [clients, List.filterMap_append]
        exact List.mem_append_left _ hmem
      rw [after, Machine.run_append, Machine.run_cons, Machine.run_nil]
      rw [after] at hbefore htied
      cases event with
      | supervisor event =>
          rw [step]
          split
          · exact supervise_grounded hbefore ‹_›
          · exact hbefore
      | relay i input =>
          apply relayStep_grounded htied hbefore
          intro ip hpeer
          rw [clients, List.filterMap_append]
          apply List.mem_append_right
          exact List.mem_filterMap.mpr ⟨_, List.mem_singleton_self _, hpeer⟩

/-- What the loop has been sent is grounded. -/
theorem emitted_grounded {κ ν ρ : Type} [BEq κ] [Hashable κ] {w : MainLoop.Watch V κ ν ρ}
    {events : List (BackendEvent V)} {item : ρ}
    (hitem : item ∈ MainLoop.emitted w (after L limits config panel events).trace) :
    ∃ event, w.item? event = some item ∧ event.Grounded (· ∈ clients events)
      (MainLoop.Listed L (after L limits config panel events).loop.exchanges) := by
  obtain ⟨emission, hmem, hemission⟩ := List.mem_filterMap.mp hitem
  cases emission with
  | emit event =>
      exact ⟨event, hemission, (run_grounded L limits config panel events).emitted event hmem⟩
  | _ => cases hemission

/-- A reply is noted in a step of the supervisor, while its request is waited for. -/
theorem exchanges_split {events : List (BackendEvent V)}
    {earlier later : List (Request × HttpReply V)} {exchange : Request × HttpReply V}
    (h : (after L limits config panel events).loop.exchanges = earlier ++ exchange :: later) :
    ∃ prior, prior <+: events ∧
      (after L limits config panel prior).loop.exchanges = earlier ∧
      (after L limits config panel prior).loop.request? = some exchange.1 := by
  induction events using List.reverseRecOn generalizing later with
  | nil => exact absurd h.symm (by simp [after, start, MainLoop.start])
  | append_singleton events event ih =>
      have hold {rest : List (Request × HttpReply V)}
          (hrest : (after L limits config panel events).loop.exchanges =
            earlier ++ exchange :: rest) :
          ∃ prior, prior <+: events ++ [event] ∧
            (after L limits config panel prior).loop.exchanges = earlier ∧
            (after L limits config panel prior).loop.request? = some exchange.1 := by
        obtain ⟨prior, hprior, hfound⟩ := ih hrest
        exact ⟨prior, hprior.trans (List.prefix_append ..), hfound⟩
      have htied := run_tied L limits config panel events
      rw [after, Machine.run_append, Machine.run_cons, Machine.run_nil] at h
      change (step L limits (after L limits config panel events) event).loop.exchanges = _ at h
      cases event with
      | relay i input =>
          rw [step, relayStep] at h
          cases hrelay : (after L limits config panel events).relays[i]? with
          | none =>
              rw [hrelay] at h
              exact hold h
          | some relay =>
              rw [hrelay] at h
              have htakes := (htied.relay_takes limits (List.mem_of_getElem? hrelay) input).2
              exact hold (htakes.exchanges_eq.symm.trans h)
      | supervisor event =>
          rw [step] at h
          split at h
          · change (MainLoop.step L _ event).exchanges = _ at h
            rw [(MainLoop.step_noted L _ event).2] at h
            rcases Machine.split_append h with ⟨rest, hrest⟩ | ⟨more, hearlier, hnew⟩
            · exact hold hrest
            · have hone : more = [] ∧ (after L limits config panel events).loop.exchange? event =
                  some exchange := by
                cases hexchange : (after L limits config panel events).loop.exchange? event with
                | none =>
                    rw [hexchange] at hnew
                    exact absurd hnew.symm (by simp)
                | some noted =>
                    rw [hexchange, Option.toList_some, eq_comm,
                      List.append_eq_singleton_iff] at hnew
                    rcases hnew with ⟨rfl, heq⟩ | ⟨-, heq⟩
                    · cases heq
                      exact ⟨rfl, rfl⟩
                    · cases heq
              obtain ⟨rfl, hexchange⟩ := hone
              refine ⟨events, List.prefix_append .., (hearlier.trans (List.append_nil _)).symm, ?_⟩
              cases event with
              | reply reply session alive detect =>
                  obtain ⟨request, hrequest, rfl⟩ := Option.map_eq_some_iff.mp hexchange
                  exact hrequest
              | _ => cases hexchange
          · exact hold h

variable (L limits) in
/-- What the panel is told by the relays has a ground at the moment it is told: a client has come
from every address that is reported as alive, and every rule that a detect log names is one of an
answer that the panel has given before. -/
theorem reports_grounded (config : Config) (panel : PanelConfig) (events : List (BackendEvent V)) :
    let b := after L limits config panel events
    ∀ earlier exchange later, b.loop.exchanges = earlier ++ exchange :: later →
      ∃ prior, prior <+: events ∧
        (after L limits config panel prior).loop.exchanges = earlier ∧
        (exchange.1.path = "users/aliveip" →
          ∃ items, exchange.1 = PanelClient.reportAliveIps panel items ∧ items ≠ [] ∧
            ∀ item ∈ items, item.ip ∈ clients prior) ∧
        (exchange.1.path = "users/detectlog" →
          ∃ items, exchange.1 = PanelClient.reportDetectLogs panel items ∧ items ≠ [] ∧
            ∀ item ∈ items, MainLoop.Listed L earlier item.listId) := by
  intro b earlier exchange later hsplit
  obtain ⟨prior, hprior, hearlier, hrequest⟩ := exchanges_split hsplit
  have htied : Tied L config panel (after L limits config panel prior) :=
    run_tied L limits config panel prior
  have hpanel := (MainLoop.run_observing L config panel
    (after L limits config panel prior).trace).panel_eq
  rw [← htied.loop_eq] at hpanel
  refine ⟨prior, hprior, hearlier, ?_, ?_⟩
  · intro hpath
    obtain ⟨items, hitems, hphase⟩ := MainLoop.phase_of_aliveIps hrequest hpath
    rw [htied.loop_eq] at hphase
    obtain ⟨hne, -, hemitted⟩ := MainLoop.aliveIps_posted L hphase
    rw [hpanel] at hitems
    refine ⟨items, hitems, hne, ?_⟩
    intro item hitem
    obtain ⟨event, hevent, hgrounded⟩ := emitted_grounded (hemitted hitem)
    cases event with
    | connect userId ip peer =>
        cases hevent
        exact hgrounded
    | detect userId listId ip => cases hevent
  · intro hpath
    obtain ⟨items, hitems, hphase⟩ := MainLoop.phase_of_detectLogs hrequest hpath
    rw [htied.loop_eq] at hphase
    obtain ⟨hne, hemitted⟩ := MainLoop.detectLogs_posted L hphase
    rw [hpanel] at hitems
    refine ⟨items, hitems, hne, ?_⟩
    intro item hitem
    obtain ⟨event, hevent, hgrounded⟩ := emitted_grounded (hemitted hitem)
    cases event with
    | connect userId ip peer => cases hevent
    | detect userId listId ip =>
        cases hevent
        rw [← hearlier]
        exact hgrounded.2

end Backend

end SsrBackend
