import SsrBackend.Runtime.Fleet

/-!
The listeners of the backend one by one. A listener in its loop has come there by a run
of its own machine, from the tables of the moment of its bind: of the supervisor it has
seen the tables that were published and the stop, and all else are events of its own
sockets and sessions. What holds in every run of a listener holds in the backend.
-/

namespace SsrBackend

/-- A run of the listener from a snapshot of a list, with no snapshots but those. -/
def TcpListener.RunOn (P : Primitives) (cfg : TcpConfig) (published : List UserTables)
    (l : TcpListener) : Prop :=
  ∃ tables ∈ published, Machine.Reaches (step P cfg)
    (fun event => ∀ other, event = .republish other → other ∈ published)
    (start cfg tables (.ok ())) l

def UdpListener.RunOn (P : Primitives) (limits : RelayLimits) (ctx : UdpContext)
    (published : List UserTables) (l : UdpListener) : Prop :=
  ∃ tables ∈ published, Machine.Reaches (step P ctx)
    (fun event => ∀ other, event = .republish other → other ∈ published)
    (start tables limits.udpAssociationTtl limits.maxUdpAssociations) l

namespace ListenerLoop

def RunOn (P : Primitives) (limits : RelayLimits) (published : List UserTables) :
    ListenerLoop → Prop
  | binding => True
  | tcp cfg listener => listener.RunOn P cfg published
  | udp ctx listener => listener.RunOn P limits ctx published
  | failed => True

variable {P : Primitives} {limits : RelayLimits} {published published' : List UserTables}

theorem RunOn.mono {loop : ListenerLoop} (h : loop.RunOn P limits published)
    (hmore : published ⊆ published') : loop.RunOn P limits published' := by
  cases loop with
  | binding => trivial
  | tcp cfg listener =>
      obtain ⟨tables, htables, hreaches⟩ := h
      exact ⟨tables, hmore htables,
        hreaches.mono fun event hevent other heq => hmore (hevent other heq)⟩
  | udp ctx listener =>
      obtain ⟨tables, htables, hreaches⟩ := h
      exact ⟨tables, hmore htables,
        hreaches.mono fun event hevent other heq => hmore (hevent other heq)⟩
  | failed => trivial

theorem opened_runOn {tables : UserTables} (htables : tables ∈ published) (task : ListenerTask)
    (result : Except String Unit) :
    (opened P limits tables task result).RunOn P limits published := by
  cases result with
  | error reason => trivial
  | ok _ =>
      rw [opened]
      cases (task.profile.cipherKind : Outcome String CipherKind) with
      | ok kind =>
          cases task.kind with
          | tcp => exact ⟨tables, htables, .refl _⟩
          | udp => exact ⟨tables, htables, .refl _⟩
      | err e => trivial
      | panic => trivial

theorem tcp_runOn {cfg : TcpConfig} {listener : TcpListener}
    (h : (tcp cfg listener).RunOn P limits published) {event : TcpEvent}
    (hevent : ∀ other, event = .republish other → other ∈ published) :
    (tcp cfg (listener.step P cfg event)).RunOn P limits published := by
  obtain ⟨tables, htables, hreaches⟩ := h
  exact ⟨tables, htables, hreaches.next hevent⟩

theorem udp_runOn {ctx : UdpContext} {listener : UdpListener}
    (h : (udp ctx listener).RunOn P limits published) {event : UdpEvent}
    (hevent : ∀ other, event = .republish other → other ∈ published) :
    (udp ctx (listener.step P ctx event)).RunOn P limits published := by
  obtain ⟨tables, htables, hreaches⟩ := h
  exact ⟨tables, htables, hreaches.next hevent⟩

theorem republish_runOn {loop : ListenerLoop} (h : loop.RunOn P limits published)
    {tables : UserTables} (htables : tables ∈ published) :
    (loop.republish P tables).RunOn P limits published := by
  cases loop with
  | binding => trivial
  | tcp cfg listener =>
      apply tcp_runOn h
      rintro _ ⟨⟩
      exact htables
  | udp ctx listener =>
      apply udp_runOn h
      rintro _ ⟨⟩
      exact htables
  | failed => trivial

end ListenerLoop

theorem Relay.step_runOn {P : Primitives} {limits : RelayLimits} {published : List UserTables}
    {tables : UserTables} (htables : tables ∈ published) {relay : Relay}
    (h : relay.loop.RunOn P limits published) (rules : RuleSet) (input : RelayInput) :
    (relay.step P limits tables rules input).loop.RunOn P limits published := by
  rcases step_loop P limits tables rules relay input with
    hsame | ⟨result, -, hopened⟩ | ⟨cfg, listener, event, hloop, hevent, htcp⟩ |
    ⟨ctx, listener, event, hloop, hevent, hudp⟩
  · rw [hsame]
    exact h
  · rw [hopened]
    exact ListenerLoop.opened_runOn htables relay.task result
  · rw [htcp]
    rw [hloop] at h
    exact ListenerLoop.tcp_runOn h fun other heq => absurd heq (hevent other)
  · rw [hudp]
    rw [hloop] at h
    exact ListenerLoop.udp_runOn h fun other heq => absurd heq (hevent other)

namespace Backend

variable {V : Type} {L : Libraries V} {limits : RelayLimits} {config : Config}
  {panel : PanelConfig}

variable (L limits) in
def Separate (b : Backend V) : Prop :=
  ∀ relay ∈ b.relays, relay.loop.RunOn L.primitives limits b.loop.published

theorem supervise_separate {b : Backend V} (htied : Tied L config panel b)
    (h : Separate L limits b) {event : LoopEvent V} (hown : event.own = true) :
    Separate L limits (b.supervise L event) := by
  have hpublished := (MainLoop.step_history (L := L) b.loop event).1
  have htables := MainLoop.tables_published L config panel (b.supervise L event).trace
  rw [← (supervise_tied htied hown).loop_eq] at htables
  refine supervise_relays (Q := fun relay => relay.loop.RunOn _ _ _) (fun _ => trivial)
    (fun _ hruns => hruns) ?_
  intro relay hmem
  exact ListenerLoop.republish_runOn ((h relay hmem).mono hpublished.subset) htables

theorem relayStep_separate {b : Backend V} (htied : Tied L config panel b)
    (h : Separate L limits b) (i : Nat) (input : RelayInput) :
    Separate L limits (b.relayStep L limits i input) := by
  rw [relayStep]
  cases hrelay : b.relays[i]? with
  | none => exact h
  | some relay =>
      have hin := List.mem_of_getElem? hrelay
      have htakes := (htied.relay_takes limits hin input).2
      have htables := MainLoop.tables_published L config panel b.trace
      rw [← htied.loop_eq] at htables
      intro other hmem
      dsimp only
      rw [htakes.published_eq]
      cases List.mem_or_eq_of_mem_set hmem with
      | inl hold => exact h other hold
      | inr hnew =>
          rw [hnew]
          exact Relay.step_runOn htables (h relay hin) b.loop.rules input

variable (L limits config panel) in
theorem run_separate (events : List (BackendEvent V)) :
    Separate L limits (after L limits config panel events) := by
  induction events using List.reverseRecOn with
  | nil => exact List.forall_mem_nil _
  | append_singleton events event ih =>
      have htied := run_tied L limits config panel events
      rw [after, Machine.run_append, Machine.run_cons, Machine.run_nil]
      rw [after] at ih htied
      cases event with
      | supervisor event =>
          rw [step]
          split
          · exact supervise_separate htied ih ‹_›
          · exact ih
      | relay i input => exact relayStep_separate htied ih i input

variable (L limits) in
/-- In every run of the backend each listener in its loop has come there by a run of its own
machine, with the arguments of its spawn and from a snapshot that was published, on events of its
own and on snapshots that were published. Other listeners and sessions have a part in it through
the shared sets of IPs and the shared limiters only, as what the events of its own read there. -/
theorem listeners_run_alone (config : Config) (panel : PanelConfig)
    (events : List (BackendEvent V)) :
    let b := after L limits config panel events
    ∀ relay ∈ b.relays,
      (∀ cfg listener, relay.loop = .tcp cfg listener →
        relay.task.args? L.primitives limits = some (.tcp cfg) ∧
          listener.RunOn L.primitives cfg b.loop.published) ∧
      ∀ ctx listener, relay.loop = .udp ctx listener →
        relay.task.args? L.primitives limits = some (.udp ctx) ∧
          listener.RunOn L.primitives limits ctx b.loop.published := by
  intro b relay hmem
  have hserves := (run_staffed L limits config panel events).serves relay hmem
  have hruns := run_separate L limits config panel events relay hmem
  refine ⟨?_, ?_⟩
  · intro cfg listener hloop
    rw [hloop] at hruns
    exact ⟨hserves.args (.tcp cfg) (by rw [hloop]; rfl), hruns⟩
  · intro ctx listener hloop
    rw [hloop] at hruns
    exact ⟨hserves.args (.udp ctx) (by rw [hloop]; rfl), hruns⟩

end Backend

end SsrBackend
