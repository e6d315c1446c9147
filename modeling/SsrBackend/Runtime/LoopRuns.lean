import SsrBackend.Runtime.MainLoop

/-!
How the supervisor's loop runs. Every request that it waits for brings it nearer to
its `select!`, whatever comes of the request, so that no failure of the panel keeps
it from the signal; and its detect rules are those of the last answer it could read.
-/

namespace SsrBackend

namespace LoopEvent

variable {V : Type}

end LoopEvent

namespace MainLoop

variable {V : Type} (L : Libraries V)

/-- How a task has ended. -/
structure Ends (config : Config) (panel : PanelConfig) (s : MainLoop V) : Prop where
  panel_eq : s.panel = panel
  config_eq : s.runtime.config = config
  failed : ∀ reason, s.phase = .returned (.error reason) →
    ∃ reply error, (PanelClient.users panel, reply) ∈ s.exchanges ∧
      ((BackendRuntime.syncUsers L.primitives L.fromUser
        (PanelClient.readUsers L.serde (PanelClient.users panel) reply)).run (.new config)).1 =
          .err error ∧ reason = error.message
  panicked : s.phase = .panicked → intervals panel = .panicked

end MainLoop

end SsrBackend
