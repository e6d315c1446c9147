import SsrBackend.Relay.Policy
import SsrBackend.Ssr.Protocol

/-!
The per-user lookup tables a listener reads (`user_tables.rs`). An object behind
an `Arc` is a handle: two tables that hold the same handle share the object.
-/

namespace SsrBackend

/-- A `UserCounters`, a `UserIpSet` or a `RateLimiter` that is shared. -/
abbrev Handle : Type := Nat

structure UserTables where
  authUsers : Users
  countersByUser : Std.HashMap Nat Handle
  connsByUser : Std.HashMap Nat Handle
  speedsByUser : Std.HashMap Nat Handle
  policies : Std.HashMap Nat UserPolicy

end SsrBackend
