import Std.Data.HashMap.Lemmas
import Mathlib.Algebra.Order.Ring.Nat
import Mathlib.Data.List.Basic

/-!
The distinct client IPs of a user (`UserIpSet` and `ConnGuard` of `traffic.rs`),
each with the number of its live guards. Both operations run under the mutex, so
each is one step on the map.
-/

namespace SsrBackend

abbrev UserIpSet : Type := Std.HashMap String Nat

namespace ConnGuard

/-- `ConnGuard::acquire`: the set with the slot taken, or `none` at the limit. -/
def acquire (ips : UserIpSet) (ip : String) (limit : Nat) : Option UserIpSet :=
  match ips[ip]? with
  | some count => some (ips.insert ip (count + 1))
  | none => if 0 < limit ∧ limit ≤ ips.size then none else some (ips.insert ip 1)

/-- `Drop for ConnGuard`. -/
def drop (ips : UserIpSet) (ip : String) : UserIpSet :=
  match ips[ip]? with
  | some count => if count - 1 = 0 then ips.erase ip else ips.insert ip (count - 1)
  | none => ips

end ConnGuard

end SsrBackend
