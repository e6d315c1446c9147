import Std.Data.HashSet.Lemmas
import Mathlib.Algebra.Order.Ring.Nat
import Mathlib.Data.List.Basic

/-!
Detect rules on the relay (`audit.rs`). A compiled regular expression is any
predicate on bytes. The rule set is the value of the watch at the moment of the
scan, and the events are those handed to `try_send`, which may drop them.
-/

namespace SsrBackend

structure CompiledRule where
  id : Nat
  isMatch : List UInt8 → Bool

abbrev RuleSet : Type := List CompiledRule

inductive RelayEvent where
  | connect (userId : Nat) (ip peer : String)
  | detect (userId listId : Nat) (ip : String)
  deriving DecidableEq, Repr

/-- `scan_payload`: whether a rule matched, and the events of all that did. -/
def scanPayload (rules : RuleSet) (userId : Nat) (ip : String) (data : List UInt8) :
    Bool × List RelayEvent :=
  if data = [] ∨ rules = [] then (false, [])
  else
    let hits := rules.filter fun rule => rule.isMatch data
    (!hits.isEmpty, hits.map fun rule => .detect userId rule.id ip)

structure ConnectionAuditor where
  userId : Nat
  ip : String
  peer : String
  matched : Std.HashSet Nat

namespace ConnectionAuditor

def new (userId : Nat) (ip peer : String) : ConnectionAuditor := ⟨userId, ip, peer, ∅⟩

def reportConnect (a : ConnectionAuditor) : RelayEvent := .connect a.userId a.ip a.peer

/-- The result of a scan so far. -/
structure Scan where
  matchedNow : Bool
  auditor : ConnectionAuditor
  events : List RelayEvent

/-- One turn of the loop over the rules. -/
def scanRule (data : List UInt8) (acc : Scan) (rule : CompiledRule) : Scan :=
  if !rule.isMatch data then acc
  else if rule.id ∈ acc.auditor.matched then { acc with matchedNow := true }
  else {
    matchedNow := true
    auditor := { acc.auditor with matched := acc.auditor.matched.insert rule.id }
    events := acc.events ++ [.detect acc.auditor.userId rule.id acc.auditor.ip]
  }

def scan (a : ConnectionAuditor) (rules : RuleSet) (data : List UInt8) : Scan :=
  if data = [] then ⟨false, a, []⟩
  else if rules = [] then ⟨false, a, []⟩
  else rules.foldl (scanRule data) ⟨false, a, []⟩

theorem scanRule_matchedNow (data : List UInt8) (acc : Scan) (rule : CompiledRule) :
    (scanRule data acc rule).matchedNow = (acc.matchedNow || rule.isMatch data) := by
  unfold scanRule
  cases rule.isMatch data with
  | false => simp
  | true =>
      by_cases h : rule.id ∈ acc.auditor.matched
      · simp [h]
      · simp [h]

theorem foldl_scanRule_matchedNow (data : List UInt8) (acc : Scan) (rules : RuleSet) :
    (rules.foldl (scanRule data) acc).matchedNow =
      (acc.matchedNow || rules.any fun rule => rule.isMatch data) := by
  induction rules generalizing acc with
  | nil => simp
  | cons rule rules ih =>
      rw [List.foldl_cons, ih, scanRule_matchedNow, List.any_cons, Bool.or_assoc]

/-- A scan reports a match exactly when some rule matches a chunk that is not empty. -/
theorem scan_matchedNow (a : ConnectionAuditor) (rules : RuleSet) (data : List UInt8) :
    (a.scan rules data).matchedNow = (data ≠ [] && rules.any fun rule => rule.isMatch data) := by
  unfold scan
  by_cases hdata : data = []
  · simp [hdata]
  · rw [if_neg hdata]
    by_cases hrules : rules = []
    · simp [hrules]
    · rw [if_neg hrules, foldl_scanRule_matchedNow]
      simp [hdata]

end ConnectionAuditor

end SsrBackend
