import Mathlib.Data.List.Induction
import SsrBackend.Foundation.Machine
import SsrBackend.Relay.Audit

/-!
The auditor of a connection against the plain scan of the UDP path. The auditor
remembers which rules it has reported; the plain scan does not. Over any chunks and
whatever the rules become in between, both come to the same verdicts, and the auditor
emits the events of the plain scan with the repeated ones left out.
-/

namespace SsrBackend

/-- An auditor, with the verdicts of its scans and the events it has emitted. -/
structure Audited where
  auditor : ConnectionAuditor
  verdicts : List Bool
  events : List RelayEvent

namespace Audited

def start (userId : Nat) (ip peer : String) : Audited := ⟨.new userId ip peer, [], []⟩

/-- The scan of a chunk, under the rules of that moment. -/
def step (s : Audited) (chunk : RuleSet × List UInt8) : Audited :=
  let result := s.auditor.scan chunk.1 chunk.2
  ⟨result.auditor, s.verdicts ++ [result.matchedNow], s.events ++ result.events⟩

end Audited

namespace ConnectionAuditor

variable {userId : Nat} {ip : String}

/-- The auditor has reported what the plain scan has, each event once: `before` was emitted by the
earlier scans, and `plain` is all that the plain scan has emitted. -/
structure Remembers (userId : Nat) (ip : String) (before plain : List RelayEvent) (acc : Scan) :
    Prop where
  userId_eq : acc.auditor.userId = userId
  ip_eq : acc.auditor.ip = ip
  matched_iff : ∀ id, id ∈ acc.auditor.matched ↔ .detect userId id ip ∈ plain
  events_eq : before ++ acc.events = plain.eraseDups

theorem eraseDups_snoc {α : Type} [DecidableEq α] (xs : List α) (x : α) :
    (xs ++ [x]).eraseDups = if x ∈ xs then xs.eraseDups else xs.eraseDups ++ [x] := by
  rw [List.eraseDups_append]
  by_cases hmem : x ∈ xs
  · simp [List.removeAll, hmem]
  · simp [List.removeAll, hmem, List.eraseDups_cons]

theorem Remembers.scanRule {before plain : List RelayEvent} {acc : Scan}
    (h : Remembers userId ip before plain acc) (data : List UInt8) (rule : CompiledRule) :
    Remembers userId ip before
      (plain ++ if rule.isMatch data then [.detect userId rule.id ip] else [])
      (ConnectionAuditor.scanRule data acc rule) := by
  unfold ConnectionAuditor.scanRule
  cases rule.isMatch data with
  | false =>
      simp only [Bool.not_false, if_true, Bool.false_eq_true, if_false, List.append_nil]
      exact h
  | true =>
      simp only [Bool.not_true, Bool.false_eq_true, if_false, if_true]
      by_cases hmem : rule.id ∈ acc.auditor.matched
      · have hplain := (h.matched_iff rule.id).mp hmem
        rw [if_pos hmem]
        refine ⟨h.userId_eq, h.ip_eq, ?_, ?_⟩
        · intro id
          rw [h.matched_iff, List.mem_append, List.mem_singleton]
          refine ⟨Or.inl, ?_⟩
          rintro (hold | heq)
          · exact hold
          · rw [heq]
            exact hplain
        · rw [eraseDups_snoc, if_pos hplain]
          exact h.events_eq
      · have hplain : .detect userId rule.id ip ∉ plain := mt (h.matched_iff rule.id).mpr hmem
        rw [if_neg hmem]
        refine ⟨h.userId_eq, h.ip_eq, ?_, ?_⟩
        · intro id
          rw [Std.HashSet.mem_insert, h.matched_iff, List.mem_append, List.mem_singleton, or_comm]
          refine or_congr_right ⟨?_, ?_⟩
          · intro heq
            rw [eq_of_beq heq]
          · rintro ⟨⟩
            exact beq_self_eq_true _
        · rw [eraseDups_snoc, if_neg hplain, ← h.events_eq, h.userId_eq, h.ip_eq]
          exact (List.append_assoc ..).symm

theorem Remembers.foldl {before plain : List RelayEvent} {acc : Scan}
    (h : Remembers userId ip before plain acc) (data : List UInt8) (rules : RuleSet) :
    Remembers userId ip before
      (plain ++ (rules.filter fun rule => rule.isMatch data).map fun rule =>
        .detect userId rule.id ip)
      (rules.foldl (ConnectionAuditor.scanRule data) acc) := by
  induction rules generalizing plain acc with
  | nil => simpa using h
  | cons rule rules ih =>
      have hrest := ih (h.scanRule data rule)
      rw [List.append_assoc] at hrest
      rw [List.foldl_cons, List.filter_cons]
      cases hmatch : rule.isMatch data <;> simpa [hmatch] using hrest

/-- One scan adds what the plain scan emits for the same chunk. -/
theorem Remembers.scan {before plain : List RelayEvent} {a : ConnectionAuditor}
    (h : Remembers userId ip before plain ⟨false, a, []⟩) (rules : RuleSet) (data : List UInt8) :
    Remembers userId ip before (plain ++ (scanPayload rules userId ip data).2)
      (a.scan rules data) := by
  unfold ConnectionAuditor.scan scanPayload
  by_cases hdata : data = []
  · simpa [hdata] using h
  · by_cases hrules : rules = []
    · simpa [hdata, hrules] using h
    · simpa [hdata, hrules] using h.foldl data rules

theorem scanPayload_fst (rules : RuleSet) (userId : Nat) (ip : String) (data : List UInt8) :
    (scanPayload rules userId ip data).1 =
      (data ≠ [] && rules.any fun rule => rule.isMatch data) := by
  unfold scanPayload
  by_cases hdata : data = []
  · simp [hdata]
  · by_cases hrules : rules = []
    · simp [hrules]
    · simp only [hdata, hrules, or_self, if_false, ne_eq, not_false_eq_true, decide_true,
        Bool.true_and]
      rw [Bool.eq_iff_iff]
      simp [List.filter_eq_nil_iff]

end ConnectionAuditor

namespace Audited

open ConnectionAuditor

/-- What holds after some chunks. -/
structure Agrees (userId : Nat) (ip : String) (chunks : List (RuleSet × List UInt8)) (s : Audited) :
    Prop where
  verdicts_eq : s.verdicts = chunks.map fun chunk => (scanPayload chunk.1 userId ip chunk.2).1
  remembers : Remembers userId ip s.events
    (chunks.flatMap fun chunk => (scanPayload chunk.1 userId ip chunk.2).2) ⟨false, s.auditor, []⟩

theorem run_agrees (userId : Nat) (ip peer : String) (chunks : List (RuleSet × List UInt8)) :
    Agrees userId ip chunks (Machine.run step (start userId ip peer) chunks) := by
  induction chunks using List.reverseRecOn with
  | nil =>
      refine ⟨rfl, rfl, rfl, ?_, rfl⟩
      intro id
      exact iff_of_false Std.HashSet.not_mem_empty List.not_mem_nil
  | append_singleton chunks chunk ih =>
      rw [Machine.run_append]
      generalize Machine.run step (start userId ip peer) chunks = s at ih
      have hscan := ih.remembers.scan chunk.1 chunk.2
      refine ⟨?_, hscan.userId_eq, hscan.ip_eq, ?_, ?_⟩
      · rw [List.map_append, ← ih.verdicts_eq, List.map_singleton, scanPayload_fst,
          ← scan_matchedNow s.auditor]
        rfl
      · intro id
        rw [List.flatMap_append, List.flatMap_singleton]
        exact hscan.matched_iff id
      · rw [List.flatMap_append, List.flatMap_singleton, ← hscan.events_eq]
        exact List.append_nil _

/-- Over any run of scans, the auditor comes to the verdicts of the plain scan, and it emits the
events of the plain scan in their order, each at its first occurrence only. -/
theorem auditor_agrees (userId : Nat) (ip peer : String) (chunks : List (RuleSet × List UInt8)) :
    let s := Machine.run step (start userId ip peer) chunks
    let plain := chunks.map fun chunk => scanPayload chunk.1 userId ip chunk.2
    s.verdicts = plain.map Prod.fst ∧ s.events = (plain.flatMap Prod.snd).eraseDups := by
  have h := run_agrees userId ip peer chunks
  refine ⟨?_, ?_⟩
  · rw [h.verdicts_eq, List.map_map]
    rfl
  · rw [List.flatMap_map, ← h.remembers.events_eq]
    exact (List.append_nil _).symm

end Audited

end SsrBackend
