import Mathlib.Tactic.Common
import SceneScript.Diagnostic.Log

/-! # What a log keeps of what was added to it

A log is built by adding diagnostics one at a time and by merging logs that were built the same way.
Merging adds what the other log has stored and then only counts the rest, so nothing in the code says
that the right diagnostics are stored after a merge of logs that were full.

* `LogBuild`: how a log was built, with the log it builds and everything that was added on the way, in
  order, with the side of the log it was added to.
* `DiagnosticLog.capped`: the log that stores the first diagnostics of either side and counts all.
  It turns `++` into `merge` (`merge_capped`) and `++ [e]` into one addition (`add_capped`).
* `LogBuild.log_eq`: every log that was built is the capped log of what was added, so the laws of
  merging are those of `++` (`LogBuild.log_capped`). -/

namespace SceneScript

/-! ### One side of a log -/

namespace DiagnosticList

/-- The list that stores the first diagnostics and counts all of them. -/
def capped (ds : List Diagnostic) : DiagnosticList := ⟨ds.take maxStored, ds.length⟩

theorem push_capped (ds : List Diagnostic) (d : Diagnostic) :
    (capped ds).push d = capped (ds ++ [d]) := by
  have hstored : (if (ds.take maxStored).length < maxStored then ds.take maxStored ++ [d]
      else ds.take maxStored) = (ds ++ [d]).take maxStored := by
    rw [List.length_take]
    by_cases h : ds.length < maxStored
    · rw [if_pos (by omega), List.take_of_length_le (by omega), List.take_of_length_le]
      rw [List.length_append, List.length_singleton]
      omega
    · rw [if_neg (by omega), List.take_append_of_le_length (by omega)]
  rw [capped, capped, push, hstored, List.length_append, List.length_singleton]

theorem foldl_push_capped (ds es : List Diagnostic) :
    es.foldl push (capped ds) = capped (ds ++ es) := by
  induction es generalizing ds with
  | nil => rw [List.foldl_nil, List.append_nil]
  | cons e es ih => rw [List.foldl_cons, push_capped, ih, List.append_assoc, List.singleton_append]

/-- Storing the first diagnostics of a list in front of others stores what storing all of them
does. -/
theorem take_append_take (ds es : List Diagnostic) :
    (ds ++ es.take maxStored).take maxStored = (ds ++ es).take maxStored := by
  rw [List.take_append, List.take_append, List.take_take, Nat.min_eq_left (Nat.sub_le _ _)]

theorem merge_capped (ds es : List Diagnostic) :
    (capped ds).merge (capped es) = capped (ds ++ es) := by
  have hpushed : (capped es).stored.foldl push (capped ds) = capped (ds ++ es.take maxStored) :=
    foldl_push_capped ds (es.take maxStored)
  rw [merge, hpushed]
  simp only [capped, take_append_take, List.length_append, DiagnosticList.mk.injEq, true_and]
  omega

theorem length_stored_capped (ds : List Diagnostic) :
    (capped ds).stored.length = min maxStored (capped ds).total :=
  List.length_take

end DiagnosticList

/-! ### Both sides -/

/-- A diagnostic and the side of the log it was added to, which need not be its severity. -/
abbrev LogEntry := Severity × Diagnostic

/-- The diagnostics that were added to one side, in order. -/
def addedTo (side : Severity) (entries : List LogEntry) : List Diagnostic :=
  (entries.filter fun e => e.1 == side).map Prod.snd

theorem addedTo_append (side : Severity) (es fs : List LogEntry) :
    addedTo side (es ++ fs) = addedTo side es ++ addedTo side fs := by
  rw [addedTo, List.filter_append, List.map_append]
  rfl

namespace DiagnosticLog

/-- Add a diagnostic to a side. -/
def add (log : DiagnosticLog) (e : LogEntry) : DiagnosticLog :=
  match e.1 with
  | .error => log.pushError e.2
  | .warning => log.pushWarning e.2

/-- The log that stores the first diagnostics of either side and counts all of them. -/
def capped (entries : List LogEntry) : DiagnosticLog :=
  ⟨.capped (addedTo .error entries), .capped (addedTo .warning entries)⟩

theorem push_eq (log : DiagnosticLog) (d : Diagnostic) : log.push d = log.add (d.severity, d) := rfl

theorem add_capped (entries : List LogEntry) (e : LogEntry) :
    (capped entries).add e = capped (entries ++ [e]) := by
  obtain ⟨side, d⟩ := e
  rw [capped, capped, addedTo_append, addedTo_append]
  cases side with
  | error =>
      have hwarnings : addedTo .warning [(Severity.error, d)] = [] := rfl
      rw [hwarnings, List.append_nil, add]
      exact congrArg (DiagnosticLog.mk · _) (DiagnosticList.push_capped _ d)
  | warning =>
      have herrors : addedTo .error [(Severity.warning, d)] = [] := rfl
      rw [herrors, List.append_nil, add]
      exact congrArg (DiagnosticLog.mk _) (DiagnosticList.push_capped _ d)

theorem foldl_add_capped (entries more : List LogEntry) :
    more.foldl add (capped entries) = capped (entries ++ more) := by
  induction more generalizing entries with
  | nil => rw [List.foldl_nil, List.append_nil]
  | cons e more ih => rw [List.foldl_cons, add_capped, ih, List.append_assoc, List.singleton_append]

theorem merge_capped (entries more : List LogEntry) :
    (capped entries).merge (capped more) = capped (entries ++ more) := by
  simp only [merge, capped, DiagnosticList.merge_capped, addedTo_append]

end DiagnosticLog

/-! ### How a log was built -/

/-- The ways to build a log. -/
inductive LogBuild where
  | empty
  | push (b : LogBuild) (d : Diagnostic)
  | pushError (b : LogBuild) (d : Diagnostic)
  | pushWarning (b : LogBuild) (d : Diagnostic)
  | merge (b other : LogBuild)

namespace LogBuild

/-- The log that is built. -/
def log : LogBuild → DiagnosticLog
  | empty => .empty
  | push b d => b.log.push d
  | pushError b d => b.log.pushError d
  | pushWarning b d => b.log.pushWarning d
  | merge b other => b.log.merge other.log

/-- Everything that was added, in order. A merge adds what was added to the other log. -/
def entries : LogBuild → List LogEntry
  | empty => []
  | push b d => b.entries ++ [(d.severity, d)]
  | pushError b d => b.entries ++ [(.error, d)]
  | pushWarning b d => b.entries ++ [(.warning, d)]
  | merge b other => b.entries ++ other.entries

/-- A log is the capped log of what was added to it. -/
theorem log_eq (b : LogBuild) : b.log = .capped b.entries := by
  induction b with
  | empty => rfl
  | push b d ih => rw [log, ih, DiagnosticLog.push_eq, DiagnosticLog.add_capped, entries]
  | pushError b d ih =>
      have hadd : (DiagnosticLog.capped b.entries).pushError d =
        (DiagnosticLog.capped b.entries).add (.error, d) := rfl
      rw [log, ih, hadd, DiagnosticLog.add_capped, entries]
  | pushWarning b d ih =>
      have hadd : (DiagnosticLog.capped b.entries).pushWarning d =
        (DiagnosticLog.capped b.entries).add (.warning, d) := rfl
      rw [log, ih, hadd, DiagnosticLog.add_capped, entries]
  | merge b other ih ihother => rw [log, ih, ihother, DiagnosticLog.merge_capped, entries]

/-- **A log is a capped image of what was added.** However it was built, either side stores the first
64 diagnostics that were added to it, counts all of them and never stores more than it counts, so what
merging leaves out is a number. The empty log changes nothing when merged, merging is associative, and
merging a log is adding one by one what was added to it. -/
theorem log_capped (b : LogBuild) :
    let errors := addedTo .error b.entries
    let warnings := addedTo .warning b.entries
    (b.log.errors.stored = errors.take 64 ∧ b.log.errors.total = errors.length) ∧
    (b.log.warnings.stored = warnings.take 64 ∧ b.log.warnings.total = warnings.length) ∧
    (∀ side ∈ [b.log.errors, b.log.warnings],
      side.stored.length = min 64 side.total ∧ side.stored.length ≤ side.total) ∧
    (DiagnosticLog.empty.merge b.log = b.log ∧ b.log.merge .empty = b.log) ∧
    (∀ c d : LogBuild,
      (b.log.merge c.log).merge d.log = b.log.merge (c.log.merge d.log)) ∧
    ∀ c : LogBuild, b.log.merge c.log = c.entries.foldl DiagnosticLog.add b.log := by
  intro errors warnings
  have hempty : DiagnosticLog.empty = .capped [] := rfl
  have herrors : b.log.errors = .capped errors := congrArg DiagnosticLog.errors b.log_eq
  have hwarnings : b.log.warnings = .capped warnings := congrArg DiagnosticLog.warnings b.log_eq
  refine ⟨?_, ?_, ?_, ?_, ?_, ?_⟩
  · rw [herrors]
    exact ⟨rfl, rfl⟩
  · rw [hwarnings]
    exact ⟨rfl, rfl⟩
  · intro side hside
    obtain ⟨ds, rfl⟩ : ∃ ds, side = .capped ds := by
      rw [List.mem_cons, List.mem_singleton] at hside
      rcases hside with rfl | rfl
      · exact ⟨errors, herrors⟩
      · exact ⟨warnings, hwarnings⟩
    have hlength := DiagnosticList.length_stored_capped ds
    exact ⟨hlength, by omega⟩
  · rw [b.log_eq, hempty, DiagnosticLog.merge_capped, DiagnosticLog.merge_capped, List.nil_append,
      List.append_nil]
    exact ⟨rfl, rfl⟩
  · intro c d
    rw [b.log_eq, c.log_eq, d.log_eq]
    simp only [DiagnosticLog.merge_capped, List.append_assoc]
  · intro c
    rw [b.log_eq, c.log_eq, DiagnosticLog.merge_capped, DiagnosticLog.foldl_add_capped]

end LogBuild

end SceneScript
