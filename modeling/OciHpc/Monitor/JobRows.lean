import Mathlib
import OciHpc.Base.PyStr

/-!
# Job accounting

`monitor_slurm.sh` keeps a row of the table `jobs` for every job that `sacct` lists.

* `SacctLine`, `Pass` : what one pass of the script is told;
* `processRow`, `Pass.run`, `runPasses` : a line of the job loop, the table a pass leaves, and that of many passes;
* `Job`, `Poll`, `Schedule` : the history of a job, and the passes that see it in its phases;
* `accounted_iff` : the row of a job is the same whenever it was polled exactly if its final state is one of those the
  script knows, and the first pass that saw the job saw it started and found the cluster name the last one finds.
-/

namespace OciHpc.Monitor

/-! ## The table -/

/-- The states of the column `state`. -/
inductive JobState
  | queued | running | done | failed | cancelled
  deriving DecidableEq, Repr

structure JobRow where
  cpus : Nat
  nodes : Nat
  submitted : Int
  started : Option Int
  finished : Option Int
  queueTime : Option Int
  runTime : Option Int
  state : JobState
  className : String
  clusterName : Option String
  deriving DecidableEq, Repr

/-- The rows by `job_id`, which is unique. -/
abbrev Table := String → Option JobRow

/-! ## A pass -/

/-- A time of `sacct`, in seconds of the local clock; anything else but `Unknown` is no time to `strptime`. -/
inductive SacctTime
  | unknown
  | local (time : Int)
  | malformed
  deriving DecidableEq, Repr

/-- A line of `sacct`; every job has the time it was submitted. -/
structure SacctLine where
  jobId : String
  queue : String
  state : String
  submit : Int
  start : SacctTime
  «end» : SacctTime
  nodes : Nat
  cpus : Nat
  nodelist : String
  deriving DecidableEq, Repr

/-- What one pass is told. `getAllHosts` raises where `scontrol` does not know the list, and `squeue` may print no
number. `nodesRecorded` says that the part after the job loop returns. -/
structure Pass where
  lines : List SacctLine
  getAllHosts : String → Option (List String)
  getClusterName : String → String
  getNodesFromQueuedJob : String → Option Nat
  nodesRecorded : Bool

/-- The state recorded for an ended job; `none` is the branch with `continue`. -/
def dbState (state : String) : Option JobState :=
  let state := PyStr.lower state
  if PyStr.contains state "failed" then some .failed
  else if PyStr.contains state "cancelled" then some .cancelled
  else if PyStr.contains state "completed" then some .done
  else none

/-- The text of a duration as a value of a `TIME` column. From a day on the text starts with `1 day, `, and below zero
with `-1 day, `: the database refuses these. -/
def timeColumn (duration : Int) : Option Int := if 0 ≤ duration ∧ duration < 86400 then some duration else none

/-- What is done with a row: `continue`, no statement, or a statement that leaves this row; `nodes` is then the variable
of that name. -/
inductive Statement
  | continue
  | nothing (nodes : Nat)
  | leaves (row : JobRow) (nodes : Nat)

def nodenamesOf (pass : Pass) (nodelist : String) : Option (List String) :=
  if PyStr.contains nodelist "None assigned" then some [] else pass.getAllHosts nodelist

section
-- `astimezone(pytz.utc)`
variable (utc : Int → Int)

def insertStatement (pass : Pass) (line : SacctLine) (nodenames : List String) : Option Statement :=
  match line.start, line.end with
  | .malformed, _ | _, .malformed => none
  | .unknown, _ => do
    let nodes ← pass.getNodesFromQueuedJob line.jobId
    return .leaves ⟨line.cpus, nodes, utc line.submit, none, none, none, none, .queued, line.queue, none⟩ nodes
  | .local start, .unknown => do
    let node ← nodenames.head?
    let queueTime ← timeColumn (start - line.submit)
    return .leaves ⟨line.cpus, line.nodes, utc line.submit, some (utc start), none, some queueTime, none, .running, line.queue,
      some (pass.getClusterName node)⟩ line.nodes
  | .local start, .local stop =>
    match dbState line.state with
    | none => some .continue
    | some state => do
      let clusterName := match nodenames.head? with
        | some node => pass.getClusterName node
        | none => ""
      let queueTime ← timeColumn (start - line.submit)
      let runTime ← timeColumn (stop - start)
      return .leaves ⟨line.cpus, line.nodes, utc line.submit, some (utc start), some (utc stop), some queueTime, some runTime,
        state, line.queue, some clusterName⟩ line.nodes

def updateStatement (row : JobRow) (line : SacctLine) : Option Statement :=
  match line.start, line.end with
  | .malformed, _ | _, .malformed => none
  | .unknown, _ => some .continue
  | .local start, .unknown =>
    if row.state = .queued then do
      let queueTime ← timeColumn (start - line.submit)
      return .leaves { row with started := some (utc start), queueTime := some queueTime, state := .running } line.nodes
    else some (.nothing line.nodes)
  | .local start, .local stop =>
    if row.state = .queued ∨ row.state = .running then
      match dbState line.state with
      | none => some .continue
      | some state => do
        let queueTime ← timeColumn (start - line.submit)
        let runTime ← timeColumn (stop - start)
        return .leaves { row with
          started := some (utc start), finished := some (utc stop), queueTime := some queueTime, runTime := some runTime,
          state := state } line.nodes
    else some (.nothing line.nodes)

/-- The row after a line; `none` where an exception is raised. The CPUs of each node are computed after the statement,
which divides by the number of nodes. -/
def processRow (pass : Pass) (row : Option JobRow) (line : SacctLine) : Option (Option JobRow) := do
  let nodenames ← nodenamesOf pass line.nodelist
  let statement ← match row with
    | none => insertStatement utc pass line nodenames
    | some row => updateStatement utc row line
  match statement with
  | .continue => some row
  | .nothing nodes => if nodes = 0 then none else some row
  | .leaves row nodes => if nodes = 0 then none else some (some row)

def processLine (pass : Pass) (table : Table) (line : SacctLine) : Option Table :=
  (processRow utc pass (table line.jobId) line).map fun row => Function.update table line.jobId row

/-- What is committed at the end of a pass: nothing where it raises. -/
def Pass.run (pass : Pass) (table : Table) : Table :=
  match pass.lines.foldlM (processLine utc pass) table with
  | some table' => if pass.nodesRecorded then table' else table
  | none => table

def runPasses (passes : List Pass) (table : Table) : Table := passes.foldl (fun table pass => pass.run utc table) table

end

/-! ## The history of a job -/

/-- What `sacct` has of a job in the end. -/
structure Job where
  jobId : String
  queue : String
  finalState : String
  submit : Int
  start : Int
  «end» : Int
  nodes : Nat
  cpus : Nat
  nodelist : String

inductive Phase
  | unsubmitted | queued | running | ended
  deriving DecidableEq, Repr

def Phase.rank : Phase → Nat
  | .unsubmitted => 0
  | .queued => 1
  | .running => 2
  | .ended => 3

def Job.line (job : Job) : Phase → Option SacctLine
  | .unsubmitted => none
  | .queued => some ⟨job.jobId, job.queue, "PENDING", job.submit, .unknown, .unknown, job.nodes, job.cpus, "None assigned"⟩
  | .running => some ⟨job.jobId, job.queue, "RUNNING", job.submit, .local job.start, .unknown, job.nodes, job.cpus, job.nodelist⟩
  | .ended => some ⟨job.jobId, job.queue, job.finalState, job.submit, .local job.start, .local job.end, job.nodes, job.cpus,
      job.nodelist⟩

/-- A pass, and the phase in which it finds the job. -/
structure Poll where
  pass : Pass
  phase : Phase

/-- `sacct` lists a job once, as it is. -/
structure Sees (job : Job) (poll : Poll) : Prop where
  nodup : (poll.pass.lines.map (·.jobId)).Nodup
  listed : ∀ line, job.line poll.phase = some line → line ∈ poll.pass.lines
  only : ∀ line ∈ poll.pass.lines, line.jobId = job.jobId → job.line poll.phase = some line

/-- The passes, of which the last sees the job ended. -/
structure Schedule (job : Job) (polls : List Poll) (last : Poll) : Prop where
  sees : ∀ poll ∈ polls ++ [last], Sees job poll
  ordered : (polls ++ [last]).Pairwise fun earlier later => earlier.phase.rank ≤ later.phase.rank
  ended : last.phase = .ended

structure RegularLine (pass : Pass) (line : SacctLine) : Prop where
  start : line.start ≠ .malformed
  stop : line.end ≠ .malformed
  nodes : 0 < line.nodes
  hosts : ∃ nodenames, nodenamesOf pass line.nodelist = some nodenames ∧
    (∀ start, line.start = .local start → line.end = .unknown → nodenames ≠ [])
  queued : line.start = .unknown → ∃ nodes, pass.getNodesFromQueuedJob line.jobId = some nodes ∧ 0 < nodes
  queueTime : ∀ start, line.start = .local start → 0 ≤ start - line.submit ∧ start - line.submit < 86400
  runTime : ∀ start stop, line.start = .local start → line.end = .local stop → 0 ≤ stop - start ∧ stop - start < 86400

structure Regular (pass : Pass) : Prop where
  lines : ∀ line ∈ pass.lines, RegularLine pass line
  recorded : pass.nodesRecorded = true

def JobState.isTerminal : JobState → Bool
  | .queued | .running => false
  | .done | .failed | .cancelled => true

/-- Neither back from running to queued, nor back from a terminal state. -/
def Forward : Option JobState → Option JobState → Prop
  | none, _ => True
  | some .queued, after => after ≠ none
  | some .running, after => after ≠ none ∧ after ≠ some .queued
  | some state, after => after = some state

/-- Polling has left no trace in the row of the job. -/
structure Accounted (utc : Int → Int) (job : Job) (polls : List Poll) (last : Poll) (table : Table) : Prop where
  final : ∃ row, runPasses utc ((polls ++ [last]).map (·.pass)) table job.jobId = some row ∧ row.state.isTerminal = true ∧
    row.started = some (utc job.start) ∧ row.finished = some (utc job.end)
  forward : ∀ front poll back, polls ++ [last] = front ++ poll :: back →
    Forward ((runPasses utc (front.map (·.pass)) table job.jobId).map (·.state))
      ((runPasses utc ((front ++ [poll]).map (·.pass)) table job.jobId).map (·.state))
  same : runPasses utc ((polls ++ [last]).map (·.pass)) table job.jobId = runPasses utc [last.pass] table job.jobId

/-- The cluster name that a pass finds for a job. -/
def clusterNameAt (job : Job) (pass : Pass) : String :=
  match (nodenamesOf pass job.nodelist).bind List.head? with
  | some node => pass.getClusterName node
  | none => ""

/-! ## One line changes one row -/

variable {utc : Int → Int} {pass : Pass} {table table' : Table} {job : Job}

theorem foldlM_other {lines : List SacctLine} {jobId : String} (hother : ∀ line ∈ lines, line.jobId ≠ jobId)
    (h : lines.foldlM (processLine utc pass) table = some table') : table' jobId = table jobId := by
  induction lines generalizing table with
  | nil =>
    cases h
    rfl
  | cons line lines ih =>
    rw [List.foldlM_cons, Option.bind_eq_bind, Option.bind_eq_some_iff] at h
    obtain ⟨next, hline, hrest⟩ := h
    obtain ⟨row, -, rfl⟩ := Option.map_eq_some_iff.mp hline
    rw [ih (fun line' hline' => hother line' (List.mem_cons_of_mem _ hline')) hrest,
      Function.update_of_ne (Ne.symm (hother line List.mem_cons_self))]

theorem foldlM_listed {lines : List SacctLine} {line : SacctLine} (hnodup : (lines.map (·.jobId)).Nodup) (hline : line ∈ lines)
    (h : lines.foldlM (processLine utc pass) table = some table') :
    processRow utc pass (table line.jobId) line = some (table' line.jobId) := by
  induction lines generalizing table with
  | nil => cases hline
  | cons first lines ih =>
    rw [List.foldlM_cons, Option.bind_eq_bind, Option.bind_eq_some_iff] at h
    obtain ⟨next, hfirst, hrest⟩ := h
    obtain ⟨row, hrow, rfl⟩ := Option.map_eq_some_iff.mp hfirst
    rw [List.map_cons, List.nodup_cons] at hnodup
    have hne : ∀ other ∈ lines, other.jobId ≠ first.jobId :=
      fun other hother heq => hnodup.1 (heq ▸ List.mem_map_of_mem hother)
    obtain rfl | hmem := List.mem_cons.mp hline
    · rw [foldlM_other hne hrest, Function.update_self]
      exact hrow
    · have hnext := ih hnodup.2 hmem hrest
      rw [Function.update_of_ne (hne line hmem)] at hnext
      exact hnext

/-! ## A regular pass -/

theorem timeColumn_eq {duration : Int} (h : 0 ≤ duration ∧ duration < 86400) : timeColumn duration = some duration :=
  if_pos h

theorem exists_processRow {line : SacctLine} (h : RegularLine pass line) (row : Option JobRow) :
    ∃ row', processRow utc pass row line = some row' := by
  obtain ⟨nodenames, hnodenames, hhosts⟩ := h.hosts
  have hne : line.nodes ≠ 0 := Nat.pos_iff_ne_zero.mp h.nodes
  have hstart := h.start
  have hstop := h.stop
  unfold processRow
  rw [hnodenames]
  dsimp only [Option.bind_eq_bind, Option.bind_some]
  cases hs : line.start with
  | malformed => exact absurd hs hstart
  | unknown =>
    obtain ⟨nodes, hsqueue, hpos⟩ := h.queued hs
    cases row with
    | none =>
      cases he : line.end with
      | malformed => exact absurd he hstop
      | _ => simp [insertStatement, hs, he, hsqueue, Nat.pos_iff_ne_zero.mp hpos]
    | some row =>
      cases he : line.end with
      | malformed => exact absurd he hstop
      | _ => simp [updateStatement, hs, he]
  | «local» start =>
    have hqueue := timeColumn_eq (h.queueTime start hs)
    cases he : line.end with
    | malformed => exact absurd he hstop
    | unknown =>
      cases row with
      | none =>
        obtain ⟨node, rest, rfl⟩ := List.exists_cons_of_ne_nil (hhosts start hs he)
        simp [insertStatement, hs, he, hqueue, hne]
      | some row =>
        by_cases hstate : row.state = .queued
        · simp [updateStatement, hs, he, hqueue, hne, hstate]
        · simp [updateStatement, hs, he, hne, hstate]
    | «local» stop =>
      have hrun := timeColumn_eq (h.runTime start stop hs he)
      cases row with
      | none =>
        cases hdb : dbState line.state with
        | none => simp [insertStatement, hs, he, hdb]
        | some state => simp [insertStatement, hs, he, hdb, hqueue, hrun, hne]
      | some row =>
        by_cases hstate : row.state = .queued ∨ row.state = .running
        · cases hdb : dbState line.state with
          | none => simp [updateStatement, hs, he, hdb, hstate]
          | some state => simp [updateStatement, hs, he, hdb, hqueue, hrun, hne, hstate]
        · simp [updateStatement, hs, he, hne, hstate]

theorem exists_foldlM {lines : List SacctLine} (h : ∀ line ∈ lines, RegularLine pass line) (table : Table) :
    ∃ table', lines.foldlM (processLine utc pass) table = some table' := by
  induction lines generalizing table with
  | nil => exact ⟨table, rfl⟩
  | cons line lines ih =>
    obtain ⟨row, hrow⟩ := exists_processRow (h line List.mem_cons_self) (table line.jobId)
    rw [List.foldlM_cons, processLine, hrow]
    exact ih (fun line' hline' => h line' (List.mem_cons_of_mem _ hline')) _

def rowAfter (utc : Int → Int) (job : Job) (poll : Poll) (row : Option JobRow) : Option JobRow :=
  match job.line poll.phase with
  | none => row
  | some line => (processRow utc poll.pass row line).getD row

theorem jobId_of_line {phase : Phase} {line : SacctLine} (h : job.line phase = some line) : line.jobId = job.jobId := by
  cases phase with
  | unsubmitted => cases h
  | _ =>
    cases h
    rfl

theorem run_row {poll : Poll} (hsees : Sees job poll) (hregular : Regular poll.pass) (table : Table) :
    poll.pass.run utc table job.jobId = rowAfter utc job poll (table job.jobId) := by
  obtain ⟨table', hfold⟩ := exists_foldlM hregular.lines table
  unfold Pass.run rowAfter
  rw [hfold]
  dsimp only
  rw [if_pos hregular.recorded]
  cases hline : job.line poll.phase with
  | none =>
    refine foldlM_other (fun line hmem heq => ?_) hfold
    exact nomatch hline.symm.trans (hsees.only line hmem heq)
  | some line =>
    have hlisted := foldlM_listed hsees.nodup (hsees.listed line hline) hfold
    rw [jobId_of_line hline] at hlisted
    dsimp only
    rw [hlisted]
    rfl

theorem runPasses_row {polls : List Poll} (hsees : ∀ poll ∈ polls, Sees job poll) (hregular : ∀ poll ∈ polls, Regular poll.pass)
    (table : Table) : runPasses utc (polls.map (·.pass)) table job.jobId =
      polls.foldl (fun row poll => rowAfter utc job poll row) (table job.jobId) := by
  induction polls generalizing table with
  | nil => rfl
  | cons poll polls ih =>
    rw [List.foldl_cons, ← run_row (hsees poll List.mem_cons_self) (hregular poll List.mem_cons_self) table]
    exact ih (fun p hp => hsees p (List.mem_cons_of_mem _ hp)) (fun p hp => hregular p (List.mem_cons_of_mem _ hp)) _

/-! ## The row, phase by phase -/

def runningRow (utc : Int → Int) (job : Job) (clusterName : String) : JobRow :=
  ⟨job.cpus, job.nodes, utc job.submit, some (utc job.start), none, some (job.start - job.submit), none, .running, job.queue,
    some clusterName⟩

/-- The row of a job that had started when the first pass saw it. -/
def endedRow (utc : Int → Int) (job : Job) (state : JobState) (clusterName : String) : JobRow :=
  { runningRow utc job clusterName with
    finished := some (utc job.end), runTime := some (job.end - job.start), state := state }

theorem isTerminal_of_dbState {text : String} {state : JobState} (h : dbState text = some state) :
    state.isTerminal = true := by
  unfold dbState at h
  dsimp only at h
  split at h
  · cases h
    rfl
  · split at h
    · cases h
      rfl
    · split at h
      · cases h
        rfl
      · cases h

theorem not_open_of_isTerminal {state : JobState} (h : state.isTerminal = true) :
    state ≠ .queued ∧ ¬ (state = .queued ∨ state = .running) := by
  cases state with
  | queued | running => cases h
  | _ => exact ⟨nofun, fun hopen => hopen.elim nofun nofun⟩

section
variable {poll : Poll}

theorem regular_line (hsees : Sees job poll) (hregular : Regular poll.pass) {line : SacctLine}
    (h : job.line poll.phase = some line) : RegularLine poll.pass line := hregular.lines line (hsees.listed line h)

theorem rowAfter_unsubmitted (hphase : poll.phase = .unsubmitted) (row : Option JobRow) :
    rowAfter utc job poll row = row := by
  unfold rowAfter
  rw [hphase]
  rfl

/-- A row stays while the job waits. -/
theorem rowAfter_queued (hphase : poll.phase = .queued) (row : JobRow) :
    rowAfter utc job poll (some row) = some row := by
  have hassigned : PyStr.contains "None assigned" "None assigned" = true := by decide
  unfold rowAfter
  rw [hphase]
  simp only [Job.line, processRow, nodenamesOf, hassigned, if_true, updateStatement, Option.bind_eq_bind, Option.bind_some,
    Option.getD_some]

theorem rowAfter_queued_none (hphase : poll.phase = .queued) (hsees : Sees job poll) (hregular : Regular poll.pass) :
    ∃ row, rowAfter utc job poll none = some row ∧ row.state = .queued ∧ row.clusterName = none := by
  obtain ⟨nodes, hsqueue, hpos⟩ := (regular_line hsees hregular (by rw [hphase]; rfl)).queued rfl
  refine ⟨⟨job.cpus, nodes, utc job.submit, none, none, none, none, .queued, job.queue, none⟩, ?_, rfl, rfl⟩
  unfold rowAfter
  rw [hphase]
  have hassigned : PyStr.contains "None assigned" "None assigned" = true := by decide
  simp only [Job.line, processRow, nodenamesOf, hassigned, if_true, insertStatement, hsqueue, Option.bind_eq_bind,
    Option.bind_some, Option.pure_def, if_neg (Nat.pos_iff_ne_zero.mp hpos), Option.getD_some]

theorem rowAfter_running_none (hphase : poll.phase = .running) (hsees : Sees job poll) (hregular : Regular poll.pass) :
    rowAfter utc job poll none = some (runningRow utc job (clusterNameAt job poll.pass)) := by
  have hline := regular_line hsees hregular (by rw [hphase]; rfl)
  obtain ⟨nodenames, hnodenames, hhosts⟩ := hline.hosts
  obtain ⟨node, rest, rfl⟩ := List.exists_cons_of_ne_nil (hhosts job.start rfl rfl)
  have hnode : (nodenamesOf poll.pass job.nodelist).bind List.head? = some node := by
    rw [show nodenamesOf poll.pass job.nodelist = _ from hnodenames]
    rfl
  have hqueue : timeColumn (job.start - job.submit) = _ := timeColumn_eq (hline.queueTime job.start rfl)
  have hne : job.nodes ≠ 0 := Nat.pos_iff_ne_zero.mp hline.nodes
  unfold rowAfter clusterNameAt
  rw [hphase, hnode]
  simp only [Job.line, processRow, show nodenamesOf poll.pass job.nodelist = _ from hnodenames, insertStatement, hqueue,
    List.head?_cons, Option.bind_eq_bind, Option.bind_some, Option.pure_def, if_neg hne, Option.getD_some, runningRow]

theorem rowAfter_running (hphase : poll.phase = .running) {row : JobRow} (hstate : row.state ≠ .queued)
    (hsees : Sees job poll) (hregular : Regular poll.pass) : rowAfter utc job poll (some row) = some row := by
  have hline := regular_line hsees hregular (by rw [hphase]; rfl)
  obtain ⟨nodenames, hnodenames, -⟩ := hline.hosts
  have hne : job.nodes ≠ 0 := Nat.pos_iff_ne_zero.mp hline.nodes
  unfold rowAfter
  rw [hphase]
  simp only [Job.line, processRow, show nodenamesOf poll.pass job.nodelist = _ from hnodenames, updateStatement,
    if_neg hstate, Option.bind_eq_bind, Option.bind_some, if_neg hne, Option.getD_some]

theorem rowAfter_running_queued (hphase : poll.phase = .running) {row : JobRow} (hstate : row.state = .queued)
    (hsees : Sees job poll) (hregular : Regular poll.pass) : rowAfter utc job poll (some row) = some { row with
      started := some (utc job.start), queueTime := some (job.start - job.submit), state := .running } := by
  have hline := regular_line hsees hregular (by rw [hphase]; rfl)
  obtain ⟨nodenames, hnodenames, -⟩ := hline.hosts
  have hqueue : timeColumn (job.start - job.submit) = _ := timeColumn_eq (hline.queueTime job.start rfl)
  have hne : job.nodes ≠ 0 := Nat.pos_iff_ne_zero.mp hline.nodes
  unfold rowAfter
  rw [hphase]
  simp only [Job.line, processRow, show nodenamesOf poll.pass job.nodelist = _ from hnodenames, updateStatement, hqueue,
    if_pos hstate, Option.bind_eq_bind, Option.bind_some, Option.pure_def, if_neg hne, Option.getD_some]

theorem rowAfter_terminal {row : JobRow} (hstate : row.state.isTerminal = true) (hsees : Sees job poll)
    (hregular : Regular poll.pass) : rowAfter utc job poll (some row) = some row := by
  obtain ⟨hqueued, hopen⟩ := not_open_of_isTerminal hstate
  cases hphase : poll.phase with
  | unsubmitted => exact rowAfter_unsubmitted hphase _
  | queued => exact rowAfter_queued hphase row
  | running => exact rowAfter_running hphase hqueued hsees hregular
  | ended =>
    have hline := regular_line hsees hregular (by rw [hphase]; rfl)
    obtain ⟨nodenames, hnodenames, -⟩ := hline.hosts
    have hne : job.nodes ≠ 0 := Nat.pos_iff_ne_zero.mp hline.nodes
    unfold rowAfter
    rw [hphase]
    simp only [Job.line, processRow, show nodenamesOf poll.pass job.nodelist = _ from hnodenames, updateStatement,
      if_neg hopen, Option.bind_eq_bind, Option.bind_some, if_neg hne, Option.getD_some]

/-- The branch with `continue`: the row stays as it was, or stays missing. -/
theorem rowAfter_unrecognised (hphase : poll.phase = .ended) (hstate : dbState job.finalState = none) (row : Option JobRow)
    (hsees : Sees job poll) (hregular : Regular poll.pass) : rowAfter utc job poll row = row := by
  have hline := regular_line hsees hregular (by rw [hphase]; rfl)
  obtain ⟨nodenames, hnodenames, -⟩ := hline.hosts
  have hne : job.nodes ≠ 0 := Nat.pos_iff_ne_zero.mp hline.nodes
  unfold rowAfter
  rw [hphase]
  cases row with
  | none =>
    simp only [Job.line, processRow, show nodenamesOf poll.pass job.nodelist = _ from hnodenames, insertStatement, hstate,
      Option.bind_eq_bind, Option.bind_some, Option.getD_some]
  | some row =>
    by_cases hopen : row.state = .queued ∨ row.state = .running
    · simp only [Job.line, processRow, show nodenamesOf poll.pass job.nodelist = _ from hnodenames, updateStatement, hstate,
        if_pos hopen, Option.bind_eq_bind, Option.bind_some, Option.getD_some]
    · simp only [Job.line, processRow, show nodenamesOf poll.pass job.nodelist = _ from hnodenames, updateStatement,
        if_neg hopen, if_neg hne, Option.bind_eq_bind, Option.bind_some, Option.getD_some]

theorem rowAfter_ended_none {state : JobState} (hphase : poll.phase = .ended) (hstate : dbState job.finalState = some state)
    (hsees : Sees job poll) (hregular : Regular poll.pass) :
    rowAfter utc job poll none = some (endedRow utc job state (clusterNameAt job poll.pass)) := by
  have hline := regular_line hsees hregular (by rw [hphase]; rfl)
  obtain ⟨nodenames, hnodenames, -⟩ := hline.hosts
  have hqueue : timeColumn (job.start - job.submit) = _ := timeColumn_eq (hline.queueTime job.start rfl)
  have hrun : timeColumn (job.end - job.start) = _ := timeColumn_eq (hline.runTime job.start job.end rfl rfl)
  have hne : job.nodes ≠ 0 := Nat.pos_iff_ne_zero.mp hline.nodes
  unfold rowAfter clusterNameAt
  rw [hphase]
  simp only [Job.line, processRow, show nodenamesOf poll.pass job.nodelist = _ from hnodenames, insertStatement, hstate, hqueue,
    hrun, Option.bind_eq_bind, Option.bind_some, Option.pure_def, if_neg hne, Option.getD_some, endedRow, runningRow]

theorem rowAfter_ended {state : JobState} {row : JobRow} (hphase : poll.phase = .ended)
    (hstate : dbState job.finalState = some state) (hopen : row.state = .queued ∨ row.state = .running)
    (hsees : Sees job poll) (hregular : Regular poll.pass) : rowAfter utc job poll (some row) = some { row with
      started := some (utc job.start), finished := some (utc job.end), queueTime := some (job.start - job.submit),
      runTime := some (job.end - job.start), state := state } := by
  have hline := regular_line hsees hregular (by rw [hphase]; rfl)
  obtain ⟨nodenames, hnodenames, -⟩ := hline.hosts
  have hqueue : timeColumn (job.start - job.submit) = _ := timeColumn_eq (hline.queueTime job.start rfl)
  have hrun : timeColumn (job.end - job.start) = _ := timeColumn_eq (hline.runTime job.start job.end rfl rfl)
  have hne : job.nodes ≠ 0 := Nat.pos_iff_ne_zero.mp hline.nodes
  unfold rowAfter
  rw [hphase]
  simp only [Job.line, processRow, show nodenamesOf poll.pass job.nodelist = _ from hnodenames, updateStatement, hstate, hqueue,
    hrun, if_pos hopen, Option.bind_eq_bind, Option.bind_some, Option.pure_def, if_neg hne, Option.getD_some]

end

/-! ## What a poll keeps -/

section
variable {poll : Poll} (hsees : Sees job poll) (hregular : Regular poll.pass)
include hsees hregular

/-- The cluster name of a row is never changed. -/
theorem rowAfter_clusterName (row : JobRow) :
    ∃ row', rowAfter utc job poll (some row) = some row' ∧ row'.clusterName = row.clusterName := by
  by_cases hterminal : row.state.isTerminal = true
  · exact ⟨row, rowAfter_terminal hterminal hsees hregular, rfl⟩
  · have hopen : row.state = .queued ∨ row.state = .running := by
      cases hstate : row.state with
      | queued => exact .inl rfl
      | running => exact .inr rfl
      | _ => exact absurd (by rw [hstate]; rfl) hterminal
    cases hphase : poll.phase with
    | unsubmitted => exact ⟨row, rowAfter_unsubmitted hphase _, rfl⟩
    | queued => exact ⟨row, rowAfter_queued hphase row, rfl⟩
    | running =>
      by_cases hqueued : row.state = .queued
      · exact ⟨_, rowAfter_running_queued hphase hqueued hsees hregular, rfl⟩
      · exact ⟨row, rowAfter_running hphase hqueued hsees hregular, rfl⟩
    | ended =>
      cases hstate : dbState job.finalState with
      | none => exact ⟨row, rowAfter_unrecognised hphase hstate _ hsees hregular, rfl⟩
      | some state => exact ⟨_, rowAfter_ended hphase hstate hopen hsees hregular, rfl⟩

/-- **A row never goes back.** -/
theorem forward_rowAfter (row : Option JobRow) :
    Forward (row.map (·.state)) ((rowAfter utc job poll row).map (·.state)) := by
  have hsame : ∀ state : JobState, Forward (some state) (some state) := by
    intro state
    cases state with
    | queued => exact nofun
    | running => exact ⟨nofun, nofun⟩
    | _ => rfl
  cases row with
  | none => trivial
  | some row =>
    by_cases hterminal : row.state.isTerminal = true
    · rw [rowAfter_terminal hterminal hsees hregular]
      exact hsame _
    · cases hphase : poll.phase with
      | unsubmitted =>
        rw [rowAfter_unsubmitted hphase]
        exact hsame _
      | queued =>
        rw [rowAfter_queued hphase]
        exact hsame _
      | running =>
        by_cases hqueued : row.state = .queued
        · rw [rowAfter_running_queued hphase hqueued hsees hregular, Option.map_some, hqueued]
          exact nofun
        · rw [rowAfter_running hphase hqueued hsees hregular]
          exact hsame _
      | ended =>
        cases hdb : dbState job.finalState with
        | none =>
          rw [rowAfter_unrecognised hphase hdb _ hsees hregular]
          exact hsame _
        | some state =>
          have hdone := isTerminal_of_dbState hdb
          cases hstate : row.state with
          | queued =>
            rw [rowAfter_ended hphase hdb (.inl hstate) hsees hregular, Option.map_some, Option.map_some, hstate]
            exact nofun
          | running =>
            rw [rowAfter_ended hphase hdb (.inr hstate) hsees hregular, Option.map_some, Option.map_some, hstate]
            refine ⟨nofun, fun hback => (not_open_of_isTerminal hdone).1 (Option.some.inj hback)⟩
          | _ => exact absurd (by rw [hstate]; rfl) hterminal

/-- Where the final state is none of those the script knows, no row becomes terminal. -/
theorem rowAfter_stays_open (hunknown : dbState job.finalState = none) {row row' : Option JobRow}
    (hopen : ∀ r, row = some r → r.state.isTerminal = false) (h : rowAfter utc job poll row = row') :
    ∀ r, row' = some r → r.state.isTerminal = false := by
  subst h
  intro r hr
  cases hphase : poll.phase with
  | unsubmitted =>
    rw [rowAfter_unsubmitted hphase] at hr
    exact hopen r hr
  | queued =>
    cases row with
    | none =>
      obtain ⟨row, hrow, hstate, -⟩ := rowAfter_queued_none hphase hsees hregular
      rw [hrow] at hr
      cases hr
      rw [hstate]
      rfl
    | some row =>
      rw [rowAfter_queued hphase] at hr
      exact hopen r hr
  | running =>
    cases row with
    | none =>
      rw [rowAfter_running_none hphase hsees hregular] at hr
      cases hr
      rfl
    | some row =>
      by_cases hqueued : row.state = .queued
      · rw [rowAfter_running_queued hphase hqueued hsees hregular] at hr
        cases hr
        rfl
      · rw [rowAfter_running hphase hqueued hsees hregular] at hr
        exact hopen r hr
  | ended =>
    rw [rowAfter_unrecognised hphase hunknown _ hsees hregular] at hr
    exact hopen r hr

end

/-! ## All passes -/

section
variable {polls : List Poll} (hsees : ∀ poll ∈ polls, Sees job poll) (hregular : ∀ poll ∈ polls, Regular poll.pass)
include hsees hregular

theorem foldl_keeps {P : Option JobRow → Prop}
    (hstep : ∀ poll ∈ polls, Sees job poll → Regular poll.pass → ∀ row, P row → P (rowAfter utc job poll row))
    {row : Option JobRow} (h : P row) : P (polls.foldl (fun row poll => rowAfter utc job poll row) row) := by
  induction polls generalizing row with
  | nil => exact h
  | cons poll polls ih =>
    have hmem : poll ∈ poll :: polls := List.mem_cons_self
    exact ih (fun p hp => hsees p (List.mem_cons_of_mem _ hp)) (fun p hp => hregular p (List.mem_cons_of_mem _ hp))
      (fun p hp => hstep p (List.mem_cons_of_mem _ hp)) (hstep poll hmem (hsees poll hmem) (hregular poll hmem) row h)

/-- From the row of a running job, the row of an ended one. -/
theorem foldl_running {state : JobState} (clusterName : String) (hdb : dbState job.finalState = some state)
    (hended : ∃ poll ∈ polls, poll.phase = .ended) :
    polls.foldl (fun row poll => rowAfter utc job poll row) (some (runningRow utc job clusterName)) =
      some (endedRow utc job state clusterName) := by
  induction polls with
  | nil =>
    obtain ⟨poll, hmem, -⟩ := hended
    cases hmem
  | cons poll polls ih =>
    have hmem : poll ∈ poll :: polls := List.mem_cons_self
    have hsees' : ∀ p ∈ polls, Sees job p := fun p hp => hsees p (List.mem_cons_of_mem _ hp)
    have hregular' : ∀ p ∈ polls, Regular p.pass := fun p hp => hregular p (List.mem_cons_of_mem _ hp)
    rw [List.foldl_cons]
    by_cases hphase : poll.phase = .ended
    · rw [rowAfter_ended hphase hdb (.inr rfl) (hsees poll hmem) (hregular poll hmem)]
      refine foldl_keeps (P := (· = some (endedRow utc job state clusterName))) hsees' hregular'
        (fun p _ hp hregularp row hrow => ?_) rfl
      rw [hrow]
      exact rowAfter_terminal (isTerminal_of_dbState hdb) hp hregularp
    · have hstays : rowAfter utc job poll (some (runningRow utc job clusterName)) = some (runningRow utc job clusterName) := by
        cases hcase : poll.phase with
        | unsubmitted => exact rowAfter_unsubmitted hcase _
        | queued => exact rowAfter_queued hcase _
        | running => exact rowAfter_running hcase nofun (hsees poll hmem) (hregular poll hmem)
        | ended => exact absurd hcase hphase
      rw [hstays]
      apply ih hsees' hregular'
      obtain ⟨other, hother, hotherEnded⟩ := hended
      obtain rfl | hrest := List.mem_cons.mp hother
      · exact absurd hotherEnded hphase
      · exact ⟨other, hrest, hotherEnded⟩

/-- Before the first poll that sees the job there is no row. -/
theorem foldl_unsubmitted (h : ∀ poll ∈ polls, poll.phase = .unsubmitted) :
    polls.foldl (fun row poll => rowAfter utc job poll row) none = none := by
  refine foldl_keeps (P := (· = none)) hsees hregular (fun poll hmem _ _ row hrow => ?_) rfl
  rw [rowAfter_unsubmitted (h poll hmem)]
  exact hrow

/-- From no row, the row of the first pass that saw the job started. -/
theorem foldl_started {state : JobState} {first : Poll} {before after : List Poll} (hdb : dbState job.finalState = some state)
    (hsplit : polls = before ++ first :: after) (hbefore : ∀ poll ∈ before, poll.phase = .unsubmitted)
    (hstarted : first.phase = .running ∨ first.phase = .ended) (hended : ∃ poll ∈ polls, poll.phase = .ended) :
    polls.foldl (fun row poll => rowAfter utc job poll row) none =
      some (endedRow utc job state (clusterNameAt job first.pass)) := by
  subst hsplit
  have hfirst : first ∈ before ++ first :: after := List.mem_append_right _ List.mem_cons_self
  have hsees' : ∀ poll ∈ after, Sees job poll :=
    fun poll hmem => hsees poll (List.mem_append_right _ (List.mem_cons_of_mem _ hmem))
  have hregular' : ∀ poll ∈ after, Regular poll.pass :=
    fun poll hmem => hregular poll (List.mem_append_right _ (List.mem_cons_of_mem _ hmem))
  rw [List.foldl_append, List.foldl_cons,
    foldl_unsubmitted (fun poll hmem => hsees poll (List.mem_append_left _ hmem))
      (fun poll hmem => hregular poll (List.mem_append_left _ hmem)) hbefore]
  obtain hrunning | hdone := hstarted
  · rw [rowAfter_running_none hrunning (hsees first hfirst) (hregular first hfirst)]
    apply foldl_running hsees' hregular' _ hdb
    obtain ⟨poll, hmem, hphase⟩ := hended
    obtain hin | hin := List.mem_append.mp hmem
    · exact nomatch (hbefore poll hin).symm.trans hphase
    · obtain rfl | hin := List.mem_cons.mp hin
      · exact nomatch hrunning.symm.trans hphase
      · exact ⟨poll, hin, hphase⟩
  · rw [rowAfter_ended_none hdone hdb (hsees first hfirst) (hregular first hfirst)]
    refine foldl_keeps (P := (· = some (endedRow utc job state (clusterNameAt job first.pass)))) hsees' hregular'
      (fun p _ hp hregularp row hrow => ?_) rfl
    rw [hrow]
    exact rowAfter_terminal (isTerminal_of_dbState hdb) hp hregularp

end

/-- The script knows the final state; the first pass that sees the job sees it started, and finds the cluster name that
the last pass finds. -/
def SeenStarted (job : Job) (polls : List Poll) (last : Poll) : Prop :=
  dbState job.finalState ≠ none ∧ ∃ first, (polls ++ [last]).find? (fun poll => poll.phase ≠ .unsubmitted) = some first ∧
    first.phase ≠ .queued ∧ clusterNameAt job first.pass = clusterNameAt job last.pass

/-- The first poll that sees the job, and those before it. -/
theorem split_of_find {all : List Poll} {first : Poll}
    (h : all.find? (fun poll => poll.phase ≠ .unsubmitted) = some first) :
    first.phase ≠ .unsubmitted ∧
      ∃ before after, all = before ++ first :: after ∧ ∀ poll ∈ before, poll.phase = .unsubmitted := by
  obtain ⟨hseen, before, after, hsplit, hbefore⟩ := List.find?_eq_some_iff_append.mp h
  refine ⟨by simpa using hseen, before, after, hsplit, fun poll hmem => ?_⟩
  simpa using hbefore poll hmem

theorem started_of_seen {poll : Poll} (hseen : poll.phase ≠ .unsubmitted) (hqueued : poll.phase ≠ .queued) :
    poll.phase = .running ∨ poll.phase = .ended := by
  cases hphase : poll.phase with
  | unsubmitted => exact absurd hphase hseen
  | queued => exact absurd hphase hqueued
  | running => exact .inl rfl
  | ended => exact .inr rfl

section
variable {polls : List Poll} {last : Poll} (hschedule : Schedule job polls last)
  (hregular : ∀ poll ∈ polls ++ [last], Regular poll.pass) (hnew : table job.jobId = none)
include hschedule hregular

/-- **Every pass takes the row forward.** -/
theorem runPasses_forward {front back : List Poll} {poll : Poll} (hsplit : polls ++ [last] = front ++ poll :: back) :
    Forward ((runPasses utc (front.map (·.pass)) table job.jobId).map (·.state))
      ((runPasses utc ((front ++ [poll]).map (·.pass)) table job.jobId).map (·.state)) := by
  have hmem : ∀ p ∈ front ++ [poll], p ∈ polls ++ [last] := by
    intro p hp
    rw [hsplit]
    obtain hp | hp := List.mem_append.mp hp
    · exact List.mem_append_left _ hp
    · exact List.mem_append_right _ (List.mem_singleton.mp hp ▸ List.mem_cons_self)
  have hpoll : poll ∈ polls ++ [last] := hmem poll (List.mem_append_right _ List.mem_cons_self)
  rw [runPasses_row (fun p hp => hschedule.sees p (hmem p hp)) (fun p hp => hregular p (hmem p hp)),
    runPasses_row (fun p hp => hschedule.sees p (hmem p (List.mem_append_left _ hp)))
      (fun p hp => hregular p (hmem p (List.mem_append_left _ hp))), List.foldl_append]
  exact forward_rowAfter (hschedule.sees poll hpoll) (hregular poll hpoll) _

include hnew

theorem runPasses_all : runPasses utc ((polls ++ [last]).map (·.pass)) table job.jobId =
    (polls ++ [last]).foldl (fun row poll => rowAfter utc job poll row) none := by
  rw [runPasses_row hschedule.sees hregular, hnew]

theorem runPasses_last {state : JobState} (hdb : dbState job.finalState = some state) :
    runPasses utc [last.pass] table job.jobId = some (endedRow utc job state (clusterNameAt job last.pass)) := by
  have hlast : last ∈ polls ++ [last] := List.mem_append_right _ List.mem_cons_self
  show last.pass.run utc table job.jobId = _
  rw [run_row (hschedule.sees last hlast) (hregular last hlast), hnew]
  exact rowAfter_ended_none hschedule.ended hdb (hschedule.sees last hlast) (hregular last hlast)

/-- A row made while the job waited never gets a cluster name. -/
theorem clusterName_of_queued {first : Poll} {before after : List Poll} (hsplit : polls ++ [last] = before ++ first :: after)
    (hbefore : ∀ poll ∈ before, poll.phase = .unsubmitted) (hqueued : first.phase = .queued) :
    ∃ row, runPasses utc ((polls ++ [last]).map (·.pass)) table job.jobId = some row ∧ row.clusterName = none := by
  have hin : ∀ poll ∈ before ++ first :: after, poll ∈ polls ++ [last] := fun poll hmem => hsplit ▸ hmem
  have hfirst := hin first (List.mem_append_right _ List.mem_cons_self)
  have hafter : ∀ poll ∈ after, poll ∈ polls ++ [last] :=
    fun poll hmem => hin poll (List.mem_append_right _ (List.mem_cons_of_mem _ hmem))
  rw [runPasses_all hschedule hregular hnew, hsplit, List.foldl_append, List.foldl_cons,
    foldl_unsubmitted (fun poll hmem => hschedule.sees poll (hin poll (List.mem_append_left _ hmem)))
      (fun poll hmem => hregular poll (hin poll (List.mem_append_left _ hmem))) hbefore]
  refine foldl_keeps (P := fun row => ∃ r, row = some r ∧ r.clusterName = none)
    (fun poll hmem => hschedule.sees poll (hafter poll hmem)) (fun poll hmem => hregular poll (hafter poll hmem))
    (fun poll _ hsees hpass row hrow => ?_) ?_
  · obtain ⟨r, rfl, hnone⟩ := hrow
    obtain ⟨r', hr', hcluster⟩ := @rowAfter_clusterName utc job poll hsees hpass r
    exact ⟨r', hr', hcluster.trans hnone⟩
  · obtain ⟨r, hr, -, hnone⟩ := @rowAfter_queued_none utc job first hqueued (hschedule.sees first hfirst) (hregular first hfirst)
    exact ⟨r, hr, hnone⟩

theorem recognised_of_accounted (h : Accounted utc job polls last table) : dbState job.finalState ≠ none := by
  intro hunknown
  obtain ⟨row, hrow, hterminal, -, -⟩ := h.final
  have hopen : ∀ r, runPasses utc ((polls ++ [last]).map (·.pass)) table job.jobId = some r → r.state.isTerminal = false := by
    rw [runPasses_all hschedule hregular hnew]
    refine foldl_keeps (P := fun row => ∀ r, row = some r → r.state.isTerminal = false) hschedule.sees hregular ?_ ?_
    · intro poll _ hsees hpass row hopen
      exact rowAfter_stays_open hsees hpass hunknown hopen rfl
    · intro r hr
      cases hr
  rw [hopen row hrow] at hterminal
  cases hterminal

end

/-! ## A job on one node -/

def gpuJob (finalState : String) : Job := ⟨"42", "compute", finalState, 0, 10, 3610, 1, 16, "gpu-1"⟩

def gpuPoll (finalState : String) (phase : Phase) : Poll :=
  ⟨⟨((gpuJob finalState).line phase).toList, fun _ => some ["gpu-1"], fun _ => "cluster-a", fun _ => some 1, true⟩, phase⟩

theorem gpuPoll_sees (finalState : String) (phase : Phase) : Sees (gpuJob finalState) (gpuPoll finalState phase) where
  nodup := by
    cases phase with
    | unsubmitted => exact List.nodup_nil
    | _ => exact List.nodup_singleton _
  listed := fun line hline => Option.mem_toList.mpr hline
  only := fun line hmem _ => Option.mem_toList.mp hmem

theorem gpuPoll_regular (finalState : String) (phase : Phase) : Regular (gpuPoll finalState phase).pass where
  lines := by
    intro line hmem
    have hline : (gpuJob finalState).line phase = some line := Option.mem_toList.mp hmem
    have hassigned : PyStr.contains "None assigned" "None assigned" = true := by decide
    have hnode : PyStr.contains "gpu-1" "None assigned" = false := by decide
    cases phase with
    | unsubmitted => cases hline
    | queued =>
      cases hline
      exact ⟨nofun, nofun, Nat.one_pos, ⟨[], if_pos hassigned, nofun⟩, fun _ => ⟨1, rfl, Nat.one_pos⟩, nofun, nofun⟩
    | running =>
      cases hline
      refine ⟨nofun, nofun, Nat.one_pos, ⟨["gpu-1"], ?_, fun _ _ _ => List.cons_ne_nil _ _⟩, nofun, fun start hstart => ?_, nofun⟩
      · exact if_neg (by rw [show PyStr.contains (gpuJob finalState).nodelist "None assigned" = _ from hnode]; decide)
      · cases hstart
        exact (by decide : (0 : Int) ≤ 10 - 0 ∧ (10 : Int) - 0 < 86400)
    | ended =>
      cases hline
      refine ⟨nofun, nofun, Nat.one_pos, ⟨["gpu-1"], ?_, nofun⟩, nofun, fun start hstart => ?_, fun start stop hstart hstop => ?_⟩
      · exact if_neg (by rw [show PyStr.contains (gpuJob finalState).nodelist "None assigned" = _ from hnode]; decide)
      · cases hstart
        exact (by decide : (0 : Int) ≤ 10 - 0 ∧ (10 : Int) - 0 < 86400)
      · cases hstart
        cases hstop
        exact (by decide : (0 : Int) ≤ 3610 - 10 ∧ (3610 : Int) - 10 < 86400)
  recorded := rfl

theorem gpuPoll_schedule (finalState : String) :
    Schedule (gpuJob finalState) [gpuPoll finalState .running] (gpuPoll finalState .ended) where
  sees := by
    intro poll hmem
    simp only [List.cons_append, List.nil_append, List.mem_cons, List.not_mem_nil, or_false] at hmem
    obtain rfl | rfl := hmem
    · exact gpuPoll_sees finalState .running
    · exact gpuPoll_sees finalState .ended
  ordered := by
    rw [List.cons_append, List.nil_append, List.pairwise_pair]
    exact (by decide : Phase.running.rank ≤ Phase.ended.rank)
  ended := rfl

theorem gpuPolls_regular (finalState : String) :
    ∀ poll ∈ [gpuPoll finalState .running] ++ [gpuPoll finalState .ended], Regular poll.pass := by
  intro poll hmem
  simp only [List.cons_append, List.nil_append, List.mem_cons, List.not_mem_nil, or_false] at hmem
  obtain rfl | rfl := hmem
  · exact gpuPoll_regular finalState .running
  · exact gpuPoll_regular finalState .ended

end OciHpc.Monitor
