import Mathlib.Algebra.Ring.Int.Defs
import OciHpc.Autoscale.Queues
import OciHpc.Base.Prog

/-!
# `getstatus_slurm`

What one pass of the autoscaler reads: the jobs of `squeue`, the nodes of `sinfo` with the answers given about
each, and the cluster directories.

* `jobOfLine` : one line of `squeue`, a pending job without a dependency being one to build for;
* `listedNodes`, `rowOf` : the nodes of the listing, and what is asked about each of them;
* `addRow`, `clustersData` : the fold of the nodes into clusters;
* `directoryStatus` : used indexes and clusters being built, from the cluster directories;
* `getstatusSlurm` : all of it, with the clusters to destroy.
-/

namespace OciHpc.Autoscale

/-- A dict of dicts, `d[queue][instance_type]`. -/
abbrev Table (α : Type) := String → String → Option α

def Table.set {α : Type} (table : Table α) (queue instanceType : String) (value : α) : Table α :=
  fun q t => if q = queue ∧ t = instanceType then some value else table q t

/-! ## Jobs -/

/-- An entry of `cluster_to_build`. -/
structure Job where
  nodes : Int
  instanceType : String
  queue : String
  jobID : Int
  user : String
deriving DecidableEq, Repr

/-- `words[i]`. -/
def column (words : List String) (i : Nat) : Except PyError String :=
  match words[i]? with
  | some word => .ok word
  | none => .error .indexError

/-- `int(_)` of a string. -/
def intOf (s : String) : Except PyError Int :=
  match PyStr.int s.toList with
  | some n => .ok n
  | none => .error .valueError

/-- `_["..."]` of what may be `None`. -/
def subscript {α : Type} : Option α → Except PyError α
  | some a => .ok a
  | none => .error .typeError

/-- The instance type of a job: the first of its features that is a type of the queue, else the default one. -/
def chooseType (config : QueueConfig) (queue : String) (features : List String) : Except PyError String := do
  let possibleTypes := (← subscript (getQueue config queue)).instanceTypes.map (·.name)
  let defaultConfig ← subscript (getDefaultsConfig config queue)
  return (features.find? fun feature => feature ∈ possibleTypes).getD defaultConfig.instanceType

/-- The loop of `getstatus_slurm` over the jobs, for one of their lines. -/
def jobOfLine (config : QueueConfig) (line : String) : Except PyError (Option Job) :=
  if 3 < (PyStr.splitWs line).length then
    let newLine := PyStr.reSplitWs line
    if newLine[0]? = some "PENDING" then do
      let dependency ← column newLine 6
      if PyStr.contains dependency "null" || dependency = "" then do
        let queue ← column newLine 4
        let user ← column newLine 5
        let features := PyStr.split (← column newLine 2) "&"
        let instanceType ← chooseType config queue features
        let nodes ← intOf (← column newLine 3)
        let jobID ← intOf (← column newLine 1)
        return some { nodes, instanceType, queue, jobID, user }
      else return none
    else .ok none
  else .ok none

/-- `cluster_to_build`: the jobs in the order of the listing; an exception ends the pass. -/
def clusterToBuild (config : QueueConfig) : List String → Except PyError (List Job)
  | [] => .ok []
  | line :: rest => do
    let job ← jobOfLine config line
    let jobs ← clusterToBuild config rest
    return job.toList ++ jobs

/-! ## Nodes -/

/-- What the pass is told about one node: the output of the four commands, and the clock when it is read (the
first reading only where `SlurmdStartTime` cannot be used), in microseconds. -/
structure NodeAnswers where
  details : String
  topology : String
  jobEnds : String
  slurmdStart : String
  clockAtFallback : Int
  clock : Int
deriving DecidableEq, Repr

/-- Fold over the lines of `getNodeDetails`; the quotes of a line are taken off as it is read. -/
def detailsLoop : Option String → List String → Except PyError (Option String)
  | output, [] => .ok output
  | output, line :: rest =>
    if !PyStr.contains line "(null)" && PyStr.strip line ≠ "" then
      let opened := if PyStr.startsWith line "\"" then String.ofList (line.toList.drop 1) else line
      if opened = "" then .error .indexError
      else
        let closed := if opened.toList.getLast? = some '"' then String.ofList opened.toList.dropLast else opened
        detailsLoop (some closed) rest
    else detailsLoop output rest

/-- Without a usable line the variable it returns is unbound. -/
def getNodeDetails (answers : NodeAnswers) : Except PyError String := do
  match ← detailsLoop none (PyStr.split answers.details "\n") with
  | some output => return output
  | none => throw .unboundLocalError

/-- `output.split()[0].split('SwitchName=')[1]`. -/
def switchName (output : String) : Option String := do
  let word ← (PyStr.splitWs output)[0]?
  (PyStr.split word "SwitchName=")[1]?

/-- The loop over more than one line of topology; the outer `none` is an exception. -/
def switchLoop : Option String → List String → Option (Option String)
  | clusterName, [] => some clusterName
  | clusterName, output :: rest =>
    if PyStr.contains output "Switches=" then (switchName output).map some
    else if PyStr.contains output "SwitchName=inactive-" then switchLoop clusterName rest
    else do
      let name ← switchName output
      switchLoop (some name) rest

/-- Every exception is caught, also that of `None.startswith`: the answer is never `None`. -/
def getClusterName (answers : NodeAnswers) : String :=
  let lines := PyStr.split answers.topology "\n"
  let clusterName :=
    if 2 < lines.length then (switchLoop none lines.dropLast).join
    else if lines.length = 2 then lines.head?.bind switchName
    else none
  match clusterName with
  | some name => if PyStr.startsWith name "inactive-" then "NOCLUSTERFOUND" else name
  | none => "NOCLUSTERFOUND"

/-- One of the alternatives of a field of `strptime`, a test for each character. -/
def fieldMatches (alternatives : List (List (Char → Bool))) (s : List Char) : Bool :=
  alternatives.any fun tests => tests.length = s.length && (tests.zip s).all fun p => p.1 p.2

def between (lo hi : Char) (c : Char) : Bool := lo ≤ c && c ≤ hi

def anyDigit (c : Char) : Bool := (PyStr.decimal c).isSome

def isLeap (year : Int) : Bool := year % 4 = 0 && (year % 100 ≠ 0 || year % 400 = 0)

def daysInMonth (year month : Int) : Int :=
  if month = 2 then if isLeap year then 29 else 28
  else if month = 4 || month = 6 || month = 9 || month = 11 then 30 else 31

def daysBefore (year month : Int) : Int :=
  365 * (year - 1) + (year - 1) / 4 - (year - 1) / 100 + (year - 1) / 400 +
    ((List.range 12).map fun m => if (m : Int) + 1 < month then daysInMonth year (m + 1) else 0).sum

/-- `datetime(year, month, day, hour, minute, second)`, in microseconds; a value out of range is an error. -/
def datetime (year month day hour minute second : Int) : Option Int :=
  if 1 ≤ year ∧ day ≤ daysInMonth year month ∧ second ≤ 59 then
    some (1000000 * (second + 60 * (minute + 60 * (hour + 24 * (daysBefore year month + day - 1)))))
  else none

/-- `datetime.strptime(s, "%Y-%m-%dT%H:%M:%S")`: the regular expression of each field, then `datetime`. -/
def strptime (s : String) : Option Int := do
  let (year, _, rest) := PyStr.partition '-' s.toList
  let (month, _, rest) := PyStr.partition '-' rest
  let (day, _, rest) := PyStr.partition 'T' (rest.map fun c => if c = 't' then 'T' else c)
  let (hour, _, rest) := PyStr.partition ':' rest
  let (minute, _, second) := PyStr.partition ':' rest
  guard (fieldMatches [[anyDigit, anyDigit, anyDigit, anyDigit]] year)
  guard (fieldMatches [[(· = '1'), between '0' '2'], [(· = '0'), between '1' '9'], [between '1' '9']] month)
  guard (fieldMatches [[(· = '3'), between '0' '1'], [between '1' '2', anyDigit], [(· = '0'), between '1' '9'],
    [between '1' '9'], [(· = ' '), between '1' '9']] day)
  guard (fieldMatches [[(· = '2'), between '0' '3'], [between '0' '1', anyDigit], [anyDigit]] hour)
  guard (fieldMatches [[between '0' '5', anyDigit], [anyDigit]] minute)
  guard (fieldMatches [[(· = '6'), between '0' '1'], [between '0' '5', anyDigit], [anyDigit]] second)
  datetime (← PyStr.int year) (← PyStr.int month) (← PyStr.int day) (← PyStr.int hour) (← PyStr.int minute)
    (← PyStr.int second)

/-- `tail -n 1`. -/
def lastLine (output : String) : String :=
  let lines := PyStr.split output "\n"
  ((if lines.getLast? = some "" then lines.dropLast else lines).getLast?).getD ""

/-- `last_end_time`, the last line of the `End` times of the node's jobs: no line, or one that is no time
(`Unknown`), is `None`. -/
def lastEndTime (answers : NodeAnswers) : Option Int := strptime (PyStr.strip (lastLine answers.jobEnds))

/-- The time `SlurmdStartTime=` gives, if it does. -/
def slurmdStartTime (answers : NodeAnswers) : Option Int := do
  let line ← (PyStr.split answers.slurmdStart "\n")[0]?
  strptime (← (PyStr.split line "=")[1]?)

def oneDay : Int := 24 * 3600 * 1000000

def getIdleTime (answers : NodeAnswers) : Int :=
  let clusterStartTime := (slurmdStartTime answers).getD (answers.clockAtFallback - oneDay)
  let rightTime :=
    match lastEndTime answers with
    | none => clusterStartTime
    | some lastEnd => max clusterStartTime lastEnd
  answers.clock - rightTime

/-- Put the comma-separated pieces of a node range together again: `broken` inside brackets. -/
def joinRanges : Bool → String → List String → List String
  | _, _, [] => []
  | true, currentNode, node :: rest =>
    if PyStr.contains node "]" then (currentNode ++ "," ++ node) :: joinRanges false currentNode rest
    else joinRanges true (currentNode ++ "," ++ node) rest
  | false, currentNode, node :: rest =>
    if PyStr.contains node "[" && !PyStr.contains node "]" then joinRanges true node rest
    else node :: joinRanges false currentNode rest

/-- One quote off either end. -/
def unquoteNode (node : String) : String :=
  let opened := if node.toList.getLast? = some '"' then String.ofList node.toList.dropLast else node
  if PyStr.startsWith opened "\"" then String.ofList (opened.toList.drop 1) else opened

/-- The state and the nodes of one line of the listing. -/
def nodesOfLine (line : String) : List (String × String) :=
  let words := PyStr.splitWs line
  let state := PyStr.stripChar '"' (words.head?.getD "")
  (joinRanges false "" (PyStr.split (words.getLast?.getD "") ",")).map fun node => (state, unquoteNode node)

/-- The listing: its lines up to the first blank one, which follows the last line `sinfo` prints. -/
def listedNodes (listing : List String) : List (String × String) :=
  (listing.takeWhile fun line => !(PyStr.splitWs line).isEmpty).flatMap nodesOfLine

/-- One node of the listing with the answers about it. -/
structure NodeRow where
  node : String
  state : String
  clustername : String
  queue : String
  instanceType : String
  answers : NodeAnswers
deriving DecidableEq, Repr

def NodeRow.nodeIdle (row : NodeRow) : Int := getIdleTime row.answers

def rowOf (state node : String) (answers : NodeAnswers) : Except PyError NodeRow := do
  let details := PyStr.split (← getNodeDetails answers) " "
  let features := PyStr.split (details.head?.getD "") ","
  return { node, state, clustername := getClusterName answers, queue := details.getLast?.getD "",
           instanceType := features.getLast?.getD "", answers }

/-- The listed nodes with their answers, `ask i` answering about the node listed at place `i`. -/
def nodeRowsFrom (ask : Nat → String → NodeAnswers) : Nat → List (String × String) → Except PyError (List NodeRow)
  | _, [] => .ok []
  | i, (state, node) :: rest => do
    let row ← rowOf state node (ask i node)
    let rows ← nodeRowsFrom ask (i + 1) rest
    return row :: rows

def nodeRows (listing : List String) (ask : Nat → String → NodeAnswers) : Except PyError (List NodeRow) :=
  nodeRowsFrom ask 0 (listedNodes listing)

/-! ## Clusters -/

/-- A value of `clusters_data`. -/
structure ClusterInfo where
  nodes : List String
  minIdle : Option Int
  running : Bool
  queue : String
  instanceType : String
deriving DecidableEq, Repr

/-- `clusters_data`, in the order its keys were inserted. -/
abbrev ClustersData := List (String × ClusterInfo)

def ClusterInfo.new (row : NodeRow) : ClusterInfo :=
  { nodes := [], minIdle := none, running := false, queue := row.queue, instanceType := row.instanceType }

/-- One more node of a cluster: `running`, or its idle time taken into the minimum. -/
def ClusterInfo.add (info : ClusterInfo) (row : NodeRow) : ClusterInfo :=
  let nodes := info.nodes ++ [row.node]
  if row.state ∈ ["allocated", "mixed"] then { info with nodes, running := true }
  else
    match info.minIdle with
    | none => { info with nodes, minIdle := some row.nodeIdle }
    | some minIdle =>
      if row.nodeIdle < minIdle then { info with nodes, minIdle := some row.nodeIdle } else { info with nodes }

def addRow : ClustersData → NodeRow → ClustersData
  | [], row => [(row.clustername, (ClusterInfo.new row).add row)]
  | (name, info) :: rest, row =>
    if name = row.clustername then (name, info.add row) :: rest else (name, info) :: addRow rest row

def clustersData (rows : List NodeRow) : ClustersData := rows.foldl addRow []

/-- `current_nodes[queue][instanceType]` counted up by one node. -/
def addNode (currentNodes : Table Int) (row : NodeRow) : Table Int :=
  currentNodes.set row.queue row.instanceType ((currentNodes row.queue row.instanceType).getD 0 + 1)

def currentNodesOf (rows : List NodeRow) : Table Int := rows.foldl addNode fun _ _ => none

/-! ## Cluster directories -/

/-- A cluster directory with the content of `currently_building`, if it is there. -/
structure ClusterDir where
  name : String
  currentlyBuilding : Option String
  currentlyDestroying : Bool
deriving DecidableEq, Repr

/-- A cluster being built: `[nodes, instance_type, queue_name]`. -/
structure Building where
  nodes : Int
  instanceType : String
  queue : String
deriving DecidableEq, Repr

/-- What `currently_building` says; anything that cannot be read is passed over. -/
def buildingOf (content : String) : Option Building :=
  match PyStr.splitWs (PyStr.strip content) with
  | nodes :: instanceType :: queue :: _ =>
    (PyStr.int nodes.toList).map fun n => { nodes := n, instanceType, queue }
  | _ => none

structure DirectoryStatus where
  usedIndex : Table (List Int)
  clusterBuilding : List Building
  buildingNodes : Table Int
  clusterDestroying : List String

def DirectoryStatus.empty : DirectoryStatus :=
  { usedIndex := fun _ _ => none, clusterBuilding := [], buildingNodes := fun _ _ => none,
    clusterDestroying := [] }

/-- A directory whose name is that of a configured queue and keyword. -/
def DirectoryStatus.add (status : DirectoryStatus) (dir : ClusterDir) (queue : String) (clusterNumber : Int)
    (instanceType : String) : DirectoryStatus :=
  let building := dir.currentlyBuilding.bind buildingOf
  { usedIndex := status.usedIndex.set queue instanceType
      ((status.usedIndex queue instanceType).getD [] ++ [clusterNumber])
    clusterBuilding := status.clusterBuilding ++ building.toList
    buildingNodes :=
      match building with
      | some b =>
        status.buildingNodes.set b.queue b.instanceType ((status.buildingNodes b.queue b.instanceType).getD 0 + b.nodes)
      | none => status.buildingNodes
    clusterDestroying :=
      if dir.currentlyDestroying then status.clusterDestroying ++ [dir.name] else status.clusterDestroying }

/-- Queue, number and instance type of a directory; the keyword found is one of the queue's, so that
`getInstanceType` has an answer. -/
def dirKey (config : QueueConfig) (dir : ClusterDir) : Except PyError (Option (String × Int × String)) := do
  match ← parseClusterName config dir.name with
  | none => return none
  | some (queue, clusterNumber, instanceKeyword) =>
    return (getInstanceType config queue instanceKeyword).map fun instanceType =>
      (queue, clusterNumber, instanceType)

def directoryLoop (config : QueueConfig) : DirectoryStatus → List ClusterDir → Except PyError DirectoryStatus
  | status, [] => .ok status
  | status, dir :: rest => do
    match ← dirKey config dir with
    | none => directoryLoop config status rest
    | some (queue, clusterNumber, instanceType) =>
      directoryLoop config (status.add dir queue clusterNumber instanceType) rest

/-! ## The whole status -/

/-- `idle_time`, ten minutes in microseconds. -/
def idleTime : Int := 600 * 1000000

/-- One entry of `clusters_data` goes to `cluster_to_destroy`. -/
def toDestroy (config : QueueConfig) (clustername : String) (info : ClusterInfo) : Bool :=
  if clustername = "NOCLUSTERFOUND" then false
  else if info.running then false
  else if isPermanent config info.queue info.instanceType then false
  else
    match info.minIdle with
    | none => false
    | some minIdle => idleTime ≤ minIdle

structure Observed where
  jobs : List String
  listing : List String
  ask : Nat → String → NodeAnswers
  dirs : List ClusterDir

structure Status where
  clusterToBuild : List Job
  clusterToDestroy : List String
  clusterBuilding : List Building
  clusterDestroying : List String
  usedIndex : Table (List Int)
  currentNodes : Table Int
  buildingNodes : Table Int

def getstatusSlurm (config : QueueConfig) (seen : Observed) : Except PyError Status := do
  let jobs ← clusterToBuild config seen.jobs
  let rows ← nodeRows seen.listing seen.ask
  let dirs ← directoryLoop config .empty seen.dirs
  return {
    clusterToBuild := jobs
    clusterToDestroy := ((clustersData rows).filter fun p => toDestroy config p.1 p.2).map (·.1)
    clusterBuilding := dirs.clusterBuilding
    clusterDestroying := dirs.clusterDestroying
    usedIndex := dirs.usedIndex
    currentNodes := currentNodesOf rows
    buildingNodes := dirs.buildingNodes }

/-- The nodes of the listing with the answers about them; none when an answer cannot be read. -/
def rowsOf (seen : Observed) : List NodeRow :=
  match nodeRows seen.listing seen.ask with
  | .ok rows => rows
  | .error _ => []

/-- Nothing the pass reads makes `getstatus_slurm` raise. -/
def Readable (config : QueueConfig) (seen : Observed) : Prop :=
  (clusterToBuild config seen.jobs).isOk ∧ (nodeRows seen.listing seen.ask).isOk ∧
    (directoryLoop config .empty seen.dirs).isOk

theorem getstatusSlurm_eq_ok {config : QueueConfig} {seen : Observed} {status : Status}
    (h : getstatusSlurm config seen = .ok status) : ∃ jobs dirs,
      clusterToBuild config seen.jobs = .ok jobs ∧ nodeRows seen.listing seen.ask = .ok (rowsOf seen) ∧
        directoryLoop config .empty seen.dirs = .ok dirs ∧
        status = {
          clusterToBuild := jobs
          clusterToDestroy := ((clustersData (rowsOf seen)).filter fun p => toDestroy config p.1 p.2).map (·.1)
          clusterBuilding := dirs.clusterBuilding
          clusterDestroying := dirs.clusterDestroying
          usedIndex := dirs.usedIndex
          currentNodes := currentNodesOf (rowsOf seen)
          buildingNodes := dirs.buildingNodes } := by
  unfold getstatusSlurm at h
  unfold rowsOf
  cases hjobs : clusterToBuild config seen.jobs with
  | error e => rw [hjobs] at h; cases h
  | ok jobs =>
    cases hrows : nodeRows seen.listing seen.ask with
    | error e => rw [hjobs, hrows] at h; cases h
    | ok rows =>
      cases hdirs : directoryLoop config .empty seen.dirs with
      | error e => rw [hjobs, hrows, hdirs] at h; cases h
      | ok dirs =>
        rw [hjobs, hrows, hdirs] at h
        cases h
        exact ⟨jobs, dirs, rfl, rfl, rfl, rfl⟩

theorem getstatusSlurm_of_readable {config : QueueConfig} {seen : Observed} (h : Readable config seen) :
    ∃ status, getstatusSlurm config seen = .ok status := by
  obtain ⟨hjobs, hrows, hdirs⟩ := h
  unfold getstatusSlurm
  cases hj : clusterToBuild config seen.jobs with
  | error e => rw [hj] at hjobs; cases hjobs
  | ok jobs =>
    cases hr : nodeRows seen.listing seen.ask with
    | error e => rw [hr] at hrows; cases hrows
    | ok rows =>
      cases hd : directoryLoop config .empty seen.dirs with
      | error e => rw [hd] at hdirs; cases hdirs
      | ok dirs => exact ⟨_, rfl⟩

theorem readable_of_getstatusSlurm {config : QueueConfig} {seen : Observed} {status : Status}
    (h : getstatusSlurm config seen = .ok status) : Readable config seen := by
  obtain ⟨jobs, dirs, hjobs, hrows, hdirs, -⟩ := getstatusSlurm_eq_ok h
  unfold Readable
  rw [hjobs, hrows, hdirs]
  exact ⟨rfl, rfl, rfl⟩

end OciHpc.Autoscale
