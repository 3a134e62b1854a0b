import OciHpc.Autoscale.DestroyList
import OciHpc.Autoscale.NodeLists
import OciHpc.Autoscale.Pass
import OciHpc.Base.Dictionary

/-!
# `getstatus_slurm` of the resizing autoscaler

What one pass of `autoscale_slurm.sh` reads. The jobs and the names of the clusters are read as in
`autoscale_slurm_disable-resize.sh`; the nodes and the directories are not.

* `resizingRows` : the nodes of the listing, each with the first word of its line as it stands there;
* `isCandidate`, `sortRow` : the nodes that may go, by cluster, and the clusters that run;
* `getTopology`, `staysInPart` : whether a cluster goes as a whole;
* `resizingDirectoryLoop` : the cluster directories, where a short `currently_building` ends the pass;
* `sorted_iff` : every candidate goes, with its cluster or without it;
* `directoryLoop_of_resizing` : where the directories can be read, they are counted as in the other script.
-/

namespace OciHpc.Autoscale

/-- Beside what the other script reads: whether there is a directory for a cluster, what `scontrol` says of the nodes of a
cluster and of a list of hosts, and the lines of `/etc/hosts` with a node; `none` where there are none. -/
structure ResizingObserved extends Observed where
  isDir : String → Bool
  clusterTopology : String → String
  hostnames : String → String
  etcHosts : String → Option String

/-! ## Nodes -/

/-- One quote off either end; `node[-1]` and `node[0]` raise on the empty text. -/
def takeQuotes (node : String) : Except PyError String :=
  match node.toList.getLast? with
  | none => .error .indexError
  | some last =>
    let opened := if last = '"' then String.ofList node.toList.dropLast else node
    match opened.toList with
    | [] => .error .indexError
    | first :: rest => .ok (if first = '"' then String.ofList rest else opened)

/-- The nodes of a line, each with `line.split()[0]`. -/
def wordsOfLine (line : String) : List (String × String) :=
  let words := PyStr.splitWs line
  (splitNodes (words.getLast?.getD "")).map fun node => (words.head?.getD "", node)

def listedWords (listing : List String) : List (String × String) :=
  (listing.takeWhile fun line => !(PyStr.splitWs line).isEmpty).flatMap wordsOfLine

/-- The state of a row is the first word of its line, with the quote that opens it. -/
def resizingRowsFrom (ask : Nat → String → NodeAnswers) : Nat → List (String × String) → Except PyError (List NodeRow)
  | _, [] => .ok []
  | i, (word, text) :: rest => do
    let node ← takeQuotes text
    let row ← rowOf word node (ask i node)
    let rows ← resizingRowsFrom ask (i + 1) rest
    return row :: rows

def resizingRows (listing : List String) (ask : Nat → String → NodeAnswers) : Except PyError (List NodeRow) :=
  resizingRowsFrom ask 0 (listedWords listing)

/-! ## Candidates -/

/-- `line.split()[0].endswith('*')`. -/
def notResponding (row : NodeRow) : Bool := row.state.toList.getLast? = some '*'

/-- The states of the first branch. -/
def looksUnused (row : NodeRow) : Bool := row.state = "\"idle" || row.state = "\"down" || notResponding row

/-- The states of the second. -/
def looksRunning (row : NodeRow) : Bool := row.state = "\"allocated" || row.state = "\"mixed"

/-- `isPermanent`, by the truth value of the entry; `none` where there is no entry. -/
def permanentEntry (config : QueueConfig) (queueName instanceTypeName : String) : Option Bool :=
  firstOf config queueName fun partition =>
    (partition.instanceTypes.find? fun instanceType => instanceTypeName = instanceType.name).map (·.permanent)

/-- No `continue` of the first branch is reached. -/
def isCandidate (config : QueueConfig) (isDir : String → Bool) (row : NodeRow) : Bool :=
  if notResponding row = false ∧ row.clustername = "NOCLUSTERFOUND" then false
  else if isDir row.clustername = false ∧ row.clustername ≠ "NOCLUSTERFOUND" then false
  else if row.nodeIdle < idleTime then false
  else
    match permanentEntry config row.queue row.instanceType with
    | none => false
    | some permanent => !permanent

/-- `nodes_to_destroy_temp`, with the rows of its nodes, and `running_cluster`. -/
structure Sorted where
  nodesToDestroyTemp : List (String × List NodeRow)
  runningCluster : List String

def sortRow (config : QueueConfig) (isDir : String → Bool) (sorted : Sorted) (row : NodeRow) : Sorted :=
  if looksUnused row then
    if isCandidate config isDir row then
      { sorted with nodesToDestroyTemp := appendItem (·.clustername) sorted.nodesToDestroyTemp row }
    else sorted
  else if looksRunning row then
    if row.clustername ∈ sorted.runningCluster then sorted
    else { sorted with runningCluster := sorted.runningCluster ++ [row.clustername] }
  else sorted

def sortRows (config : QueueConfig) (isDir : String → Bool) (rows : List NodeRow) : Sorted :=
  rows.foldl (sortRow config isDir) ⟨[], []⟩

/-- The nodes of the first `Nodes=`; none without it. -/
def getTopology (seen : ResizingObserved) (clusterName : String) : List String :=
  match (PyStr.splitWs (PyStr.strip (seen.clusterTopology clusterName))).find? fun item => PyStr.startsWith item "Nodes=" with
  | none => []
  | some item => PyStr.splitWs (PyStr.strip (seen.hostnames ((PyStr.split item "Nodes=")[1]?.getD "")))

/-- The nodes go and the cluster stays. -/
def staysInPart (seen : ResizingObserved) (runningCluster : List String) (clustername : String) (nodes : List NodeRow) : Bool :=
  clustername ∈ runningCluster || clustername = "NOCLUSTERFOUND" ||
    (getTopology seen clustername).any fun node => node ∉ nodes.map (·.node)

/-! ## Cluster directories -/

/-- The words of `currently_building`; `none` where the first is no number. -/
def readBuilding (content : String) : Except PyError (Option Building) :=
  match PyStr.splitWs content with
  | nodes :: instanceType :: queue :: _ => .ok ((PyStr.int nodes.toList).map fun n => { nodes := n, instanceType, queue })
  | _ => .error .indexError

/-- A directory of a configured queue and keyword. Where the number of nodes cannot be read, the loop goes on to the next. -/
def DirectoryStatus.addResizing (status : DirectoryStatus) (dir : ClusterDir) (queue : String) (clusterNumber : Int)
    (instanceType : String) : Except PyError DirectoryStatus := do
  let usedIndex := status.usedIndex.set queue instanceType
    ((status.usedIndex queue instanceType).getD [] ++ [clusterNumber])
  let clusterDestroying :=
    if dir.currentlyDestroying then status.clusterDestroying ++ [dir.name] else status.clusterDestroying
  match dir.currentlyBuilding with
  | none => return { status with usedIndex, clusterDestroying }
  | some content =>
    match ← readBuilding content with
    | none => return { status with usedIndex }
    | some b =>
      return {
        usedIndex
        clusterDestroying
        clusterBuilding := status.clusterBuilding ++ [b]
        buildingNodes := status.buildingNodes.set b.queue b.instanceType
          ((status.buildingNodes b.queue b.instanceType).getD 0 + b.nodes) }

def resizingDirectoryLoop (config : QueueConfig) : DirectoryStatus → List ClusterDir → Except PyError DirectoryStatus
  | status, [] => .ok status
  | status, dir :: rest => do
    match ← dirKey config dir with
    | none => resizingDirectoryLoop config status rest
    | some (queue, clusterNumber, instanceType) =>
      let status ← status.addResizing dir queue clusterNumber instanceType
      resizingDirectoryLoop config status rest

/-! ## The whole status -/

structure ResizingStatus extends Status where
  nodesToDestroy : List (String × List NodeRow)

def resizingStatus (config : QueueConfig) (seen : ResizingObserved) : Except PyError ResizingStatus := do
  let jobs ← clusterToBuild config seen.jobs
  let rows ← resizingRows seen.listing seen.ask
  let sorted := sortRows config seen.isDir rows
  let dirs ← resizingDirectoryLoop config .empty seen.dirs
  return {
    clusterToBuild := jobs
    clusterToDestroy :=
      (sorted.nodesToDestroyTemp.filter fun p => !staysInPart seen sorted.runningCluster p.1 p.2).map (·.1)
    nodesToDestroy := sorted.nodesToDestroyTemp.filter fun p => staysInPart seen sorted.runningCluster p.1 p.2
    clusterBuilding := dirs.clusterBuilding
    clusterDestroying := dirs.clusterDestroying
    usedIndex := dirs.usedIndex
    currentNodes := currentNodesOf rows
    buildingNodes := dirs.buildingNodes }

theorem resizingStatus_eq_ok {config : QueueConfig} {seen : ResizingObserved} {status : ResizingStatus}
    (h : resizingStatus config seen = .ok status) : ∃ jobs rows dirs,
      clusterToBuild config seen.jobs = .ok jobs ∧ resizingRows seen.listing seen.ask = .ok rows ∧
        resizingDirectoryLoop config .empty seen.dirs = .ok dirs ∧
        status = {
          clusterToBuild := jobs
          clusterToDestroy := ((sortRows config seen.isDir rows).nodesToDestroyTemp.filter fun p =>
            !staysInPart seen (sortRows config seen.isDir rows).runningCluster p.1 p.2).map (·.1)
          nodesToDestroy := (sortRows config seen.isDir rows).nodesToDestroyTemp.filter fun p =>
            staysInPart seen (sortRows config seen.isDir rows).runningCluster p.1 p.2
          clusterBuilding := dirs.clusterBuilding
          clusterDestroying := dirs.clusterDestroying
          usedIndex := dirs.usedIndex
          currentNodes := currentNodesOf rows
          buildingNodes := dirs.buildingNodes } := by
  unfold resizingStatus at h
  obtain ⟨jobs, hjobs, h⟩ := bind_eq_ok h
  obtain ⟨rows, hrows, h⟩ := bind_eq_ok h
  obtain ⟨dirs, hdirs, h⟩ := bind_eq_ok h
  cases h
  exact ⟨jobs, rows, dirs, hjobs, hrows, hdirs, rfl⟩

/-! ## The nodes that go -/

section
variable {config : QueueConfig} {seen : ResizingObserved} {isDir : String → Bool} {rows : List NodeRow}

/-- A node that may go: it is unused, old, in a cluster that has a directory or, where it does not respond, in none, and of a
type that is not permanent. -/
structure Candidate (config : QueueConfig) (isDir : String → Bool) (row : NodeRow) : Prop where
  unused : looksUnused row = true
  placed : row.clustername = "NOCLUSTERFOUND" ∧ notResponding row = true ∨
    row.clustername ≠ "NOCLUSTERFOUND" ∧ isDir row.clustername = true
  old : idleTime ≤ row.nodeIdle
  passing : permanentEntry config row.queue row.instanceType = some false

theorem candidate_iff {row : NodeRow} :
    Candidate config isDir row ↔ (looksUnused row && isCandidate config isDir row) = true := by
  unfold isCandidate
  constructor
  · rintro ⟨hunused, hplaced, hold, hpassing⟩
    rw [hunused, hpassing]
    obtain ⟨hname, hstar⟩ | ⟨hname, hdir⟩ := hplaced
    · simp [hname, hstar, hold]
    · simp [hname, hdir, hold]
  · intro h
    obtain ⟨hunused, h⟩ := Bool.and_eq_true_iff.mp h
    split at h
    · cases h
    · rename_i hstar
      split at h
      · cases h
      · rename_i hdir
        split at h
        · cases h
        · rename_i hold
          cases hentry : permanentEntry config row.queue row.instanceType with
          | none =>
            rw [hentry] at h
            cases h
          | some permanent =>
            rw [hentry] at h
            refine ⟨hunused, ?_, not_lt.mp hold, ?_⟩
            · by_cases hname : row.clustername = "NOCLUSTERFOUND"
              · simp only [hname, and_true, Bool.not_eq_false] at hstar
                exact .inl ⟨hname, hstar⟩
              · simp only [hname, ne_eq, not_false_iff, and_true, Bool.not_eq_false] at hdir
                exact .inr ⟨hname, hdir⟩
            · rw [hentry]
              simpa using h

def candidates (config : QueueConfig) (isDir : String → Bool) (rows : List NodeRow) : List NodeRow :=
  rows.filter fun row => looksUnused row && isCandidate config isDir row

theorem mem_candidates {row : NodeRow} :
    row ∈ candidates config isDir rows ↔ row ∈ rows ∧ Candidate config isDir row := by
  rw [candidates, List.mem_filter, candidate_iff]

theorem sortRows_spec (config : QueueConfig) (isDir : String → Bool) (rows : List NodeRow) :
    Grouped (·.clustername) (candidates config isDir rows) (sortRows config isDir rows).nodesToDestroyTemp ∧
      ∀ c, c ∈ (sortRows config isDir rows).runningCluster ↔
        ∃ row ∈ rows, row.clustername = c ∧ looksUnused row = false ∧ looksRunning row = true := by
  induction rows using List.reverseRecOn with
  | nil =>
    refine ⟨⟨List.nodup_nil, fun c group hgroup => absurd hgroup List.not_mem_nil,
      fun row hrow => absurd hrow List.not_mem_nil, fun c group hgroup => absurd hgroup List.not_mem_nil, .nil⟩, fun c => ?_⟩
    simp [sortRows]
  | append_singleton rows row ih =>
    obtain ⟨hgrouped, hrunning⟩ := ih
    have hstep : sortRows config isDir (rows ++ [row]) = sortRow config isDir (sortRows config isDir rows) row := by
      rw [sortRows, List.foldl_append]
      rfl
    have hcandidates : candidates config isDir (rows ++ [row]) = candidates config isDir rows ++
        if looksUnused row && isCandidate config isDir row then [row] else [] := by
      rw [candidates, List.filter_append, List.filter_singleton, Bool.cond_eq_ite]
      rfl
    have hlater : ∀ c, (∃ other ∈ rows ++ [row], other.clustername = c ∧ looksUnused other = false ∧
        looksRunning other = true) ↔ c ∈ (sortRows config isDir rows).runningCluster ∨
          (row.clustername = c ∧ looksUnused row = false ∧ looksRunning row = true) := fun c => by
      rw [hrunning]
      simp only [List.mem_append, List.mem_singleton, or_and_right, exists_or, exists_eq_left]
    rw [hstep, hcandidates]
    refine ⟨?_, fun c => ?_⟩
    · unfold sortRow
      cases hunused : looksUnused row with
      | true =>
        rw [if_pos rfl, Bool.true_and]
        cases isCandidate config isDir row with
        | true => exact hgrouped.appendItem row
        | false =>
          rw [if_neg Bool.false_ne_true, if_neg Bool.false_ne_true, List.append_nil]
          exact hgrouped
      | false =>
        rw [if_neg Bool.false_ne_true, Bool.false_and, if_neg Bool.false_ne_true, List.append_nil]
        split
        · split
          · exact hgrouped
          · exact hgrouped
        · exact hgrouped
    · rw [hlater]
      unfold sortRow
      cases hunused : looksUnused row with
      | true =>
        rw [if_pos rfl]
        have hsame : ∀ p : Prop, (p ∨ (row.clustername = c ∧ true = false ∧ looksRunning row = true)) ↔ p := by simp
        rw [hsame]
        split
        · exact Iff.rfl
        · exact Iff.rfl
      | false =>
        rw [if_neg Bool.false_ne_true]
        cases hruns : looksRunning row with
        | false => simp
        | true =>
          rw [if_pos rfl]
          split
          · rename_i hmem
            constructor
            · exact .inl
            · rintro (h | ⟨rfl, -⟩)
              · exact h
              · exact hmem
          · simp [eq_comm]

def RunsIn (rows : List NodeRow) (c : String) : Prop :=
  ∃ row ∈ rows, row.clustername = c ∧ looksUnused row = false ∧ looksRunning row = true

/-- **When a cluster goes as a whole**: it has candidates, none of its nodes runs, and all nodes that Slurm has for it are among
the candidates. -/
def GoesWhole (config : QueueConfig) (seen : ResizingObserved) (rows : List NodeRow) (c : String) : Prop :=
  c ≠ "NOCLUSTERFOUND" ∧ (∃ row ∈ rows, row.clustername = c ∧ Candidate config seen.isDir row) ∧ ¬ RunsIn rows c ∧
    ∀ node ∈ getTopology seen c, ∃ row ∈ rows, row.clustername = c ∧ Candidate config seen.isDir row ∧ row.node = node

theorem staysInPart_iff {c : String} {nodes : List NodeRow}
    (hnodes : nodes = itemsOf (·.clustername) (candidates config seen.isDir rows) c) (hne : nodes ≠ []) :
    staysInPart seen (sortRows config seen.isDir rows).runningCluster c nodes = false ↔ GoesWhole config seen rows c := by
  have hmem : ∀ row, row ∈ nodes ↔ row ∈ rows ∧ row.clustername = c ∧ Candidate config seen.isDir row := fun row => by
    rw [hnodes, itemsOf, List.mem_filter, mem_candidates, decide_eq_true_eq]
    constructor
    · rintro ⟨⟨hrow, hcandidate⟩, hname⟩
      exact ⟨hrow, hname, hcandidate⟩
    · rintro ⟨hrow, hname, hcandidate⟩
      exact ⟨⟨hrow, hcandidate⟩, hname⟩
  have hruns := (sortRows_spec config seen.isDir rows).2 c
  unfold staysInPart GoesWhole RunsIn
  rw [Bool.or_eq_false_iff, Bool.or_eq_false_iff, decide_eq_false_iff_not, decide_eq_false_iff_not, hruns,
    List.any_eq_false]
  constructor
  · rintro ⟨⟨hnot, hname⟩, hall⟩
    obtain ⟨row, hrow⟩ := List.exists_mem_of_ne_nil nodes hne
    refine ⟨hname, ⟨row, (hmem row).mp hrow⟩, hnot, fun node hnode => ?_⟩
    have hin := hall node hnode
    rw [decide_eq_true_eq, not_not] at hin
    obtain ⟨other, hother, heq⟩ := List.mem_map.mp hin
    obtain ⟨hrows, hcluster, hcandidate⟩ := (hmem other).mp hother
    exact ⟨other, hrows, hcluster, hcandidate, heq⟩
  · rintro ⟨hname, -, hnot, hall⟩
    refine ⟨⟨hnot, hname⟩, fun node hnode => ?_⟩
    rw [decide_eq_true_eq, not_not]
    obtain ⟨other, hrows, hcluster, hcandidate, heq⟩ := hall node hnode
    exact List.mem_map.mpr ⟨other, (hmem other).mpr ⟨hrows, hcluster, hcandidate⟩, heq⟩

/-- **Every candidate goes, with its cluster or without it.** The clusters that go are those that go as a whole, each once; the
nodes of the others are listed under their cluster. -/
theorem sorted_iff {status : ResizingStatus} (h : resizingStatus config seen = .ok status) :
    ∃ rows, resizingRows seen.listing seen.ask = .ok rows ∧
      (∀ c, c ∈ status.clusterToDestroy ↔ GoesWhole config seen rows c) ∧ status.clusterToDestroy.Nodup ∧
      ∀ c nodes, (c, nodes) ∈ status.nodesToDestroy ↔ ¬ GoesWhole config seen rows c ∧ nodes ≠ [] ∧
        nodes = (candidates config seen.isDir rows).filter fun row => row.clustername = c := by
  obtain ⟨jobs, rows, dirs, -, hrows, -, rfl⟩ := resizingStatus_eq_ok h
  obtain ⟨hgrouped, -⟩ := sortRows_spec config seen.isDir rows
  refine ⟨rows, hrows, fun c => ?_, ?_, fun c nodes => ?_⟩
  · constructor
    · intro hmem
      obtain ⟨⟨name, nodes⟩, hin, rfl⟩ := List.mem_map.mp hmem
      obtain ⟨hgroup, hwhole⟩ := List.mem_filter.mp hin
      rw [Bool.not_eq_true'] at hwhole
      exact (staysInPart_iff (hgrouped.group_eq name nodes hgroup) (hgrouped.nonempty name nodes hgroup)).mp hwhole
    · intro hwhole
      obtain ⟨row, hrow, rfl, hcandidate⟩ := hwhole.2.1
      have hcomplete := hgrouped.complete row (mem_candidates.mpr ⟨hrow, hcandidate⟩)
      obtain ⟨⟨name, nodes⟩, hgroup, hname⟩ := List.mem_map.mp hcomplete
      refine List.mem_map.mpr ⟨(name, nodes), List.mem_filter.mpr ⟨hgroup, ?_⟩, hname⟩
      rw [Bool.not_eq_true', staysInPart_iff (hgrouped.group_eq name nodes hgroup) (hgrouped.nonempty name nodes hgroup)]
      rw [show name = row.clustername from hname]
      exact hwhole
  · exact hgrouped.nodup.sublist (List.filter_sublist.map _)
  · constructor
    · intro hmem
      obtain ⟨hgroup, hstays⟩ := List.mem_filter.mp hmem
      have hitems := hgrouped.group_eq c nodes hgroup
      have hne := hgrouped.nonempty c nodes hgroup
      refine ⟨fun hwhole => ?_, hne, hitems⟩
      rw [(staysInPart_iff hitems hne).mpr hwhole] at hstays
      cases hstays
    · rintro ⟨hpart, hne, hitems⟩
      obtain ⟨row, hrow⟩ := List.exists_mem_of_ne_nil nodes hne
      rw [hitems, List.mem_filter, decide_eq_true_eq] at hrow
      obtain ⟨⟨name, group⟩, hgroup, hname⟩ := List.mem_map.mp (hgrouped.complete row hrow.1)
      have hkey : name = c := hname.trans hrow.2
      subst hkey
      have hsame : group = nodes := (hgrouped.group_eq name group hgroup).trans hitems.symm
      subst hsame
      refine List.mem_filter.mpr ⟨hgroup, ?_⟩
      rw [← Bool.not_eq_false, staysInPart_iff hitems hne]
      exact hpart

/-- A cluster with a node that runs and one that has long been idle. -/
def partIdle : ResizingObserved where
  jobs := [""]
  listing := ["\"allocated none 1 compute-1-hpc-node-1\"", "\"idle none 1 compute-1-hpc-node-2\"", ""]
  ask := fun _ _ => completingAnswers
  dirs := [{ name := "compute-1-hpc", currentlyBuilding := none, currentlyDestroying := false }]
  isDir := fun _ => true
  clusterTopology := fun _ => ""
  hostnames := fun _ => ""
  etcHosts := fun _ => none

def partIdleRows : List NodeRow :=
  [⟨"compute-1-hpc-node-1", "\"allocated", "compute-1-hpc", "compute", "hpc", completingAnswers⟩,
   ⟨"compute-1-hpc-node-2", "\"idle", "compute-1-hpc", "compute", "hpc", completingAnswers⟩]

theorem partIdle_rows : resizingRows partIdle.listing partIdle.ask = .ok partIdleRows := by
  decide +kernel

theorem partIdle_dirs : (resizingDirectoryLoop hpcQueues .empty partIdle.dirs).isOk = true := by
  decide +kernel

theorem partIdle_status : ∃ status, resizingStatus hpcQueues partIdle = .ok status := by
  have hjobs : clusterToBuild hpcQueues partIdle.jobs = .ok [] := by decide
  have hdirs := partIdle_dirs
  unfold resizingStatus
  rw [hjobs, partIdle_rows]
  cases hloop : resizingDirectoryLoop hpcQueues .empty partIdle.dirs with
  | error e =>
    rw [hloop] at hdirs
    cases hdirs
  | ok dirs => exact ⟨_, rfl⟩

/-- The cluster stays. -/
theorem sorted_partIdle :
    ∃ status, resizingStatus hpcQueues partIdle = .ok status ∧ "compute-1-hpc" ∉ status.clusterToDestroy := by
  obtain ⟨status, hstatus⟩ := partIdle_status
  obtain ⟨rows, hrows, hwhole, -⟩ := sorted_iff hstatus
  rw [partIdle_rows] at hrows
  cases hrows
  refine ⟨status, hstatus, fun hmem => ?_⟩
  refine ((hwhole _).mp hmem).2.2.1 ⟨_, List.mem_cons_self, rfl, ?_⟩
  decide

end

/-! ## The directories, beside the other script -/

section
variable {config : QueueConfig}

/-- White space at the end of a text is no word. -/
theorem words_append_spaces {spaces : List Char} (hspaces : ∀ c ∈ spaces, PyStr.isSpace c = true) (s : List Char) :
    words (s ++ spaces) = words s := by
  have hafter : ∀ (spaces : List Char), (∀ c ∈ spaces, PyStr.isSpace c = true) → ∀ piece,
      PyStr.reSplitFrom true piece spaces = [piece.reverse] := by
    intro spaces
    induction spaces with
    | nil => exact fun _ _ => rfl
    | cons c rest ih =>
      intro h piece
      rw [PyStr.reSplitFrom, if_pos (h c List.mem_cons_self), if_pos rfl]
      exact ih (fun other hother => h other (List.mem_cons_of_mem _ hother)) piece
  have hfrom : ∀ (s : List Char) blank piece, (PyStr.reSplitFrom blank piece (s ++ spaces)).filter (· ≠ []) =
      (PyStr.reSplitFrom blank piece s).filter (· ≠ []) := by
    intro s
    induction s with
    | nil =>
      intro blank piece
      rw [List.nil_append]
      cases spaces with
      | nil => rfl
      | cons c rest =>
        have hrest := hafter rest fun other hother => hspaces other (List.mem_cons_of_mem _ hother)
        have hc := hspaces c List.mem_cons_self
        rw [PyStr.reSplitFrom, PyStr.reSplitFrom, if_pos hc]
        cases blank with
        | true => rw [if_pos rfl, hrest]
        | false =>
          rw [if_neg Bool.false_ne_true, hrest]
          by_cases hpiece : piece.reverse = []
          · simp [hpiece]
          · simp [hpiece]
    | cons c rest ih =>
      intro blank piece
      rw [List.cons_append, PyStr.reSplitFrom, PyStr.reSplitFrom]
      split
      · split
        · exact ih _ _
        · rw [List.filter_cons, List.filter_cons, ih]
      · exact ih _ _
  exact hfrom s false []

/-- Nor is white space at its beginning. -/
theorem words_dropWhile (s : List Char) : words (s.dropWhile PyStr.isSpace) = words s := by
  induction s with
  | nil => rfl
  | cons c rest ih =>
    by_cases hc : PyStr.isSpace c = true
    · rw [List.dropWhile_cons_of_pos hc, ih, ← words_after_space]
      unfold words
      rw [PyStr.reSplitFrom, if_pos hc, if_neg Bool.false_ne_true]
      rfl
    · rw [List.dropWhile_cons_of_neg hc]

theorem splitWs_eq_words (s : String) : PyStr.splitWs s = (words s.toList).map String.ofList := by
  unfold PyStr.splitWs PyStr.reSplitWs words
  rw [List.filter_map]
  congr 1
  refine List.filter_congr fun word _ => ?_
  have hempty : String.ofList word ≠ "" ↔ word ≠ [] := by
    rw [ne_eq, ← String.toList_inj, String.toList_ofList]
    exact Iff.rfl
  exact decide_eq_decide.mpr hempty

theorem splitWs_strip (s : String) : PyStr.splitWs (PyStr.strip s) = PyStr.splitWs s := by
  have hsplit : ∃ spaces : List Char, (∀ c ∈ spaces, PyStr.isSpace c = true) ∧
      s.toList.dropWhile PyStr.isSpace = (PyStr.strip s).toList ++ spaces := by
    refine ⟨((s.toList.dropWhile PyStr.isSpace).reverse.takeWhile PyStr.isSpace).reverse, fun c hc => ?_, ?_⟩
    · exact List.mem_takeWhile_imp (List.mem_reverse.mp hc)
    · rw [PyStr.strip, String.toList_ofList, ← List.reverse_append, List.takeWhile_append_dropWhile, List.reverse_reverse]
  obtain ⟨spaces, hspaces, heq⟩ := hsplit
  rw [splitWs_eq_words, splitWs_eq_words, ← words_dropWhile s.toList, heq, words_append_spaces hspaces]

theorem buildingOf_of_readBuilding {content : String} {building : Option Building}
    (h : readBuilding content = .ok building) : buildingOf content = building := by
  unfold readBuilding at h
  unfold buildingOf
  rw [splitWs_strip]
  generalize PyStr.splitWs content = words at h ⊢
  obtain _ | ⟨nodes, _ | ⟨instanceType, _ | ⟨queue, rest⟩⟩⟩ := words
  · cases h
  · cases h
  · cases h
  · exact Except.ok.inj h

/-- What the two scripts have in common. -/
def SameCounts (a b : DirectoryStatus) : Prop :=
  a.usedIndex = b.usedIndex ∧ a.clusterBuilding = b.clusterBuilding ∧ a.buildingNodes = b.buildingNodes

theorem sameCounts_add {status status' other : DirectoryStatus} {dir : ClusterDir} {queue instanceType : String} {n : Int}
    (hsame : SameCounts status other) (h : status.addResizing dir queue n instanceType = .ok status') :
    SameCounts status' (other.add dir queue n instanceType) := by
  obtain ⟨hused, hbuilding, hnodes⟩ := hsame
  unfold DirectoryStatus.addResizing at h
  unfold DirectoryStatus.add SameCounts
  dsimp only at h ⊢
  rw [← hused, ← hbuilding, ← hnodes]
  cases hcontent : dir.currentlyBuilding with
  | none =>
    rw [hcontent] at h
    cases h
    exact ⟨rfl, (List.append_nil _).symm, rfl⟩
  | some content =>
    rw [hcontent] at h
    obtain ⟨building, hread, h⟩ := bind_eq_ok h
    rw [Option.bind_some, buildingOf_of_readBuilding hread]
    cases building with
    | none =>
      cases h
      exact ⟨rfl, (List.append_nil _).symm, rfl⟩
    | some b =>
      cases h
      exact ⟨rfl, rfl, rfl⟩

/-- **Where the loop does not raise it counts what the other script counts.** -/
theorem directoryLoop_of_resizing {dirs : List ClusterDir} {status status' other : DirectoryStatus}
    (hsame : SameCounts status other) (h : resizingDirectoryLoop config status dirs = .ok status') :
    ∃ other', directoryLoop config other dirs = .ok other' ∧ SameCounts status' other' := by
  induction dirs generalizing status other with
  | nil =>
    cases h
    exact ⟨other, rfl, hsame⟩
  | cons dir rest ih =>
    rw [resizingDirectoryLoop] at h
    obtain ⟨key, hkey, h⟩ := bind_eq_ok h
    rw [directoryLoop, hkey]
    cases key with
    | none => exact ih hsame h
    | some found =>
      obtain ⟨queue, n, instanceType⟩ := found
      obtain ⟨next, hnext, h⟩ := bind_eq_ok h
      exact ih (sameCounts_add hsame hnext) h

end

end OciHpc.Autoscale
