import OciHpc.Autoscale.Caps
import OciHpc.Autoscale.ResizingStatus

/-!
# One pass of the resizing autoscaler

The main program of `autoscale_slurm.sh`.

* `popenQuiet` : how the script starts `resize.sh`, which raises;
* `resizeCluster`, `resizeAll` : the loop over `nodes_to_destroy`;
* `resizingPass` : clusters deleted and created by one pass, up to an exception;
* `resizes_end_pass` : a pass with a node to take out of a cluster ends before it creates any;
* `resizingPass_created` : what it launches, the build loop launches from the same counts as in the other script.
-/

namespace OciHpc.Autoscale

/-! ## The loop over the nodes -/

/-- `subprocess.Popen(args, '--quiet')`. The second argument is the size of the buffers, and no number. -/
def popenQuiet (_args : List String) : Except PyError Unit := .error .typeError

/-- The first name of an instance on the first line of `/etc/hosts` with the node. -/
def instanceName (altNames : String) : Option String :=
  (PyStr.splitWs ((PyStr.split altNames "\n")[0]?.getD "")).find? fun altName => PyStr.startsWith altName "inst-"

def resizeScript : String := "/opt/oci-hpc/bin/resize.sh"

/-- The turn of a cluster. A node without a line in `/etc/hosts` is unreachable; one whose line has no name of an instance is
passed over. -/
def resizeCluster (seen : ResizingObserved) (clusterName : String) (nodes : List NodeRow) : Except PyError Unit :=
  if clusterName = "NOCLUSTERFOUND" then
    popenQuiet ([resizeScript, "remove_unreachable", "--nodes"] ++ nodes.map (·.node))
  else do
    let initialNodes := nodes.filterMap fun row => (seen.etcHosts row.node).bind instanceName
    let unreachableNodes := (nodes.filter fun row => (seen.etcHosts row.node).isNone).map (·.node)
    if 0 < initialNodes.length then
      popenQuiet ([resizeScript, "--force", "--cluster_name", clusterName, "remove", "--remove_unreachable", "--nodes"] ++
        initialNodes)
    if 0 < unreachableNodes.length then
      popenQuiet ([resizeScript, "--cluster_name", clusterName, "remove_unreachable", "--nodes"] ++ unreachableNodes)

def resizeAll (seen : ResizingObserved) : List (String × List NodeRow) → Except PyError Unit
  | [] => .ok ()
  | (clusterName, nodes) :: rest => do
    resizeCluster seen clusterName nodes
    resizeAll seen rest

/-- The pass: the clusters to destroy go first, then the nodes, then clusters are created. -/
def resizingPass (config : QueueConfig) (seen : ResizingObserved) : PassResult :=
  match resizingStatus config seen with
  | .error e => { deleted := [], created := [], raised := some e }
  | .ok status =>
    match resizeAll seen status.nodesToDestroy with
    | .error e => { deleted := status.clusterToDestroy, created := [], raised := some e }
    | .ok _ =>
      let jobs := cancelBuilt status.clusterBuilding status.clusterToBuild
      let (created, raised) := buildLoop config
        { usedIndex := status.usedIndex, currentNodes := status.currentNodes,
          buildingNodes := status.buildingNodes } jobs
      { deleted := status.clusterToDestroy, created, raised }

/-! ## A node to take out ends the pass -/

section
variable {config : QueueConfig} {seen : ResizingObserved}

/-- The node has lines in `/etc/hosts`, and no name of an instance on the first. -/
def Unnamed (seen : ResizingObserved) (node : String) : Prop :=
  ∃ altNames, seen.etcHosts node = some altNames ∧ instanceName altNames = none

theorem resizeCluster_eq {clusterName : String} {nodes : List NodeRow} :
    (resizeCluster seen clusterName nodes = .ok () ∧ clusterName ≠ "NOCLUSTERFOUND" ∧
        ∀ row ∈ nodes, Unnamed seen row.node) ∨
      (resizeCluster seen clusterName nodes = .error .typeError ∧
        (clusterName = "NOCLUSTERFOUND" ∨ ∃ row ∈ nodes, ¬ Unnamed seen row.node)) := by
  by_cases hname : clusterName = "NOCLUSTERFOUND"
  · refine .inr ⟨?_, .inl hname⟩
    unfold resizeCluster
    rw [if_pos hname]
    rfl
  · by_cases hall : ∀ row ∈ nodes, Unnamed seen row.node
    · have hinitial : (nodes.filterMap fun row => (seen.etcHosts row.node).bind instanceName) = [] := by
        refine List.filterMap_eq_nil_iff.mpr fun row hrow => ?_
        obtain ⟨altNames, hlines, hnone⟩ := hall row hrow
        rw [hlines, Option.bind_some, hnone]
      have hunreachable : (nodes.filter fun row => (seen.etcHosts row.node).isNone) = [] := by
        refine List.filter_eq_nil_iff.mpr fun row hrow => ?_
        obtain ⟨altNames, hlines, -⟩ := hall row hrow
        rw [hlines]
        exact Bool.false_ne_true
      refine .inl ⟨?_, hname, hall⟩
      unfold resizeCluster
      rw [if_neg hname, hinitial, hunreachable]
      rfl
    · push Not at hall
      obtain ⟨row, hrow, hnamed⟩ := hall
      refine .inr ⟨?_, .inr ⟨row, hrow, hnamed⟩⟩
      unfold resizeCluster
      rw [if_neg hname]
      dsimp only
      by_cases hinitial : 0 < (nodes.filterMap fun row => (seen.etcHosts row.node).bind instanceName).length
      · rw [if_pos hinitial]
        rfl
      · have hunreachable : 0 < ((nodes.filter fun row => (seen.etcHosts row.node).isNone).map (·.node)).length := by
          rw [List.length_map]
          refine List.length_pos_of_mem (List.mem_filter.mpr ⟨hrow, ?_⟩)
          cases hlines : seen.etcHosts row.node with
          | none => rfl
          | some altNames =>
            have hempty := List.length_eq_zero_iff.mp (Nat.eq_zero_of_not_pos hinitial)
            have hnone := List.filterMap_eq_nil_iff.mp hempty row hrow
            rw [hlines, Option.bind_some] at hnone
            exact absurd ⟨altNames, hlines, hnone⟩ hnamed
        rw [if_neg hinitial, if_pos hunreachable]
        rfl

/-- The loop returns where it has nothing to start. -/
theorem resizeAll_eq {groups : List (String × List NodeRow)} :
    (resizeAll seen groups = .ok () ∧ ∀ p ∈ groups, p.1 ≠ "NOCLUSTERFOUND" ∧ ∀ row ∈ p.2, Unnamed seen row.node) ∨
      (resizeAll seen groups = .error .typeError ∧
        ∃ p ∈ groups, p.1 = "NOCLUSTERFOUND" ∨ ∃ row ∈ p.2, ¬ Unnamed seen row.node) := by
  induction groups with
  | nil => exact .inl ⟨rfl, fun p hp => absurd hp List.not_mem_nil⟩
  | cons group rest ih =>
    obtain ⟨clusterName, nodes⟩ := group
    obtain ⟨hok, hquiet⟩ | ⟨herror, hdue⟩ := @resizeCluster_eq seen clusterName nodes
    · have hrest : resizeAll seen ((clusterName, nodes) :: rest) = resizeAll seen rest := by
        rw [resizeAll, hok]
        rfl
      rw [hrest]
      refine ih.imp (fun h => ⟨h.1, fun p hp => ?_⟩) fun h => ⟨h.1, ?_⟩
      · rcases List.mem_cons.mp hp with rfl | hp
        · exact hquiet
        · exact h.2 p hp
      · obtain ⟨p, hp, hdue⟩ := h.2
        exact ⟨p, List.mem_cons_of_mem _ hp, hdue⟩
    · refine .inr ⟨?_, (clusterName, nodes), List.mem_cons_self, hdue⟩
      rw [resizeAll, herror]
      rfl

theorem buildLoop_raises_nothing {jobs : List Job} (s : LoopState)
    (hconfig : ∀ job ∈ jobs, (getJobConfig config job.queue job.instanceType).isSome) :
    (buildLoop config s jobs).2 = none := by
  induction jobs generalizing s with
  | nil => rfl
  | cons job rest ih =>
    have hrest := fun s' => ih s' fun other hother => hconfig other (List.mem_cons_of_mem job hother)
    have hstep : ∃ s' launched, buildStep config s job = .ok (s', launched) := by
      by_cases hfull : (getQueueLimits config job.queue job.instanceType).maxClusterCount ≤
          (usedIn s job.queue job.instanceType).length
      · exact ⟨s, none, buildStep_full hfull⟩
      · obtain ⟨jobconfig, hjobconfig⟩ := Option.isSome_iff_exists.mp (hconfig job List.mem_cons_self)
        obtain ⟨hyes, hno⟩ := buildStep_slot (not_le.mp hfull) hjobconfig
        by_cases hfits : Fits config (nodesIn s job.queue job.instanceType) job
        · obtain ⟨s', -, hstep⟩ := hyes hfits
          exact ⟨s', _, hstep⟩
        · obtain ⟨s', -, hstep⟩ := hno hfits
          exact ⟨s', _, hstep⟩
    obtain ⟨s', launched, hstep⟩ := hstep
    rw [buildLoop, hstep]
    exact hrest s'

/-- **A node to take out of a cluster ends the pass.** Where the status can be read, the pass raises exactly when some candidate
of a cluster that does not go as a whole is in no cluster, or is unreachable, or has the name of an instance; then it creates no
cluster. -/
theorem resizes_end_pass {status : ResizingStatus} (h : resizingStatus config seen = .ok status) :
    ∃ rows, resizingRows seen.listing seen.ask = .ok rows ∧
      ((resizingPass config seen).raised ≠ none ↔ ∃ row ∈ rows, Candidate config seen.isDir row ∧
        ¬ GoesWhole config seen rows row.clustername ∧
          (row.clustername = "NOCLUSTERFOUND" ∨ ¬ Unnamed seen row.node)) ∧
      ((resizingPass config seen).raised ≠ none → (resizingPass config seen).created = []) := by
  obtain ⟨rows, hrows, -, -, hnodes⟩ := sorted_iff h
  have hbuild : clusterToBuild config seen.jobs = .ok status.clusterToBuild := by
    obtain ⟨jobs, rows, dirs, hjobs, -, -, rfl⟩ := resizingStatus_eq_ok h
    exact hjobs
  have hdue : (∃ row ∈ rows, Candidate config seen.isDir row ∧ ¬ GoesWhole config seen rows row.clustername ∧
      (row.clustername = "NOCLUSTERFOUND" ∨ ¬ Unnamed seen row.node)) ↔
        ∃ p ∈ status.nodesToDestroy, p.1 = "NOCLUSTERFOUND" ∨ ∃ row ∈ p.2, ¬ Unnamed seen row.node := by
    constructor
    · rintro ⟨row, hrow, hcandidate, hpart, hor⟩
      have hin : row ∈ (candidates config seen.isDir rows).filter fun other => other.clustername = row.clustername :=
        List.mem_filter.mpr ⟨mem_candidates.mpr ⟨hrow, hcandidate⟩, decide_eq_true rfl⟩
      refine ⟨(row.clustername, _), (hnodes _ _).mpr ⟨hpart, List.ne_nil_of_mem hin, rfl⟩, ?_⟩
      exact hor.imp_right fun hnamed => ⟨row, hin, hnamed⟩
    · rintro ⟨⟨c, nodes⟩, hmem, hor⟩
      obtain ⟨hpart, hne, rfl⟩ := (hnodes c nodes).mp hmem
      have hrow : ∀ row ∈ (candidates config seen.isDir rows).filter fun other => other.clustername = c,
          row ∈ rows ∧ Candidate config seen.isDir row ∧ row.clustername = c := fun row hrow => by
        obtain ⟨hin, hname⟩ := List.mem_filter.mp hrow
        obtain ⟨hrows, hcandidate⟩ := mem_candidates.mp hin
        exact ⟨hrows, hcandidate, of_decide_eq_true hname⟩
      obtain hname | ⟨row, hin, hnamed⟩ := hor
      · obtain ⟨row, hin⟩ := List.exists_mem_of_ne_nil _ hne
        obtain ⟨hrows, hcandidate, rfl⟩ := hrow row hin
        exact ⟨row, hrows, hcandidate, hpart, .inl hname⟩
      · obtain ⟨hrows, hcandidate, rfl⟩ := hrow row hin
        exact ⟨row, hrows, hcandidate, hpart, .inr hnamed⟩
  refine ⟨rows, hrows, ?_⟩
  rw [hdue]
  unfold resizingPass
  rw [h]
  dsimp only
  obtain ⟨hok, hquiet⟩ | ⟨herror, hsome⟩ := @resizeAll_eq seen status.nodesToDestroy
  · rw [hok]
    dsimp only
    have hconfigured : ∀ job ∈ cancelBuilt status.clusterBuilding status.clusterToBuild,
        (getJobConfig config job.queue job.instanceType).isSome := fun job hjob =>
      clusterToBuild_configured hbuild job (mem_of_mem_cancelBuilt hjob)
    rw [buildLoop_raises_nothing _ hconfigured]
    refine ⟨⟨fun hne => absurd rfl hne, fun hsome => ?_⟩, fun hne => absurd rfl hne⟩
    obtain ⟨p, hp, hor⟩ := hsome
    obtain ⟨hname, hall⟩ := hquiet p hp
    obtain heq | ⟨row, hrow, hnamed⟩ := hor
    · exact absurd heq hname
    · exact absurd (hall row hrow) hnamed
  · rw [herror]
    exact ⟨⟨fun _ => hsome, fun _ => Option.some_ne_none _⟩, fun _ => rfl⟩

/-- The idle node ends the pass. -/
theorem resizes_partIdle :
    (resizingPass hpcQueues partIdle).raised ≠ none ∧ (resizingPass hpcQueues partIdle).created = [] := by
  obtain ⟨status, hstatus⟩ := partIdle_status
  obtain ⟨rows, hrows, hraised, hnone⟩ := resizes_end_pass hstatus
  rw [partIdle_rows] at hrows
  cases hrows
  have hends := hraised.mpr ⟨_, List.mem_cons_of_mem _ List.mem_cons_self, ?_, ?_, .inr ?_⟩
  · exact ⟨hends, hnone hends⟩
  · exact candidate_iff.mpr (by decide +kernel)
  · refine fun hwhole => hwhole.2.2.1 ⟨_, List.mem_cons_self, rfl, ?_⟩
    decide
  · rintro ⟨altNames, hlines, -⟩
    cases hlines
/-! ## The limits -/

/-- The clusters and nodes at the start of the pass. -/
def ledgerOf (config : QueueConfig) (rows : List NodeRow) (dirs : List ClusterDir) : Ledger where
  indexes := existingIndexes config dirs
  nodes := fun q t => runningNodes rows q t + buildingNodesIn (buildings config dirs) q t

theorem accounts_start {ledger : Ledger} {s : LoopState}
    (hstart : ∀ q t, usedIn s q t = ledger.indexes q t ∧ nodesIn s q t = ledger.nodes q t) : Accounts config ledger s [] := by
  refine ⟨fun q t => ?_, fun q t => ?_, fun q t => ?_, fun launch hlaunch => absurd hlaunch List.not_mem_nil⟩
  · rw [(hstart q t).2]
    exact (add_zero _).symm
  · rw [(hstart q t).1]
    exact Nat.le_refl _
  · rw [(hstart q t).1]
    exact List.Subset.refl _

/-- What a pass launches, if anything, the build loop launches from the counts of the directories and the listing. -/
theorem resizingPass_created (config : QueueConfig) (seen : ResizingObserved) :
    (resizingPass config seen).created = [] ∨ ∃ rows s jobs building,
      resizingRows seen.listing seen.ask = .ok rows ∧ clusterToBuild config seen.jobs = .ok jobs ∧
        (∀ q t, usedIn s q t = (ledgerOf config rows seen.dirs).indexes q t ∧
          nodesIn s q t = (ledgerOf config rows seen.dirs).nodes q t) ∧
        (resizingPass config seen).created = (buildLoop config s (cancelBuilt building jobs)).1 := by
  unfold resizingPass
  split
  · exact .inl rfl
  · rename_i status hstatus
    split
    · exact .inl rfl
    · obtain ⟨jobs, rows, dirs, hjobs, hrows, hdirs, rfl⟩ := resizingStatus_eq_ok hstatus
      obtain ⟨other, hother, hused, hbuilding, hnodes⟩ := directoryLoop_of_resizing ⟨rfl, rfl, rfl⟩ hdirs
      obtain ⟨-, hcounts⟩ := status_counts hother
      refine .inr ⟨rows, ⟨dirs.usedIndex, currentNodesOf rows, dirs.buildingNodes⟩, jobs, _, hrows, hjobs, fun q t => ⟨?_, ?_⟩,
        rfl⟩
      · unfold ledgerOf
        dsimp only
        rw [← (hcounts q t).1, ← hused]
        rfl
      · unfold nodesIn ledgerOf
        dsimp only
        rw [currentNodes_eq, hnodes, (hcounts q t).2]

end

end OciHpc.Autoscale
