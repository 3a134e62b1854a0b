import Mathlib.Algebra.Ring.Int.Defs
import Mathlib.Algebra.BigOperators.Group.List.Basic
import Mathlib.Data.List.Range
import OciHpc.Autoscale.Status

/-!
# One pass of the autoscaler

The main build loop, and what its counters count.

* `nextIndexOf` : the first index below 10000 that is not used;
* `buildStep`, `buildLoop` : the loop over `cluster_to_build`;
* `pass` : clusters deleted and created by one pass, up to an exception;
* `buildStep_full`, `buildStep_slot` : what one job does to the counters;
* `existingIndexes`, `buildingNodesIn`, `runningNodes` : the tables at the start of the pass, as counts over the
  directories and the listing (`status_counts`, `currentNodes_eq`).
-/

namespace OciHpc.Autoscale

/-! ## The main build loop -/

/-- A call of `create_cluster.sh`. -/
structure Launch where
  nodes : Int
  clusterName : String
  instanceType : String
  queue : String
  jobID : Int
deriving DecidableEq, Repr

structure LoopState where
  usedIndex : Table (List Int)
  currentNodes : Table Int
  buildingNodes : Table Int

/-- `for i in range(1, 10000): if i not in used`. -/
def nextIndexOf (used : List Int) : Option Nat := (List.range' 1 9999).find? fun i => (i : Int) ∉ used

/-- `table[queue][instance_type] = 0` if there is no such entry. -/
def setDefault (table : Table Int) (queue instanceType : String) : Table Int :=
  match table queue instanceType with
  | some _ => table
  | none => table.set queue instanceType 0

/-- The used indexes of a queue and type; none if there is no entry. -/
def usedIn (s : LoopState) (queue instanceType : String) : List Int := (s.usedIndex queue instanceType).getD []

/-- The next index, and the used indexes with it; the first cluster of a queue and type starts the list. -/
def takeIndex (usedIndex : Table (List Int)) (queue instanceType : String) (used : List Int) :
    Option Nat × Table (List Int) :=
  if used.length = 0 then (some 1, usedIndex.set queue instanceType [1])
  else
    match nextIndexOf used with
    | some i => (some i, usedIndex.set queue instanceType (used ++ [(i : Int)]))
    | none => (none, usedIndex)

/-- The updates made for a job below the cluster limit, before its size is looked at. -/
def LoopState.noted (s : LoopState) (job : Job) : LoopState :=
  { usedIndex := (takeIndex s.usedIndex job.queue job.instanceType (usedIn s job.queue job.instanceType)).2
    currentNodes := setDefault s.currentNodes job.queue job.instanceType
    buildingNodes := setDefault s.buildingNodes job.queue job.instanceType }

/-- `current_nodes[queue][instance_type] += nodes`. -/
def LoopState.grown (s : LoopState) (job : Job) : LoopState :=
  let current := (s.currentNodes job.queue job.instanceType).getD 0
  { s with currentNodes := s.currentNodes.set job.queue job.instanceType (current + job.nodes) }

/-- One turn of the loop over `cluster_to_build`. -/
def buildStep (config : QueueConfig) (s : LoopState) (job : Job) : Except PyError (LoopState × Option Launch) :=
  let jobconfig := getJobConfig config job.queue job.instanceType
  let limits := getQueueLimits config job.queue job.instanceType
  let used := usedIn s job.queue job.instanceType
  if limits.maxClusterCount ≤ used.length then .ok (s, none)
  else
    let nextIndex := (takeIndex s.usedIndex job.queue job.instanceType used).1
    match jobconfig with
    | none => .error .typeError
    | some jobconfig =>
      let clusterName := clusterNameOf job.queue nextIndex jobconfig.instanceKeyword
      let s := s.noted job
      let current := (s.currentNodes job.queue job.instanceType).getD 0
      let building := (s.buildingNodes job.queue job.instanceType).getD 0
      if limits.maxClusterSize < job.nodes then .ok (s, none)
      else if limits.maxNumberNodes < current + building + job.nodes then .ok (s, none)
      else
        .ok (s.grown job,
          some { nodes := job.nodes, clusterName, instanceType := job.instanceType, queue := job.queue,
                 jobID := job.jobID })

/-- The whole loop: the clusters created, up to the exception if there is one. -/
def buildLoop (config : QueueConfig) : LoopState → List Job → List Launch × Option PyError
  | _, [] => ([], none)
  | s, job :: rest =>
    match buildStep config s job with
    | .error e => ([], some e)
    | .ok (s', launched) =>
      let (launches, raised) := buildLoop config s' rest
      (launched.toList ++ launches, raised)

/-- One pending job less for each cluster being built for the same nodes, type and queue. -/
def cancelBuilt (clusterBuilding : List Building) (clusterToBuild : List Job) : List Job :=
  clusterBuilding.foldl (fun jobs i => jobs.eraseP fun j =>
    i.nodes = j.nodes && i.instanceType = j.instanceType && i.queue = j.queue) clusterToBuild

structure PassResult where
  deleted : List String
  created : List Launch
  raised : Option PyError
deriving DecidableEq, Repr

def pass (config : QueueConfig) (seen : Observed) : PassResult :=
  match getstatusSlurm config seen with
  | .error e => { deleted := [], created := [], raised := some e }
  | .ok status =>
    let jobs := cancelBuilt status.clusterBuilding status.clusterToBuild
    let (created, raised) := buildLoop config
      { usedIndex := status.usedIndex, currentNodes := status.currentNodes,
        buildingNodes := status.buildingNodes } jobs
    { deleted := status.clusterToDestroy, created, raised }

/-! ## One turn of the loop -/

theorem nextIndexOf_eq_some {used : List Int} {i : Nat} :
    nextIndexOf used = some i ↔
      (i : Int) ∉ used ∧ (1 ≤ i ∧ i < 10000) ∧ ∀ j, 1 ≤ j → j < i → (j : Int) ∈ used := by
  unfold nextIndexOf
  rw [List.find?_range'_eq_some]
  simp only [decide_eq_true_eq, List.mem_range'_1, Bool.not_eq_true', decide_eq_false_iff_not, not_not]

theorem nextIndexOf_nil : nextIndexOf [] = some 1 := by
  rw [nextIndexOf_eq_some]
  refine ⟨List.not_mem_nil, by omega, fun j h₁ h₂ => ?_⟩
  omega

theorem nextIndexOf_eq_none {used : List Int} :
    nextIndexOf used = none ↔ ∀ j : Nat, 1 ≤ j → j < 10000 → (j : Int) ∈ used := by
  unfold nextIndexOf
  rw [List.find?_eq_none]
  simp only [List.mem_range'_1, decide_eq_true_eq, not_not]
  constructor
  · intro h j h₁ h₂
    exact h j ⟨h₁, by omega⟩
  · rintro h j ⟨h₁, h₂⟩
    exact h j h₁ (by omega)

theorem Table.set_self {α : Type} (table : Table α) (q t : String) (a : α) : table.set q t a q t = some a := by
  unfold Table.set
  rw [if_pos ⟨rfl, rfl⟩]

theorem Table.set_other {α : Type} (table : Table α) {q t q' t' : String} (a : α) (h : (q', t') ≠ (q, t)) :
    table.set q t a q' t' = table q' t' := by
  unfold Table.set
  rw [if_neg]
  rintro ⟨rfl, rfl⟩
  exact h rfl

theorem takeIndex_fst (usedIndex : Table (List Int)) (q t : String) (used : List Int) :
    (takeIndex usedIndex q t used).1 = nextIndexOf used := by
  unfold takeIndex
  split
  case isTrue hempty =>
    rw [List.length_eq_zero_iff.mp hempty, nextIndexOf_nil]
  case isFalse => cases nextIndexOf used <;> rfl

theorem takeIndex_self {usedIndex : Table (List Int)} {q t : String} {used : List Int}
    (hused : (usedIndex q t).getD [] = used) : ((takeIndex usedIndex q t used).2 q t).getD [] =
      used ++ ((nextIndexOf used).map Int.ofNat).toList := by
  unfold takeIndex
  split
  case isTrue hempty =>
    rw [List.length_eq_zero_iff.mp hempty, nextIndexOf_nil]
    dsimp only
    rw [Table.set_self]
    rfl
  case isFalse =>
    cases nextIndexOf used with
    | none => rw [hused]; exact (List.append_nil used).symm
    | some i =>
      dsimp only
      rw [Table.set_self]
      rfl

theorem takeIndex_other (usedIndex : Table (List Int)) {q t q' t' : String} (used : List Int)
    (h : (q', t') ≠ (q, t)) : (takeIndex usedIndex q t used).2 q' t' = usedIndex q' t' := by
  unfold takeIndex
  split
  · exact Table.set_other _ _ h
  · cases nextIndexOf used with
    | none => rfl
    | some i => exact Table.set_other _ _ h

theorem setDefault_getD (table : Table Int) (q t q' t' : String) :
    (setDefault table q t q' t').getD 0 = (table q' t').getD 0 := by
  unfold setDefault
  cases htable : table q t with
  | some n => rfl
  | none =>
    show (table.set q t 0 q' t').getD 0 = (table q' t').getD 0
    by_cases h : (q', t') = (q, t)
    · obtain ⟨rfl, rfl⟩ := Prod.mk.injEq .. ▸ h
      rw [Table.set_self, htable]
      rfl
    · rw [Table.set_other _ _ h]

/-- Nodes running or being built, of a queue and type. -/
def nodesIn (s : LoopState) (q t : String) : Int := (s.currentNodes q t).getD 0 + (s.buildingNodes q t).getD 0

variable {config : QueueConfig}

theorem buildStep_full {s : LoopState} {job : Job}
    (h : (getQueueLimits config job.queue job.instanceType).maxClusterCount ≤
      (usedIn s job.queue job.instanceType).length) : buildStep config s job = .ok (s, none) := by
  unfold buildStep
  dsimp only
  rw [if_pos h]

/-- A job for which there is a cluster slot: launched if its size and the node total allow it. -/
def Fits (config : QueueConfig) (nodes : Int) (job : Job) : Prop :=
  job.nodes ≤ (getQueueLimits config job.queue job.instanceType).maxClusterSize ∧
    nodes + job.nodes ≤ (getQueueLimits config job.queue job.instanceType).maxNumberNodes

instance (nodes : Int) (job : Job) : Decidable (Fits config nodes job) := by unfold Fits; infer_instance

def launchOf (job : Job) (index : Option Nat) (keyword : String) : Launch :=
  { nodes := job.nodes, clusterName := clusterNameOf job.queue index keyword,
    instanceType := job.instanceType, queue := job.queue, jobID := job.jobID }

/-- A job's turn takes an index and counts `n` nodes; other queues and types are unchanged. -/
structure Takes (s s' : LoopState) (job : Job) (n : Int) : Prop where
  used : usedIn s' job.queue job.instanceType = usedIn s job.queue job.instanceType ++
    ((nextIndexOf (usedIn s job.queue job.instanceType)).map Int.ofNat).toList
  nodes : nodesIn s' job.queue job.instanceType = nodesIn s job.queue job.instanceType + n
  other : ∀ q t, (q, t) ≠ (job.queue, job.instanceType) →
    usedIn s' q t = usedIn s q t ∧ nodesIn s' q t = nodesIn s q t

theorem nodesIn_noted (s : LoopState) (job : Job) (q t : String) : nodesIn (s.noted job) q t = nodesIn s q t := by
  unfold nodesIn LoopState.noted
  dsimp only
  rw [setDefault_getD, setDefault_getD]

theorem noted_takes (s : LoopState) (job : Job) : Takes s (s.noted job) job 0 := by
  refine ⟨takeIndex_self rfl, ?_, fun q t hne => ⟨?_, nodesIn_noted s job q t⟩⟩
  · rw [add_zero, nodesIn_noted]
  · have hother := takeIndex_other s.usedIndex (usedIn s job.queue job.instanceType) hne
    unfold LoopState.noted
    show ((takeIndex s.usedIndex job.queue job.instanceType _).2 q t).getD [] = (s.usedIndex q t).getD []
    rw [hother]

theorem Takes.grown {s s' : LoopState} {job : Job} (h : Takes s s' job 0) : Takes s (s'.grown job) job job.nodes := by
  refine ⟨h.used, ?_, fun q t hne => ⟨(h.other q t hne).1, ?_⟩⟩
  · have hnodes := h.nodes
    unfold nodesIn LoopState.grown at *
    dsimp only at *
    rw [Table.set_self, Option.getD_some]
    omega
  · rw [← (h.other q t hne).2]
    unfold nodesIn LoopState.grown
    dsimp only
    rw [Table.set_other _ _ hne]

/-- **Below the cluster limit** a job takes an index, launched or not, and the nodes of the cluster if launched. -/
theorem buildStep_slot {s : LoopState} {job : Job} {jobconfig : JobConfig}
    (hslot : ((usedIn s job.queue job.instanceType).length : Int) <
      (getQueueLimits config job.queue job.instanceType).maxClusterCount)
    (hconfig : getJobConfig config job.queue job.instanceType = some jobconfig) :
    (Fits config (nodesIn s job.queue job.instanceType) job → ∃ s', Takes s s' job job.nodes ∧
      buildStep config s job = .ok (s', some (launchOf job
        (nextIndexOf (usedIn s job.queue job.instanceType)) jobconfig.instanceKeyword))) ∧
    (¬ Fits config (nodesIn s job.queue job.instanceType) job → ∃ s', Takes s s' job 0 ∧
      buildStep config s job = .ok (s', none)) := by
  have hsum : ((s.noted job).currentNodes job.queue job.instanceType).getD 0 +
      ((s.noted job).buildingNodes job.queue job.instanceType).getD 0 =
      nodesIn s job.queue job.instanceType := nodesIn_noted s job job.queue job.instanceType
  unfold buildStep
  dsimp only
  rw [if_neg (not_le.mpr hslot), hconfig, takeIndex_fst]
  dsimp only
  rw [hsum]
  constructor
  · intro hfits
    rw [if_neg (not_lt.mpr hfits.1), if_neg (not_lt.mpr hfits.2)]
    exact ⟨_, (noted_takes s job).grown, rfl⟩
  · intro hfits
    refine ⟨_, noted_takes s job, ?_⟩
    split
    · rfl
    case isFalse hsize =>
      rw [if_pos (not_le.mp fun hroom => hfits ⟨not_lt.mp hsize, hroom⟩)]

/-! ## The counts at the start of the pass -/

/-- The indexes of the cluster directories of a queue and type. -/
def existingIndexes (config : QueueConfig) (dirs : List ClusterDir) (q t : String) : List Int :=
  dirs.filterMap fun dir =>
    match dirKey config dir with
    | .ok (some (queue, n, instanceType)) => if queue = q ∧ instanceType = t then some n else none
    | _ => none

/-- The clusters being built, in the order of their directories. -/
def buildings (config : QueueConfig) (dirs : List ClusterDir) : List Building :=
  dirs.filterMap fun dir =>
    match dirKey config dir with
    | .ok (some _) => dir.currentlyBuilding.bind buildingOf
    | _ => none

/-- The nodes of the clusters being built for a queue and type. -/
def buildingNodesIn (building : List Building) (q t : String) : Int :=
  ((building.filter fun b => b.queue = q ∧ b.instanceType = t).map (·.nodes)).sum

/-- The nodes of a queue and type in the listing. -/
def runningNodes (rows : List NodeRow) (q t : String) : Int :=
  (rows.filter fun row => row.queue = q ∧ row.instanceType = t).length

theorem currentNodes_eq (rows : List NodeRow) (q t : String) :
    (currentNodesOf rows q t).getD 0 = runningNodes rows q t := by
  have hfold : ∀ (rows : List NodeRow) (table : Table Int),
      (rows.foldl addNode table q t).getD 0 = (table q t).getD 0 + runningNodes rows q t := by
    intro rows
    induction rows with
    | nil => intro table; exact (add_zero _).symm
    | cons row rest ih =>
      intro table
      rw [List.foldl_cons, ih]
      unfold addNode runningNodes
      by_cases h : (q, t) = (row.queue, row.instanceType)
      · obtain ⟨rfl, rfl⟩ := Prod.mk.injEq .. ▸ h
        rw [Table.set_self, List.filter_cons_of_pos (by simp), List.length_cons, Option.getD_some]
        push_cast
        omega
      · rw [Table.set_other _ _ h, List.filter_cons_of_neg]
        simp only [decide_eq_true_eq]
        rintro ⟨rfl, rfl⟩
        exact h rfl
  rw [currentNodesOf, hfold]
  exact zero_add _

theorem buildingNodesIn_append (a b : List Building) (q t : String) :
    buildingNodesIn (a ++ b) q t = buildingNodesIn a q t + buildingNodesIn b q t := by
  unfold buildingNodesIn
  rw [List.filter_append, List.map_append, List.sum_append]

theorem add_usedIndex (status : DirectoryStatus) (dir : ClusterDir) (queue instanceType q t : String) (n : Int) :
    ((status.add dir queue n instanceType).usedIndex q t).getD [] =
      (status.usedIndex q t).getD [] ++ (if queue = q ∧ instanceType = t then [n] else []) := by
  unfold DirectoryStatus.add
  dsimp only
  by_cases h : (q, t) = (queue, instanceType)
  · obtain ⟨rfl, rfl⟩ := Prod.mk.injEq .. ▸ h
    rw [Table.set_self, if_pos ⟨rfl, rfl⟩]
    rfl
  · rw [Table.set_other _ _ h, if_neg, List.append_nil]
    rintro ⟨rfl, rfl⟩
    exact h rfl

theorem add_buildingNodes (status : DirectoryStatus) (dir : ClusterDir) (queue instanceType q t : String) (n : Int) :
    ((status.add dir queue n instanceType).buildingNodes q t).getD 0 = (status.buildingNodes q t).getD 0 +
      buildingNodesIn (dir.currentlyBuilding.bind buildingOf).toList q t := by
  unfold DirectoryStatus.add buildingNodesIn
  dsimp only
  cases dir.currentlyBuilding.bind buildingOf with
  | none => exact (add_zero _).symm
  | some b =>
    dsimp only
    by_cases h : (q, t) = (b.queue, b.instanceType)
    · obtain ⟨rfl, rfl⟩ := Prod.mk.injEq .. ▸ h
      rw [Table.set_self]
      simp
    · rw [Table.set_other _ _ h, Option.toList_some, List.filter_cons_of_neg, List.filter_nil, List.map_nil,
        List.sum_nil, add_zero]
      simp only [decide_eq_true_eq]
      rintro ⟨rfl, rfl⟩
      exact h rfl

/-- What the loop over the directories adds to its status. -/
theorem directoryLoop_eq_ok {dirs : List ClusterDir} {status status' : DirectoryStatus}
    (h : directoryLoop config status dirs = .ok status') :
    status'.clusterBuilding = status.clusterBuilding ++ buildings config dirs ∧ ∀ q t,
      (status'.usedIndex q t).getD [] = (status.usedIndex q t).getD [] ++ existingIndexes config dirs q t ∧
      (status'.buildingNodes q t).getD 0 =
        (status.buildingNodes q t).getD 0 + buildingNodesIn (buildings config dirs) q t := by
  induction dirs generalizing status with
  | nil =>
    cases h
    exact ⟨(List.append_nil _).symm, fun q t => ⟨(List.append_nil _).symm, (add_zero _).symm⟩⟩
  | cons dir rest ih =>
    rw [directoryLoop] at h
    cases hkey : dirKey config dir with
    | error e => rw [hkey] at h; cases h
    | ok key =>
      rw [hkey] at h
      cases key with
      | none =>
        obtain ⟨hbuilding, htables⟩ := ih h
        unfold existingIndexes buildings
        rw [List.filterMap_cons, hkey]
        refine ⟨hbuilding, fun q t => ?_⟩
        rw [List.filterMap_cons, hkey]
        exact htables q t
      | some found =>
        obtain ⟨queue, n, instanceType⟩ := found
        obtain ⟨hbuilding, htables⟩ := @ih (status.add dir queue n instanceType) h
        have hlist : buildings config (dir :: rest) =
            (dir.currentlyBuilding.bind buildingOf).toList ++ buildings config rest := by
          unfold buildings
          rw [List.filterMap_cons, hkey]
          dsimp only
          cases dir.currentlyBuilding.bind buildingOf <;> rfl
        have hindexes : ∀ q t, existingIndexes config (dir :: rest) q t =
            (if queue = q ∧ instanceType = t then [n] else []) ++ existingIndexes config rest q t := by
          intro q t
          unfold existingIndexes
          rw [List.filterMap_cons, hkey]
          dsimp only
          split
          case h_1 hnone => rw [if_neg]; rfl; intro hyes; rw [if_pos hyes] at hnone; cases hnone
          case h_2 m hsome =>
            by_cases hyes : queue = q ∧ instanceType = t
            · rw [if_pos hyes] at hsome ⊢
              cases hsome
              rfl
            · rw [if_neg hyes] at hsome
              cases hsome
        refine ⟨?_, fun q t => ⟨?_, ?_⟩⟩
        · rw [hbuilding, hlist, ← List.append_assoc]
          rfl
        · rw [(htables q t).1, add_usedIndex, hindexes, List.append_assoc]
        · rw [(htables q t).2, add_buildingNodes, hlist, buildingNodesIn_append, Int.add_assoc]

theorem status_counts {dirs : List ClusterDir} {status : DirectoryStatus}
    (h : directoryLoop config .empty dirs = .ok status) :
    status.clusterBuilding = buildings config dirs ∧ ∀ q t,
      (status.usedIndex q t).getD [] = existingIndexes config dirs q t ∧
      (status.buildingNodes q t).getD 0 = buildingNodesIn (buildings config dirs) q t := by
  obtain ⟨hbuilding, htables⟩ := directoryLoop_eq_ok h
  refine ⟨hbuilding, fun q t => ⟨(htables q t).1, ?_⟩⟩
  rw [(htables q t).2]
  exact zero_add _

/-- The loop state a readable pass starts from, with its jobs. -/
theorem pass_created {seen : Observed} (h : Readable config seen) : ∃ s jobs,
    clusterToBuild config seen.jobs = .ok jobs ∧
      (∀ q t, usedIn s q t = existingIndexes config seen.dirs q t ∧
        nodesIn s q t = runningNodes (rowsOf seen) q t + buildingNodesIn (buildings config seen.dirs) q t) ∧
      (pass config seen).created =
        (buildLoop config s (cancelBuilt (buildings config seen.dirs) jobs)).1 := by
  obtain ⟨status, hstatus⟩ := getstatusSlurm_of_readable h
  obtain ⟨jobs, dirs, hjobs, -, hdirs, heq⟩ := getstatusSlurm_eq_ok hstatus
  obtain ⟨hbuilding, hcounts⟩ := status_counts hdirs
  refine ⟨{ usedIndex := status.usedIndex, currentNodes := status.currentNodes,
            buildingNodes := status.buildingNodes }, jobs, hjobs, fun q t => ⟨?_, ?_⟩, ?_⟩
  · rw [heq]
    exact (hcounts q t).1
  · rw [heq]
    unfold nodesIn
    rw [(hcounts q t).2, currentNodes_eq]
  · unfold pass
    rw [hstatus, heq]
    dsimp only
    rw [hbuilding]

theorem pass_unreadable {seen : Observed} (h : ¬ Readable config seen) : (pass config seen).created = [] := by
  unfold pass
  cases hstatus : getstatusSlurm config seen with
  | error e => rfl
  | ok status => exact absurd (readable_of_getstatusSlurm hstatus) h

/-! ## The jobs of a pass are configured -/

theorem getJobConfig_isSome {partition : Partition} (hmem : partition ∈ config) {item : InstanceType}
    (hitem : item ∈ partition.instanceTypes) : (getJobConfig config partition.name item.name).isSome := by
  unfold getJobConfig firstOf
  rw [List.findSome?_isSome_iff]
  refine ⟨partition, hmem, ?_⟩
  rw [if_pos rfl, Option.isSome_map, List.find?_isSome]
  exact ⟨item, hitem, decide_eq_true rfl⟩

theorem getDefaultsConfig_type {queueName : String} {jobconfig : JobConfig}
    (h : getDefaultsConfig config queueName = some jobconfig) :
    ∃ partition ∈ config, partition.name = queueName ∧
      ∃ item ∈ partition.instanceTypes, item.name = jobconfig.instanceType := by
  unfold getDefaultsConfig firstOf at h
  obtain ⟨partition, hmem, hpick⟩ := List.exists_of_findSome?_eq_some h
  split at hpick
  case isFalse => cases hpick
  case isTrue hname =>
    refine ⟨partition, hmem, hname.symm, ?_⟩
    dsimp only at hpick
    split at hpick
    case h_1 item hfind =>
      cases hpick
      exact ⟨item, List.mem_of_find?_eq_some hfind, rfl⟩
    case h_2 =>
      obtain ⟨item, hhead, rfl⟩ := Option.map_eq_some_iff.mp hpick
      exact ⟨item, List.mem_of_head? hhead, rfl⟩

theorem chooseType_configured {queue instanceType : String} {features : List String}
    (h : chooseType config queue features = .ok instanceType) :
    (getJobConfig config queue instanceType).isSome := by
  unfold chooseType at h
  obtain ⟨partition, hqueue, h⟩ := bind_eq_ok h
  obtain ⟨defaultConfig, hdefault, h⟩ := bind_eq_ok h
  have hqueue' : getQueue config queue = some partition := by
    cases hget : getQueue config queue with
    | none => rw [hget] at hqueue; cases hqueue
    | some p => rw [hget] at hqueue; cases hqueue; rfl
  have hdefault' : getDefaultsConfig config queue = some defaultConfig := by
    cases hget : getDefaultsConfig config queue with
    | none => rw [hget] at hdefault; cases hdefault
    | some d => rw [hget] at hdefault; cases hdefault; rfl
  have htype : (features.find? fun feature => feature ∈ partition.instanceTypes.map (·.name)).getD
      defaultConfig.instanceType = instanceType := Except.ok.inj h
  rw [← htype]
  cases hfind : features.find? fun feature => feature ∈ partition.instanceTypes.map (·.name) with
  | none =>
    obtain ⟨other, hmem, rfl, item, hitem, hname⟩ := getDefaultsConfig_type hdefault'
    rw [Option.getD_none, ← hname]
    exact getJobConfig_isSome hmem hitem
  | some feature =>
    have hfeature := List.find?_some hfind
    rw [decide_eq_true_eq, List.mem_map] at hfeature
    obtain ⟨item, hitem, rfl⟩ := hfeature
    have hname : partition.name = queue := by simpa using List.find?_some hqueue'
    rw [Option.getD_some, ← hname]
    exact getJobConfig_isSome (List.mem_of_find?_eq_some hqueue') hitem

theorem jobOfLine_configured {line : String} {job : Job} (h : jobOfLine config line = .ok (some job)) :
    (getJobConfig config job.queue job.instanceType).isSome := by
  unfold jobOfLine at h
  dsimp only at h
  split at h
  case isFalse => cases h
  split at h
  case isFalse => cases h
  obtain ⟨dependency, -, h⟩ := bind_eq_ok h
  split at h
  case isFalse => cases h
  obtain ⟨queue, -, h⟩ := bind_eq_ok h
  obtain ⟨user, -, h⟩ := bind_eq_ok h
  obtain ⟨features, -, h⟩ := bind_eq_ok h
  obtain ⟨instanceType, htype, h⟩ := bind_eq_ok h
  obtain ⟨nodesText, -, h⟩ := bind_eq_ok h
  obtain ⟨nodes, -, h⟩ := bind_eq_ok h
  obtain ⟨idText, -, h⟩ := bind_eq_ok h
  obtain ⟨jobID, -, h⟩ := bind_eq_ok h
  cases h
  exact chooseType_configured htype

/-- Every job of the pass has a configured instance type. -/
theorem clusterToBuild_configured {lines : List String} {jobs : List Job}
    (h : clusterToBuild config lines = .ok jobs) :
    ∀ job ∈ jobs, (getJobConfig config job.queue job.instanceType).isSome := by
  induction lines generalizing jobs with
  | nil => cases h; exact fun job hjob => absurd hjob List.not_mem_nil
  | cons line rest ih =>
    rw [clusterToBuild] at h
    obtain ⟨first, hfirst, h⟩ := bind_eq_ok h
    obtain ⟨others, hothers, h⟩ := bind_eq_ok h
    cases h
    intro job hjob
    rcases List.mem_append.mp hjob with hin | hin
    · cases first with
      | none => exact absurd hin List.not_mem_nil
      | some j =>
        rw [Option.toList_some, List.mem_singleton] at hin
        subst hin
        exact jobOfLine_configured hfirst
    · exact ih hothers job hin

theorem mem_of_mem_cancelBuilt {building : List Building} {jobs : List Job} {job : Job}
    (h : job ∈ cancelBuilt building jobs) : job ∈ jobs := by
  unfold cancelBuilt at h
  induction building generalizing jobs with
  | nil => exact h
  | cons b rest ih => exact List.mem_of_mem_eraseP (ih h)

end OciHpc.Autoscale
