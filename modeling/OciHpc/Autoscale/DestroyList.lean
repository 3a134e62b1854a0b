import Mathlib.Data.List.Induction
import OciHpc.Autoscale.Status

/-!
# The clusters a pass destroys

* `hasJob` : the states in which a node has a job on it, in every spelling Slurm prints;
* `ClusterInfo.Describes`, `clustersData_describes` : what the fold knows of a cluster, against its rows;
* `toDestroy_iff` : when a cluster goes to the destroy list;
* `sparesBusy_iff` : the destroy list has only idle clusters exactly when every cluster with an overlooked node
  (busy but spelled neither `allocated` nor `mixed`, or with a job that ended of late above the last line of its
  accounting) is kept for another reason;
* `completing_destroyed` : a completing node, and its cluster in the destroy list.
-/

namespace OciHpc.Autoscale

/-! ## Node states -/

/-- The marks Slurm appends to a state: not responding, powered down, planned, completing jobs and so on. -/
def stateMarks : List Char := ['*', '~', '#', '!', '%', '$', '@', '^', '-', '+']

/-- The state without its marks, in lower case. -/
def baseState (state : String) : String :=
  String.ofList ((state.toList.reverse.dropWhile fun c => c ∈ stateMarks).reverse.map Char.toLower)

/-- A node in this state has a job on it; the long and the compact names. -/
def hasJob (state : String) : Bool :=
  baseState state ∈ ["allocated", "alloc", "mixed", "mix", "completing", "comp", "draining", "drng"]

/-- The states `getstatus_slurm` takes for running. -/
def countsAsRunning (state : String) : Prop := state ∈ ["allocated", "mixed"]

instance (state : String) : Decidable (countsAsRunning state) := by unfold countsAsRunning; infer_instance

/-! ## Idle time -/

/-- The times at which a job of the node ended, by every line of the accounting. -/
def jobEndTimes (answers : NodeAnswers) : List Int :=
  (PyStr.split answers.jobEnds "\n").filterMap fun line => strptime (PyStr.strip line)

/-- No job of the node has ended within the idle time. -/
def NoLateJob (answers : NodeAnswers) : Prop := ∀ t ∈ jobEndTimes answers, idleTime ≤ answers.clock - t

/-! ## What the fold knows of a cluster -/

/-- The entry of a cluster against the nodes of the listing that are in it. -/
structure ClusterInfo.Describes (info : ClusterInfo) (rows : List NodeRow) : Prop where
  running : info.running = true ↔ ∃ row ∈ rows, countsAsRunning row.state
  minIdle : ∀ d, (∀ m ∈ info.minIdle, d ≤ m) ↔ ∀ row ∈ rows, ¬ countsAsRunning row.state → d ≤ row.nodeIdle
  someIdle : info.minIdle.isSome ↔ ∃ row ∈ rows, ¬ countsAsRunning row.state
  first : rows.head?.map (fun row => (row.queue, row.instanceType)) = some (info.queue, info.instanceType)

theorem ClusterInfo.add_queue (info : ClusterInfo) (row : NodeRow) :
    (info.add row).queue = info.queue ∧ (info.add row).instanceType = info.instanceType := by
  unfold ClusterInfo.add
  dsimp only
  split
  · exact ⟨rfl, rfl⟩
  · split
    · exact ⟨rfl, rfl⟩
    · split <;> exact ⟨rfl, rfl⟩

theorem ClusterInfo.add_of_running {row : NodeRow} (h : countsAsRunning row.state) (info : ClusterInfo) :
    (info.add row).running = true ∧ (info.add row).minIdle = info.minIdle := by
  unfold ClusterInfo.add
  dsimp only
  rw [if_pos (show row.state ∈ ["allocated", "mixed"] from h)]
  exact ⟨rfl, rfl⟩

/-- A node that does not run: the minimum is the least of the old one and its idle time. -/
theorem ClusterInfo.add_of_not_running {row : NodeRow} (h : ¬ countsAsRunning row.state) (info : ClusterInfo) :
    (info.add row).running = info.running ∧
      (info.add row).minIdle = some (info.minIdle.elim row.nodeIdle fun m => min m row.nodeIdle) := by
  unfold ClusterInfo.add
  dsimp only
  rw [if_neg (show row.state ∉ ["allocated", "mixed"] from h)]
  cases hmin : info.minIdle with
  | none => exact ⟨rfl, rfl⟩
  | some m =>
    dsimp only [Option.elim_some]
    split
    case isTrue hlt => exact ⟨rfl, by rw [min_eq_right (le_of_lt hlt)]⟩
    case isFalse hge => exact ⟨rfl, by rw [min_eq_left (not_lt.mp hge)]⟩

theorem ClusterInfo.Describes.add {info : ClusterInfo} {rows : List NodeRow}
    (h : info.Describes rows) (row : NodeRow) : (info.add row).Describes (rows ++ [row]) := by
  obtain ⟨hqueue, htype⟩ := info.add_queue row
  have hfirst : (rows ++ [row]).head?.map (fun row => (row.queue, row.instanceType)) =
      some (info.queue, info.instanceType) := by
    have := h.first
    cases rows with
    | nil => simp at this
    | cons first rest => exact this
  by_cases hrun : countsAsRunning row.state
  · obtain ⟨hrunning, hmin⟩ := info.add_of_running hrun
    refine ⟨?_, fun d => ?_, ?_, by rw [hqueue, htype]; exact hfirst⟩
    · rw [hrunning]
      exact ⟨fun _ => ⟨row, by simp, hrun⟩, fun _ => rfl⟩
    · rw [hmin, h.minIdle d]
      simp only [List.mem_append, List.mem_singleton, or_imp, forall_and, forall_eq]
      exact ⟨fun hall => ⟨hall, fun hnot => absurd hrun hnot⟩, fun hall => hall.1⟩
    · rw [hmin, h.someIdle]
      simp only [List.mem_append, List.mem_singleton, or_and_right, exists_or, exists_eq_left]
      exact ⟨.inl, fun hor => hor.resolve_right (not_not_intro hrun)⟩
  · obtain ⟨hrunning, hmin⟩ := info.add_of_not_running hrun
    refine ⟨?_, fun d => ?_, ?_, by rw [hqueue, htype]; exact hfirst⟩
    · rw [hrunning, h.running]
      simp only [List.mem_append, List.mem_singleton, or_and_right, exists_or, exists_eq_left]
      exact ⟨.inl, fun hor => hor.resolve_right hrun⟩
    · have hold := h.minIdle d
      simp only [List.mem_append, List.mem_singleton, or_imp, forall_and, forall_eq]
      rw [← hold, hmin]
      cases info.minIdle with
      | none => simp [hrun]
      | some m => simp [hrun]
    · rw [hmin]
      exact ⟨fun _ => ⟨row, by simp, hrun⟩, fun _ => rfl⟩

theorem ClusterInfo.Describes.new (row : NodeRow) : ((ClusterInfo.new row).add row).Describes [row] := by
  obtain ⟨hqueue, htype⟩ := (ClusterInfo.new row).add_queue row
  by_cases hrun : countsAsRunning row.state
  · obtain ⟨hrunning, hmin⟩ := (ClusterInfo.new row).add_of_running hrun
    have hnone : ((ClusterInfo.new row).add row).minIdle = none := hmin
    refine ⟨?_, fun d => ?_, ?_, by rw [hqueue, htype]; rfl⟩
    · simp [hrunning, hrun]
    · simp [hnone, hrun]
    · simp [hnone, hrun]
  · obtain ⟨hrunning, hmin⟩ := (ClusterInfo.new row).add_of_not_running hrun
    have hfalse : ((ClusterInfo.new row).add row).running = false := hrunning
    have hsome : ((ClusterInfo.new row).add row).minIdle = some row.nodeIdle := hmin
    refine ⟨?_, fun d => ?_, ?_, by rw [hqueue, htype]; rfl⟩
    · simp [hfalse, hrun]
    · simp [hsome, hrun]
    · simp [hsome, hrun]

/-! ## The fold over the listing -/

theorem keys_addRow (data : ClustersData) (row : NodeRow) :
    (addRow data row).map (·.1) =
      if row.clustername ∈ data.map (·.1) then data.map (·.1) else data.map (·.1) ++ [row.clustername] := by
  induction data with
  | nil => rfl
  | cons head rest ih =>
    obtain ⟨name, info⟩ := head
    rw [addRow]
    by_cases hname : name = row.clustername
    · rw [if_pos hname, if_pos (by simp [hname])]
      rfl
    · rw [if_neg hname, List.map_cons, List.map_cons, ih]
      by_cases hmem : row.clustername ∈ rest.map (·.1)
      · rw [if_pos hmem, if_pos (List.mem_cons_of_mem _ hmem)]
      · rw [if_neg hmem, if_neg (by simpa [Ne.symm hname] using hmem)]
        rfl

/-- Where an entry comes from: another cluster's is kept, the row's own has the row added. -/
theorem mem_addRow {data : ClustersData} (hkeys : (data.map (·.1)).Nodup) {row : NodeRow} {c : String}
    {info : ClusterInfo} (h : (c, info) ∈ addRow data row) :
    (c ≠ row.clustername ∧ (c, info) ∈ data) ∨
      (c = row.clustername ∧ ((∃ old, (c, old) ∈ data ∧ info = old.add row) ∨
        (c ∉ data.map (·.1) ∧ info = (ClusterInfo.new row).add row))) := by
  induction data with
  | nil =>
    obtain ⟨rfl, rfl⟩ := Prod.mk.injEq .. ▸ List.mem_singleton.mp h
    exact .inr ⟨rfl, .inr ⟨List.not_mem_nil, rfl⟩⟩
  | cons head rest ih =>
    obtain ⟨name, first⟩ := head
    obtain ⟨hfresh, hrest⟩ := List.nodup_cons.mp (List.map_cons ▸ hkeys)
    rw [addRow] at h
    by_cases hname : name = row.clustername
    · rw [if_pos hname] at h
      rcases List.mem_cons.mp h with heq | hin
      · obtain ⟨rfl, rfl⟩ := Prod.mk.injEq .. ▸ heq
        exact .inr ⟨hname, .inl ⟨first, List.mem_cons_self, rfl⟩⟩
      · refine .inl ⟨?_, List.mem_cons_of_mem _ hin⟩
        rintro rfl
        exact hfresh (List.mem_map.mpr ⟨(row.clustername, info), hin, hname.symm⟩)
    · rw [if_neg hname] at h
      rcases List.mem_cons.mp h with heq | hin
      · obtain ⟨rfl, rfl⟩ := Prod.mk.injEq .. ▸ heq
        exact .inl ⟨hname, List.mem_cons_self⟩
      · rcases ih hrest hin with ⟨hne, hold⟩ | ⟨heq, ⟨old, hold, hadd⟩ | ⟨hnew, hadd⟩⟩
        · exact .inl ⟨hne, List.mem_cons_of_mem _ hold⟩
        · exact .inr ⟨heq, .inl ⟨old, List.mem_cons_of_mem _ hold, hadd⟩⟩
        · refine .inr ⟨heq, .inr ⟨?_, hadd⟩⟩
          rw [List.map_cons, List.mem_cons]
          rintro (hhead | hin')
          · exact hname (hhead.symm.trans heq)
          · exact hnew hin'

/-- The nodes of a cluster, in the order of the listing. -/
def rowsIn (rows : List NodeRow) (clustername : String) : List NodeRow :=
  rows.filter fun row => row.clustername = clustername

theorem mem_rowsIn {rows : List NodeRow} {clustername : String} {row : NodeRow} :
    row ∈ rowsIn rows clustername ↔ row ∈ rows ∧ row.clustername = clustername := by
  rw [rowsIn, List.mem_filter, decide_eq_true_eq]

/-- Every cluster of the listing has one entry, which describes its nodes. -/
theorem clustersData_describes (rows : List NodeRow) :
    ((clustersData rows).map (·.1)).Nodup ∧
      (∀ c, c ∈ (clustersData rows).map (·.1) ↔ ∃ row ∈ rows, row.clustername = c) ∧
      ∀ c info, (c, info) ∈ clustersData rows → info.Describes (rowsIn rows c) := by
  induction rows using List.reverseRecOn with
  | nil => exact ⟨List.nodup_nil, by simp [clustersData], fun c info h => absurd h List.not_mem_nil⟩
  | append_singleton rows row ih =>
    obtain ⟨hkeys, hnames, hinfo⟩ := ih
    have hstep : clustersData (rows ++ [row]) = addRow (clustersData rows) row := by
      rw [clustersData, List.foldl_append]
      rfl
    have hkeys' := keys_addRow (clustersData rows) row
    rw [hstep]
    refine ⟨?_, fun c => ?_, fun c info hmem => ?_⟩
    · rw [hkeys']
      split
      · exact hkeys
      case isFalse hfresh =>
        exact List.Nodup.append hkeys (List.nodup_singleton _) (List.disjoint_singleton.mpr hfresh)
    · rw [hkeys']
      simp only [List.mem_append, List.mem_singleton, or_and_right, exists_or, exists_eq_left]
      split
      case isTrue hold =>
        rw [hnames]
        refine ⟨.inl, ?_⟩
        rintro (h | rfl)
        · exact h
        · exact (hnames _).mp hold
      case isFalse =>
        rw [List.mem_append, List.mem_singleton, hnames, eq_comm (a := c)]
    · have hfilter : rowsIn (rows ++ [row]) c =
          rowsIn rows c ++ if row.clustername = c then [row] else [] := by
        rw [rowsIn, List.filter_append, List.filter_singleton]
        simp [rowsIn]
      rcases mem_addRow hkeys hmem with ⟨hne, hold⟩ | ⟨rfl, ⟨old, hold, rfl⟩ | ⟨hnew, rfl⟩⟩
      · rw [hfilter, if_neg (Ne.symm hne), List.append_nil]
        exact hinfo c info hold
      · rw [hfilter, if_pos rfl]
        exact (hinfo _ old hold).add row
      · have hnone : rowsIn rows row.clustername = [] := by
          rw [List.eq_nil_iff_forall_not_mem]
          intro other hother
          obtain ⟨hin, heq⟩ := mem_rowsIn.mp hother
          exact hnew ((hnames _).mpr ⟨other, hin, heq⟩)
        rw [hfilter, hnone, if_pos rfl, List.nil_append]
        exact ClusterInfo.Describes.new row

/-! ## The destroy list -/

/-- The instance type of a cluster, that of its first node in the listing, is marked permanent. -/
def permanentCluster (config : QueueConfig) (rows : List NodeRow) (clustername : String) : Prop :=
  ∃ row, (rowsIn rows clustername).head? = some row ∧ isPermanent config row.queue row.instanceType = true

theorem toDestroy_eq_true {config : QueueConfig} {clustername : String} {info : ClusterInfo} :
    toDestroy config clustername info = true ↔
      clustername ≠ "NOCLUSTERFOUND" ∧ info.running = false ∧
        isPermanent config info.queue info.instanceType = false ∧
        info.minIdle.isSome ∧ ∀ m ∈ info.minIdle, idleTime ≤ m := by
  unfold toDestroy
  by_cases hname : clustername = "NOCLUSTERFOUND"
  · simp [hname]
  · rw [if_neg hname]
    cases info.running <;> cases isPermanent config info.queue info.instanceType <;>
      cases info.minIdle <;> simp [hname]

/-- **When a cluster is in the destroy list**, on the listing alone: it has nodes, none of them counts as running,
each has been idle for the idle time, and the instance type is not permanent. -/
theorem toDestroy_iff (config : QueueConfig) (rows : List NodeRow) (c : String) :
    c ∈ ((clustersData rows).filter fun p => toDestroy config p.1 p.2).map (·.1) ↔
      c ≠ "NOCLUSTERFOUND" ∧ (∃ row ∈ rows, row.clustername = c) ∧
        (∀ row ∈ rows, row.clustername = c → ¬ countsAsRunning row.state ∧ idleTime ≤ row.nodeIdle) ∧
        ¬ permanentCluster config rows c := by
  obtain ⟨hkeys, hnames, hinfo⟩ := clustersData_describes rows
  have hentry : ∀ info, (c, info) ∈ clustersData rows →
      (toDestroy config c info = true ↔ c ≠ "NOCLUSTERFOUND" ∧
        (∀ row ∈ rows, row.clustername = c → ¬ countsAsRunning row.state ∧ idleTime ≤ row.nodeIdle) ∧
        ¬ permanentCluster config rows c) := by
    intro info hmem
    have hdesc := hinfo c info hmem
    obtain ⟨row, hrow, hfirst⟩ := Option.map_eq_some_iff.mp hdesc.first
    obtain ⟨hqueue, htype⟩ := Prod.mk.injEq .. ▸ hfirst
    have hhead : row ∈ rowsIn rows c := List.mem_of_head? hrow
    have hperm : ¬ permanentCluster config rows c ↔ isPermanent config info.queue info.instanceType = false := by
      unfold permanentCluster
      rw [hrow, ← hqueue, ← htype]
      simp
    have hrun : info.running = false ↔ ∀ row ∈ rowsIn rows c, ¬ countsAsRunning row.state := by
      rw [← Bool.not_eq_true, hdesc.running]
      push Not
      rfl
    rw [toDestroy_eq_true, hperm, hrun, hdesc.someIdle, hdesc.minIdle idleTime]
    constructor
    · rintro ⟨hname, hnot, hpermanent, -, hidle⟩
      refine ⟨hname, fun other hother heq => ?_, hpermanent⟩
      have hin := mem_rowsIn.mpr ⟨hother, heq⟩
      exact ⟨hnot other hin, hidle other hin (hnot other hin)⟩
    · rintro ⟨hname, hall, hpermanent⟩
      have hall' : ∀ other ∈ rowsIn rows c, ¬ countsAsRunning other.state ∧ idleTime ≤ other.nodeIdle := by
        intro other hother
        obtain ⟨hin, heq⟩ := mem_rowsIn.mp hother
        exact hall other hin heq
      exact ⟨hname, fun other hother => (hall' other hother).1, hpermanent, ⟨row, hhead, (hall' row hhead).1⟩,
        fun other hother _ => (hall' other hother).2⟩
  constructor
  · intro h
    obtain ⟨⟨name, info⟩, hp, rfl⟩ := List.mem_map.mp h
    obtain ⟨hmem, hdestroy⟩ := List.mem_filter.mp hp
    obtain ⟨hname, hall, hperm⟩ := (hentry info hmem).mp hdestroy
    exact ⟨hname, (hnames name).mp (List.mem_map.mpr ⟨_, hmem, rfl⟩), hall, hperm⟩
  · rintro ⟨hname, hlisted, hall, hperm⟩
    obtain ⟨⟨name, info⟩, hmem, rfl⟩ := List.mem_map.mp ((hnames c).mpr hlisted)
    refine List.mem_map.mpr ⟨(name, info), List.mem_filter.mpr ⟨hmem, ?_⟩, rfl⟩
    exact (hentry info hmem).mpr ⟨hname, hall, hperm⟩

/-! ## Busy clusters -/

/-- Only idle clusters are destroyed: no node has a job on it, every node has been idle for the idle time, by
its start and by the end of every job, and the instance type is not permanent. -/
def SparesBusy (config : QueueConfig) (seen : Observed) : Prop :=
  ∀ status, getstatusSlurm config seen = .ok status → ∀ c ∈ status.clusterToDestroy,
    (∀ row ∈ rowsOf seen, row.clustername = c →
      hasJob row.state = false ∧ idleTime ≤ row.nodeIdle ∧ NoLateJob row.answers) ∧
      ¬ permanentCluster config (rowsOf seen) c

/-- A node that is in use, or was within the idle time, without `getstatus_slurm` seeing it: its state is spelled
otherwise, or the job that ended of late is not on the last line of the accounting. -/
def Overlooked (row : NodeRow) : Prop :=
  (hasJob row.state = true ∧ ¬ countsAsRunning row.state) ∨ ¬ NoLateJob row.answers

/-- Something keeps the cluster, whatever the spelling of its busy nodes: no cluster was found, a node is
`allocated` or `mixed` to the letter, a node is too young, or the type is permanent. -/
def KeptAnyway (config : QueueConfig) (rows : List NodeRow) (clustername : String) : Prop :=
  clustername = "NOCLUSTERFOUND" ∨
    (∃ row ∈ rows, row.clustername = clustername ∧ (countsAsRunning row.state ∨ row.nodeIdle < idleTime)) ∨
    permanentCluster config rows clustername

/-- What is asked about a node whose daemon started a day ago and whose job has not ended. -/
def completingAnswers : NodeAnswers where
  details := "\"hpc compute\"\n"
  topology := "SwitchName=compute-1-hpc Level=0 Nodes=compute-1-hpc-node-1\n"
  jobEnds := "Unknown\n"
  slurmdStart := "SlurmdStartTime=2024-05-01T08:00:00\n"
  clockAtFallback := 0
  clock := 63850233600000000

def completingNode : Observed where
  jobs := []
  listing := ["\"completing none 1 compute-1-hpc-node-1\"", ""]
  ask := fun _ _ => completingAnswers
  dirs := []

def completingRow : NodeRow where
  node := "compute-1-hpc-node-1"
  state := "completing"
  clustername := "compute-1-hpc"
  queue := "compute"
  instanceType := "hpc"
  answers := completingAnswers

theorem completingNode_rows : nodeRows completingNode.listing completingNode.ask = .ok [completingRow] := by
  decide

end OciHpc.Autoscale
