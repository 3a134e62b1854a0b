import OciHpc.Autoscale.ResizingPass
import Mathlib.Logic.Relation

/-!
# The limits over many passes

The passes of either script, and between them the scripts that the passes start.

* `Cluster`, `Phase` : a cluster from its launch to its end; `directoryOf` : its directory as a pass finds it;
* `Shown` : what a pass is shown of the clusters there are;
* `Moves`, `SystemStep` : what `create_cluster.sh`, `delete_cluster.sh` and `resize.sh` do, and a pass;
* `WithinLimits` : the clusters and their nodes, against the limits of `queues.conf`;
* `withinLimits_step`, `withinLimits_run` : every step keeps it, and so does every run.
-/

namespace OciHpc.Autoscale

/-! ## Clusters -/

/-- A launched cluster has no marker yet, or none while another domain is tried; one whose creation or deletion failed is left
with its directory. -/
inductive Phase
  | launched | building | built | destroying | left
deriving DecidableEq, Repr

/-- A cluster, with the nodes it has or is to get. -/
structure Cluster extends Launch where
  phase : Phase
deriving DecidableEq, Repr

/-- `echo $1 $3 $4 >> currently_building`. -/
def currentlyBuilding (launch : Launch) : String :=
  toString launch.nodes ++ " " ++ launch.instanceType ++ " " ++ launch.queue ++ "\n"

def directoryOf (cluster : Cluster) : ClusterDir where
  name := cluster.clusterName
  currentlyBuilding := if cluster.phase = .building then some (currentlyBuilding cluster.toLaunch) else none
  currentlyDestroying := cluster.phase = .destroying

theorem directoryOf_name (cluster : Cluster) : (directoryOf cluster).name = cluster.clusterName := rfl

def clustersIn (clusters : List Cluster) (q t : String) : List Cluster :=
  clusters.filter fun cluster => cluster.queue = q ∧ cluster.instanceType = t

/-- The nodes of the clusters of a queue and type in some of the phases. -/
def nodesOf (phases : List Phase) (clusters : List Cluster) (q t : String) : Int :=
  (((clustersIn clusters q t).filter fun cluster => cluster.phase ∈ phases).map (·.nodes)).sum

/-! ## Steps -/

/-- What a pass is shown: every script it runs beside has its marker, the directories are those of the clusters beside entries
that are none, and the nodes of the clusters that are built are in the listing. -/
structure Shown (config : QueueConfig) (clusters : List Cluster) (rows : List NodeRow) (dirs : List ClusterDir) : Prop where
  settled : ∀ cluster ∈ clusters, cluster.phase ≠ .launched
  dirs : ∃ others, (∀ dir ∈ others, dirKey config dir = .ok none) ∧ dirs.Perm (clusters.map directoryOf ++ others)
  nodes : ∀ q t, nodesOf [.built] clusters q t ≤ runningNodes rows q t

/-- `squeue` prints the number of nodes of a job. -/
def CountsNodes (config : QueueConfig) (lines : List String) : Prop :=
  ∀ jobs, clusterToBuild config lines = .ok jobs → ∀ job ∈ jobs, 0 ≤ job.nodes

/-- `create_cluster.sh` writes its marker for each domain it tries, and removes it when that failed or the nodes are there; a
cluster that failed is destroyed, or left in debug mode. `delete_cluster.sh` may fail. `resize.sh` takes nodes out. -/
inductive Moves : Cluster → Cluster → Prop
  | mark {cluster : Cluster} (h : cluster.phase = .launched) : Moves cluster { cluster with phase := .building }
  | unmark {cluster : Cluster} (h : cluster.phase = .building) : Moves cluster { cluster with phase := .launched }
  | finish {cluster : Cluster} (h : cluster.phase = .building) : Moves cluster { cluster with phase := .built }
  | destroy {cluster : Cluster} (h : cluster.phase ≠ .building) : Moves cluster { cluster with phase := .destroying }
  | leave {cluster : Cluster} (h : cluster.phase = .launched ∨ cluster.phase = .destroying) :
      Moves cluster { cluster with phase := .left }
  | remove {cluster : Cluster} {nodes : Int} (h : cluster.phase = .built) (hnodes : 0 ≤ nodes ∧ nodes ≤ cluster.nodes) :
      Moves cluster { cluster with nodes }

def started (launch : Launch) : Cluster := ⟨launch, .launched⟩

/-- One step: a pass of either script, a cluster that moves, or one that is gone; a script that finds its parameters invalid
takes its directory away as it began. -/
inductive SystemStep (config : QueueConfig) : List Cluster → List Cluster → Prop
  | pass {clusters : List Cluster} (seen : Observed)
      (hshown : ∀ rows, nodeRows seen.listing seen.ask = .ok rows → Shown config clusters rows seen.dirs)
      (hcounts : CountsNodes config seen.jobs) :
      SystemStep config clusters (clusters ++ (pass config seen).created.map started)
  | resizingPass {clusters : List Cluster} (seen : ResizingObserved)
      (hshown : ∀ rows, resizingRows seen.listing seen.ask = .ok rows → Shown config clusters rows seen.dirs)
      (hcounts : CountsNodes config seen.jobs) :
      SystemStep config clusters (clusters ++ (resizingPass config seen).created.map started)
  | move {front back : List Cluster} {cluster cluster' : Cluster} (h : Moves cluster cluster') :
      SystemStep config (front ++ cluster :: back) (front ++ cluster' :: back)
  | gone {front back : List Cluster} {cluster : Cluster} (h : cluster.phase = .launched ∨ cluster.phase = .destroying) :
      SystemStep config (front ++ cluster :: back) (front ++ back)

/-! ## The invariant -/

/-- The phases in which the nodes of a cluster count. -/
def livePhases : List Phase := [.launched, .building, .built]

/-- The queues and types have names without white space. -/
def WordNames (config : QueueConfig) : Prop :=
  ∀ partition ∈ config, IsWord partition.name.toList ∧ ∀ item ∈ partition.instanceTypes, IsWord item.name.toList

/-- A launch that `queues.conf` has: its name is one that is read back. -/
structure Configured (config : QueueConfig) (launch : Launch) : Prop where
  named : ∃ (n : Nat) (jobconfig : JobConfig), getJobConfig config launch.queue launch.instanceType = some jobconfig ∧
    launch.clusterName = clusterNameOf launch.queue (some n) jobconfig.instanceKeyword
  nodes : 0 ≤ launch.nodes

/-- **The limits hold**: of the clusters of a queue and type there are no more, and their nodes are no more, than `queues.conf`
says, no cluster is too large, and no two have one name. Clusters that are being destroyed or left count, and their nodes do
not. -/
structure WithinLimits (config : QueueConfig) (clusters : List Cluster) : Prop where
  configured : ∀ cluster ∈ clusters, Configured config cluster.toLaunch
  names : (clusters.map (·.clusterName)).Nodup
  size : ∀ cluster ∈ clusters, cluster.nodes ≤ (getQueueLimits config cluster.queue cluster.instanceType).maxClusterSize
  count : ∀ q t, clustersIn clusters q t ≠ [] →
    ((clustersIn clusters q t).length : Int) ≤ (getQueueLimits config q t).maxClusterCount
  nodes : ∀ q t, nodesOf livePhases clusters q t ≤ max 0 (getQueueLimits config q t).maxNumberNodes

section
variable {config : QueueConfig} {clusters : List Cluster} {rows : List NodeRow} {dirs : List ClusterDir}

/-! ## What a pass counts -/

theorem clustersIn_append (a b : List Cluster) (q t : String) :
    clustersIn (a ++ b) q t = clustersIn a q t ++ clustersIn b q t :=
  List.filter_append ..

theorem nodesOf_append (phases : List Phase) (a b : List Cluster) (q t : String) :
    nodesOf phases (a ++ b) q t = nodesOf phases a q t + nodesOf phases b q t := by
  unfold nodesOf
  rw [clustersIn_append, List.filter_append, List.map_append, List.sum_append]

/-- The name of a cluster is read back as its queue and type. -/
theorem dirKey_of_configured (hplain : PlainKeywords config) {launch : Launch} (h : Configured config launch)
    {dir : ClusterDir} (hname : dir.name = launch.clusterName) :
    ∃ n, dirKey config dir = .ok (some (launch.queue, n, launch.instanceType)) := by
  obtain ⟨n, jobconfig, hconfig, hnamed⟩ := h.named
  obtain ⟨partition, hpart, hqueue, item, hitem, htype, hkeyword⟩ := getJobConfig_mem hconfig
  have hparse := parseClusterName_clusterNameOf hplain hpart hitem n
  have hsame := getInstanceType_keyword hplain hpart hitem
  rw [hqueue, hkeyword, ← hnamed, ← hname] at hparse
  rw [hqueue, hkeyword, htype] at hsame
  refine ⟨n, ?_⟩
  unfold dirKey
  rw [hparse]
  show Except.ok ((getInstanceType config launch.queue jobconfig.instanceKeyword).map _) = _
  rw [hsame]
  rfl

/-- The marker is read back. -/
theorem buildingOf_currentlyBuilding {launch : Launch} (hnodes : 0 ≤ launch.nodes) (htype : IsWord launch.instanceType.toList)
    (hqueue : IsWord launch.queue.toList) :
    buildingOf (currentlyBuilding launch) = some ⟨launch.nodes, launch.instanceType, launch.queue⟩ := by
  obtain ⟨n, hn⟩ := Int.eq_ofNat_of_zero_le hnodes
  have htext : toString launch.nodes = Nat.repr n := by
    rw [hn]
    rfl
  have hnumber : IsWord (Nat.repr n).toList := by
    rw [Nat.toList_repr]
    exact ⟨Nat.toDigits_ne_nil, fun c hc =>
      PyStr.not_isSpace_of_isDigit (Nat.isDigit_of_mem_toDigits (by decide) (by decide) hc)⟩
  have hwords : PyStr.splitWs (currentlyBuilding launch) = [Nat.repr n, launch.instanceType, launch.queue] := by
    have hlist : (currentlyBuilding launch).toList = ((Nat.repr n).toList ++ ' ' :: (launch.instanceType.toList ++
        ' ' :: launch.queue.toList)) ++ ['\n'] := by
      unfold currentlyBuilding
      rw [htext]
      simp [String.toList_append]
    have hnewline : ∀ c ∈ ['\n'], PyStr.isSpace c = true := fun c hc => by
      rw [List.mem_singleton.mp hc]
      decide
    rw [splitWs_eq_words, hlist, words_append_spaces hnewline, words_append hnumber, words_append htype,
      words_of_isWord hqueue]
    simp only [List.map_cons, List.map_nil, String.ofList_toList]
  unfold buildingOf
  rw [splitWs_strip, hwords]
  dsimp only
  rw [PyStr.int_repr, Option.map_some, hn]

theorem isWord_of_configured (hwords : WordNames config) {launch : Launch} (h : Configured config launch) :
    IsWord launch.instanceType.toList ∧ IsWord launch.queue.toList := by
  obtain ⟨n, jobconfig, hconfig, -⟩ := h.named
  obtain ⟨partition, hpart, hqueue, item, hitem, htype, -⟩ := getJobConfig_mem hconfig
  exact ⟨htype ▸ (hwords partition hpart).2 item hitem, hqueue ▸ (hwords partition hpart).1⟩

/-- The directories have one index for each cluster. -/
theorem existingIndexes_length (hplain : PlainKeywords config)
    (hconfigured : ∀ cluster ∈ clusters, Configured config cluster.toLaunch)
    (h : Shown config clusters rows dirs) (q t : String) :
    (existingIndexes config dirs q t).length = (clustersIn clusters q t).length := by
  obtain ⟨others, hothers, hperm⟩ := h.dirs
  have hnone : existingIndexes config others q t = [] := by
    refine List.filterMap_eq_nil_iff.mpr fun dir hdir => ?_
    rw [hothers dir hdir]
  have heach : ∀ {l : List Cluster}, (∀ cluster ∈ l, Configured config cluster.toLaunch) →
      (existingIndexes config (l.map directoryOf) q t).length = (clustersIn l q t).length := by
    intro l hl
    induction l with
    | nil => rfl
    | cons cluster rest ih =>
      obtain ⟨n, hkey⟩ := dirKey_of_configured hplain (hl cluster List.mem_cons_self) (directoryOf_name cluster)
      have hrest := ih fun other hother => hl other (List.mem_cons_of_mem _ hother)
      unfold existingIndexes clustersIn at *
      rw [List.map_cons, List.filterMap_cons, List.filter_cons, hkey]
      dsimp only
      by_cases hin : cluster.queue = q ∧ cluster.instanceType = t
      · rw [if_pos hin, if_pos (decide_eq_true hin), List.length_cons, List.length_cons, hrest]
      · rw [if_neg hin, if_neg (by simpa using hin), hrest]
  have hsame : (existingIndexes config dirs q t).Perm (existingIndexes config (clusters.map directoryOf ++ others) q t) :=
    hperm.filterMap _
  have hsplit : existingIndexes config (clusters.map directoryOf ++ others) q t =
      existingIndexes config (clusters.map directoryOf) q t ++ existingIndexes config others q t := List.filterMap_append
  rw [hsame.length_eq, hsplit, hnone, List.append_nil, heach hconfigured]

/-- The markers have the nodes of the clusters being built. -/
theorem buildingNodesIn_eq (hplain : PlainKeywords config) (hwords : WordNames config)
    (hconfigured : ∀ cluster ∈ clusters, Configured config cluster.toLaunch)
    (h : Shown config clusters rows dirs) (q t : String) :
    buildingNodesIn (buildings config dirs) q t = nodesOf [.building] clusters q t := by
  obtain ⟨others, hothers, hperm⟩ := h.dirs
  have hnone : buildings config others = [] := by
    refine List.filterMap_eq_nil_iff.mpr fun dir hdir => ?_
    rw [hothers dir hdir]
  have heach : ∀ {l : List Cluster}, (∀ cluster ∈ l, Configured config cluster.toLaunch) →
      buildingNodesIn (buildings config (l.map directoryOf)) q t = nodesOf [.building] l q t := by
    intro l hl
    induction l with
    | nil => rfl
    | cons cluster rest ih =>
      have hcluster := hl cluster List.mem_cons_self
      obtain ⟨n, hkey⟩ := dirKey_of_configured hplain hcluster (directoryOf_name cluster)
      have hrest := ih fun other hother => hl other (List.mem_cons_of_mem _ hother)
      obtain ⟨htype, hqueue⟩ := isWord_of_configured hwords hcluster
      have hmarker := buildingOf_currentlyBuilding hcluster.nodes htype hqueue
      have hhead : buildings config [directoryOf cluster] =
          if cluster.phase = .building then [⟨cluster.nodes, cluster.instanceType, cluster.queue⟩] else [] := by
        unfold buildings
        rw [List.filterMap_cons, hkey, List.filterMap_nil]
        unfold directoryOf
        dsimp only
        by_cases hphase : cluster.phase = .building
        · rw [if_pos hphase, if_pos hphase, Option.bind_some, hmarker]
        · rw [if_neg hphase, if_neg hphase]
          rfl
      have hsplit : buildings config ((cluster :: rest).map directoryOf) =
          buildings config [directoryOf cluster] ++ buildings config (rest.map directoryOf) := by
        unfold buildings
        rw [← List.filterMap_append]
        rfl
      have hone : buildingNodesIn (buildings config [directoryOf cluster]) q t = nodesOf [.building] [cluster] q t := by
        rw [hhead]
        unfold buildingNodesIn nodesOf clustersIn
        by_cases hphase : cluster.phase = .building <;>
          by_cases hin : cluster.queue = q ∧ cluster.instanceType = t <;> simp [hphase, hin]
      have hcons : cluster :: rest = [cluster] ++ rest := rfl
      rw [hsplit, buildingNodesIn_append, hrest, hone, hcons, nodesOf_append]
  have hsum : buildingNodesIn (buildings config dirs) q t =
      buildingNodesIn (buildings config (clusters.map directoryOf ++ others)) q t :=
    (((hperm.filterMap _).filter _).map _).sum_eq
  have happend : buildings config (clusters.map directoryOf ++ others) =
      buildings config (clusters.map directoryOf) ++ buildings config others := List.filterMap_append ..
  rw [hsum, happend, hnone, List.append_nil, heach hconfigured]

theorem nodesOf_live_le (h : Shown config clusters rows dirs) (q t : String) :
    nodesOf livePhases clusters q t ≤ runningNodes rows q t + nodesOf [.building] clusters q t := by
  have heach : ∀ {l : List Cluster}, (∀ cluster ∈ l, cluster.phase ≠ .launched) →
      nodesOf livePhases l q t = nodesOf [.built] l q t + nodesOf [.building] l q t := by
    intro l hl
    induction l with
    | nil => rfl
    | cons cluster rest ih =>
      have hhead : nodesOf livePhases [cluster] q t = nodesOf [.built] [cluster] q t + nodesOf [.building] [cluster] q t := by
        have hphase := hl cluster List.mem_cons_self
        unfold nodesOf clustersIn livePhases
        by_cases hin : cluster.queue = q ∧ cluster.instanceType = t
        · cases hcase : cluster.phase
          case launched => exact absurd hcase hphase
          all_goals simp [hin, hcase]
        · simp [hin]
      have hrest := ih fun other hother => hl other (List.mem_cons_of_mem _ hother)
      rw [← List.singleton_append, nodesOf_append, nodesOf_append, nodesOf_append, hhead, hrest]
      omega
  have hbuilt := h.nodes q t
  rw [heach h.settled]
  omega

/-! ## What a pass launches -/

theorem clustersIn_started (launches : List Launch) (q t : String) :
    (clustersIn (launches.map started) q t).length = (launchesOf launches q t).length := by
  unfold clustersIn launchesOf
  rw [List.filter_map, List.length_map]
  rfl

theorem nodesOf_started (launches : List Launch) (q t : String) :
    nodesOf livePhases (launches.map started) q t = launchedNodes launches q t := by
  have hall : ∀ cluster ∈ clustersIn (launches.map started) q t, cluster.phase ∈ livePhases := fun cluster hcluster => by
    obtain ⟨launch, -, rfl⟩ := List.mem_map.mp (List.mem_of_mem_filter hcluster)
    exact List.mem_cons_self
  unfold nodesOf
  rw [List.filter_eq_self.mpr fun cluster hcluster => decide_eq_true (hall cluster hcluster)]
  unfold clustersIn launchedNodes launchesOf
  rw [List.filter_map, List.map_map]
  rfl

/-- A launch gets the name of an index, and the nodes of a job. -/
theorem configured_of_buildLoop (hsmall : SmallCounts config) {jobs : List Job} (s : LoopState)
    (hconfig : ∀ job ∈ jobs, (getJobConfig config job.queue job.instanceType).isSome ∧ 0 ≤ job.nodes) :
    ∀ launch ∈ (buildLoop config s jobs).1, Configured config launch := by
  induction jobs generalizing s with
  | nil => exact fun launch hlaunch => absurd hlaunch List.not_mem_nil
  | cons job rest ih =>
    have hrest := fun s' => ih s' fun other hother => hconfig other (List.mem_cons_of_mem job hother)
    obtain ⟨hsome, hnodes⟩ := hconfig job List.mem_cons_self
    by_cases hfull : (getQueueLimits config job.queue job.instanceType).maxClusterCount ≤
        (usedIn s job.queue job.instanceType).length
    · rw [buildLoop_skip rest (buildStep_full hfull)]
      exact hrest s
    · obtain ⟨jobconfig, hjobconfig⟩ := Option.isSome_iff_exists.mp hsome
      obtain ⟨hyes, hno⟩ := buildStep_slot (not_le.mp hfull) hjobconfig
      by_cases hfits : Fits config (nodesIn s job.queue job.instanceType) job
      · obtain ⟨s', -, hstep⟩ := hyes hfits
        have hfree : nextIndexOf (usedIn s job.queue job.instanceType) =
            some (freshIndex (usedIn s job.queue job.instanceType)) := by
          have hlimit := maxClusterCount_lt hsmall job.queue job.instanceType
          have hfresh := (freshIndex_spec (usedIn s job.queue job.instanceType)).2.1.2
          rw [nextIndexOf_eq, if_pos (by omega)]
        rw [hfree] at hstep
        rw [buildLoop_launch rest hstep]
        intro launch hlaunch
        rcases List.mem_cons.mp hlaunch with rfl | hlaunch
        · exact ⟨⟨_, jobconfig, hjobconfig, rfl⟩, hnodes⟩
        · exact hrest s' launch hlaunch
      · obtain ⟨s', -, hstep⟩ := hno hfits
        rw [buildLoop_skip rest hstep]
        exact hrest s'

/-- The launches of a pass, beside the clusters it was shown. -/
theorem withinLimits_launches (hplain : PlainKeywords config) (hwords : WordNames config)
    (h : WithinLimits config clusters) (hshown : Shown config clusters rows dirs) {launches : List Launch}
    (hconfigured : ∀ launch ∈ launches, Configured config launch)
    (hcaps : ∀ before launch after, launches = before ++ launch :: after →
      WithinCaps config (ledgerOf config rows dirs) dirs before launch) :
    WithinLimits config (clusters ++ launches.map started) := by
  induction launches using List.reverseRecOn with
  | nil =>
    rw [List.map_nil, List.append_nil]
    exact h
  | append_singleton before launch ih =>
    have hbefore : WithinLimits config (clusters ++ before.map started) := by
      refine ih (fun other hother => hconfigured other (List.mem_append_left _ hother)) fun first other after hsplit => ?_
      exact hcaps first other (after ++ [launch]) (by rw [hsplit, List.append_assoc, List.cons_append])
    have hlast := hcaps before launch [] rfl
    rw [List.map_append, ← List.append_assoc, List.map_cons, List.map_nil]
    refine ⟨fun cluster hcluster => ?_, ?_, fun cluster hcluster => ?_, fun q t hne => ?_, fun q t => ?_⟩
    · rcases List.mem_append.mp hcluster with hin | hin
      · exact hbefore.configured cluster hin
      · rw [List.mem_singleton.mp hin]
        exact hconfigured launch (List.mem_append_right _ (List.mem_singleton.mpr rfl))
    · rw [List.map_append, List.map_cons, List.map_nil]
      refine List.Nodup.append hbefore.names (List.nodup_singleton _) fun name hname hsingle => ?_
      rw [List.mem_singleton.mp hsingle] at hname
      obtain ⟨cluster, hcluster, heq⟩ := List.mem_map.mp hname
      rcases List.mem_append.mp hcluster with hin | hin
      · obtain ⟨others, -, hperm⟩ := hshown.dirs
        have hdir : directoryOf cluster ∈ dirs := hperm.mem_iff.mpr (List.mem_append_left _ (List.mem_map_of_mem hin))
        exact hlast.newDir _ hdir heq
      · obtain ⟨other, hother, rfl⟩ := List.mem_map.mp hin
        exact hlast.newName other hother heq
    · rcases List.mem_append.mp hcluster with hin | hin
      · exact hbefore.size cluster hin
      · rw [List.mem_singleton.mp hin]
        exact hlast.size
    · by_cases hkey : launch.queue = q ∧ launch.instanceType = t
      · obtain ⟨rfl, rfl⟩ := hkey
        have hindexes := existingIndexes_length hplain h.configured hshown launch.queue launch.instanceType
        have hcount := hlast.count
        unfold ledgerOf at hcount
        dsimp only at hcount
        have hone : (clustersIn [started launch] launch.queue launch.instanceType).length = 1 := by
          unfold clustersIn started
          simp
        rw [clustersIn_append, clustersIn_append, List.length_append, List.length_append, clustersIn_started, hone, ← hindexes]
        push_cast
        exact hcount
      · have hnone : clustersIn [started launch] q t = [] := by
          unfold clustersIn started
          simp [hkey]
        rw [clustersIn_append, hnone, List.append_nil] at hne ⊢
        exact hbefore.count q t hne
    · by_cases hkey : launch.queue = q ∧ launch.instanceType = t
      · obtain ⟨rfl, rfl⟩ := hkey
        have hlive := nodesOf_live_le hshown launch.queue launch.instanceType
        have hmarkers := buildingNodesIn_eq hplain hwords h.configured hshown launch.queue launch.instanceType
        have hnodes := hlast.nodes
        unfold ledgerOf at hnodes
        dsimp only at hnodes
        have hone : nodesOf livePhases [started launch] launch.queue launch.instanceType = launch.nodes := by
          unfold nodesOf clustersIn started livePhases
          simp
        rw [nodesOf_append, nodesOf_append, nodesOf_started, hone]
        exact le_trans (by omega) (le_max_right _ _)
      · have hnone : nodesOf livePhases [started launch] q t = 0 := by
          unfold nodesOf clustersIn started
          simp [hkey]
        rw [nodesOf_append, hnone, add_zero]
        exact hbefore.nodes q t

theorem withinLimits_buildLoop (hplain : PlainKeywords config) (hsmall : SmallCounts config) (hwords : WordNames config)
    (h : WithinLimits config clusters) (hshown : Shown config clusters rows dirs) {s : LoopState} {jobs : List Job}
    (hjobs : ∀ job ∈ jobs, (getJobConfig config job.queue job.instanceType).isSome ∧ 0 ≤ job.nodes)
    (hstart : ∀ q t, usedIn s q t = (ledgerOf config rows dirs).indexes q t ∧
      nodesIn s q t = (ledgerOf config rows dirs).nodes q t) :
    WithinLimits config (clusters ++ (buildLoop config s jobs).1.map started) := by
  have hconfigured := configured_of_buildLoop hsmall s hjobs
  refine withinLimits_launches hplain hwords h hshown hconfigured fun before launch after hsplit => ?_
  exact buildLoop_within_caps hplain hsmall rfl (fun job hjob => (hjobs job hjob).1) (accounts_start hstart) hsplit

theorem jobs_counted {lines : List String} {jobs : List Job} (hcounts : CountsNodes config lines)
    (hbuild : clusterToBuild config lines = .ok jobs) (building : List Building) :
    ∀ job ∈ cancelBuilt building jobs, (getJobConfig config job.queue job.instanceType).isSome ∧ 0 ≤ job.nodes := by
  intro job hjob
  have hin := mem_of_mem_cancelBuilt hjob
  exact ⟨clusterToBuild_configured hbuild job hin, hcounts jobs hbuild job hin⟩

/-! ## What the scripts do -/

/-- A cluster that moves is the same one, and no larger. -/
theorem Moves.same {cluster cluster' : Cluster} (h : Moves cluster cluster') (hnodes : 0 ≤ cluster.nodes) :
    cluster'.clusterName = cluster.clusterName ∧ cluster'.queue = cluster.queue ∧
      cluster'.instanceType = cluster.instanceType ∧ (0 ≤ cluster'.nodes ∧ cluster'.nodes ≤ cluster.nodes) ∧
        (cluster'.phase ∈ livePhases → cluster.phase ∈ livePhases) := by
  cases h with
  | mark h | unmark h | finish h =>
    refine ⟨rfl, rfl, rfl, ⟨hnodes, Int.le_refl _⟩, fun _ => ?_⟩
    rw [h]
    decide
  | destroy h =>
    have hnot : Phase.destroying ∉ livePhases := by decide
    exact ⟨rfl, rfl, rfl, ⟨hnodes, Int.le_refl _⟩, fun hlive => absurd hlive hnot⟩
  | leave h =>
    have hnot : Phase.left ∉ livePhases := by decide
    exact ⟨rfl, rfl, rfl, ⟨hnodes, Int.le_refl _⟩, fun hlive => absurd hlive hnot⟩
  | remove h hfewer => exact ⟨rfl, rfl, rfl, hfewer, id⟩

theorem withinLimits_move {front back : List Cluster} {cluster cluster' : Cluster}
    (h : WithinLimits config (front ++ cluster :: back)) (hmoves : Moves cluster cluster') :
    WithinLimits config (front ++ cluster' :: back) := by
  have hcluster := h.configured cluster (List.mem_append_right _ List.mem_cons_self)
  obtain ⟨hname, hqueue, htype, ⟨hnonneg, hfewer⟩, hlive⟩ := hmoves.same hcluster.nodes
  have hother : ∀ other ∈ front ++ cluster' :: back, other = cluster' ∨ other ∈ front ++ cluster :: back := by
    intro other hin
    rcases List.mem_append.mp hin with hin | hin
    · exact .inr (List.mem_append_left _ hin)
    · rcases List.mem_cons.mp hin with rfl | hin
      · exact .inl rfl
      · exact .inr (List.mem_append_right _ (List.mem_cons_of_mem _ hin))
  have hlength : ∀ q t, (clustersIn (front ++ cluster' :: back) q t).length =
      (clustersIn (front ++ cluster :: back) q t).length := by
    intro q t
    rw [clustersIn_append, clustersIn_append, List.length_append, List.length_append]
    unfold clustersIn
    rw [List.filter_cons, List.filter_cons, hqueue, htype]
    split <;> rfl
  refine ⟨fun other hin => ?_, ?_, fun other hin => ?_, fun q t hne => ?_, fun q t => ?_⟩
  · rcases hother other hin with rfl | hin
    · obtain ⟨n, jobconfig, hconfig, hnamed⟩ := hcluster.named
      refine ⟨⟨n, jobconfig, ?_, ?_⟩, hnonneg⟩
      · rw [hqueue, htype]
        exact hconfig
      · rw [hname, hqueue]
        exact hnamed
    · exact h.configured other hin
  · have hnames := h.names
    rw [List.map_append, List.map_cons] at hnames ⊢
    rwa [hname]
  · rcases hother other hin with rfl | hin
    · rw [hqueue, htype]
      exact le_trans hfewer (h.size cluster (List.mem_append_right _ List.mem_cons_self))
    · exact h.size other hin
  · rw [hlength]
    refine h.count q t fun hnil => hne ?_
    rw [← List.length_eq_zero_iff, hlength, hnil]
    rfl
  · refine le_trans ?_ (h.nodes q t)
    have hcons : ∀ c : Cluster, c :: back = [c] ++ back := fun _ => rfl
    rw [hcons, hcons, nodesOf_append, nodesOf_append, nodesOf_append, nodesOf_append]
    have hone : nodesOf livePhases [cluster'] q t ≤ nodesOf livePhases [cluster] q t := by
      unfold nodesOf clustersIn
      rw [List.filter_singleton, List.filter_singleton, hqueue, htype]
      by_cases hin : cluster.queue = q ∧ cluster.instanceType = t
      · by_cases hold : cluster.phase ∈ livePhases
        · by_cases hnew : cluster'.phase ∈ livePhases <;> simp [hin, hold, hnew, hfewer, hcluster.nodes]
        · have hnew := mt hlive hold
          simp [hin, hold, hnew]
      · simp [hin]
    omega

theorem withinLimits_gone {front back : List Cluster} {cluster : Cluster}
    (h : WithinLimits config (front ++ cluster :: back)) : WithinLimits config (front ++ back) := by
  have hsub : (front ++ back).Sublist (front ++ cluster :: back) := (List.sublist_cons_self cluster back).append_left front
  have hcluster := h.configured cluster (List.mem_append_right _ List.mem_cons_self)
  refine ⟨fun other hin => h.configured other (hsub.subset hin), h.names.sublist (hsub.map _),
    fun other hin => h.size other (hsub.subset hin), fun q t hne => ?_, fun q t => ?_⟩
  · have hfilter : (clustersIn (front ++ back) q t).Sublist (clustersIn (front ++ cluster :: back) q t) := hsub.filter _
    have hcount := h.count q t fun hnil => hne (List.sublist_nil.mp (hnil ▸ hfilter))
    have hlength := hfilter.length_le
    omega
  · refine le_trans ?_ (h.nodes q t)
    have hcons : cluster :: back = [cluster] ++ back := rfl
    rw [hcons, nodesOf_append, nodesOf_append, nodesOf_append]
    have hone : 0 ≤ nodesOf livePhases [cluster] q t := by
      unfold nodesOf clustersIn
      rw [List.filter_singleton]
      by_cases hin : cluster.queue = q ∧ cluster.instanceType = t
      · by_cases hold : cluster.phase ∈ livePhases <;> simp [hin, hold, hcluster.nodes]
      · simp [hin]
    omega

/-! ## Every run -/

theorem withinLimits_step (hplain : PlainKeywords config) (hsmall : SmallCounts config) (hwords : WordNames config)
    {clusters' : List Cluster} (h : WithinLimits config clusters) (hstep : SystemStep config clusters clusters') :
    WithinLimits config clusters' := by
  cases hstep with
  | pass seen hshown hcounts =>
    by_cases hreadable : Readable config seen
    · obtain ⟨status, hstatus⟩ := getstatusSlurm_of_readable hreadable
      obtain ⟨-, -, -, hrows, -⟩ := getstatusSlurm_eq_ok hstatus
      obtain ⟨s, jobs, hjobs, hstart, hcreated⟩ := pass_created hreadable
      rw [hcreated]
      exact withinLimits_buildLoop hplain hsmall hwords h (hshown _ hrows) (jobs_counted hcounts hjobs _) hstart
    · rw [pass_unreadable hreadable, List.map_nil, List.append_nil]
      exact h
  | resizingPass seen hshown hcounts =>
    obtain hnone | ⟨rows, s, jobs, building, hrows, hjobs, hstart, hcreated⟩ := resizingPass_created config seen
    · rw [hnone, List.map_nil, List.append_nil]
      exact h
    · rw [hcreated]
      exact withinLimits_buildLoop hplain hsmall hwords h (hshown rows hrows) (jobs_counted hcounts hjobs _) hstart
  | move hmoves => exact withinLimits_move h hmoves
  | gone => exact withinLimits_gone h

/-- **The limits hold over every run** of passes of either script and of the scripts that these start. -/
theorem withinLimits_run (hplain : PlainKeywords config) (hsmall : SmallCounts config) (hwords : WordNames config)
    {clusters' : List Cluster} (h : WithinLimits config clusters)
    (hrun : Relation.ReflTransGen (SystemStep config) clusters clusters') : WithinLimits config clusters' := by
  induction hrun with
  | refl => exact h
  | tail _ hstep ih => exact withinLimits_step hplain hsmall hwords ih hstep

end

def firstJob : Observed := { oneJob with dirs := [] }

def firstLaunch : Launch := ⟨4, "compute-1-hpc", "hpc", "compute", 12⟩

/-- The cluster for it is being built, and there is another job. -/
def secondJob : Observed :=
  { oneJob with
    jobs := oneJob.jobs ++ ["PENDING 13 (null) 2 compute bob (null) "]
    dirs := [directoryOf ⟨firstLaunch, .building⟩] }

theorem firstJob_created : (pass hpcQueues firstJob).created = [firstLaunch] := by
  decide +kernel

theorem secondJob_created : (pass hpcQueues secondJob).created = [⟨2, "compute-2-hpc", "hpc", "compute", 13⟩] := by
  decide +kernel

theorem hpcQueues_wordNames : WordNames hpcQueues := by
  intro partition hpartition
  rw [List.mem_singleton.mp hpartition]
  refine ⟨⟨by decide, noSpace_of_all (by decide)⟩, fun item hitem => ?_⟩
  rw [List.mem_singleton.mp hitem]
  exact ⟨by decide, noSpace_of_all (by decide)⟩

theorem emptyListing_rows {seen : Observed} (h : seen.listing = [""]) {rows : List NodeRow}
    (hrows : nodeRows seen.listing seen.ask = .ok rows) : rows = [] := by
  have hempty : listedNodes [""] = [] := by decide
  unfold nodeRows at hrows
  rw [h, hempty] at hrows
  cases hrows
  rfl

theorem firstJob_counts : CountsNodes hpcQueues firstJob.jobs := by
  have hread : clusterToBuild hpcQueues firstJob.jobs = .ok [⟨4, "hpc", "compute", 12, "bob"⟩] := by decide +kernel
  intro jobs hjobs
  rw [hread] at hjobs
  cases hjobs
  decide

theorem secondJob_counts : CountsNodes hpcQueues secondJob.jobs := by
  have hread : clusterToBuild hpcQueues secondJob.jobs =
      .ok [⟨4, "hpc", "compute", 12, "bob"⟩, ⟨2, "hpc", "compute", 13, "bob"⟩] := by decide +kernel
  intro jobs hjobs
  rw [hread] at hjobs
  cases hjobs
  decide

theorem firstJob_shown {rows : List NodeRow} (hrows : nodeRows firstJob.listing firstJob.ask = .ok rows) :
    Shown hpcQueues [] rows firstJob.dirs := by
  rw [emptyListing_rows rfl hrows]
  exact ⟨fun cluster hcluster => absurd hcluster List.not_mem_nil,
    ⟨[], fun dir hdir => absurd hdir List.not_mem_nil, List.Perm.refl _⟩, fun q t => Int.le_refl _⟩

theorem secondJob_shown {rows : List NodeRow} (hrows : nodeRows secondJob.listing secondJob.ask = .ok rows) :
    Shown hpcQueues [⟨firstLaunch, .building⟩] rows secondJob.dirs := by
  rw [emptyListing_rows rfl hrows]
  refine ⟨fun cluster hcluster => ?_, ⟨[], fun dir hdir => absurd hdir List.not_mem_nil, List.Perm.refl _⟩, fun q t => ?_⟩
  · rw [List.mem_singleton.mp hcluster]
    decide
  · have hnone : nodesOf [.built] [⟨firstLaunch, .building⟩] q t = 0 := by
      unfold nodesOf clustersIn
      rw [List.filter_filter]
      rfl
    rw [hnone]
    exact Int.le_refl _

/-- A pass, the marker of the cluster that it launched, and another pass. -/
theorem twoJobs_run : Relation.ReflTransGen (SystemStep hpcQueues) []
    [⟨firstLaunch, .building⟩, ⟨⟨2, "compute-2-hpc", "hpc", "compute", 13⟩, .launched⟩] := by
  have hfirst := SystemStep.pass firstJob (fun _ hrows => firstJob_shown hrows) firstJob_counts
  have hmark := @SystemStep.move hpcQueues [] [] (started firstLaunch) _ (Moves.mark rfl)
  have hsecond := SystemStep.pass secondJob (fun _ hrows => secondJob_shown hrows) secondJob_counts
  rw [firstJob_created] at hfirst
  rw [secondJob_created] at hsecond
  exact ((Relation.ReflTransGen.single hfirst).tail hmark).tail hsecond

theorem withinLimits_twoJobs : WithinLimits hpcQueues
    [⟨firstLaunch, .building⟩, ⟨⟨2, "compute-2-hpc", "hpc", "compute", 13⟩, .launched⟩] := by
  refine withinLimits_run hpcQueues_plain hpcQueues_smallCounts hpcQueues_wordNames ?_ twoJobs_run
  refine ⟨fun cluster hcluster => absurd hcluster List.not_mem_nil, List.nodup_nil,
    fun cluster hcluster => absurd hcluster List.not_mem_nil, fun q t hne => absurd rfl hne, fun q t => le_max_left _ _⟩

end OciHpc.Autoscale
