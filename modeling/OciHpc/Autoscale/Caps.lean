import Mathlib.Data.List.Induction
import OciHpc.Autoscale.Admission

/-!
# Caps and fresh names

* `SmallCounts` : cluster-count limits below 10000;
* `WithinCaps` : what one launch keeps, after the launches before it;
* `Accounts` : the loop's counters against the clusters and nodes there are, kept by every turn;
* `pass_within_caps` : every launch of a pass is within the limits and has a name of its own.
-/

namespace OciHpc.Autoscale
variable {config : QueueConfig}

/-! ## What a launch keeps -/

def SmallCounts (config : QueueConfig) : Prop :=
  ∀ partition ∈ config, ∀ item ∈ partition.instanceTypes, item.maxClusterCount < 10000

def launchesOf (launches : List Launch) (q t : String) : List Launch :=
  launches.filter fun launch => launch.queue = q ∧ launch.instanceType = t

/-- The nodes of the launches of a queue and type. -/
def launchedNodes (launches : List Launch) (q t : String) : Int :=
  ((launchesOf launches q t).map (·.nodes)).sum

/-- A launch, after the launches before it, among the clusters and nodes counted at the start of the pass. -/
structure WithinCaps (config : QueueConfig) (ledger : Ledger) (dirs : List ClusterDir) (before : List Launch)
    (launch : Launch) : Prop where
  size : launch.nodes ≤ (getQueueLimits config launch.queue launch.instanceType).maxClusterSize
  nodes : ledger.nodes launch.queue launch.instanceType + launchedNodes before launch.queue launch.instanceType +
    launch.nodes ≤ (getQueueLimits config launch.queue launch.instanceType).maxNumberNodes
  count : ((ledger.indexes launch.queue launch.instanceType).length : Int) +
    (launchesOf before launch.queue launch.instanceType).length + 1 ≤
      (getQueueLimits config launch.queue launch.instanceType).maxClusterCount
  newDir : ∀ dir ∈ dirs, dir.name ≠ launch.clusterName
  newName : ∀ other ∈ before, other.clusterName ≠ launch.clusterName

/-! ## Types and keywords of a plain configuration -/

theorem getJobConfig_mem {q t : String} {jobconfig : JobConfig} (h : getJobConfig config q t = some jobconfig) :
    ∃ partition ∈ config, partition.name = q ∧ ∃ item ∈ partition.instanceTypes,
      item.name = t ∧ item.instanceKeyword = jobconfig.instanceKeyword := by
  unfold getJobConfig firstOf at h
  obtain ⟨partition, hmem, hpick⟩ := List.exists_of_findSome?_eq_some h
  split at hpick
  case isFalse => cases hpick
  case isTrue hname =>
    obtain ⟨item, hfind, rfl⟩ := Option.map_eq_some_iff.mp hpick
    have hitem := List.find?_some hfind
    rw [decide_eq_true_eq] at hitem
    exact ⟨partition, hmem, hname.symm, item, List.mem_of_find?_eq_some hfind, hitem.symm, rfl⟩

theorem maxClusterCount_lt (hsmall : SmallCounts config) (q t : String) :
    (getQueueLimits config q t).maxClusterCount < 10000 := by
  unfold getQueueLimits firstOf
  generalize hfirst : config.findSome? _ = found
  cases found with
  | none => exact (by decide : (0 : Int) < 10000)
  | some limits =>
    obtain ⟨partition, hmem, hpick⟩ := List.exists_of_findSome?_eq_some hfirst
    split at hpick
    case isFalse => cases hpick
    case isTrue =>
      obtain ⟨item, hfind, rfl⟩ := Option.map_eq_some_iff.mp hpick
      exact hsmall partition hmem item (List.mem_of_find?_eq_some hfind)

/-- In a plain configuration the keyword tells the instance type. -/
theorem getInstanceType_keyword (hplain : PlainKeywords config) {partition : Partition} (hmem : partition ∈ config)
    {item : InstanceType} (hitem : item ∈ partition.instanceTypes) :
    getInstanceType config partition.name item.instanceKeyword = some item.name := by
  have hsome : (getInstanceType config partition.name item.instanceKeyword).isSome := by
    unfold getInstanceType firstOf
    rw [List.findSome?_isSome_iff]
    refine ⟨partition, hmem, ?_⟩
    rw [if_pos rfl, Option.isSome_map, List.find?_isSome]
    exact ⟨item, hitem, decide_eq_true rfl⟩
  obtain ⟨name, hname⟩ := Option.isSome_iff_exists.mp hsome
  rw [hname]
  unfold getInstanceType firstOf at hname
  obtain ⟨other, hother, hpick⟩ := List.exists_of_findSome?_eq_some hname
  split at hpick
  case isFalse => cases hpick
  case isTrue heq =>
    have hsame : partition = other := List.inj_on_of_nodup_map hplain.names hmem hother heq
    subst hsame
    obtain ⟨found, hfind, rfl⟩ := Option.map_eq_some_iff.mp hpick
    have hkeyword := List.find?_some hfind
    rw [decide_eq_true_eq] at hkeyword
    have hitem' : item = found :=
      List.inj_on_of_nodup_map (hplain.keywords partition hmem) hitem (List.mem_of_find?_eq_some hfind) hkeyword
    rw [hitem']

/-! ## The counters -/

/-- The loop's counters account for the clusters and nodes at the start and for every launch so far. -/
structure Accounts (config : QueueConfig) (ledger : Ledger) (s : LoopState) (before : List Launch) : Prop where
  nodes : ∀ q t, nodesIn s q t = ledger.nodes q t + launchedNodes before q t
  count : ∀ q t, (ledger.indexes q t).length + (launchesOf before q t).length ≤ (usedIn s q t).length
  existing : ∀ q t, ledger.indexes q t ⊆ usedIn s q t
  named : ∀ launch ∈ before, ∃ n jobconfig, getJobConfig config launch.queue launch.instanceType = some jobconfig ∧
    launch.clusterName = clusterNameOf launch.queue (some n) jobconfig.instanceKeyword ∧
    (n : Int) ∈ usedIn s launch.queue launch.instanceType

theorem launchesOf_append (a : List Launch) (launch : Launch) (q t : String) :
    launchesOf (a ++ [launch]) q t =
      launchesOf a q t ++ if (q, t) = (launch.queue, launch.instanceType) then [launch] else [] := by
  unfold launchesOf
  rw [List.filter_append]
  congr 1
  by_cases h : (q, t) = (launch.queue, launch.instanceType)
  · obtain ⟨rfl, rfl⟩ := Prod.mk.injEq .. ▸ h
    simp
  · rw [if_neg h, List.filter_cons_of_neg, List.filter_nil]
    simp only [decide_eq_true_eq]
    rintro ⟨rfl, rfl⟩
    exact h rfl

theorem usedIn_subset {s s' : LoopState} {job : Job} {n : Int} (h : Takes s s' job n) (q t : String) :
    usedIn s q t ⊆ usedIn s' q t := by
  by_cases hkey : (q, t) = (job.queue, job.instanceType)
  · obtain ⟨rfl, rfl⟩ := Prod.mk.injEq .. ▸ hkey
    rw [h.used]
    exact List.subset_append_left _ _
  · rw [(h.other q t hkey).1]
    exact fun _ hx => hx

theorem usedIn_length {s s' : LoopState} {job : Job} {n : Int} (h : Takes s s' job n) (q t : String) :
    (usedIn s q t).length ≤ (usedIn s' q t).length := by
  by_cases hkey : (q, t) = (job.queue, job.instanceType)
  · obtain ⟨rfl, rfl⟩ := Prod.mk.injEq .. ▸ hkey
    rw [h.used, List.length_append]
    exact Nat.le_add_right _ _
  · rw [(h.other q t hkey).1]

theorem Accounts.skip {ledger : Ledger} {s s' : LoopState} {before : List Launch} {job : Job}
    (h : Accounts config ledger s before) (htakes : Takes s s' job 0) : Accounts config ledger s' before := by
  refine ⟨fun q t => ?_, fun q t => le_trans (h.count q t) (usedIn_length htakes q t),
    fun q t => List.Subset.trans (h.existing q t) (usedIn_subset htakes q t), fun launch hlaunch => ?_⟩
  · rw [← h.nodes]
    by_cases hkey : (q, t) = (job.queue, job.instanceType)
    · obtain ⟨rfl, rfl⟩ := Prod.mk.injEq .. ▸ hkey
      rw [htakes.nodes, add_zero]
    · exact (htakes.other q t hkey).2
  · obtain ⟨n, jobconfig, hconfig, hname, hmem⟩ := h.named launch hlaunch
    exact ⟨n, jobconfig, hconfig, hname, usedIn_subset htakes _ _ hmem⟩

theorem Accounts.launch {ledger : Ledger} {s s' : LoopState} {before : List Launch} {job : Job} {n : Nat}
    {jobconfig : JobConfig} (h : Accounts config ledger s before) (htakes : Takes s s' job job.nodes)
    (hconfig : getJobConfig config job.queue job.instanceType = some jobconfig)
    (hindex : nextIndexOf (usedIn s job.queue job.instanceType) = some n) :
    Accounts config ledger s' (before ++ [launchOf job (some n) jobconfig.instanceKeyword]) := by
  have hused : usedIn s' job.queue job.instanceType = usedIn s job.queue job.instanceType ++ [(n : Int)] := by
    rw [htakes.used, hindex]
    rfl
  have hlaunches : ∀ q t, launchesOf (before ++ [launchOf job (some n) jobconfig.instanceKeyword]) q t =
      launchesOf before q t ++ if (q, t) = (job.queue, job.instanceType) then
        [launchOf job (some n) jobconfig.instanceKeyword] else [] := fun q t => launchesOf_append before _ q t
  refine ⟨fun q t => ?_, fun q t => ?_,
    fun q t => List.Subset.trans (h.existing q t) (usedIn_subset htakes q t), fun launch hlaunch => ?_⟩
  · unfold launchedNodes
    rw [hlaunches, List.map_append, List.sum_append]
    have hold := h.nodes q t
    unfold launchedNodes at hold
    by_cases hkey : (q, t) = (job.queue, job.instanceType)
    · rw [if_pos hkey]
      obtain ⟨rfl, rfl⟩ := Prod.mk.injEq .. ▸ hkey
      rw [htakes.nodes, hold]
      unfold launchOf
      simp only [List.map_cons, List.map_nil, List.sum_cons, List.sum_nil]
      omega
    · rw [if_neg hkey, (htakes.other q t hkey).2, hold, List.map_nil, List.sum_nil, add_zero]
  · have hold := h.count q t
    rw [hlaunches, List.length_append]
    by_cases hkey : (q, t) = (job.queue, job.instanceType)
    · rw [if_pos hkey]
      obtain ⟨rfl, rfl⟩ := Prod.mk.injEq .. ▸ hkey
      rw [hused, List.length_append]
      simp only [List.length_cons, List.length_nil]
      omega
    · rw [if_neg hkey, (htakes.other q t hkey).1]
      simpa using hold
  · rcases List.mem_append.mp hlaunch with hin | hin
    · obtain ⟨m, other, hother, hname, hmem⟩ := h.named launch hin
      exact ⟨m, other, hother, hname, usedIn_subset htakes _ _ hmem⟩
    · rw [List.mem_singleton.mp hin]
      refine ⟨n, jobconfig, hconfig, rfl, ?_⟩
      show (n : Int) ∈ usedIn s' job.queue job.instanceType
      rw [hused]
      exact List.mem_append_right _ (List.mem_singleton.mpr rfl)

/-- A name not taken: the index is none of a directory's and none of a launch's of the same queue and type. -/
theorem Accounts.newName {ledger : Ledger} {s : LoopState} {before : List Launch} {job : Job} {n : Nat}
    {jobconfig : JobConfig} (h : Accounts config ledger s before) (hplain : PlainKeywords config)
    (hconfig : getJobConfig config job.queue job.instanceType = some jobconfig)
    (hindex : (n : Int) ∉ usedIn s job.queue job.instanceType) :
    ∀ other ∈ before, other.clusterName ≠ clusterNameOf job.queue (some n) jobconfig.instanceKeyword := by
  intro other hother heq
  obtain ⟨m, otherconfig, hotherconfig, hname, hmem⟩ := h.named other hother
  obtain ⟨partition, hpart, hqueue, item, hitem, htype, hkeyword⟩ := getJobConfig_mem hconfig
  obtain ⟨partition', hpart', hqueue', item', hitem', htype', hkeyword'⟩ := getJobConfig_mem hotherconfig
  have hparse := parseClusterName_clusterNameOf hplain hpart hitem n
  have hparse' := parseClusterName_clusterNameOf hplain hpart' hitem' m
  rw [hqueue, hkeyword] at hparse
  rw [hqueue', hkeyword', ← hname, heq, hparse] at hparse'
  simp only [Except.ok.injEq, Option.some.injEq, Prod.mk.injEq, Int.natCast_inj] at hparse'
  obtain ⟨hq, rfl, hk⟩ := hparse'
  have hsame := getInstanceType_keyword hplain hpart hitem
  have hsame' := getInstanceType_keyword hplain hpart' hitem'
  rw [hqueue, hkeyword, htype] at hsame
  rw [hqueue', hkeyword', htype', ← hq, ← hk, hsame, Option.some.injEq] at hsame'
  rw [← hq, ← hsame'] at hmem
  exact hindex hmem

theorem newDir_of_existing (hplain : PlainKeywords config) {dirs : List ClusterDir} {q t : String} {n : Nat}
    {jobconfig : JobConfig} (hconfig : getJobConfig config q t = some jobconfig)
    (hindex : (n : Int) ∉ existingIndexes config dirs q t) :
    ∀ dir ∈ dirs, dir.name ≠ clusterNameOf q (some n) jobconfig.instanceKeyword := by
  intro dir hdir heq
  obtain ⟨partition, hpart, hqueue, item, hitem, htype, hkeyword⟩ := getJobConfig_mem hconfig
  have hparse := parseClusterName_clusterNameOf hplain hpart hitem n
  have hsame := getInstanceType_keyword hplain hpart hitem
  rw [hqueue, hkeyword, ← heq] at hparse
  rw [hqueue, hkeyword, htype] at hsame
  have hkey : dirKey config dir = .ok (some (q, (n : Int), t)) := by
    unfold dirKey
    rw [hparse]
    show Except.ok ((getInstanceType config q jobconfig.instanceKeyword).map _) = _
    rw [hsame]
    rfl
  refine hindex (List.mem_filterMap.mpr ⟨dir, hdir, ?_⟩)
  rw [hkey]
  dsimp only
  rw [if_pos ⟨rfl, rfl⟩]

/-! ## Every launch of the loop -/

theorem buildLoop_within_caps (hplain : PlainKeywords config) (hsmall : SmallCounts config)
    {dirs : List ClusterDir} {ledger : Ledger} (hledger : ledger.indexes = existingIndexes config dirs)
    {jobs : List Job} {s : LoopState} {before : List Launch}
    (hconfig : ∀ job ∈ jobs, (getJobConfig config job.queue job.instanceType).isSome)
    (haccounts : Accounts config ledger s before) {first : List Launch} {launch : Launch} {after : List Launch}
    (hsplit : (buildLoop config s jobs).1 = first ++ launch :: after) :
    WithinCaps config ledger dirs (before ++ first) launch := by
  induction jobs generalizing s before first with
  | nil => exact absurd hsplit.symm (by simp [buildLoop])
  | cons job rest ih =>
    have hrest : ∀ j ∈ rest, (getJobConfig config j.queue j.instanceType).isSome :=
      fun j hj => hconfig j (List.mem_cons_of_mem job hj)
    by_cases hfull : (getQueueLimits config job.queue job.instanceType).maxClusterCount ≤
        (usedIn s job.queue job.instanceType).length
    · rw [buildLoop_skip rest (buildStep_full hfull)] at hsplit
      exact ih hrest haccounts hsplit
    · obtain ⟨jobconfig, hjobconfig⟩ := Option.isSome_iff_exists.mp (hconfig job List.mem_cons_self)
      obtain ⟨hyes, hno⟩ := buildStep_slot (not_le.mp hfull) hjobconfig
      by_cases hfits : Fits config (nodesIn s job.queue job.instanceType) job
      · obtain ⟨s', htakes, hstep⟩ := hyes hfits
        -- below the limit, itself below 10000, there is a free index
        have hfree : nextIndexOf (usedIn s job.queue job.instanceType) =
            some (freshIndex (usedIn s job.queue job.instanceType)) := by
          have hlimit := maxClusterCount_lt hsmall job.queue job.instanceType
          have hfresh := (freshIndex_spec (usedIn s job.queue job.instanceType)).2.1.2
          rw [nextIndexOf_eq, if_pos (by omega)]
        have hunused := (nextIndexOf_eq_some.mp hfree).1
        rw [hfree] at hstep
        rw [buildLoop_launch rest hstep] at hsplit
        cases first with
        | nil =>
          rw [List.nil_append, List.cons.injEq] at hsplit
          obtain ⟨rfl, -⟩ := hsplit
          rw [List.append_nil]
          have hcount := haccounts.count job.queue job.instanceType
          have hroom := hfits.2
          rw [haccounts.nodes] at hroom
          refine ⟨hfits.1, hroom, ?_, ?_, haccounts.newName hplain hjobconfig hunused⟩
          · show ((ledger.indexes job.queue job.instanceType).length : Int) +
              (launchesOf before job.queue job.instanceType).length + 1 ≤
                (getQueueLimits config job.queue job.instanceType).maxClusterCount
            omega
          · refine newDir_of_existing hplain hjobconfig fun hin => hunused ?_
            rw [← hledger] at hin
            exact haccounts.existing _ _ hin
        | cons head others =>
          rw [List.cons_append, List.cons.injEq] at hsplit
          obtain ⟨rfl, htail⟩ := hsplit
          have := ih hrest (haccounts.launch htakes hjobconfig hfree) htail
          rwa [List.append_assoc, List.singleton_append] at this
      · obtain ⟨s', htakes, hstep⟩ := hno hfits
        rw [buildLoop_skip rest hstep] at hsplit
        exact ih hrest (haccounts.skip htakes) hsplit

/-- A list in which no entry has the key of an earlier one. -/
theorem nodup_map_of_split {α β : Type} {f : α → β} {l : List α}
    (h : ∀ before x after, l = before ++ x :: after → ∀ y ∈ before, f y ≠ f x) : (l.map f).Nodup := by
  induction l using List.reverseRecOn with
  | nil => exact List.nodup_nil
  | append_singleton rest x ih =>
    have hrest : (rest.map f).Nodup := by
      refine ih fun before y after hsplit => h before y (after ++ [x]) ?_
      rw [hsplit, List.append_assoc, List.cons_append]
    rw [List.map_append]
    refine List.Nodup.append hrest (List.nodup_singleton _) fun b hb hx => ?_
    obtain ⟨y, hy, rfl⟩ := List.mem_map.mp hb
    exact h rest x [] rfl y hy (List.mem_singleton.mp hx)

/-- **Every launch of a pass is within the limits and has a name of its own**: not that of a cluster directory, not
that of another launch. -/
theorem pass_within_caps (config : QueueConfig) (hplain : PlainKeywords config) (hsmall : SmallCounts config)
    (seen : Observed) :
    (∀ before launch after, (pass config seen).created = before ++ launch :: after →
      WithinCaps config (startLedger config seen) seen.dirs before launch) ∧
      ((pass config seen).created.map (·.clusterName)).Nodup := by
  have hcaps : ∀ before launch after, (pass config seen).created = before ++ launch :: after →
      WithinCaps config (startLedger config seen) seen.dirs before launch := by
    intro before launch after hsplit
    by_cases hreadable : Readable config seen
    · obtain ⟨s, jobs, hjobs, hstart, hcreated⟩ := pass_created hreadable
      have haccounts : Accounts config (startLedger config seen) s [] := by
        refine ⟨fun q t => ?_, fun q t => ?_, fun q t => ?_, fun launch hlaunch => absurd hlaunch List.not_mem_nil⟩
        · rw [(hstart q t).2]
          exact (add_zero _).symm
        · rw [(hstart q t).1]
          exact le_refl _
        · rw [(hstart q t).1]
          exact fun _ hx => hx
      rw [hcreated] at hsplit
      exact buildLoop_within_caps hplain hsmall rfl
        (fun job hjob => clusterToBuild_configured hjobs job (mem_of_mem_cancelBuilt hjob)) haccounts hsplit
    · rw [pass_unreadable hreadable] at hsplit
      exact absurd hsplit.symm (by simp)
  refine ⟨hcaps, ?_⟩
  exact nodup_map_of_split fun before launch after hsplit => (hcaps before launch after hsplit).newName

/-- One pass with a job for a cluster of four nodes. -/
def oneJob : Observed where
  jobs := ["PENDING 12 (null) 4 compute bob (null) ", ""]
  listing := [""]
  ask := fun _ _ =>
    { details := "", topology := "", jobEnds := "", slurmdStart := "", clockAtFallback := 0, clock := 0 }
  dirs := [{ name := "compute-1-hpc", currentlyBuilding := none, currentlyDestroying := false }]

theorem hpcQueues_plain : PlainKeywords hpcQueues := ⟨by decide, by decide, by decide⟩

theorem hpcQueues_smallCounts : SmallCounts hpcQueues := by
  unfold SmallCounts
  decide

/-- Two more jobs, the last of them too large for a cluster. -/
def threeJobs : Observed :=
  { oneJob with
    jobs := oneJob.jobs ++ ["PENDING 13 (null) 2 compute ann (null) ", "PENDING 14 (null) 30 compute ann (null) "] }

/-- The launches of the jobs keep the caps, each after the ones before. -/
theorem pass_within_caps_threeJobs :
    (pass hpcQueues threeJobs).created.map (·.clusterName) = ["compute-2-hpc", "compute-3-hpc"] ∧
      (∀ before launch after, (pass hpcQueues threeJobs).created = before ++ launch :: after →
        WithinCaps hpcQueues (startLedger hpcQueues threeJobs) threeJobs.dirs before launch) ∧
      ((pass hpcQueues threeJobs).created.map (·.clusterName)).Nodup :=
  ⟨by decide +kernel, pass_within_caps hpcQueues hpcQueues_plain hpcQueues_smallCounts threeJobs⟩

end OciHpc.Autoscale
