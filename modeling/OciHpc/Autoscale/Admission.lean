import Mathlib.Data.List.Perm.Subperm
import Mathlib.Data.Set.Insert
import OciHpc.Autoscale.Pass

/-!
# Admission against the greedy reference

* `Ledger`, `greedy`, `referencePass` : the reference, which launches each pending job whose size, node total and
  cluster count are within the limits and leaves every other job without effect;
* `freshIndex` : the least index a queue and type does not use;
* `Undisturbed` : no job is turned down for its size or its nodes before the reference launches another of the
  same queue and type, and no launch needs an index from 10000 on;
* `Tracks` : the loop's counters against the ledger, but for the queues and types where a job that was turned
  down has taken an index (`burnt`);
* `buildLoop_eq_greedy`, `undisturbed_of_eq` : the loop launches what the reference does if, and only if, it is
  undisturbed;
* `created_eq_reference_iff` : the same for a whole pass; `oversized_job_takes_index` : a pass that differs.
-/

namespace OciHpc.Autoscale
variable {config : QueueConfig}

/-! ## The reference -/

/-- What is counted for each queue and instance type: the indexes of its clusters, existing or launched, and its
nodes, running, being built or launched. -/
structure Ledger where
  indexes : String → String → List Int
  nodes : String → String → Int

/-- The least positive number that is not an index. -/
def freshIndex (indexes : List Int) : Nat :=
  ((List.range' 1 (indexes.length + 1)).find? fun i : Nat => (i : Int) ∉ indexes).getD 0

def HasSlot (config : QueueConfig) (ledger : Ledger) (job : Job) : Prop :=
  ((ledger.indexes job.queue job.instanceType).length : Int) <
    (getQueueLimits config job.queue job.instanceType).maxClusterCount

instance (ledger : Ledger) (job : Job) : Decidable (HasSlot config ledger job) := by
  unfold HasSlot; infer_instance

/-- The job is within the limits: cluster count, size and node total. -/
def Admits (config : QueueConfig) (ledger : Ledger) (job : Job) : Prop :=
  HasSlot config ledger job ∧ Fits config (ledger.nodes job.queue job.instanceType) job

instance (ledger : Ledger) (job : Job) : Decidable (Admits config ledger job) := by
  unfold Admits; infer_instance

def Ledger.launch (ledger : Ledger) (job : Job) : Ledger where
  indexes := fun q t =>
    if (q, t) = (job.queue, job.instanceType) then
      ledger.indexes q t ++ [(freshIndex (ledger.indexes q t) : Int)]
    else ledger.indexes q t
  nodes := fun q t =>
    if (q, t) = (job.queue, job.instanceType) then ledger.nodes q t + job.nodes else ledger.nodes q t

def keywordOf (config : QueueConfig) (job : Job) : String :=
  ((getJobConfig config job.queue job.instanceType).map (·.instanceKeyword)).getD ""

/-- The pending jobs in order: each within the limits is launched, any other has no effect. -/
def greedy (config : QueueConfig) : Ledger → List Job → List Launch
  | _, [] => []
  | ledger, job :: rest =>
    if Admits config ledger job then
      launchOf job (some (freshIndex (ledger.indexes job.queue job.instanceType))) (keywordOf config job) ::
        greedy config (ledger.launch job) rest
    else greedy config ledger rest

/-- The pending jobs that can be read: a job whose partition or instance type is not configured is skipped. -/
def pendingJobs (config : QueueConfig) (lines : List String) : List Job :=
  lines.filterMap fun line =>
    match jobOfLine config line with
    | .ok job => job
    | .error _ => none

/-- The clusters and nodes at the start of the pass. -/
def startLedger (config : QueueConfig) (seen : Observed) : Ledger where
  indexes := existingIndexes config seen.dirs
  nodes := fun q t => runningNodes (rowsOf seen) q t + buildingNodesIn (buildings config seen.dirs) q t

/-- The jobs left when one is cancelled for each cluster being built. -/
def openJobs (config : QueueConfig) (seen : Observed) : List Job :=
  cancelBuilt (buildings config seen.dirs) (pendingJobs config seen.jobs)

def referencePass (config : QueueConfig) (seen : Observed) : List Launch :=
  greedy config (startLedger config seen) (openJobs config seen)

/-- No job that is turned down though there is a slot comes before a launch of its queue and type, and no launch
needs an index beyond 9999. -/
def Undisturbed (config : QueueConfig) : Ledger → List Job → Prop
  | _, [] => True
  | ledger, job :: rest =>
    if Admits config ledger job then
      freshIndex (ledger.indexes job.queue job.instanceType) < 10000 ∧
        Undisturbed config (ledger.launch job) rest
    else
      (HasSlot config ledger job →
        ∀ launch ∈ greedy config ledger rest, (launch.queue, launch.instanceType) ≠ (job.queue, job.instanceType)) ∧
        Undisturbed config ledger rest

/-! ## Fresh indexes -/

/-- Among one number more than there are indexes, one is free. -/
theorem freshIndex_spec (indexes : List Int) :
    (freshIndex indexes : Int) ∉ indexes ∧ (1 ≤ freshIndex indexes ∧ freshIndex indexes ≤ indexes.length + 1) ∧
      ∀ j, 1 ≤ j → j < freshIndex indexes → (j : Int) ∈ indexes := by
  unfold freshIndex
  cases hfind : (List.range' 1 (indexes.length + 1)).find? fun i : Nat => (i : Int) ∉ indexes with
  | some i =>
    rw [List.find?_range'_eq_some] at hfind
    simp only [decide_eq_true_eq, List.mem_range'_1, Bool.not_eq_true', decide_eq_false_iff_not, not_not] at hfind
    obtain ⟨hfree, ⟨hpos, hlt⟩, hleast⟩ := hfind
    exact ⟨hfree, ⟨hpos, by simpa using Nat.le_of_lt_succ (by omega)⟩, hleast⟩
  | none =>
    rw [List.find?_eq_none] at hfind
    simp only [decide_eq_true_eq, not_not] at hfind
    have hsub : (List.range' 1 (indexes.length + 1)).map Int.ofNat ⊆ indexes := by
      intro x hx
      obtain ⟨i, hi, rfl⟩ := List.mem_map.mp hx
      exact hfind i hi
    have hnodup : ((List.range' 1 (indexes.length + 1)).map Int.ofNat).Nodup :=
      List.Nodup.map (fun a b h => Int.ofNat.inj h) List.nodup_range'
    have hlength := (List.subperm_of_subset hnodup hsub).length_le
    rw [List.length_map, List.length_range'] at hlength
    omega

/-- The loop's next index is the fresh one as long as that is below 10000. -/
theorem nextIndexOf_eq (indexes : List Int) :
    nextIndexOf indexes = if freshIndex indexes < 10000 then some (freshIndex indexes) else none := by
  obtain ⟨hfree, ⟨hpos, -⟩, hleast⟩ := freshIndex_spec indexes
  split
  case isTrue hlt => exact nextIndexOf_eq_some.mpr ⟨hfree, ⟨hpos, hlt⟩, hleast⟩
  case isFalse hge =>
    rw [nextIndexOf_eq_none]
    exact fun j h₁ h₂ => hleast j h₁ (by omega)

theorem clusterNameOf_inj {queue keyword : String} {i : Nat} {index : Option Nat}
    (h : clusterNameOf queue index keyword = clusterNameOf queue (some i) keyword) : index = some i := by
  have hnum : ∀ {a b : String}, queue ++ "-" ++ a ++ "-" ++ keyword = queue ++ "-" ++ b ++ "-" ++ keyword → a = b := by
    intro a b hab
    have hlist := congrArg String.toList hab
    simp only [String.toList_append, List.append_assoc, List.append_cancel_left_eq] at hlist
    rw [← List.append_assoc, ← List.append_assoc] at hlist
    exact String.toList_inj.mp (List.append_cancel_right (List.append_cancel_right hlist))
  cases index with
  | some j =>
    have hrepr : Nat.repr j = Nat.repr i := hnum h
    have hint := PyStr.int_repr j
    rw [hrepr, PyStr.int_repr i] at hint
    rw [Int.ofNat.inj (Option.some.inj hint)]
  | none =>
    have hrepr : "None" = Nat.repr i := hnum h
    have hdigit := PyStr.isDigit_repr i
    rw [← hrepr] at hdigit
    exact absurd hdigit (by decide)

/-! ## The loop against the ledger -/

/-- The loop's counters follow the ledger; for a burnt queue and type the loop has at least as many indexes, the
fresh one among them. -/
structure Tracks (burnt : Set (String × String)) (s : LoopState) (ledger : Ledger) : Prop where
  nodes : ∀ q t, nodesIn s q t = ledger.nodes q t
  same : ∀ q t, (q, t) ∉ burnt → usedIn s q t = ledger.indexes q t
  more : ∀ q t, (ledger.indexes q t).length ≤ (usedIn s q t).length
  taken : ∀ q t, (q, t) ∈ burnt → freshIndex (ledger.indexes q t) < 10000 →
    (freshIndex (ledger.indexes q t) : Int) ∈ usedIn s q t

/-- A job turned down below the limit burns an index of its queue and type. -/
theorem Tracks.burn {burnt : Set (String × String)} {s s' : LoopState} {ledger : Ledger} {job : Job}
    (h : Tracks burnt s ledger) (htakes : Takes s s' job 0) :
    Tracks (insert (job.queue, job.instanceType) burnt) s' ledger := by
  refine ⟨fun q t => ?_, fun q t hq => ?_, fun q t => ?_, fun q t hq hlt => ?_⟩
  · by_cases hkey : (q, t) = (job.queue, job.instanceType)
    · obtain ⟨rfl, rfl⟩ := Prod.mk.injEq .. ▸ hkey
      rw [htakes.nodes, add_zero, h.nodes]
    · rw [(htakes.other q t hkey).2, h.nodes]
  · rw [Set.mem_insert_iff, not_or] at hq
    rw [(htakes.other q t hq.1).1, h.same q t hq.2]
  · by_cases hkey : (q, t) = (job.queue, job.instanceType)
    · obtain ⟨rfl, rfl⟩ := Prod.mk.injEq .. ▸ hkey
      rw [htakes.used, List.length_append]
      exact le_trans (h.more _ _) (Nat.le_add_right _ _)
    · rw [(htakes.other q t hkey).1]
      exact h.more q t
  · by_cases hkey : (q, t) = (job.queue, job.instanceType)
    · obtain ⟨rfl, rfl⟩ := Prod.mk.injEq .. ▸ hkey
      rw [htakes.used, List.mem_append]
      by_cases hburnt : (job.queue, job.instanceType) ∈ burnt
      · exact .inl (h.taken _ _ hburnt hlt)
      · right
        rw [h.same _ _ hburnt, nextIndexOf_eq, if_pos hlt]
        exact List.mem_singleton.mpr rfl
    · rw [(htakes.other q t hkey).1]
      exact h.taken q t ((Set.mem_insert_iff.mp hq).resolve_left hkey) hlt

/-- A launch of both, of a queue and type that is not burnt. -/
theorem Tracks.launch {burnt : Set (String × String)} {s s' : LoopState} {ledger : Ledger} {job : Job}
    (h : Tracks burnt s ledger) (hburnt : (job.queue, job.instanceType) ∉ burnt)
    (hfresh : freshIndex (ledger.indexes job.queue job.instanceType) < 10000)
    (htakes : Takes s s' job job.nodes) : Tracks burnt s' (ledger.launch job) := by
  have hself : usedIn s' job.queue job.instanceType = (ledger.launch job).indexes job.queue job.instanceType := by
    rw [htakes.used, h.same _ _ hburnt, nextIndexOf_eq, if_pos hfresh]
    unfold Ledger.launch
    dsimp only
    rw [if_pos rfl]
    rfl
  have hother : ∀ q t, (q, t) ≠ (job.queue, job.instanceType) →
      (ledger.launch job).indexes q t = ledger.indexes q t ∧ (ledger.launch job).nodes q t = ledger.nodes q t := by
    intro q t hkey
    unfold Ledger.launch
    dsimp only
    rw [if_neg hkey, if_neg hkey]
    exact ⟨rfl, rfl⟩
  refine ⟨fun q t => ?_, fun q t hq => ?_, fun q t => ?_, fun q t hq hlt => ?_⟩
  · by_cases hkey : (q, t) = (job.queue, job.instanceType)
    · obtain ⟨rfl, rfl⟩ := Prod.mk.injEq .. ▸ hkey
      rw [htakes.nodes, h.nodes]
      unfold Ledger.launch
      dsimp only
      rw [if_pos rfl]
    · rw [(htakes.other q t hkey).2, h.nodes, (hother q t hkey).2]
  · by_cases hkey : (q, t) = (job.queue, job.instanceType)
    · obtain ⟨rfl, rfl⟩ := Prod.mk.injEq .. ▸ hkey
      exact hself
    · rw [(htakes.other q t hkey).1, h.same q t hq, (hother q t hkey).1]
  · by_cases hkey : (q, t) = (job.queue, job.instanceType)
    · obtain ⟨rfl, rfl⟩ := Prod.mk.injEq .. ▸ hkey
      rw [hself]
    · rw [(htakes.other q t hkey).1, (hother q t hkey).1]
      exact h.more q t
  · have hkey : (q, t) ≠ (job.queue, job.instanceType) := by
      rintro heq
      exact hburnt (heq ▸ hq)
    rw [(hother q t hkey).1] at hlt ⊢
    rw [(htakes.other q t hkey).1]
    exact h.taken q t hq hlt

/-- One turn of the loop against the ledger: the job is launched when the limits allow it and the loop has a slot,
and the loop has no slot the ledger does not have. -/
theorem Tracks.turn {burnt : Set (String × String)} {s : LoopState} {ledger : Ledger} {job : Job}
    (h : Tracks burnt s ledger) (hconfig : (getJobConfig config job.queue job.instanceType).isSome) :
    (buildStep config s job = .ok (s, none) ∧
      (getQueueLimits config job.queue job.instanceType).maxClusterCount ≤
        (usedIn s job.queue job.instanceType).length) ∨
    (HasSlot config ledger job ∧ ∃ s',
      (Fits config (ledger.nodes job.queue job.instanceType) job → Takes s s' job job.nodes ∧
        buildStep config s job = .ok (s', some (launchOf job
          (nextIndexOf (usedIn s job.queue job.instanceType)) (keywordOf config job)))) ∧
      (¬ Fits config (ledger.nodes job.queue job.instanceType) job → Takes s s' job 0 ∧
        buildStep config s job = .ok (s', none))) := by
  by_cases hfull : (getQueueLimits config job.queue job.instanceType).maxClusterCount ≤
      (usedIn s job.queue job.instanceType).length
  · exact .inl ⟨buildStep_full hfull, hfull⟩
  · obtain ⟨jobconfig, hjobconfig⟩ := Option.isSome_iff_exists.mp hconfig
    have hkeyword : keywordOf config job = jobconfig.instanceKeyword := by
      unfold keywordOf
      rw [hjobconfig]
      rfl
    obtain ⟨hyes, hno⟩ := buildStep_slot (not_le.mp hfull) hjobconfig
    rw [h.nodes] at hyes hno
    have hmore := h.more job.queue job.instanceType
    refine .inr ⟨?_, ?_⟩
    · unfold HasSlot
      omega
    · rw [hkeyword]
      by_cases hfits : Fits config (ledger.nodes job.queue job.instanceType) job
      · obtain ⟨s', htakes, hstep⟩ := hyes hfits
        exact ⟨s', fun _ => ⟨htakes, hstep⟩, fun hnot => absurd hfits hnot⟩
      · obtain ⟨s', htakes, hstep⟩ := hno hfits
        exact ⟨s', fun hfits' => absurd hfits' hfits, fun _ => ⟨htakes, hstep⟩⟩

theorem buildLoop_skip {s s' : LoopState} {job : Job} (rest : List Job)
    (h : buildStep config s job = .ok (s', none)) :
    (buildLoop config s (job :: rest)).1 = (buildLoop config s' rest).1 := by
  rw [buildLoop, h]
  rfl

theorem buildLoop_launch {s s' : LoopState} {job : Job} {launch : Launch} (rest : List Job)
    (h : buildStep config s job = .ok (s', some launch)) :
    (buildLoop config s (job :: rest)).1 = launch :: (buildLoop config s' rest).1 := by
  rw [buildLoop, h]
  rfl

/-- **An undisturbed loop launches what the reference does.** -/
theorem buildLoop_eq_greedy {jobs : List Job} {burnt : Set (String × String)} {s : LoopState} {ledger : Ledger}
    (htracks : Tracks burnt s ledger)
    (hconfig : ∀ job ∈ jobs, (getJobConfig config job.queue job.instanceType).isSome)
    (hburnt : ∀ launch ∈ greedy config ledger jobs, (launch.queue, launch.instanceType) ∉ burnt)
    (hundisturbed : Undisturbed config ledger jobs) :
    (buildLoop config s jobs).1 = greedy config ledger jobs := by
  induction jobs generalizing burnt s ledger with
  | nil => rfl
  | cons job rest ih =>
    have hrest : ∀ j ∈ rest, (getJobConfig config j.queue j.instanceType).isSome :=
      fun j hj => hconfig j (List.mem_cons_of_mem job hj)
    rw [Undisturbed] at hundisturbed
    rw [greedy] at hburnt ⊢
    rcases htracks.turn (hconfig job List.mem_cons_self) with ⟨hstep, hfull⟩ | ⟨hslot, s', hyes, hno⟩
    · by_cases hadmits : Admits config ledger job
      · -- the key is not burnt, so the loop has the ledger's slot
        rw [if_pos hadmits] at hburnt
        have hkey : (job.queue, job.instanceType) ∉ burnt := hburnt _ List.mem_cons_self
        have hslot := hadmits.1
        unfold HasSlot at hslot
        rw [htracks.same _ _ hkey] at hfull
        omega
      · rw [if_neg hadmits] at hundisturbed hburnt ⊢
        rw [buildLoop_skip rest hstep]
        exact ih htracks hrest hburnt hundisturbed.2
    · by_cases hfits : Fits config (ledger.nodes job.queue job.instanceType) job
      · have hadmits : Admits config ledger job := ⟨hslot, hfits⟩
        rw [if_pos hadmits] at hundisturbed hburnt ⊢
        obtain ⟨htakes, hstep⟩ := hyes hfits
        have hkey : (job.queue, job.instanceType) ∉ burnt := hburnt _ List.mem_cons_self
        rw [buildLoop_launch rest hstep, htracks.same _ _ hkey, nextIndexOf_eq, if_pos hundisturbed.1,
          ih (htracks.launch hkey hundisturbed.1 htakes) hrest
            (fun launch hlaunch => hburnt launch (List.mem_cons_of_mem _ hlaunch)) hundisturbed.2]
      · have hadmits : ¬ Admits config ledger job := fun h => hfits h.2
        rw [if_neg hadmits] at hundisturbed hburnt ⊢
        obtain ⟨htakes, hstep⟩ := hno hfits
        rw [buildLoop_skip rest hstep]
        refine ih (htracks.burn htakes) hrest (fun launch hlaunch => ?_) hundisturbed.2
        rw [Set.mem_insert_iff, not_or]
        exact ⟨hundisturbed.1 hslot launch hlaunch, hburnt launch hlaunch⟩

/-- At the limit of a queue and type nothing of it is launched any more. -/
theorem no_launch_at_limit {jobs : List Job} {s : LoopState} {q t : String}
    (hconfig : ∀ job ∈ jobs, (getJobConfig config job.queue job.instanceType).isSome)
    (hfull : (getQueueLimits config q t).maxClusterCount ≤ (usedIn s q t).length) :
    ∀ launch ∈ (buildLoop config s jobs).1, (launch.queue, launch.instanceType) ≠ (q, t) := by
  induction jobs generalizing s with
  | nil => exact fun launch hlaunch => absurd hlaunch List.not_mem_nil
  | cons job rest ih =>
    have hrest : ∀ j ∈ rest, (getJobConfig config j.queue j.instanceType).isSome :=
      fun j hj => hconfig j (List.mem_cons_of_mem job hj)
    by_cases hjob : (getQueueLimits config job.queue job.instanceType).maxClusterCount ≤
        (usedIn s job.queue job.instanceType).length
    · rw [buildLoop_skip rest (buildStep_full hjob)]
      exact ih hrest hfull
    · have hkey : (q, t) ≠ (job.queue, job.instanceType) := by
        rintro heq
        obtain ⟨rfl, rfl⟩ := Prod.mk.injEq .. ▸ heq
        exact hjob hfull
      obtain ⟨jobconfig, hjobconfig⟩ := Option.isSome_iff_exists.mp (hconfig job List.mem_cons_self)
      obtain ⟨hyes, hno⟩ := buildStep_slot (not_le.mp hjob) hjobconfig
      by_cases hfits : Fits config (nodesIn s job.queue job.instanceType) job
      · obtain ⟨s', htakes, hstep⟩ := hyes hfits
        rw [buildLoop_launch rest hstep]
        intro launch hlaunch
        rcases List.mem_cons.mp hlaunch with rfl | hin
        · exact Ne.symm hkey
        · refine ih hrest ?_ launch hin
          rw [(htakes.other q t hkey).1]
          exact hfull
      · obtain ⟨s', htakes, hstep⟩ := hno hfits
        rw [buildLoop_skip rest hstep]
        refine ih hrest ?_
        rw [(htakes.other q t hkey).1]
        exact hfull

/-- **A loop that launches what the reference does is undisturbed**, and launches nothing of a burnt queue and
type: the index taken there would show in the next name. -/
theorem undisturbed_of_eq {jobs : List Job} {burnt : Set (String × String)} {s : LoopState} {ledger : Ledger}
    (htracks : Tracks burnt s ledger)
    (hconfig : ∀ job ∈ jobs, (getJobConfig config job.queue job.instanceType).isSome)
    (heq : (buildLoop config s jobs).1 = greedy config ledger jobs) :
    (∀ launch ∈ greedy config ledger jobs, (launch.queue, launch.instanceType) ∉ burnt) ∧
      Undisturbed config ledger jobs := by
  induction jobs generalizing burnt s ledger with
  | nil => exact ⟨fun launch hlaunch => absurd hlaunch List.not_mem_nil, trivial⟩
  | cons job rest ih =>
    have hrest : ∀ j ∈ rest, (getJobConfig config j.queue j.instanceType).isSome :=
      fun j hj => hconfig j (List.mem_cons_of_mem job hj)
    rw [Undisturbed]
    rw [greedy] at heq ⊢
    rcases htracks.turn (hconfig job List.mem_cons_self) with ⟨hstep, hfull⟩ | ⟨hslot, s', hyes, hno⟩
    · rw [buildLoop_skip rest hstep] at heq
      by_cases hadmits : Admits config ledger job
      · rw [if_pos hadmits] at heq
        have hlimit := no_launch_at_limit hrest hfull
        rw [heq] at hlimit
        exact absurd rfl (hlimit _ List.mem_cons_self)
      · rw [if_neg hadmits] at heq ⊢
        rw [if_neg hadmits]
        obtain ⟨hburnt, hundisturbed⟩ := ih htracks hrest heq
        refine ⟨hburnt, fun _ launch hlaunch hkey => ?_, hundisturbed⟩
        have hlimit := no_launch_at_limit hrest hfull
        rw [heq] at hlimit
        exact hlimit launch hlaunch hkey
    · by_cases hfits : Fits config (ledger.nodes job.queue job.instanceType) job
      · have hadmits : Admits config ledger job := ⟨hslot, hfits⟩
        obtain ⟨htakes, hstep⟩ := hyes hfits
        rw [buildLoop_launch rest hstep, if_pos hadmits, List.cons.injEq] at heq
        rw [if_pos hadmits, if_pos hadmits]
        obtain ⟨hhead, htail⟩ := heq
        have hindex : nextIndexOf (usedIn s job.queue job.instanceType) =
            some (freshIndex (ledger.indexes job.queue job.instanceType)) :=
          clusterNameOf_inj (congrArg Launch.clusterName hhead)
        obtain ⟨hnot, ⟨-, hlt⟩, -⟩ := nextIndexOf_eq_some.mp hindex
        have hkey : (job.queue, job.instanceType) ∉ burnt := fun hin => hnot (htracks.taken _ _ hin hlt)
        obtain ⟨hburnt, hundisturbed⟩ := ih (htracks.launch hkey hlt htakes) hrest htail
        refine ⟨fun launch hlaunch => ?_, hlt, hundisturbed⟩
        rcases List.mem_cons.mp hlaunch with rfl | hin
        · exact hkey
        · exact hburnt launch hin
      · have hadmits : ¬ Admits config ledger job := fun h => hfits h.2
        obtain ⟨htakes, hstep⟩ := hno hfits
        rw [buildLoop_skip rest hstep, if_neg hadmits] at heq
        rw [if_neg hadmits, if_neg hadmits]
        obtain ⟨hburnt, hundisturbed⟩ := ih (htracks.burn htakes) hrest heq
        refine ⟨fun launch hlaunch hin => ?_, fun _ launch hlaunch hkey => ?_, hundisturbed⟩
        · exact hburnt launch hlaunch (Set.mem_insert_of_mem _ hin)
        · exact hburnt launch hlaunch (hkey ▸ Set.mem_insert _ burnt)

/-! ## A whole pass -/

theorem pendingJobs_eq {lines : List String} {jobs : List Job} (h : clusterToBuild config lines = .ok jobs) :
    pendingJobs config lines = jobs := by
  induction lines generalizing jobs with
  | nil => cases h; rfl
  | cons line rest ih =>
    rw [clusterToBuild] at h
    obtain ⟨first, hfirst, h⟩ := bind_eq_ok h
    obtain ⟨others, hothers, h⟩ := bind_eq_ok h
    cases h
    unfold pendingJobs at *
    rw [List.filterMap_cons, hfirst]
    cases first with
    | none => exact ih hothers
    | some job => exact congrArg (job :: ·) (ih hothers)

/-- A pass that raises nothing launches the clusters of the reference exactly when it is undisturbed. -/
theorem created_eq_iff_of_readable {seen : Observed} (hreadable : Readable config seen) :
    (pass config seen).created = referencePass config seen ↔
      Undisturbed config (startLedger config seen) (openJobs config seen) := by
  obtain ⟨s, jobs, hjobs, hstart, hcreated⟩ := pass_created hreadable
  have hopen : openJobs config seen = cancelBuilt (buildings config seen.dirs) jobs := by
    unfold openJobs
    rw [pendingJobs_eq hjobs]
  have htracks : Tracks ∅ s (startLedger config seen) :=
    ⟨fun q t => (hstart q t).2, fun q t _ => (hstart q t).1, fun q t => (hstart q t).1 ▸ le_refl _,
      fun q t hq => absurd hq (Set.notMem_empty _)⟩
  have hconfig : ∀ job ∈ openJobs config seen, (getJobConfig config job.queue job.instanceType).isSome := by
    intro job hjob
    rw [hopen] at hjob
    exact clusterToBuild_configured hjobs job (mem_of_mem_cancelBuilt hjob)
  rw [hcreated, ← hopen]
  unfold referencePass
  constructor
  · exact fun heq => (undisturbed_of_eq htracks hconfig heq).2
  · exact fun hundisturbed => buildLoop_eq_greedy htracks hconfig (fun _ _ => Set.notMem_empty _) hundisturbed

/-- **One pass launches the clusters of the reference** exactly when nothing it reads makes it raise and the jobs
are undisturbed, or when it raises and there is nothing to launch. -/
theorem created_eq_reference_iff (config : QueueConfig) (seen : Observed) :
    (pass config seen).created = referencePass config seen ↔
      (Readable config seen ∧ Undisturbed config (startLedger config seen) (openJobs config seen)) ∨
        (¬ Readable config seen ∧ referencePass config seen = []) := by
  by_cases hreadable : Readable config seen
  · rw [created_eq_iff_of_readable hreadable]
    constructor
    · exact fun hundisturbed => .inl ⟨hreadable, hundisturbed⟩
    · rintro (⟨-, hundisturbed⟩ | ⟨hnot, -⟩)
      · exact hundisturbed
      · exact absurd hreadable hnot
  · rw [pass_unreadable hreadable]
    constructor
    · exact fun heq => .inr ⟨hreadable, heq.symm⟩
    · rintro (⟨hyes, -⟩ | ⟨-, heq⟩)
      · exact absurd hyes hreadable
      · exact heq.symm

/-- Two pending jobs, the first larger than a cluster may be. -/
def oversizedFirst : Observed where
  jobs := ["PENDING 11 (null) 30 compute ann (null) ", "PENDING 12 (null) 4 compute bob (null) ", ""]
  listing := [""]
  ask := fun _ _ =>
    { details := "", topology := "", jobEnds := "", slurmdStart := "", clockAtFallback := 0, clock := 0 }
  dirs := []

/-- The job that is not launched takes the first index: the other's cluster gets the second. -/
theorem oversized_job_takes_index :
    (pass hpcQueues oversizedFirst).created ≠ referencePass hpcQueues oversizedFirst := by
  have hreadable : Readable hpcQueues oversizedFirst := ⟨by decide, by decide, by decide⟩
  have hjobs : openJobs hpcQueues oversizedFirst =
      [{ nodes := 30, instanceType := "hpc", queue := "compute", jobID := 11, user := "ann" },
       { nodes := 4, instanceType := "hpc", queue := "compute", jobID := 12, user := "bob" }] := by decide
  rw [ne_eq, created_eq_iff_of_readable hreadable, hjobs]
  intro h
  rw [Undisturbed, if_neg (by decide)] at h
  have hlaunch : launchOf { nodes := 4, instanceType := "hpc", queue := "compute", jobID := 12, user := "bob" }
      (some 1) "hpc" ∈ greedy hpcQueues (startLedger hpcQueues oversizedFirst)
        [{ nodes := 4, instanceType := "hpc", queue := "compute", jobID := 12, user := "bob" }] := by decide
  exact h.1 (by decide) _ hlaunch rfl

end OciHpc.Autoscale
