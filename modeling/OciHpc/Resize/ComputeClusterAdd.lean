import OciHpc.Resize.Compartment

/-!
# Adding nodes to a compute cluster

The branch of the main program of `resize.py` that launches instances in a compute cluster, and
`rollback_compute_cluster_instances`.

* `Cluster.newName?` : the names of the launches, from the greatest index among the listed instances;
* `launchAll`, `rollback`, `add` : the launches until one fails, and what is terminated then;
* `neverTouchesExisting_iff` : no existing instance is touched exactly when the instances that the listing leaves out,
  and others tagged with the cluster, do not have the names of the launches.
-/

namespace OciHpc.Resize

/-- The compartment of a compute cluster before an addition. -/
structure Cluster where
  name : String
  instances : List Instance
  privateIp : String → String

/-- `int(name.split('-')[-1])`. -/
def nameIndex (displayName : String) : Option Int :=
  ((splitAt '-' displayName.toList).getLast?).bind PyStr.int

/-- The loop over the listed instances, from `max_index`: `none` is a `ValueError`. -/
def maxIndexFrom : Int → List Node → Option Int
  | maxIndex, [] => some maxIndex
  | maxIndex, node :: rest => do
      let index ← nameIndex node.displayName
      maxIndexFrom (if index > maxIndex then index else maxIndex) rest

namespace Cluster

/-- `cn_instances`. -/
def listed (cluster : Cluster) : List Node :=
  getInstances cluster.privateIp .computeCluster ((cluster.instances.filter (·.inCluster)).map (·.toTurn))

/-- The names of the launches; `none` where nothing is launched. -/
def newName? (cluster : Cluster) : Option (Nat → Text) :=
  match cluster.listed with
  | [] => none
  | template :: rest => (maxIndexFrom (-1) (template :: rest)).map (launchName template.displayName.toList)

end Cluster

/-- How the turn of a launch goes; an instance may come into being though its launch raises. -/
inductive Launch
  | detailsRaise
  | launchRaises (created : Option Instance)
  | checkRaises (created : Instance)
  | launched (created : Instance)

/-- The names tried, the instances that came into being, and whether a turn raised. -/
structure Launches where
  names : List Text
  created : List Instance
  raised : Bool

def Instance.named (created : Instance) (name : Text) : Instance := { created with displayName := String.ofList name }

/-- `for i in range(args.number)`, the first argument being the launches still to make. -/
def launchAll (newName : Nat → Text) (launch : Nat → Launch) : Nat → Nat → Launches
  | 0, _ => ⟨[], [], false⟩
  | n + 1, i =>
      match launch i with
      | .detailsRaise => ⟨[], [], true⟩
      -- the name is recorded before the launch
      | .launchRaises created => ⟨[newName i], (created.map (·.named (newName i))).toList, true⟩
      | .checkRaises created => ⟨[newName i], [created.named (newName i)], true⟩
      | .launched created =>
          let rest := launchAll newName launch n (i + 1)
          ⟨newName i :: rest.names, created.named (newName i) :: rest.created, rest.raised⟩

/-- Whether `terminate_instance_and_delete_launch_volumes` asks for the termination. -/
def Instance.terminable (candidate : Instance) : Bool :=
  candidate.lifecycleState ≠ "TERMINATED" && candidate.lifecycleState ≠ "TERMINATING" && candidate.volumeSettled

/-- The instances `rollback_compute_cluster_instances` terminates. `answers` says that the calls made for a name
do not fail. More than one match is an error. -/
def rollback (clusterName : String) (answers : Text → Bool) (instances : List Instance) (names : List Text) :
    List Instance :=
  names.flatMap fun name =>
    match matching clusterName name instances with
    | [found] => if answers name && found.terminable then [found] else []
    | _ => []

/-- What goes wrong during an addition: the launches, the checks after the last one, and calls of the rollback. -/
structure Fate where
  launch : Nat → Launch
  checksRaise : Bool
  answers : Text → Bool

namespace Cluster

/-- The instances an addition of `number` nodes created, and those its rollback terminates. -/
def add (cluster : Cluster) (newName : Nat → Text) (number : Nat) (fate : Fate) : List Instance × List Instance :=
  let launches := launchAll newName fate.launch number 0
  (launches.created,
    if launches.raised || fate.checksRaise then
      rollback cluster.name fate.answers (cluster.instances ++ launches.created) launches.names
    else [])

/-! ## What is promised -/

def newNames (newName : Nat → Text) (number : Nat) : List Text := (List.range number).map newName

/-- **An addition touches no existing instance.** -/
structure NeverTouchesExisting (cluster : Cluster) (number : Nat) (newName : Nat → Text) : Prop where
  distinct : (newNames newName number).Nodup
  fresh : ∀ existing ∈ cluster.instances, existing.inCluster = true → existing.lifecycleState ≠ "TERMINATED" →
    existing.displayName.toList ∉ newNames newName number
  rollsBack : ∀ fate, ∀ terminated ∈ (cluster.add newName number fate).2,
    terminated ∈ (cluster.add newName number fate).1

/-- No instance of the cluster that the listing leaves out has a new name. -/
def UnlistedApart (cluster : Cluster) (number : Nat) (newName : Nat → Text) : Prop :=
  ∀ existing ∈ cluster.instances, existing.inCluster = true → existing.lifecycleState ≠ "TERMINATED" →
    existing.displayName ∉ cluster.listed.map (·.displayName) →
      existing.displayName.toList ∉ newNames newName number

/-- No new name is that of exactly one active instance tagged with the cluster, if it can be terminated. -/
def TaggedApart (cluster : Cluster) (number : Nat) (newName : Nat → Text) : Prop :=
  ∀ i < number, ∀ existing, matching cluster.name (newName i) cluster.instances = [existing] →
    existing.terminable = false

end Cluster

/-! ## The names -/

theorem le_of_maxIndexFrom {first greatest : Int} {nodes : List Node} (h : maxIndexFrom first nodes = some greatest) :
    first ≤ greatest ∧ ∀ node ∈ nodes, ∃ index, nameIndex node.displayName = some index ∧ index ≤ greatest := by
  induction nodes generalizing first with
  | nil =>
      obtain rfl : first = greatest := Option.some.inj h
      exact ⟨Int.le_refl first, fun node hnode => absurd hnode List.not_mem_nil⟩
  | cons node rest ih =>
      obtain ⟨index, hindex, hrest⟩ := Option.bind_eq_some_iff.mp h
      obtain ⟨hle, hall⟩ := ih hrest
      have hmax : first ≤ (if index > first then index else first) ∧ index ≤ (if index > first then index else first) := by
        split <;> omega
      refine ⟨Int.le_trans hmax.1 hle, fun other hother => ?_⟩
      rcases List.mem_cons.mp hother with rfl | hother
      · exact ⟨index, hindex, Int.le_trans hmax.2 hle⟩
      · exact hall other hother

theorem splitAt_launchName (template : Text) (maxIndex : Int) (index : Nat) :
    splitAt '-' (launchName template maxIndex index) =
      (splitAt '-' template).dropLast ++ [(Nat.repr (maxIndex + 1 + index).toNat).toList] := by
  refine splitAt_joinWith (List.append_ne_nil_of_right_ne_nil _ (List.cons_ne_nil _ _)) fun piece hpiece => ?_
  rcases List.mem_append.mp hpiece with hpiece | hpiece
  · exact sep_not_mem_of_mem_splitAt (List.dropLast_subset _ hpiece)
  · rw [List.mem_singleton.mp hpiece]
    exact PyStr.dash_not_mem_repr _

theorem nameIndex_launchName {displayName : String} {template : Text} {maxIndex : Int} {index : Nat}
    (hmax : -1 ≤ maxIndex) (h : displayName.toList = launchName template maxIndex index) :
    nameIndex displayName = some (maxIndex + 1 + index) := by
  rw [nameIndex, h, splitAt_launchName, List.getLast?_append, List.getLast?_singleton, Option.some_or,
    Option.bind_some, PyStr.int_repr, Option.some.injEq]
  omega

theorem launchName_injective {template : Text} {maxIndex : Int} (hmax : -1 ≤ maxIndex) {i j : Nat}
    (h : launchName template maxIndex i = launchName template maxIndex j) : i = j := by
  have hi := @nameIndex_launchName (String.ofList (launchName template maxIndex i)) template maxIndex i hmax
    String.toList_ofList
  have hj := @nameIndex_launchName (String.ofList (launchName template maxIndex i)) template maxIndex j hmax
    (String.toList_ofList.trans h)
  rw [hi, Option.some.injEq] at hj
  omega

namespace Cluster
variable {cluster : Cluster} {newName : Nat → Text} {number : Nat}

theorem newName?_eq_some (h : cluster.newName? = some newName) : ∃ template maxIndex, -1 ≤ maxIndex ∧
    newName = launchName template maxIndex ∧
      ∀ node ∈ cluster.listed, ∃ index, nameIndex node.displayName = some index ∧ index ≤ maxIndex := by
  unfold newName? at h
  cases hlisted : cluster.listed with
  | nil =>
      rw [hlisted] at h
      cases h
  | cons template rest =>
      rw [hlisted] at h
      obtain ⟨maxIndex, hmax, rfl⟩ := Option.map_eq_some_iff.mp h
      obtain ⟨hle, hall⟩ := le_of_maxIndexFrom hmax
      exact ⟨template.displayName.toList, maxIndex, hle, rfl, hall⟩

theorem newName_injective (h : cluster.newName? = some newName) {i j : Nat} (hij : newName i = newName j) : i = j := by
  obtain ⟨template, maxIndex, hmax, rfl, -⟩ := newName?_eq_some h
  exact launchName_injective hmax hij

theorem mem_newNames {name : Text} : name ∈ newNames newName number ↔ ∃ i < number, newName i = name := by
  simp only [newNames, List.mem_map, List.mem_range]

theorem nodup_newNames (h : cluster.newName? = some newName) : (newNames newName number).Nodup :=
  List.nodup_range.map fun _ _ heq => newName_injective h heq

/-- A listed instance has none of the new names. -/
theorem not_mem_newNames_of_listed (h : cluster.newName? = some newName) {displayName : String}
    (hlisted : displayName ∈ cluster.listed.map (·.displayName)) :
    displayName.toList ∉ newNames newName number := by
  obtain ⟨template, maxIndex, hmax, rfl, hall⟩ := newName?_eq_some h
  obtain ⟨node, hnode, rfl⟩ := List.mem_map.mp hlisted
  obtain ⟨index, hindex, hle⟩ := hall node hnode
  intro hmem
  obtain ⟨i, -, hname⟩ := mem_newNames.mp hmem
  rw [nameIndex_launchName hmax hname.symm, Option.some.injEq] at hindex
  omega

end Cluster

/-! ## The launches and their rollback -/

section
variable {newName : Nat → Text} {launch : Nat → Launch}

theorem mem_names_of_launchAll {n start : Nat} {name : Text} (h : name ∈ (launchAll newName launch n start).names) :
    ∃ i, i < start + n ∧ newName i = name := by
  induction n generalizing start with
  | zero => cases h
  | succ n ih =>
      rw [launchAll] at h
      cases hlaunch : launch start with
      | detailsRaise =>
          rw [hlaunch] at h
          cases h
      | launchRaises created =>
          rw [hlaunch] at h
          exact ⟨start, by omega, (List.mem_singleton.mp h).symm⟩
      | checkRaises created =>
          rw [hlaunch] at h
          exact ⟨start, by omega, (List.mem_singleton.mp h).symm⟩
      | launched created =>
          rw [hlaunch] at h
          rcases List.mem_cons.mp h with rfl | h
          · exact ⟨start, by omega, rfl⟩
          · obtain ⟨i, hi, hname⟩ := ih h
            exact ⟨i, by omega, hname⟩

/-- Launch `i` fails without an instance, after the ones before it. -/
def failsAt (created : Instance) (i : Nat) : Nat → Launch := fun j =>
  if j < i then .launched created else .launchRaises none

theorem launchAll_failsAt (created : Instance) {i n start : Nat} (hstart : start ≤ i) (hi : i < start + n) :
    newName i ∈ (launchAll newName (failsAt created i) n start).names ∧
      (launchAll newName (failsAt created i) n start).raised = true ∧
        ∀ candidate ∈ (launchAll newName (failsAt created i) n start).created,
          ∃ j < i, candidate.displayName.toList = newName j := by
  induction n generalizing start with
  | zero => omega
  | succ n ih =>
      rw [launchAll]
      by_cases hlt : start < i
      · obtain ⟨hname, hraised, hcreated⟩ := @ih (start + 1) (by omega) (by omega)
        have hlaunch : failsAt created i start = .launched created := if_pos hlt
        rw [hlaunch]
        refine ⟨List.mem_cons_of_mem _ hname, hraised, fun candidate hcandidate => ?_⟩
        rcases List.mem_cons.mp hcandidate with rfl | hcandidate
        · exact ⟨start, hlt, String.toList_ofList⟩
        · exact hcreated candidate hcandidate
      · obtain rfl : start = i := by omega
        have hlaunch : failsAt created start start = .launchRaises none := if_neg hlt
        rw [hlaunch]
        refine ⟨List.mem_singleton_self _, rfl, fun candidate hcandidate => ?_⟩
        cases hcandidate

theorem mem_rollback {clusterName : String} {answers : Text → Bool} {instances : List Instance} {names : List Text}
    {terminated : Instance} (h : terminated ∈ rollback clusterName answers instances names) :
    ∃ name ∈ names, matching clusterName name instances = [terminated] ∧ terminated.terminable = true := by
  obtain ⟨name, hname, h⟩ := List.mem_flatMap.mp h
  refine ⟨name, hname, ?_⟩
  split at h
  · rename_i found hfound
    split at h
    · rename_i hterminable
      rw [List.mem_singleton.mp h]
      exact ⟨hfound, (Bool.and_eq_true_iff.mp hterminable).2⟩
    · cases h
  · cases h

end

namespace Cluster
variable {cluster : Cluster} {newName : Nat → Text} {number : Nat}

/-- What is terminated and was there before is the only match of its name. -/
theorem matching_of_mem_add {fate : Fate} {terminated : Instance}
    (h : terminated ∈ (cluster.add newName number fate).2) (hold : terminated ∉ (cluster.add newName number fate).1) :
    ∃ i < number, matching cluster.name (newName i) cluster.instances = [terminated] ∧
      terminated.terminable = true := by
  have hmem : terminated ∈ rollback cluster.name fate.answers
      (cluster.instances ++ (launchAll newName fate.launch number 0).created)
      (launchAll newName fate.launch number 0).names := by
    unfold add at h
    dsimp only at h
    split at h
    · exact h
    · cases h
  obtain ⟨name, hname, hmatching, hterminable⟩ := mem_rollback hmem
  obtain ⟨i, hi, rfl⟩ := mem_names_of_launchAll hname
  refine ⟨i, by omega, ?_, hterminable⟩
  rw [matching_append] at hmatching
  rcases List.append_eq_singleton_iff.mp hmatching with ⟨-, hcreated⟩ | ⟨hexisting, -⟩
  · have hterminated : terminated ∈ (launchAll newName fate.launch number 0).created :=
      List.mem_of_mem_filter (hcreated ▸ List.mem_singleton_self terminated)
    exact absurd hterminated hold
  · exact hexisting

/-- The launch of a name fails; its rollback finds the existing instance of that name. -/
theorem terminated_of_matching (hnew : cluster.newName? = some newName) {i : Nat} (hi : i < number)
    {existing : Instance} (hmatching : matching cluster.name (newName i) cluster.instances = [existing])
    (hterminable : existing.terminable = true) :
    ∃ fate, existing ∈ (cluster.add newName number fate).2 ∧ existing ∉ (cluster.add newName number fate).1 := by
  obtain ⟨hname, hraised, hcreated⟩ :=
    @launchAll_failsAt newName existing i number 0 (Nat.zero_le i) (by omega)
  have hexisting : existing.displayName.toList = newName i :=
    displayName_of_mem_matching (hmatching ▸ List.mem_singleton_self existing)
  have hapart : ∀ candidate ∈ (launchAll newName (failsAt existing i) number 0).created,
      candidate.displayName.toList ≠ newName i := by
    intro candidate hcandidate heq
    obtain ⟨j, hj, hcandidate⟩ := hcreated candidate hcandidate
    have hji : j = i := newName_injective hnew (hcandidate.symm.trans heq)
    omega
  have hnone : matching cluster.name (newName i) (launchAll newName (failsAt existing i) number 0).created = [] := by
    refine List.filter_eq_nil_iff.mpr fun candidate hcandidate hmatches => ?_
    exact hapart candidate hcandidate (of_decide_eq_true hmatches).1
  refine ⟨⟨failsAt existing i, false, fun _ => true⟩, ?_, fun hmem => hapart existing hmem hexisting⟩
  unfold add
  dsimp only
  rw [hraised, Bool.true_or, if_pos rfl]
  refine List.mem_flatMap.mpr ⟨newName i, hname, ?_⟩
  rw [matching_append, hnone, List.append_nil, hmatching]
  dsimp only
  rw [hterminable, Bool.true_and, if_pos rfl]
  exact List.mem_singleton_self existing

/-- **An addition never touches existing nodes exactly when no instance that the listing leaves out has a new name,
and no new name belongs to a single active instance tagged with the cluster.** -/
theorem neverTouchesExisting_iff (cluster : Cluster) (number : Nat) (newName : Nat → Text)
    (hnew : cluster.newName? = some newName) :
    cluster.NeverTouchesExisting number newName ↔
      cluster.UnlistedApart number newName ∧ cluster.TaggedApart number newName := by
  constructor
  · intro h
    refine ⟨fun existing hexisting hcluster hstate _ => h.fresh existing hexisting hcluster hstate,
      fun i hi existing hmatching => ?_⟩
    by_contra hterminable
    obtain ⟨fate, hterminated, hold⟩ := terminated_of_matching hnew hi hmatching (by simpa using hterminable)
    exact hold (h.rollsBack fate existing hterminated)
  · rintro ⟨hunlisted, htagged⟩
    refine ⟨nodup_newNames hnew, fun existing hexisting hcluster hstate => ?_, fun fate terminated hterminated => ?_⟩
    · by_cases hlisted : existing.displayName ∈ cluster.listed.map (·.displayName)
      · exact not_mem_newNames_of_listed hnew hlisted
      · exact hunlisted existing hexisting hcluster hstate hlisted
    · by_contra hold
      obtain ⟨i, hi, hmatching, hterminable⟩ := matching_of_mem_add hterminated hold
      rw [htagged i hi terminated hmatching] at hterminable
      cases hterminable

/-! ### An instance that is not listed -/

/-- An instance of the cluster `c`; its VNIC attachments are listed or cannot be. -/
def member (id displayName : String) (attachments : Option (List VnicAttachment)) : Instance :=
  ⟨⟨id, displayName, "RUNNING", true, attachments, fun _ => true⟩, [("parent_cluster", "c")], true, true⟩

def oneListed : Cluster := ⟨"c", [member "ocid0" "inst-0" (some [⟨none, "vnic0"⟩])], fun _ => "10.0.0.2"⟩

/-- `inst-1` is there as well, but its VNIC attachments cannot be listed. -/
def oneUnlisted : Cluster :=
  ⟨"c", [member "ocid0" "inst-0" (some [⟨none, "vnic0"⟩]), member "ocid1" "inst-1" none], fun _ => "10.0.0.2"⟩

def nextNames : Nat → Text := launchName "inst-0".toList 0

/-- Where `inst-0` alone is listed, the names go on from there. -/
theorem newName?_of_listed {cluster : Cluster} (h : cluster.listed = [⟨"inst-0", "10.0.0.2", "ocid0"⟩]) :
    cluster.newName? = some nextNames := by
  have hmax : maxIndexFrom (-1) [⟨"inst-0", "10.0.0.2", "ocid0"⟩] = some 0 := by decide +kernel
  rw [newName?, h]
  dsimp only
  rw [hmax]
  rfl

theorem neverTouchesExisting_of_listed : oneListed.NeverTouchesExisting 2 nextNames := by
  have hnew := newName?_of_listed (by decide +kernel : oneListed.listed = _)
  refine (neverTouchesExisting_iff oneListed 2 nextNames hnew).mpr ⟨fun existing hexisting _ _ hlisted => ?_,
    fun i hi existing hmatching => ?_⟩
  · obtain rfl := List.mem_singleton.mp hexisting
    exact absurd (by decide +kernel) hlisted
  · have hmem : existing ∈ matching oneListed.name (nextNames i) oneListed.instances :=
      hmatching ▸ List.mem_singleton_self existing
    obtain ⟨hexisting, hmatches⟩ := List.mem_filter.mp hmem
    obtain rfl := List.mem_singleton.mp hexisting
    have hne : ∀ i < 2, "inst-0".toList ≠ nextNames i := by decide +kernel
    exact absurd (of_decide_eq_true hmatches).1 (hne i hi)

theorem newName?_oneUnlisted : oneUnlisted.newName? = some nextNames := newName?_of_listed (by decide +kernel)

theorem matching_oneUnlisted :
    matching oneUnlisted.name (nextNames 0) oneUnlisted.instances = [member "ocid1" "inst-1" none] := by
  unfold matching oneUnlisted
  dsimp only
  rw [List.filter_cons_of_neg (by decide +kernel), List.filter_cons_of_pos (by decide +kernel), List.filter_nil]

/-- **The instance left out of the listing lends its name to the first launch, and is terminated when that fails.** -/
theorem unlisted_instance_is_touched : oneUnlisted.newName? = some nextNames ∧
    ¬ oneUnlisted.NeverTouchesExisting 1 nextNames ∧
      ∃ fate, member "ocid1" "inst-1" none ∈ (oneUnlisted.add nextNames 1 fate).2 ∧
        member "ocid1" "inst-1" none ∉ (oneUnlisted.add nextNames 1 fate).1 := by
  obtain ⟨fate, hterminated, hold⟩ :=
    terminated_of_matching newName?_oneUnlisted (Nat.zero_lt_one : 0 < 1) matching_oneUnlisted (by decide)
  exact ⟨newName?_oneUnlisted, fun h => hold (h.rollsBack fate _ hterminated), fate, hterminated, hold⟩

end Cluster
end OciHpc.Resize
