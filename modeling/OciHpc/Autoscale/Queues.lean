import Mathlib.Data.List.Nodup
import Mathlib.Data.List.Sort
import OciHpc.Base.PyText

/-!
# The queue configuration and the names of clusters

The lookups of `autoscale_slurm_disable-resize.sh` in `queues.conf`.

* `getQueue`, `getDefaultsConfig`, `getJobConfig`, `getQueueLimits`, `getInstanceType`, `isPermanent` : the
  first entry that matches, as the loops of the source return it;
* `parseClusterName` : queue, number and keyword of a cluster directory;
* `clusterNameOf` : the name the main loop gives to a cluster it creates;
* `parseClusterName_clusterNameOf` : with dash-free keywords the name is read back as it was made;
* `parseClusterName_iff_unclaimed` : with any keywords, exactly when no longer queue `Claims` the name.

`autoscale_slurm.sh` makes and reads the names in the same way.
-/

namespace OciHpc.Autoscale

inductive PyError
  | typeError | valueError | indexError | unboundLocalError
deriving DecidableEq, Repr

/-- One of the instance types of a queue; `default` and `permanent` by their truth values. -/
structure InstanceType where
  name : String
  default : Option Bool
  shape : String
  clusterNetwork : Bool
  instanceKeyword : String
  permanent : Bool
  maxNumberNodes : Int
  maxClusterSize : Int
  maxClusterCount : Int
deriving DecidableEq, Repr

/-- One entry of `queues`. -/
structure Partition where
  name : String
  instanceTypes : List InstanceType
deriving DecidableEq, Repr

abbrev QueueConfig := List Partition

/-- What `getDefaultsConfig` and `getJobConfig` return. -/
structure JobConfig where
  queue : String
  instanceType : String
  shape : String
  clusterNetwork : Bool
  instanceKeyword : String
deriving DecidableEq, Repr

/-- What `getQueueLimits` returns. -/
structure Limits where
  maxNumberNodes : Int
  maxClusterSize : Int
  maxClusterCount : Int
deriving DecidableEq, Repr

def jobConfigOf (partition : Partition) (instanceType : InstanceType) : JobConfig :=
  { queue := partition.name, instanceType := instanceType.name, shape := instanceType.shape,
    clusterNetwork := instanceType.clusterNetwork, instanceKeyword := instanceType.instanceKeyword }

/-- One queue with one type that is not permanent. -/
def hpcQueues : QueueConfig :=
  [{ name := "compute"
     instanceTypes := [
      { name := "hpc", default := some true, shape := "BM.HPC2.36", clusterNetwork := true,
        instanceKeyword := "hpc", permanent := false, maxNumberNodes := 100, maxClusterSize := 20,
        maxClusterCount := 10 }] }]

/-! ## Lookups -/

def getQueue (config : QueueConfig) (queueName : String) : Option Partition :=
  config.find? fun queue => queue.name = queueName

/-- The first entry of the queue's own choice that satisfies `pick`: partitions of the name are tried in order,
one without such an entry is passed over. -/
def firstOf {α : Type} (config : QueueConfig) (queueName : String) (pick : Partition → Option α) : Option α :=
  config.findSome? fun partition => if queueName = partition.name then pick partition else none

def getDefaultsConfig (config : QueueConfig) (queueName : String) : Option JobConfig :=
  firstOf config queueName fun partition =>
    match partition.instanceTypes.find? fun instanceType => instanceType.default = some true with
    | some instanceType => some (jobConfigOf partition instanceType)
    | none => partition.instanceTypes.head?.map (jobConfigOf partition)

def getJobConfig (config : QueueConfig) (queueName instanceTypeName : String) : Option JobConfig :=
  firstOf config queueName fun partition =>
    (partition.instanceTypes.find? fun instanceType => instanceTypeName = instanceType.name).map
      (jobConfigOf partition)

def getQueueLimits (config : QueueConfig) (queueName instanceTypeName : String) : Limits :=
  (firstOf config queueName fun partition =>
    (partition.instanceTypes.find? fun instanceType => instanceTypeName = instanceType.name).map
      fun instanceType =>
        { maxNumberNodes := instanceType.maxNumberNodes, maxClusterSize := instanceType.maxClusterSize,
          maxClusterCount := instanceType.maxClusterCount }).getD
    { maxNumberNodes := 0, maxClusterSize := 0, maxClusterCount := 0 }

def getInstanceType (config : QueueConfig) (queueName instanceKeyword : String) : Option String :=
  firstOf config queueName fun partition =>
    (partition.instanceTypes.find? fun instanceType => instanceKeyword = instanceType.instanceKeyword).map
      (·.name)

/-- `isPermanent`, as the truth value its caller takes of it. -/
def isPermanent (config : QueueConfig) (queueName instanceTypeName : String) : Bool :=
  (firstOf config queueName fun partition =>
    (partition.instanceTypes.find? fun instanceType => instanceTypeName = instanceType.name).map
      (·.permanent)).getD false

/-! ## Cluster names -/

/-- `sorted(config, key=lambda item: len(item["name"]), reverse=True)`. -/
def longestFirst (config : QueueConfig) : QueueConfig :=
  config.insertionSort fun a b => b.name.length ≤ a.name.length

/-- What the directory name is under one partition: `none` when the loop goes on to the next. -/
def parseUnder (partition : Partition) (clusterName : List Char) :
    Except PyError (Option (String × Int × String)) :=
  let start := partition.name.toList ++ ['-']
  if start.isPrefixOf clusterName then
    let (clusterNumber, separator, instanceKeyword) :=
      PyStr.partition '-' (clusterName.drop start.length)
    if separator && PyStr.isDigit clusterNumber then
      if partition.instanceTypes.any fun item => String.ofList instanceKeyword = item.instanceKeyword then
        match PyStr.int clusterNumber with
        | some number => .ok (some (partition.name, number, String.ofList instanceKeyword))
        | none => .error .valueError
      else .ok none
    else .ok none
  else .ok none

/-- The loop of `parseClusterName` over the sorted partitions. -/
def parseLoop (clusterName : List Char) : QueueConfig → Except PyError (Option (String × Int × String))
  | [] => .ok none
  | partition :: rest => do
    match ← parseUnder partition clusterName with
    | some found => return some found
    | none => parseLoop clusterName rest

def parseClusterName (config : QueueConfig) (clusterName : String) :
    Except PyError (Option (String × Int × String)) :=
  parseLoop clusterName.toList (longestFirst config)

/-- `queue + '-' + str(nextIndex) + '-' + jobconfig["instance_keyword"]`. -/
def clusterNameOf (queue : String) (nextIndex : Option Nat) (instanceKeyword : String) : String :=
  queue ++ "-" ++ (match nextIndex with | some n => Nat.repr n | none => "None") ++ "-" ++ instanceKeyword

/-! ## A cluster name is read back -/

/-- Queue names are distinct, and so are the keywords of a queue; no keyword has a dash. -/
structure PlainKeywords (config : QueueConfig) : Prop where
  names : (config.map (·.name)).Nodup
  keywords : ∀ partition ∈ config, (partition.instanceTypes.map (·.instanceKeyword)).Nodup
  dashFree : ∀ partition ∈ config, ∀ item ∈ partition.instanceTypes, '-' ∉ item.instanceKeyword.toList

theorem append_dash_inj {a a' b b' : List Char} (hb : '-' ∉ b) (hb' : '-' ∉ b')
    (h : a ++ '-' :: b = a' ++ '-' :: b') : a = a' ∧ b = b' := by
  have hsplit : ∀ {a b : List Char}, '-' ∉ b →
      PyStr.partition '-' (a ++ '-' :: b).reverse = (b.reverse, true, a.reverse) := by
    intro a b hb
    rw [List.reverse_append, List.reverse_cons, List.append_assoc, List.singleton_append]
    exact PyStr.partition_append (fun hin => hb (List.mem_reverse.mp hin))
  have heq := hsplit (a := a) hb
  rw [h, hsplit hb', Prod.mk.injEq, Prod.mk.injEq, List.reverse_inj, List.reverse_inj] at heq
  exact ⟨heq.2.2.symm, heq.1.symm⟩

theorem clusterNameOf_toList (queue : String) (n : Nat) (keyword : String) :
    (clusterNameOf queue (some n) keyword).toList =
      (queue.toList ++ '-' :: (Nat.repr n).toList) ++ '-' :: keyword.toList := by
  unfold clusterNameOf
  simp only [String.toList_append, List.append_assoc]
  rfl

/-- A partition under which the directory name is read says how the name is made. -/
theorem parseUnder_cases (partition : Partition) (clusterName : List Char) :
    parseUnder partition clusterName = .ok none ∨
      ∃ number, ∃ item ∈ partition.instanceTypes, '-' ∉ number ∧
        clusterName = (partition.name.toList ++ '-' :: number) ++ '-' :: item.instanceKeyword.toList := by
  unfold parseUnder
  dsimp only
  split
  case isFalse => exact .inl rfl
  case isTrue hstart =>
    obtain ⟨remainder, hname⟩ := List.isPrefixOf_iff_prefix.mp hstart
    rw [← hname, List.drop_left]
    rcases hpart : PyStr.partition '-' remainder with ⟨number, separator, keyword⟩
    dsimp only
    cases separator with
    | false => exact .inl rfl
    | true =>
      split
      case isFalse => exact .inl rfl
      case isTrue =>
        split
        case isFalse => exact .inl rfl
        case isTrue hany =>
          obtain ⟨item, hitem, hkeyword⟩ := List.any_eq_true.mp hany
          obtain ⟨hremainder, hdash⟩ := PyStr.eq_append_of_partition hpart
          refine .inr ⟨number, item, hitem, hdash, ?_⟩
          have hlist : item.instanceKeyword.toList = keyword := by
            rw [← of_decide_eq_true hkeyword, String.toList_ofList]
          rw [hlist, hremainder]
          simp only [List.append_assoc, List.cons_append, List.nil_append]

theorem parseUnder_self {partition : Partition} {item : InstanceType} (hitem : item ∈ partition.instanceTypes)
    (n : Nat) : parseUnder partition (clusterNameOf partition.name (some n) item.instanceKeyword).toList =
      .ok (some (partition.name, (n : Int), item.instanceKeyword)) := by
  have hname : (clusterNameOf partition.name (some n) item.instanceKeyword).toList =
      (partition.name.toList ++ ['-']) ++ ((Nat.repr n).toList ++ '-' :: item.instanceKeyword.toList) := by
    rw [clusterNameOf_toList]
    simp only [List.append_assoc, List.cons_append, List.nil_append]
  have hany : (partition.instanceTypes.any fun other =>
      String.ofList item.instanceKeyword.toList = other.instanceKeyword) = true := by
    rw [List.any_eq_true]
    exact ⟨item, hitem, by rw [String.ofList_toList]; exact decide_eq_true rfl⟩
  unfold parseUnder
  dsimp only
  rw [hname, if_pos (List.isPrefixOf_iff_prefix.mpr (List.prefix_append _ _)), List.drop_left,
    PyStr.partition_append (PyStr.dash_not_mem_repr n)]
  dsimp only
  rw [PyStr.isDigit_repr, if_pos (show (true && true) = true from rfl), if_pos hany, PyStr.int_repr, String.ofList_toList]

theorem parseLoop_eq {clusterName : List Char} {found : String × Int × String} {partition : Partition}
    (hself : parseUnder partition clusterName = .ok (some found)) :
    ∀ config : QueueConfig, partition ∈ config →
      (∀ other ∈ config, other ≠ partition → parseUnder other clusterName = .ok none) →
      parseLoop clusterName config = .ok (some found) := by
  intro config
  induction config with
  | nil => intro hmem; exact absurd hmem List.not_mem_nil
  | cons head rest ih =>
    intro hmem hothers
    by_cases hhead : head = partition
    · subst hhead
      rw [parseLoop, hself]
      rfl
    · rw [parseLoop, hothers head List.mem_cons_self hhead]
      refine ih ?_ fun other hother => hothers other (List.mem_cons_of_mem head hother)
      exact (List.mem_cons.mp hmem).resolve_left (Ne.symm hhead)

/-- **The name of a cluster is read back** as the queue, the number and the keyword it was made of. -/
theorem parseClusterName_clusterNameOf {config : QueueConfig} (hplain : PlainKeywords config)
    {partition : Partition} (hmem : partition ∈ config) {item : InstanceType}
    (hitem : item ∈ partition.instanceTypes) (n : Nat) :
    parseClusterName config (clusterNameOf partition.name (some n) item.instanceKeyword) =
      .ok (some (partition.name, (n : Int), item.instanceKeyword)) := by
  have hperm : (longestFirst config).Perm config := List.perm_insertionSort _ _
  refine parseLoop_eq (parseUnder_self hitem n) _ (hperm.mem_iff.mpr hmem) fun other hother hne => ?_
  have hother' : other ∈ config := hperm.mem_iff.mp hother
  rcases parseUnder_cases other (clusterNameOf partition.name (some n) item.instanceKeyword).toList with
    hnone | ⟨number, item', hitem', hdash, hname⟩
  · exact hnone
  · rw [clusterNameOf_toList] at hname
    obtain ⟨hfront, -⟩ := append_dash_inj (hplain.dashFree partition hmem item hitem)
      (hplain.dashFree other hother' item' hitem') hname
    obtain ⟨hqueue, -⟩ := append_dash_inj (PyStr.dash_not_mem_repr n) hdash hfront
    have hsame : other = partition :=
      List.inj_on_of_nodup_map hplain.names hother' hmem (String.toList_inj.mp hqueue.symm)
    exact absurd hsame hne

/-! ## Names that a longer queue claims -/

/-- The name that a cluster of the queue is given can also be made of this other queue, digits and one of its
keywords: the other queue is named like the queue with the number, and perhaps the beginning of the keyword. -/
def Claims (other : Partition) (queue : String) (n : Nat) (instanceKeyword : String) : Prop :=
  ∃ number, PyStr.isDigit number = true ∧ ∃ item ∈ other.instanceTypes,
    (other.name.toList = queue.toList ++ '-' :: (Nat.repr n).toList ∧
      instanceKeyword.toList = number ++ '-' :: item.instanceKeyword.toList) ∨
    ∃ part, other.name.toList = queue.toList ++ '-' :: (Nat.repr n).toList ++ '-' :: part ∧
      instanceKeyword.toList = part ++ '-' :: number ++ '-' :: item.instanceKeyword.toList

/-- A directory name that some loop turn takes for a cluster of this partition. -/
def ReadUnder (partition : Partition) (clusterName : List Char) : Prop :=
  ∃ number, PyStr.isDigit number = true ∧ ∃ item ∈ partition.instanceTypes,
    clusterName = (partition.name.toList ++ '-' :: number) ++ '-' :: item.instanceKeyword.toList

/-- A loop turn passes a directory name over just when it is not read. -/
theorem parseUnder_eq_none_iff (partition : Partition) (clusterName : List Char) :
    parseUnder partition clusterName = .ok none ↔ ¬ ReadUnder partition clusterName := by
  constructor
  · rintro hnone ⟨number, hdigit, item, hitem, rfl⟩
    have hany : (partition.instanceTypes.any fun other =>
        String.ofList item.instanceKeyword.toList = other.instanceKeyword) = true := by
      rw [List.any_eq_true]
      exact ⟨item, hitem, by rw [String.ofList_toList]; exact decide_eq_true rfl⟩
    have hname : (partition.name.toList ++ '-' :: number) ++ '-' :: item.instanceKeyword.toList =
        (partition.name.toList ++ ['-']) ++ (number ++ '-' :: item.instanceKeyword.toList) := by
      simp only [List.append_assoc, List.cons_append, List.nil_append]
    unfold parseUnder at hnone
    dsimp only at hnone
    rw [hname, if_pos (List.isPrefixOf_iff_prefix.mpr (List.prefix_append _ _)), List.drop_left,
      PyStr.partition_append (PyStr.dash_not_mem_of_isDigit hdigit)] at hnone
    dsimp only at hnone
    rw [hdigit, if_pos (show (true && true) = true from rfl), if_pos hany] at hnone
    split at hnone <;> cases hnone
  · intro hread
    unfold parseUnder
    dsimp only
    split
    case isFalse => rfl
    case isTrue hstart =>
      obtain ⟨remainder, hname⟩ := List.isPrefixOf_iff_prefix.mp hstart
      rw [← hname, List.drop_left]
      rcases hpart : PyStr.partition '-' remainder with ⟨number, separator, keyword⟩
      dsimp only
      split
      case isFalse => rfl
      case isTrue hnumber =>
        split
        case isFalse => rfl
        case isTrue hany =>
          rw [Bool.and_eq_true] at hnumber
          obtain ⟨rfl, hdigit⟩ := hnumber
          obtain ⟨item, hitem, hkeyword⟩ := List.any_eq_true.mp hany
          obtain ⟨hremainder, -⟩ := PyStr.eq_append_of_partition hpart
          have hlist : item.instanceKeyword.toList = keyword := by
            rw [← of_decide_eq_true hkeyword, String.toList_ofList]
          refine absurd ⟨number, hdigit, item, hitem, ?_⟩ hread
          rw [hlist, ← hname, hremainder]
          simp only [List.append_assoc, List.cons_append, List.nil_append]

theorem parseUnder_name {partition : Partition} {clusterName : List Char} {found : String × Int × String}
    (h : parseUnder partition clusterName = .ok (some found)) : found.1 = partition.name := by
  unfold parseUnder at h
  dsimp only at h
  split at h
  · split at h
    · split at h
      · split at h <;> cases h
        rfl
      · cases h
    · cases h
  · cases h

/-- The loop returns what one partition reads just when no earlier one, of another name, reads anything. -/
theorem parseLoop_append {clusterName : List Char} {found : String × Int × String} {partition : Partition}
    (hself : parseUnder partition clusterName = .ok (some found)) (before after : QueueConfig)
    (hnames : ∀ other ∈ before, other.name ≠ partition.name) :
    parseLoop clusterName (before ++ partition :: after) = .ok (some found) ↔
      ∀ other ∈ before, ¬ ReadUnder other clusterName := by
  induction before with
  | nil =>
    rw [List.nil_append, parseLoop, hself]
    exact ⟨fun _ _ hmem => absurd hmem List.not_mem_nil, fun _ => rfl⟩
  | cons head rest ih =>
    have ih := ih fun other hother => hnames other (List.mem_cons_of_mem head hother)
    rw [List.forall_mem_cons, ← ih, ← parseUnder_eq_none_iff, List.cons_append, parseLoop]
    cases hhead : parseUnder head clusterName with
    | error e => exact ⟨fun h => (by cases h), fun h => (by cases h.1)⟩
    | ok result =>
      cases result with
      | none => exact ⟨fun h => ⟨rfl, h⟩, fun h => h.2⟩
      | some other =>
        refine ⟨fun h => ?_, fun h => (by cases h.1)⟩
        have hsame : other = found := by cases h; rfl
        have hhere := parseUnder_name hhead
        rw [hsame, parseUnder_name hself] at hhere
        exact absurd hhere.symm (hnames head List.mem_cons_self)

/-- Of a longer queue, the name is read just when it is claimed. -/
theorem readUnder_iff_claims {other : Partition} {queue keyword : String} (n : Nat)
    (hlonger : queue.toList.length < other.name.toList.length) :
    ReadUnder other (clusterNameOf queue (some n) keyword).toList ↔ Claims other queue n keyword := by
  have hdash := PyStr.dash_not_mem_repr n
  constructor
  · rintro ⟨number, hdigit, item, hitem, hname⟩
    refine ⟨number, hdigit, item, hitem, ?_⟩
    rw [clusterNameOf_toList, List.append_assoc, List.append_assoc, List.cons_append, List.cons_append] at hname
    rcases List.append_eq_append_iff.mp hname with ⟨rest, hother, hrest⟩ | ⟨rest, hqueue, -⟩
    · cases rest with
      | nil =>
        rw [hother, List.append_nil] at hlonger
        exact absurd hlonger (lt_irrefl _)
      | cons c rest =>
        rw [List.cons_append, List.cons.injEq] at hrest
        obtain ⟨rfl, hrest⟩ := hrest
        rcases List.append_eq_append_iff.mp hrest with ⟨part, hpart, hkeyword⟩ | ⟨part, hpart, hkeyword⟩
        · cases part with
          | nil =>
            rw [List.nil_append, List.cons.injEq] at hkeyword
            rw [List.append_nil] at hpart
            exact .inl ⟨by rw [hother, hpart], hkeyword.2⟩
          | cons d part =>
            rw [List.cons_append, List.cons.injEq] at hkeyword
            obtain ⟨rfl, hkeyword⟩ := hkeyword
            refine .inr ⟨part, ?_, ?_⟩
            · rw [hother, hpart]
              simp only [List.append_assoc, List.cons_append]
            · rw [hkeyword]
              simp only [List.append_assoc, List.cons_append]
        · cases part with
          | nil =>
            rw [List.nil_append, List.cons.injEq] at hkeyword
            rw [List.append_nil] at hpart
            exact .inl ⟨by rw [hother, hpart], hkeyword.2.symm⟩
          | cons d part =>
            rw [List.cons_append, List.cons.injEq] at hkeyword
            rw [hpart, ← hkeyword.1] at hdash
            exact absurd (List.mem_append_right _ List.mem_cons_self) hdash
    · rw [hqueue, List.length_append] at hlonger
      omega
  · rintro ⟨number, hdigit, item, hitem, ⟨hother, hkeyword⟩ | ⟨part, hother, hkeyword⟩⟩
    all_goals
      refine ⟨number, hdigit, item, hitem, ?_⟩
      rw [clusterNameOf_toList, hother, hkeyword]
      simp only [List.append_assoc, List.cons_append]

/-- Of a queue with a name as long, no name is read. -/
theorem not_readUnder_of_length {other : Partition} {queue : String} (n : Nat) (keyword : String)
    (hlength : other.name.toList.length = queue.toList.length) (hne : other.name ≠ queue) :
    ¬ ReadUnder other (clusterNameOf queue (some n) keyword).toList := by
  rintro ⟨number, -, item, -, hname⟩
  rw [clusterNameOf_toList, List.append_assoc, List.append_assoc] at hname
  exact hne (String.toList_inj.mp (List.append_inj_left hname hlength.symm).symm)

/-- **A cluster name is read back as it was made exactly when no longer queue claims it.** -/
theorem parseClusterName_iff_unclaimed {config : QueueConfig} (hnames : (config.map (·.name)).Nodup)
    {partition : Partition} (hmem : partition ∈ config) {item : InstanceType}
    (hitem : item ∈ partition.instanceTypes) (n : Nat) :
    parseClusterName config (clusterNameOf partition.name (some n) item.instanceKeyword) =
        .ok (some (partition.name, (n : Int), item.instanceKeyword)) ↔
      ∀ other ∈ config, ¬ Claims other partition.name n item.instanceKeyword := by
  have hperm : (longestFirst config).Perm config := List.perm_insertionSort _ _
  have hsorted : (longestFirst config).Pairwise fun a b => b.name.length ≤ a.name.length := by
    have htotal : Std.Total fun a b : Partition => b.name.length ≤ a.name.length :=
      ⟨fun a b => Nat.le_total b.name.length a.name.length⟩
    have htrans : IsTrans Partition fun a b => b.name.length ≤ a.name.length :=
      ⟨fun _ _ _ hab hbc => Nat.le_trans hbc hab⟩
    exact List.pairwise_insertionSort _ config
  have hnodup : ((longestFirst config).map (·.name)).Nodup := (hperm.map _).nodup_iff.mpr hnames
  obtain ⟨before, after, hsplit⟩ := List.append_of_mem (hperm.mem_iff.mpr hmem)
  rw [hsplit] at hsorted hnodup
  rw [List.map_append, List.map_cons] at hnodup
  have hdistinct : ∀ other ∈ before, other.name ≠ partition.name := by
    intro other hother hname
    exact (List.nodup_append.mp hnodup).2.2 other.name (List.mem_map.mpr ⟨other, hother, rfl⟩) partition.name
      List.mem_cons_self hname
  obtain ⟨-, htail, hbefore⟩ := List.pairwise_append.mp hsorted
  have hlater := (List.pairwise_cons.mp htail).1
  have hclaims_longer : ∀ other : Partition, Claims other partition.name n item.instanceKeyword →
      partition.name.toList.length < other.name.toList.length := by
    rintro other ⟨number, -, item', -, ⟨hname, -⟩ | ⟨part, hname, -⟩⟩ <;>
    · rw [hname]
      simp only [List.length_append, List.length_cons]
      omega
  rw [parseClusterName, hsplit, parseLoop_append (parseUnder_self hitem n) before after hdistinct]
  constructor
  · intro hread other hother hclaims
    have hlonger := hclaims_longer other hclaims
    have hin : other ∈ before := by
      have hmem' : other ∈ before ++ partition :: after := hsplit ▸ hperm.mem_iff.mpr hother
      rcases List.mem_append.mp hmem' with h | h
      · exact h
      · rcases List.mem_cons.mp h with rfl | h
        · exact absurd hlonger (lt_irrefl _)
        · have hle := hlater other h
          rw [← String.length_toList, ← String.length_toList] at hle
          omega
    exact hread other hin ((readUnder_iff_claims n hlonger).mpr hclaims)
  · intro hunclaimed other hother
    have hle := hbefore other hother partition List.mem_cons_self
    rw [← String.length_toList, ← String.length_toList] at hle
    rcases Nat.eq_or_lt_of_le hle with heq | hlt
    · exact not_readUnder_of_length n _ heq.symm (hdistinct other hother)
    · rw [readUnder_iff_claims n hlt]
      have hin : other ∈ config := hperm.mem_iff.mp (hsplit ▸ List.mem_append_left _ hother)
      exact hunclaimed other hin

def a100Type (instanceKeyword : String) : InstanceType where
  name := "a100"
  default := some true
  shape := "BM.GPU4.8"
  clusterNetwork := true
  instanceKeyword
  permanent := false
  maxNumberNodes := 100
  maxClusterSize := 20
  maxClusterCount := 10

/-- Two queues, the second named like the first with a number. -/
def numberedQueues : QueueConfig := [⟨"gpu", [a100Type "2-a100"]⟩, ⟨"gpu-1", [a100Type "a100"]⟩]

/-- The third cluster of the first queue is not claimed by the other. -/
theorem parseClusterName_iff_unclaimed_numbered :
    parseClusterName numberedQueues (clusterNameOf "gpu" (some 3) "2-a100") =
      .ok (some ("gpu", ((3 : Nat) : Int), "2-a100")) := by
  have hiff := @parseClusterName_iff_unclaimed numberedQueues (by decide) ⟨"gpu", [a100Type "2-a100"]⟩
    List.mem_cons_self (a100Type "2-a100") List.mem_cons_self 3
  refine hiff.mpr fun other hother => ?_
  have hnames : ∀ other ∈ numberedQueues, other.name.toList ≠ "gpu".toList ++ '-' :: (Nat.repr 3).toList ∧
      other.name.toList.length ≤ 5 := by decide +kernel
  obtain ⟨hne, hlength⟩ := hnames other hother
  rintro ⟨number, -, item, -, ⟨hname, -⟩ | ⟨part, hname, -⟩⟩
  · exact hne hname
  · have hqueue : "gpu".toList.length = 3 := by decide
    have hdigits : (Nat.repr 3).toList.length = 1 := by decide +kernel
    rw [hname] at hlength
    simp only [List.length_append, List.length_cons, hqueue, hdigits] at hlength
    omega

/-- **A cluster of one queue is read back as a cluster of another.** -/
theorem numbered_queue_claims : (numberedQueues.map (·.name)).Nodup ∧
    (∀ partition ∈ numberedQueues, (partition.instanceTypes.map (·.instanceKeyword)).Nodup) ∧
    parseClusterName numberedQueues (clusterNameOf "gpu" (some 1) "2-a100") ≠
      .ok (some ("gpu", ((1 : Nat) : Int), "2-a100")) := by
  refine ⟨by decide, by decide, ?_⟩
  have hname : clusterNameOf "gpu" (some 1) "2-a100" = clusterNameOf "gpu-1" (some 2) "a100" := by decide +kernel
  have hsorted : longestFirst numberedQueues = numberedQueues.reverse := by decide +kernel
  have hread : parseUnder ⟨"gpu-1", [a100Type "a100"]⟩ (clusterNameOf "gpu-1" (some 2) "a100").toList =
      .ok (some ("gpu-1", ((2 : Nat) : Int), "a100")) :=
    @parseUnder_self ⟨"gpu-1", [a100Type "a100"]⟩ (a100Type "a100") List.mem_cons_self 2
  rw [parseClusterName, hname, hsorted, numberedQueues, List.reverse_cons, List.reverse_singleton,
    List.singleton_append, parseLoop, hread]
  exact nofun

end OciHpc.Autoscale
