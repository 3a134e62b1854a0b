import Mathlib.Data.List.Sort
import OciHpc.Base.Dictionary

/-!
# Ordering the hosts of a job by rack

* `nodeOrderingByRack` : `node_ordering_by_rack.py`, from the hosts and what they answer to the four files;
* `RackOrder` : the racks one after the other, none larger than the one before, each with its hosts in their order;
* `nodeOrderingByRack_spec` : the files of every list of hosts.
-/

namespace OciHpc.Rack

/-! ## The script -/

def gpus : Nat := 8

def writeOrderedHostfile (orderedHosts : List String) (srun : Bool) : List String :=
  orderedHosts.flatMap fun h => if srun then List.replicate 8 (h ++ "\n") else [h ++ "\n"]

def rankLine (rank : Nat) (h : String) (slot : Nat) : String :=
  "rank " ++ toString rank ++ "=" ++ h ++ " slot=" ++ toString slot ++ "\n"

def writeOrderedRankfile (orderedHosts : List String) : List String :=
  orderedHosts.zipIdx.flatMap fun (h, index) =>
    (List.range gpus).map fun gpuIndex => rankLine (index * gpus + gpuIndex) h gpuIndex

structure OrderedFiles where
  orderedHostfile : List String
  orderedHostfileSystemName : List String
  orderedHostfileSystemNameSrun : List String
  rankfileSystemName : List String

section
variable {κ : Type} [DecidableEq κ]

/-- The order of `sorted(_, key=lambda x: len(x[1]), reverse=True)`, which keeps that of racks of one size. -/
def NotSmaller (a b : κ × List String) : Prop := b.2.length ≤ a.2.length

instance : DecidableRel (@NotSmaller κ) := fun a b => inferInstanceAs (Decidable (b.2.length ≤ a.2.length))

/-- `rackId` and `systemName` are what the hosts answer; `none` is a `KeyError`. -/
def nodeOrderingByRack (rackId : String → κ) (systemName : String → String) (hosts : List String) :
    Option OrderedFiles := do
  let r := groupBy rackId hosts
  let friendlyNameToSystemHostname := hosts.foldl (fun names h => setKey h (systemName h) names) []
  let racksSorted := r.insertionSort NotSmaller
  let orderedHosts := racksSorted.flatMap (·.2)
  let orderedHostsFriendlyName ← orderedHosts.mapM fun h => friendlyNameToSystemHostname.lookup h
  return {
    orderedHostfile := writeOrderedHostfile orderedHosts false
    orderedHostfileSystemName := writeOrderedHostfile orderedHostsFriendlyName false
    orderedHostfileSystemNameSrun := writeOrderedHostfile orderedHostsFriendlyName true
    rankfileSystemName := writeOrderedRankfile orderedHostsFriendlyName }

/-! ## The order -/

structure RackOrder (rackId : String → κ) (hosts ordered : List String) (racks : List κ) : Prop where
  perm : ordered.Perm hosts
  distinct : racks.Nodup
  blocks : ordered = racks.flatMap (itemsOf rackId hosts)
  contiguous : ∀ rack, itemsOf rackId hosts rack <:+: ordered
  sizes : racks.Pairwise fun rack later => (itemsOf rackId hosts later).length ≤ (itemsOf rackId hosts rack).length

instance : Std.Total (@NotSmaller κ) := ⟨fun a b => Nat.le_total b.2.length a.2.length⟩

instance : IsTrans (κ × List String) NotSmaller := ⟨fun _ _ _ hab hbc => Nat.le_trans hbc hab⟩

variable {rackId : String → κ} {hosts : List String}

theorem rackOrder_sorted {groups : List (κ × List String)} (h : Grouped rackId hosts groups)
    (hsorted : groups.Pairwise NotSmaller) : RackOrder rackId hosts (groups.flatMap (·.2)) (groups.map (·.1)) := by
  have hgroup : ∀ entry ∈ groups, entry.2 = itemsOf rackId hosts entry.1 := fun entry hentry =>
    h.group_eq entry.1 entry.2 hentry
  have hblocks : groups.flatMap (·.2) = (groups.map (·.1)).flatMap (itemsOf rackId hosts) := by
    rw [List.flatMap_map]
    exact List.flatMap_congr hgroup
  refine ⟨h.perm, h.nodup, hblocks, fun rack => ?_, ?_⟩
  · by_cases hrack : rack ∈ groups.map (·.1)
    · rw [hblocks]
      obtain ⟨before, after, hsplit⟩ := List.append_of_mem hrack
      rw [hsplit, List.flatMap_append, List.flatMap_cons, ← List.append_assoc]
      exact List.infix_append _ _ _
    · have hempty : itemsOf rackId hosts rack = [] := by
        refine List.filter_eq_nil_iff.mpr fun host hhost hkey => hrack ?_
        rw [← of_decide_eq_true hkey]
        exact h.complete host hhost
      rw [hempty]
      exact List.nil_infix
  · rw [List.pairwise_map]
    refine hsorted.imp_of_mem fun hrack hlater hle => ?_
    rw [← hgroup _ hrack, ← hgroup _ hlater]
    exact hle

theorem lookup_names {systemName : String → String} {host : String} (hhost : host ∈ hosts) :
    (hosts.foldl (fun names h => setKey h (systemName h) names) []).lookup host = some (systemName host) := by
  have hkeep : ∀ (rest : List String) (names : List (String × String)),
      names.lookup host = some (systemName host) ∨ host ∈ rest →
        (rest.foldl (fun names h => setKey h (systemName h) names) names).lookup host = some (systemName host) := by
    intro rest
    induction rest with
    | nil => exact fun names h => h.resolve_right List.not_mem_nil
    | cons other rest ih =>
      intro names h
      apply ih
      by_cases heq : host = other
      · subst heq
        exact .inl (lookup_setKey_self ..)
      · refine h.imp (fun hnames => ?_) fun hmem => List.mem_of_ne_of_mem heq hmem
        rw [lookup_setKey_of_ne heq]
        exact hnames
  exact hkeep hosts [] (.inr hhost)

theorem mapM_eq_map {α β : Type} {f : α → Option β} {g : α → β} {items : List α}
    (h : ∀ item ∈ items, f item = some (g item)) : items.mapM f = some (items.map g) := by
  induction items with
  | nil => rfl
  | cons item rest ih =>
    rw [List.mapM_cons, h item List.mem_cons_self, ih fun other hother => h other (List.mem_cons_of_mem _ hother)]
    rfl

/-! ## The files -/

theorem getElem?_flatMap_blocks {α β : Type} {block : α → List β} {n : Nat} {items : List α}
    (h : ∀ item ∈ items, (block item).length = n) (q : Nat) {s : Nat} (hs : s < n) :
    (items.flatMap block)[q * n + s]? = items[q]?.bind fun item => (block item)[s]? := by
  induction items generalizing q with
  | nil => simp
  | cons item rest ih =>
    have hitem : (block item).length = n := h item List.mem_cons_self
    rw [List.flatMap_cons]
    cases q with
    | zero =>
      rw [Nat.zero_mul, Nat.zero_add, List.getElem?_append_left (by omega)]
      rfl
    | succ q =>
      have hindex : (q + 1) * n + s - (block item).length = q * n + s := by rw [hitem, Nat.succ_mul]; omega
      have hle : (block item).length ≤ (q + 1) * n + s := by rw [hitem, Nat.succ_mul]; omega
      rw [List.getElem?_append_right hle, hindex, ih fun other hother => h other (List.mem_cons_of_mem _ hother)]
      rfl

theorem writeOrderedRankfile_spec (ordered : List String) :
    (writeOrderedRankfile ordered).length = 8 * ordered.length ∧
      ∀ rank < 8 * ordered.length, ∃ host, ordered[rank / 8]? = some host ∧
        (writeOrderedRankfile ordered)[rank]? = some (rankLine rank host (rank % 8)) := by
  have hlength : ∀ entry ∈ ordered.zipIdx, ((List.range gpus).map fun gpuIndex =>
      rankLine (entry.2 * gpus + gpuIndex) entry.1 gpuIndex).length = 8 := by
    intro entry _
    rw [List.length_map, List.length_range]
    rfl
  refine ⟨?_, fun rank hrank => ?_⟩
  · unfold writeOrderedRankfile
    rw [List.length_flatMap, List.map_congr_left hlength, List.map_const', List.sum_replicate_nat, List.length_zipIdx,
      Nat.mul_comm]
  · have hdiv : rank / 8 < ordered.length := by omega
    have hslot : rank % 8 < 8 := Nat.mod_lt _ (by decide)
    refine ⟨ordered[rank / 8], List.getElem?_eq_getElem hdiv, ?_⟩
    have hblock := getElem?_flatMap_blocks hlength (rank / 8) hslot
    rw [Nat.div_add_mod' rank 8, List.getElem?_zipIdx, List.getElem?_eq_getElem hdiv] at hblock
    refine hblock.trans ?_
    simp only [Option.map_some, Option.bind_some, Nat.zero_add, List.getElem?_map, gpus, List.getElem?_range hslot,
      Nat.div_add_mod']

theorem writeOrderedHostfile_false (ordered : List String) :
    writeOrderedHostfile ordered false = ordered.map (· ++ "\n") := by
  unfold writeOrderedHostfile
  simp only [Bool.false_eq_true, if_false]
  exact List.map_eq_flatMap.symm

/-- **The files of a run.** The host file has the hosts rack by rack, the other files the system names of the same
hosts, and the rank file each rank on its host and slot. -/
theorem nodeOrderingByRack_spec (rackId : String → κ) (systemName : String → String) (hosts : List String) :
    ∃ files ordered racks, nodeOrderingByRack rackId systemName hosts = some files ∧
      RackOrder rackId hosts ordered racks ∧
      files.orderedHostfile = ordered.map (· ++ "\n") ∧
      files.orderedHostfileSystemName = ordered.map (systemName · ++ "\n") ∧
      files.orderedHostfileSystemNameSrun = ordered.flatMap (fun h => List.replicate 8 (systemName h ++ "\n")) ∧
      files.rankfileSystemName.length = 8 * hosts.length ∧
      ∀ rank < 8 * hosts.length, ∃ host, ordered[rank / 8]? = some host ∧
        files.rankfileSystemName[rank]? =
          some ("rank " ++ toString rank ++ "=" ++ systemName host ++ " slot=" ++ toString (rank % 8) ++ "\n") := by
  have hgrouped : Grouped rackId hosts ((groupBy rackId hosts).insertionSort NotSmaller) :=
    (grouped_groupBy hosts).of_perm (List.perm_insertionSort _ _)
  have horder := rackOrder_sorted hgrouped (List.pairwise_insertionSort _ _)
  generalize hracks : (groupBy rackId hosts).insertionSort NotSmaller = racksSorted at hgrouped horder
  generalize hordered : racksSorted.flatMap (·.2) = ordered at horder
  have hnames : ordered.mapM (fun h =>
      (hosts.foldl (fun names h => setKey h (systemName h) names) []).lookup h) = some (ordered.map systemName) := by
    exact mapM_eq_map fun h hmem => lookup_names (horder.perm.mem_iff.mp hmem)
  refine ⟨⟨writeOrderedHostfile ordered false, writeOrderedHostfile (ordered.map systemName) false,
    writeOrderedHostfile (ordered.map systemName) true, writeOrderedRankfile (ordered.map systemName)⟩, ordered,
    racksSorted.map (·.1), ?_, horder, writeOrderedHostfile_false ordered, ?_, ?_, ?_⟩
  · unfold nodeOrderingByRack
    dsimp only
    rw [hracks, hordered, hnames]
    rfl
  · show writeOrderedHostfile (ordered.map systemName) false = _
    rw [writeOrderedHostfile_false, List.map_map]
    rfl
  · show (ordered.map systemName).flatMap (fun h => List.replicate 8 (h ++ "\n")) = _
    rw [List.flatMap_map]
  · have hlength : (ordered.map systemName).length = hosts.length := by rw [List.length_map, horder.perm.length_eq]
    have hspec := writeOrderedRankfile_spec (ordered.map systemName)
    rw [hlength] at hspec
    refine ⟨hspec.1, fun rank hrank => ?_⟩
    obtain ⟨name, hname, hline⟩ := hspec.2 rank hrank
    rw [List.getElem?_map, Option.map_eq_some_iff] at hname
    obtain ⟨host, hhost, rfl⟩ := hname
    exact ⟨host, hhost, hline⟩

end

end OciHpc.Rack
