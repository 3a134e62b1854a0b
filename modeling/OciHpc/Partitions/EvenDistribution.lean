import Mathlib.Data.List.Sort
import Mathlib.Order.Bounds.Basic

/-!
# Nodes distributed evenly over clusters

* `maxNodesEvenDistributed` : the lines `max_nodes_partition.py` prints for the idle nodes of the clusters;
* `evenTotals` : the totals of `h` nodes on each of `c` clusters that have them;
* `isGreatest_maxNodes` : the number printed is the greatest of these totals.
-/

namespace OciHpc.Partitions

/-! ## The script -/

/-- `max_nodes` of a partition: `max` of the products over the sorted list. -/
def maxNodes (nodeList : List Nat) : Nat :=
  if nodeList.length ≠ 0 then
    let nodeList := nodeList.insertionSort (· ≥ ·)
    let maxNodeList := nodeList.zipIdx.map fun (n, i) => n * (i + 1)
    maxNodeList.max?.getD 0
  else 0

/-- `print(key, "->", _)`. -/
def printed (key : String) (n : Nat) : String := key ++ " -> " ++ toString n

def sortedItems (partitionIdleNodes : List (String × List Nat)) : List (String × List Nat) :=
  partitionIdleNodes.insertionSort fun a b => a.1 ≤ b.1

def maxNodesEvenDistributed (partitionIdleNodes : List (String × List Nat)) : List String :=
  "\n-------Maximum number of nodes distributed evenly per partition-------" ::
    (sortedItems partitionIdleNodes).map fun (key, nodeList) => printed key (maxNodes nodeList)

/-! ## What the number is -/

/-- `h` nodes on each of `c` clusters: at least `c` of them have `h`. -/
def evenTotals (nodeList : List Nat) : Set Nat := { n | ∃ h c, c ≤ nodeList.countP (h ≤ ·) ∧ n = h * c }

theorem evenTotals_perm {nodeList nodeList' : List Nat} (h : nodeList.Perm nodeList') :
    evenTotals nodeList = evenTotals nodeList' := by
  ext n
  simp only [evenTotals, Set.mem_ofPred_eq, h.countP_eq]

section
variable {sorted : List Nat}

/-- An entry of a descending list, with those before it. -/
theorem lt_countP_of_getElem? (hsorted : sorted.Pairwise (· ≥ ·)) {i n : Nat} (hn : sorted[i]? = some n) :
    i < sorted.countP (n ≤ ·) := by
  obtain ⟨hi, rfl⟩ := List.getElem?_eq_some_iff.mp hn
  have htake : (sorted.take (i + 1)).countP (sorted[i] ≤ ·) = i + 1 := by
    rw [List.countP_eq_length.mpr, List.length_take, Nat.min_eq_left hi]
    intro m hm
    obtain ⟨j, hj, rfl⟩ := List.getElem_of_mem hm
    rw [List.getElem_take, decide_eq_true_eq]
    rw [List.length_take] at hj
    rcases Nat.lt_or_ge j i with hlt | hge
    · exact List.pairwise_iff_getElem.mp hsorted j i (by omega) hi hlt
    · have hji : j = i := by omega
      subst hji
      exact Nat.le_refl _
  have hle : (sorted.take (i + 1)).countP (sorted[i] ≤ ·) ≤ sorted.countP (sorted[i] ≤ ·) :=
    (List.take_sublist _ _).countP_le
  omega

/-- If more than `i` entries of a descending list reach `h`, the one at `i` does. -/
theorem exists_getElem?_of_lt_countP (hsorted : sorted.Pairwise (· ≥ ·)) {i h : Nat} (hi : i < sorted.countP (h ≤ ·)) :
    ∃ n, sorted[i]? = some n ∧ h ≤ n := by
  have hlength : i < sorted.length := Nat.lt_of_lt_of_le hi List.countP_le_length
  refine ⟨sorted[i], List.getElem?_eq_getElem hlength, ?_⟩
  by_contra hlt
  have hdrop : (sorted.drop i).countP (h ≤ ·) = 0 := by
    rw [List.countP_eq_zero]
    intro m hm
    obtain ⟨j, hj, rfl⟩ := List.getElem_of_mem hm
    rw [List.length_drop] at hj
    rw [List.getElem_drop, decide_eq_true_eq]
    intro hle
    rcases Nat.eq_zero_or_pos j with rfl | hpos
    · exact hlt hle
    · have hge := List.pairwise_iff_getElem.mp hsorted i (i + j) hlength (by omega) (by omega)
      omega
  have hsplit : (sorted.take i).countP (h ≤ ·) + (sorted.drop i).countP (h ≤ ·) = sorted.countP (h ≤ ·) := by
    rw [← List.countP_append, List.take_append_drop]
  have htake : (sorted.take i).countP (h ≤ ·) ≤ i :=
    List.countP_le_length.trans ((List.length_take_le ..).trans (Nat.le_refl i))
  omega

end

/-- **The number of a partition is the greatest total.** -/
theorem isGreatest_maxNodes (nodeList : List Nat) : IsGreatest (evenTotals nodeList) (maxNodes nodeList) := by
  have hsorted : (nodeList.insertionSort (· ≥ ·)).Pairwise (· ≥ ·) := List.pairwise_insertionSort _ _
  rw [← evenTotals_perm (List.perm_insertionSort (· ≥ ·) nodeList)]
  unfold maxNodes
  split
  case isFalse hempty =>
    obtain rfl := List.length_eq_zero_iff.mp (not_not.mp hempty)
    refine ⟨⟨0, 0, Nat.le_refl _, rfl⟩, ?_⟩
    rintro n ⟨h, c, hc, rfl⟩
    rw [List.insertionSort_nil, List.countP_nil, Nat.le_zero] at hc
    rw [hc, Nat.mul_zero]
  case isTrue hlength =>
    dsimp only
    generalize hs : nodeList.insertionSort (· ≥ ·) = sorted at hsorted
    have hne : sorted ≠ [] := by
      rintro rfl
      rw [← List.length_insertionSort (· ≥ ·), hs] at hlength
      exact hlength rfl
    have hmem : ∀ m, m ∈ sorted.zipIdx.map (fun (n, i) => n * (i + 1)) ↔
        ∃ n i, sorted[i]? = some n ∧ n * (i + 1) = m := by
      intro m
      simp only [List.mem_map, Prod.exists, List.mem_zipIdx_iff_getElem?]
    obtain ⟨m, hm⟩ := List.isSome_max?_of_ne_nil (l := sorted.zipIdx.map fun (n, i) => n * (i + 1))
      (by simpa using hne) |> Option.isSome_iff_exists.mp
    rw [hm, Option.getD_some]
    obtain ⟨hin, hmax⟩ := List.max?_eq_some_iff.mp hm
    constructor
    · obtain ⟨n, i, hn, rfl⟩ := (hmem m).mp hin
      exact ⟨n, i + 1, lt_countP_of_getElem? hsorted hn, rfl⟩
    · rintro _ ⟨h, c, hc, rfl⟩
      cases c with
      | zero => exact Nat.zero_le _
      | succ i =>
        obtain ⟨n, hn, hle⟩ := exists_getElem?_of_lt_countP hsorted hc
        calc h * (i + 1) ≤ n * (i + 1) := Nat.mul_le_mul_right _ hle
          _ ≤ m := hmax _ ((hmem _).mpr ⟨n, i, hn, rfl⟩)

theorem maxNodes_perm {nodeList nodeList' : List Nat} (h : nodeList.Perm nodeList') :
    maxNodes nodeList = maxNodes nodeList' := by
  have hgreatest := isGreatest_maxNodes nodeList
  rw [evenTotals_perm h] at hgreatest
  exact hgreatest.unique (isGreatest_maxNodes nodeList')

/-- **The lines of a run**: one for each partition, with its greatest total, whatever the order of its list. -/
theorem maxNodesEvenDistributed_spec (partitionIdleNodes : List (String × List Nat)) :
    ∃ header, ∃ entries : List (String × List Nat), entries.Perm partitionIdleNodes ∧
      maxNodesEvenDistributed partitionIdleNodes =
        header :: entries.map (fun entry => entry.1 ++ " -> " ++ toString (maxNodes entry.2)) ∧
      (∀ entry ∈ entries, IsGreatest (evenTotals entry.2) (maxNodes entry.2)) ∧
      ∀ entry ∈ entries, ∀ nodeList, nodeList.Perm entry.2 → maxNodes nodeList = maxNodes entry.2 :=
  ⟨_, sortedItems partitionIdleNodes, List.perm_insertionSort _ _, rfl, fun entry _ => isGreatest_maxNodes entry.2,
    fun _ _ _ h => maxNodes_perm h⟩

example : maxNodes [2, 5, 4] = 8 := by decide

end OciHpc.Partitions
