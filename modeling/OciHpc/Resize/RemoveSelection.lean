import Mathlib.Data.List.Perm.Subperm
import OciHpc.Resize.HostLine
import OciHpc.Resize.Instances

/-!
# The nodes a removal selects

The main program of `resize.py` in mode `remove`: the unreachable nodes and, where no nodes are named, the last nodes of
the cluster up to the number asked for.

* `getNFSnode` : the node that serves the scratch directory;
* `removeTail`, `hostnamesToRemove` : the names selected;
* `Selects` : what a selection by number promises;
* `selects_iff` : it is kept exactly when no unreachable node is among the last ones added.
-/

namespace OciHpc.Resize

/-! ## The selection -/

/-- `getNFSnode`; the inventory is `none` where it cannot be opened, the result where the lookup raises. -/
def getNFSnode (inventory : Option Text) : Option Text :=
  match inventory with
  | none => some []
  | some text =>
      match (parseInventory text).lines? "nfs".toList with
      | none => none
      | some [] => some []
      | some (line :: _) => if line = ['\n'] then some [] else (words line).head?

/-- `xs[i]`: a negative index counts from the end, `none` is an `IndexError`. -/
def index? {α : Type} (xs : List α) (i : Int) : Option α :=
  if 0 ≤ i then xs[i.toNat]? else if 0 ≤ i + xs.length then xs[(i + xs.length).toNat]? else none

/-- `[xs[i] for i in range(start, start + count)]`. -/
def indexRange {α : Type} (xs : List α) : Int → Nat → Option (List α)
  | _, 0 => some []
  | start, count + 1 =>
      match index? xs start, indexRange xs (start + 1) count with
      | some x, some rest => some (x :: rest)
      | _, _ => none

/-- `[xs[i] for i in range(len(xs)-count, len(xs))]`. -/
def removeTail {α : Type} (xs : List α) (count : Nat) : Option (List α) := indexRange xs (xs.length - count) count

inductive Selection
  | exited
  | raised
  | nodes (hostnames : List String)
  deriving DecidableEq, Repr

/-- What the selection reads: `--nodes`, `--remove_unreachable`, the nodes OCI lists and those of the inventory that
cannot be reached, and the inventory. -/
structure RemoveRequest where
  hostnames : List String
  number : Option Nat
  removeUnreachable : Bool
  cnInstances : List Node
  unreachable : List Node
  inventory : Option Text

/-- `names` with those of `others` that are not in it yet. -/
def extendNew (names others : List String) : List String :=
  others.foldl (fun names name => if name ∈ names then names else names ++ [name]) names

/-- `hostnames_to_remove` in mode `remove`. -/
def hostnamesToRemove (request : RemoveRequest) : Selection :=
  if request.unreachable ≠ [] ∧ request.removeUnreachable = false then .exited
  else
    let unreachable := request.unreachable.map (·.displayName)
    match request.hostnames with
    | [] =>
        match getNFSnode request.inventory, request.number with
        | some nfsNode, some number =>
            let nonNfs := request.cnInstances.filter fun node => node.displayName ≠ String.ofList nfsNode
            let additional := number - unreachable.length
            if 0 < additional then
              if additional < request.cnInstances.length then
                match removeTail nonNfs additional with
                | none => .raised
                | some tail => .nodes (unreachable ++ tail.map (·.displayName))
              else .nodes (request.cnInstances.map (·.displayName))
            else .nodes unreachable
        | _, _ => .raised
    | hostnames => .nodes (extendNew hostnames unreachable)

/-! ## What is promised -/

/-- A selection by number: the unreachable nodes and as many more as are missing, the NFS node only where it must. -/
structure Selects (names : List String) (nfsNode : String) (unreachable : List String) (number : Nat)
    (selected : List String) : Prop where
  distinct : selected.Nodup
  listed : ∀ name ∈ selected, name ∈ names
  complete : ∀ name ∈ unreachable, name ∈ selected
  count : selected.length = min (max number unreachable.length) names.length
  nfs : nfsNode ∈ selected → nfsNode ∈ unreachable ∨ ∀ name ∈ names, name ≠ nfsNode → name ∈ selected

/-- None of the last nodes but the NFS node, as many as are missing, is unreachable. -/
def TailReachable (names : List String) (nfsNode : String) (unreachable : List String) (number : Nat) : Prop :=
  let nonNfs := names.filter fun name => name ≠ nfsNode
  ∀ name ∈ nonNfs.drop (nonNfs.length - (number - unreachable.length)), name ∉ unreachable

/-! ## The tail -/

theorem index?_of_lt {α : Type} {xs : List α} {i : Nat} (h : i < xs.length) : index? xs (i : Int) = some xs[i] := by
  rw [index?, if_pos (Int.natCast_nonneg i), Int.toNat_natCast, List.getElem?_eq_getElem h]

theorem indexRange_eq {α : Type} {xs : List α} {start count : Nat} (h : start + count ≤ xs.length) :
    indexRange xs start count = some ((xs.drop start).take count) := by
  induction count generalizing start with
  | zero => rfl
  | succ count ih =>
      have hlt : start < xs.length := by omega
      have hrest := @ih (start + 1) (by omega)
      rw [Int.natCast_add, Int.natCast_one] at hrest
      rw [indexRange, index?_of_lt hlt, hrest, List.drop_eq_getElem_cons hlt, List.take_succ_cons]

/-- The indices are in range where there are as many elements. -/
theorem removeTail_eq {α : Type} {xs : List α} {count : Nat} (h : count ≤ xs.length) :
    removeTail xs count = some (xs.drop (xs.length - count)) := by
  have hlength : (xs.drop (xs.length - count)).length = count := by
    rw [List.length_drop]
    omega
  rw [removeTail, ← Int.natCast_sub h, indexRange_eq (by omega), List.take_of_length_le (by omega)]

/-! ## The names selected by number -/

def byNumber (cnInstances unreachable : List Node) (inventory : Option Text) (number : Nat) : RemoveRequest :=
  ⟨[], some number, true, cnInstances, unreachable, inventory⟩

def nonNfsNames (names : List String) (nfsNode : String) : List String := names.filter fun name => name ≠ nfsNode

def selectedNames (names : List String) (nfsNode : String) (unreachable : List String) (number : Nat) : List String :=
  if number ≤ unreachable.length then unreachable
  else if names.length ≤ number - unreachable.length then names
  else
    unreachable ++
      (nonNfsNames names nfsNode).drop ((nonNfsNames names nfsNode).length - (number - unreachable.length))

theorem length_le_nonNfsNames {names : List String} (hdistinct : names.Nodup) (nfsNode : String) :
    names.length ≤ (nonNfsNames names nfsNode).length + 1 := by
  have herase : nonNfsNames names nfsNode = names.erase nfsNode := by
    rw [hdistinct.erase_eq_filter]
    exact List.filter_congr fun name _ => by by_cases h : name = nfsNode <;> simp [h]
  have hlength := @List.le_length_erase _ _ _ nfsNode names
  rw [← herase] at hlength
  omega

theorem hostnamesToRemove_byNumber {cnInstances unreachable : List Node} {inventory : Option Text} {nfsNode : String}
    (hdistinct : (cnInstances.map (·.displayName)).Nodup) (hnfs : getNFSnode inventory = some nfsNode.toList)
    (number : Nat) :
    hostnamesToRemove (byNumber cnInstances unreachable inventory number) = .nodes
      (selectedNames (cnInstances.map (·.displayName)) nfsNode (unreachable.map (·.displayName)) number) := by
  have hlength := length_le_nonNfsNames hdistinct nfsNode
  have hmap : (cnInstances.filter fun node => node.displayName ≠ nfsNode).map (·.displayName) =
      nonNfsNames (cnInstances.map (·.displayName)) nfsNode := by
    rw [nonNfsNames, List.filter_map]
    rfl
  unfold hostnamesToRemove byNumber selectedNames
  simp only [List.length_map, hnfs, String.ofList_toList]
  rw [if_neg (by simp)]
  by_cases hfew : number ≤ unreachable.length
  · rw [if_neg (by omega), if_pos hfew]
  · rw [if_pos (by omega), if_neg hfew]
    by_cases hmany : cnInstances.length ≤ number - unreachable.length
    · rw [if_neg (by omega), if_pos hmany]
    · rw [← hmap, List.length_map, List.length_map] at hlength
      rw [if_pos (by omega), removeTail_eq (by omega), if_neg hmany, ← hmap, List.length_map, ← List.map_drop]

section
variable {names unreachable : List String} {nfsNode : String} {number : Nat}

theorem mem_nonNfsNames {name : String} : name ∈ nonNfsNames names nfsNode ↔ name ∈ names ∧ name ≠ nfsNode := by
  simp [nonNfsNames]

theorem selects_selectedNames (hdistinct : names.Nodup) (hunreachable : unreachable.Nodup)
    (hlisted : ∀ name ∈ unreachable, name ∈ names) :
    Selects names nfsNode unreachable number (selectedNames names nfsNode unreachable number) ↔
      number ≤ unreachable.length ∨ names.length + unreachable.length ≤ number ∨
        TailReachable names nfsNode unreachable number := by
  have hlength := length_le_nonNfsNames hdistinct nfsNode
  have hbound : unreachable.length ≤ names.length := (hunreachable.subperm hlisted).length_le
  unfold selectedNames
  split
  · rename_i hfew
    refine ⟨fun _ => .inl hfew, fun _ => ⟨hunreachable, hlisted, fun _ h => h, by omega, .inl⟩⟩
  · rename_i hfew
    split
    · rename_i hmany
      refine ⟨fun _ => .inr (.inl (by omega)), fun _ => ?_⟩
      exact ⟨hdistinct, fun _ h => h, hlisted, by omega, fun _ => .inr fun _ h _ => h⟩
    · rename_i hmany
      have htail : ∀ name ∈ (nonNfsNames names nfsNode).drop
          ((nonNfsNames names nfsNode).length - (number - unreachable.length)), name ∈ names ∧ name ≠ nfsNode :=
        fun name h => mem_nonNfsNames.mp (List.mem_of_mem_drop h)
      constructor
      · intro hselects
        refine .inr (.inr fun name hname hmem => ?_)
        exact (List.nodup_append.mp hselects.distinct).2.2 name hmem name hname rfl
      · intro hcondition
        have hreachable : TailReachable names nfsNode unreachable number := by
          obtain h | h | h := hcondition
          · omega
          · omega
          · exact h
        have hnodup : (unreachable ++ (nonNfsNames names nfsNode).drop
            ((nonNfsNames names nfsNode).length - (number - unreachable.length))).Nodup := by
          refine List.nodup_append.mpr ⟨hunreachable, (hdistinct.filter _).sublist (List.drop_sublist _ _), ?_⟩
          intro name hmem other hother heq
          exact hreachable other hother (heq ▸ hmem)
        have hsub : ∀ name ∈ unreachable ++ (nonNfsNames names nfsNode).drop
            ((nonNfsNames names nfsNode).length - (number - unreachable.length)), name ∈ names := by
          intro name hmem
          rcases List.mem_append.mp hmem with hmem | hmem
          · exact hlisted name hmem
          · exact (htail name hmem).1
        have hfits := (hnodup.subperm hsub).length_le
        rw [List.length_append, List.length_drop] at hfits
        refine ⟨hnodup, hsub, fun name hmem => List.mem_append_left _ hmem, ?_, fun hmem => ?_⟩
        · rw [List.length_append, List.length_drop]
          omega
        · rcases List.mem_append.mp hmem with hmem | hmem
          · exact .inl hmem
          · exact absurd rfl (htail nfsNode hmem).2

end

/-- **A selection by number keeps its promise exactly when** the unreachable nodes are enough, or all nodes are selected,
or no unreachable node is among the last ones added. -/
theorem selects_iff {cnInstances unreachable : List Node} (hdistinct : (cnInstances.map (·.displayName)).Nodup)
    (hunreachable : (unreachable.map (·.displayName)).Nodup)
    (hlisted : ∀ node ∈ unreachable, node.displayName ∈ cnInstances.map (·.displayName)) {inventory : Option Text}
    {nfsNode : String} (hnfs : getNFSnode inventory = some nfsNode.toList) (number : Nat) :
    (∃ selected, hostnamesToRemove (byNumber cnInstances unreachable inventory number) = .nodes selected ∧
      Selects (cnInstances.map (·.displayName)) nfsNode (unreachable.map (·.displayName)) number selected) ↔
      number ≤ unreachable.length ∨ cnInstances.length + unreachable.length ≤ number ∨
        TailReachable (cnInstances.map (·.displayName)) nfsNode (unreachable.map (·.displayName)) number := by
  have hnames : ∀ name ∈ unreachable.map (·.displayName), name ∈ cnInstances.map (·.displayName) := by
    intro name hname
    obtain ⟨node, hnode, rfl⟩ := List.mem_map.mp hname
    exact hlisted node hnode
  have hiff := @selects_selectedNames _ _ nfsNode number hdistinct hunreachable hnames
  rw [List.length_map, List.length_map] at hiff
  rw [hostnamesToRemove_byNumber hdistinct hnfs, ← hiff]
  constructor
  · rintro ⟨selected, heq, hselects⟩
    rw [Selection.nodes.injEq] at heq
    exact heq ▸ hselects
  · intro hselects
    exact ⟨_, rfl, hselects⟩

/-! ### Three nodes -/

def threeNodes : List Node := [⟨"a", "10.0.0.2", "ocid1"⟩, ⟨"b", "10.0.0.3", "ocid2"⟩, ⟨"c", "10.0.0.4", "ocid3"⟩]

/-- `b` serves the scratch directory. -/
def servedByB : Text := "[nfs]\nb ansible_host=10.0.0.3\n".toList

theorem getNFSnode_servedByB : getNFSnode (some servedByB) = some "b".toList := by decide +kernel

theorem selects_iff_first_unreachable :
    ∃ selected, hostnamesToRemove (byNumber threeNodes [⟨"a", "10.0.0.2", "ocid1"⟩] (some servedByB) 2) =
        .nodes selected ∧ Selects ["a", "b", "c"] "b" ["a"] 2 selected :=
  (@selects_iff threeNodes [⟨"a", "10.0.0.2", "ocid1"⟩] (by decide) (by decide) (by decide) _ _ getNFSnode_servedByB
    2).mpr (.inr (.inr (by unfold TailReachable; decide)))

/-- The last node is unreachable: it is selected twice, and no other is. -/
theorem last_unreachable_twice :
    hostnamesToRemove (byNumber threeNodes [⟨"c", "10.0.0.4", "ocid3"⟩] (some servedByB) 2) = .nodes ["c", "c"] ∧
      ¬ Selects ["a", "b", "c"] "b" ["c"] 2 ["c", "c"] :=
  ⟨by decide +kernel, fun h => absurd h.distinct (by decide)⟩

end OciHpc.Resize
