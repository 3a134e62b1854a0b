import Mathlib.Data.List.Infix
import OciHpc.Autoscale.Status
import OciHpc.Base.Words

/-!
# The node lists of `sinfo`

`getstatus_slurm` splits the last word of a line at every comma, and puts the pieces of a bracket group together again.

* `NodeExpression` : a name, with a bracket group or without one;
* `splitNodes`, `splitNodesDisableResize` : the loop, as the two scripts have it;
* `joinRanges_open` : what the loop does inside a group;
* `splitNodes_join` : what is joined with commas is split again.
-/

namespace OciHpc.Autoscale
open PyStr

/-- The node list of a word in `autoscale_slurm.sh`, where the flag is `brokenListOfNodes`. -/
def splitNodes (word : String) : List String := joinRanges false "" (PyStr.split word ",")

/-- The node list of a word in `autoscale_slurm_disable-resize.sh`, where the flag is `broken`. -/
def splitNodesDisableResize (word : String) : List String := joinRanges false "" (PyStr.split word ",")

/-! ## Node expressions -/

def Plain (s : List Char) : Prop := ∀ c ∈ s, c ≠ ',' ∧ c ≠ '[' ∧ c ≠ ']'

def Unbracketed (s : List Char) : Prop := ∀ c ∈ s, c ≠ '[' ∧ c ≠ ']'

/-- A name with at most one bracket group, and no comma outside it. -/
inductive NodeExpression : List Char → Prop
  | name {s : List Char} (h : Plain s) : NodeExpression s
  | range {start body stop : List Char} (hstart : Plain start) (hbody : Unbracketed body) (hstop : Plain stop) :
      NodeExpression (start ++ '[' :: (body ++ ']' :: stop))

def pieces (s : List Char) : List String := (splitFrom [','] 0 [] s).map String.ofList

theorem split_eq_pieces (s : String) : PyStr.split s "," = pieces s.toList := rfl

theorem pieces_append (front rest : List Char) : pieces (front ++ ',' :: rest) = pieces front ++ pieces rest := by
  rw [pieces, splitFrom_append_sep, List.map_append]
  rfl

theorem pieces_of_not_mem {s : List Char} (h : ',' ∉ s) : pieces s = [String.ofList s] := by
  rw [pieces, splitFrom_of_not_mem h]
  rfl

theorem contains_ofList_iff {s : List Char} {part : String} {c : Char} (hpart : part.toList = [c]) :
    PyStr.contains (String.ofList s) part = true ↔ c ∈ s := by
  rw [PyStr.contains, hpart, String.toList_ofList, hasInfix_iff, List.singleton_infix_iff]

theorem contains_open_iff {s : List Char} : PyStr.contains (String.ofList s) "[" = true ↔ '[' ∈ s := contains_ofList_iff rfl

theorem contains_close_iff {s : List Char} : PyStr.contains (String.ofList s) "]" = true ↔ ']' ∈ s := contains_ofList_iff rfl

theorem Plain.comma_not_mem {s : List Char} (h : Plain s) : ',' ∉ s := fun hmem => (h _ hmem).1 rfl

theorem Plain.unbracketed {s : List Char} (h : Plain s) : Unbracketed s := fun c hc => (h c hc).2

theorem Unbracketed.not_open {s : List Char} (h : Unbracketed s) : '[' ∉ s := fun hmem => (h _ hmem).1 rfl

theorem Unbracketed.not_close {s : List Char} (h : Unbracketed s) : ']' ∉ s := fun hmem => (h _ hmem).2 rfl

/-! ## The loop -/

/-- Outside a group the partial element plays no part. -/
theorem joinRanges_outside (currentNode other : String) (nodes : List String) :
    joinRanges false currentNode nodes = joinRanges false other nodes := by
  induction nodes with
  | nil => rfl
  | cons node rest ih =>
    rw [joinRanges, joinRanges, ih]

/-- A piece without an open bracket is a node. -/
theorem joinRanges_name {s : List Char} (h : Plain s) (currentNode : String) (rest : List String) :
    joinRanges false currentNode (pieces s ++ rest) = String.ofList s :: joinRanges false currentNode rest := by
  have hopen : PyStr.contains (String.ofList s) "[" = false :=
    Bool.eq_false_iff.mpr fun hmem => h.unbracketed.not_open (contains_open_iff.mp hmem)
  rw [pieces_of_not_mem h.comma_not_mem, List.singleton_append, joinRanges, hopen, Bool.false_and,
    if_neg Bool.false_ne_true]

/-- **Inside a group** the pieces are added to the partial element, up to the one that closes it. -/
theorem joinRanges_open {body stop : List Char} (hbody : Unbracketed body) (hstop : Plain stop) (currentNode : String)
    (rest : List String) : joinRanges true currentNode (pieces (body ++ ']' :: stop) ++ rest) =
      (currentNode ++ "," ++ String.ofList (body ++ ']' :: stop)) :: joinRanges false currentNode rest := by
  induction hlength : body.length using Nat.strong_induction_on generalizing body currentNode with
  | _ n ih =>
    by_cases hcomma : ',' ∈ body
    · obtain ⟨first, later, rfl, hfirst⟩ := List.eq_append_cons_of_mem hcomma
      have hfirstBody : Unbracketed first := fun c hc => hbody c (List.mem_append_left _ hc)
      have hlaterBody : Unbracketed later := fun c hc =>
        hbody c (List.mem_append_right _ (List.mem_cons_of_mem _ hc))
      have hclose : PyStr.contains (String.ofList first) "]" = false :=
        Bool.eq_false_iff.mpr fun hmem => hfirstBody.not_close (contains_close_iff.mp hmem)
      have hshorter : later.length < n := by
        rw [← hlength, List.length_append, List.length_cons]
        omega
      rw [List.append_assoc, List.cons_append, pieces_append, pieces_of_not_mem hfirst, List.append_assoc,
        List.singleton_append, joinRanges, hclose, if_neg Bool.false_ne_true, ih _ hshorter hlaterBody _ rfl,
        joinRanges_outside _ currentNode]
      congr 1
      apply String.toList_injective
      simp [String.toList_append]
    · have hnone : ',' ∉ body ++ ']' :: stop := by
        simp only [List.mem_append, List.mem_cons, not_or]
        exact ⟨hcomma, by decide, hstop.comma_not_mem⟩
      have hclose : PyStr.contains (String.ofList (body ++ ']' :: stop)) "]" = true :=
        contains_close_iff.mpr (List.mem_append_right _ List.mem_cons_self)
      rw [pieces_of_not_mem hnone, List.singleton_append, joinRanges, hclose, if_pos rfl]

/-- A group is put together again. -/
theorem joinRanges_range {start body stop : List Char} (hstart : Plain start) (hbody : Unbracketed body)
    (hstop : Plain stop) (currentNode : String) (rest : List String) :
    joinRanges false currentNode (pieces (start ++ '[' :: (body ++ ']' :: stop)) ++ rest) =
      String.ofList (start ++ '[' :: (body ++ ']' :: stop)) :: joinRanges false currentNode rest := by
  by_cases hcomma : ',' ∈ body
  · obtain ⟨first, later, rfl, hfirst⟩ := List.eq_append_cons_of_mem hcomma
    have hfirstBody : Unbracketed first := fun c hc => hbody c (List.mem_append_left _ hc)
    have hlaterBody : Unbracketed later := fun c hc => hbody c (List.mem_append_right _ (List.mem_cons_of_mem _ hc))
    have hsplit : start ++ '[' :: (first ++ ',' :: later ++ ']' :: stop) =
        (start ++ '[' :: first) ++ ',' :: (later ++ ']' :: stop) := by simp
    have hnone : ',' ∉ start ++ '[' :: first := by
      simp only [List.mem_append, List.mem_cons, not_or]
      exact ⟨hstart.comma_not_mem, by decide, hfirst⟩
    have hopen : PyStr.contains (String.ofList (start ++ '[' :: first)) "[" = true :=
      contains_open_iff.mpr (List.mem_append_right _ List.mem_cons_self)
    have hclose : PyStr.contains (String.ofList (start ++ '[' :: first)) "]" = false := by
      refine Bool.eq_false_iff.mpr fun hmem => ?_
      rcases List.mem_append.mp (contains_close_iff.mp hmem) with hmem | hmem
      · exact hstart.unbracketed.not_close hmem
      · exact hfirstBody.not_close ((List.mem_cons.mp hmem).resolve_left (by decide))
    rw [hsplit, pieces_append, pieces_of_not_mem hnone, List.append_assoc, List.singleton_append, joinRanges, hopen,
      hclose, Bool.not_false, Bool.and_true, if_pos rfl, joinRanges_open hlaterBody hstop,
      joinRanges_outside _ currentNode]
    congr 1
    apply String.toList_injective
    simp [String.toList_append]
  · have hnone : ',' ∉ start ++ '[' :: (body ++ ']' :: stop) := by
      simp only [List.mem_append, List.mem_cons, not_or]
      exact ⟨hstart.comma_not_mem, by decide, hcomma, by decide, hstop.comma_not_mem⟩
    have hclose : PyStr.contains (String.ofList (start ++ '[' :: (body ++ ']' :: stop))) "]" = true :=
      contains_close_iff.mpr (List.mem_append_right _ (List.mem_cons_of_mem _ (List.mem_append_right _ List.mem_cons_self)))
    rw [pieces_of_not_mem hnone, List.singleton_append, joinRanges, hclose, Bool.not_true, Bool.and_false,
      if_neg Bool.false_ne_true]

/-- **A node expression is one node**, whatever follows it. -/
theorem joinRanges_nodeExpression {s : List Char} (h : NodeExpression s) (currentNode : String) (rest : List String) :
    joinRanges false currentNode (pieces s ++ rest) = String.ofList s :: joinRanges false currentNode rest := by
  cases h with
  | name h => exact joinRanges_name h currentNode rest
  | range hstart hbody hstop => exact joinRanges_range hstart hbody hstop currentNode rest

theorem joinRanges_join {nodes : List String} (hnodes : ∀ node ∈ nodes, NodeExpression node.toList) (hne : nodes ≠ []) :
    joinRanges false "" (PyStr.split (PyStr.join "," nodes) ",") = nodes := by
  induction nodes with
  | nil => exact absurd rfl hne
  | cons node rest ih =>
    have hnode : NodeExpression node.toList := hnodes node List.mem_cons_self
    cases rest with
    | nil =>
      have hone := joinRanges_nodeExpression hnode "" []
      rw [List.append_nil, String.ofList_toList] at hone
      exact hone
    | cons next rest =>
      have hjoin : (PyStr.join "," (node :: next :: rest)).toList =
          node.toList ++ ',' :: (PyStr.join "," (next :: rest)).toList := by
        rw [PyStr.join, String.toList_append, String.toList_append, List.append_assoc]
        · rfl
        · exact List.cons_ne_nil next rest
      rw [split_eq_pieces, hjoin, pieces_append, joinRanges_nodeExpression hnode, String.ofList_toList, ← split_eq_pieces,
        ih (fun other hother => hnodes other (List.mem_cons_of_mem _ hother)) (List.cons_ne_nil next rest)]

/-- **What is joined with commas is split again**, in both scripts. The expressions may be empty, their list may not. -/
theorem splitNodes_join {nodes : List String} (hnodes : ∀ node ∈ nodes, NodeExpression node.toList) (hne : nodes ≠ []) :
    splitNodes (PyStr.join "," nodes) = nodes ∧ splitNodesDisableResize (PyStr.join "," nodes) = nodes :=
  ⟨joinRanges_join hnodes hne, joinRanges_join hnodes hne⟩

/-- Two groups, one of them with text after it, and a name between them. -/
def rackNodes : List String := ["gpu-[1-3,7]", "login", "rack[2,,4]-hpc"]

theorem splitNodes_join_rack :
    splitNodes "gpu-[1-3,7],login,rack[2,,4]-hpc" = ["gpu-[1-3,7]", "login", "rack[2,,4]-hpc"] ∧
      splitNodesDisableResize "gpu-[1-3,7],login,rack[2,,4]-hpc" = ["gpu-[1-3,7]", "login", "rack[2,,4]-hpc"] := by
  have hnodes : ∀ node ∈ rackNodes, NodeExpression node.toList := by
    have hplain : ∀ s : List Char, s.all (fun c => c != ',' && c != '[' && c != ']') = true → Plain s := by
      intro s hs c hc
      simpa [and_assoc] using List.all_eq_true.mp hs c hc
    have hbody : ∀ s : List Char, s.all (fun c => c != '[' && c != ']') = true → Unbracketed s := by
      intro s hs c hc
      simpa using List.all_eq_true.mp hs c hc
    intro node hnode
    rcases List.mem_cons.mp hnode with rfl | hnode
    · exact @NodeExpression.range "gpu-".toList "1-3,7".toList [] (hplain _ (by decide))
        (hbody _ (by decide)) (hplain _ (by decide))
    · rcases List.mem_cons.mp hnode with rfl | hnode
      · exact .name (hplain _ (by decide))
      · obtain rfl := List.mem_singleton.mp hnode
        exact @NodeExpression.range "rack".toList "2,,4".toList "-hpc".toList (hplain _ (by decide))
          (hbody _ (by decide)) (hplain _ (by decide))
  exact splitNodes_join hnodes (List.cons_ne_nil _ _)

/-- An empty list is joined to the empty text, which is split into one empty node. -/
theorem splitNodes_join_nil :
    splitNodes (PyStr.join "," []) = [""] ∧ splitNodesDisableResize (PyStr.join "," []) = [""] ∧
      ¬ ∀ nodes : List String, (∀ node ∈ nodes, node ≠ "" ∧ NodeExpression node.toList) →
        splitNodes (PyStr.join "," nodes) = nodes ∧ splitNodesDisableResize (PyStr.join "," nodes) = nodes := by
  have hnil : splitNodes (PyStr.join "," []) = [""] := by decide
  refine ⟨hnil, hnil, fun hall => ?_⟩
  have hempty := (hall [] fun node hnode => absurd hnode List.not_mem_nil).1
  rw [hnil] at hempty
  cases hempty

/-! ## A line of the listing -/

theorem ne_empty_of_mem_splitWs {line word : String} (h : word ∈ PyStr.splitWs line) : word ≠ "" := by
  rw [PyStr.splitWs, List.mem_filter, decide_eq_true_eq] at h
  exact h.2

/-- **The nodes of a line** are those its last word lists; no word is empty, so there is one at least. -/
theorem nodesOfLine_join {line : String} {nodes : List String} (hnodes : ∀ node ∈ nodes, NodeExpression node.toList)
    (hlast : (PyStr.splitWs line).getLast? = some (PyStr.join "," nodes)) :
    (nodesOfLine line).map Prod.snd = nodes.map unquoteNode := by
  have hne : nodes ≠ [] := by
    rintro rfl
    exact ne_empty_of_mem_splitWs (List.mem_of_getLast? hlast) rfl
  unfold nodesOfLine
  dsimp only
  rw [hlast, Option.getD_some, joinRanges_join hnodes hne, List.map_map]
  rfl

end OciHpc.Autoscale
