import Mathlib.Data.List.Induction
import OciHpc.Resize.NodeLine

/-!
# The nodes that are mentioned

Which nodes the loop of `add_reconfigure` makes a line for, told from the lines and the nodes it starts with.

* `Start` : what the loop starts with;
* `Start.Mentioned` : a line contains the name and the address of the node;
* `Start.FindsEach` : the nodes that are mentioned are those with a line of their own;
* `Start.findsEach_iff` : each node ends up with one line, exactly when the loop finds each.
-/

namespace OciHpc.Resize

/-- What the loop over the nodes starts with, and the inventory it is read in. -/
structure Start where
  nodes : List Node
  specificHosts : Option (List Text)
  inventory : Inventory
  username : Text
  configured : List Text
  toAdd : List Text
  nfs : List Text

/-- The line contains the name and the address of the node. -/
def Mentions (node : Node) (line : Text) : Prop := node.displayName.toList <:+: line ∧ node.ip.toList <:+: line

namespace Start

def line (start : Start) (node : Node) : Text := computeInventoryLine node start.username

/-- Such a line goes to `compute_to_add`, else to `compute_configured`. -/
def GoesToAdd (start : Start) (node : Node) : Prop :=
  ∀ hosts, start.specificHosts = some hosts → node.displayName.toList ∈ hosts

def own (start : Start) (node : Node) : Nat := (start.configured ++ start.toAdd).countP (describes node)

/-- A line of `compute_configured` mentions the node. -/
def MentionedBefore (start : Start) (node : Node) : Prop := ∃ line ∈ start.configured, Mentions node line

/-- So does one, or the line of a node in front of it that has none of its own and is to go there. -/
def Mentioned (start : Start) (front : List Node) (node : Node) : Prop :=
  start.MentionedBefore node ∨
    ∃ earlier ∈ front, start.own earlier = 0 ∧ ¬ start.GoesToAdd earlier ∧ Mentions node (start.line earlier)

/-- Each node that is mentioned has one line of its own. A node that is not mentioned has none, and the line made for it
is its own. -/
def FindsEach (start : Start) : Prop :=
  ∀ front node back, start.nodes = front ++ node :: back →
    (start.Mentioned front node → start.own node = 1) ∧
      (¬ start.Mentioned front node → start.own node = 0 ∧ describes node (start.line node) = true)

end Start

/-! ## The loop -/

section
variable {username : Text} {specificHosts : Option (List Text)} {additions : Additions}

theorem isConfigured_iff {configured : List Text} {node : Node} :
    isConfigured configured node = true ↔ ∃ line ∈ configured, Mentions node line := by
  rw [isConfigured, List.any_eq_true]
  refine exists_congr fun line => and_congr_right fun _ => ?_
  rw [Bool.and_eq_true, isIn, isIn, hasInfix_iff, hasInfix_iff, Mentions]

theorem addedNodes_append (front back : List Node) (additions : Additions) :
    addedNodes username specificHosts additions (front ++ back) =
      addedNodes username specificHosts additions front ++
        addedNodes username specificHosts (front.foldl (addNode username specificHosts) additions) back := by
  induction front generalizing additions with
  | nil => rfl
  | cons node front ih =>
      rw [List.cons_append, addedNodes, addedNodes, List.foldl_cons, ih]
      split
      · rfl
      · rw [List.cons_append]

/-- The sections after the loop: the lines there were, and those made for them. -/
theorem foldl_addNode_eq (nodes : List Node) (additions : Additions) :
    (nodes.foldl (addNode username specificHosts) additions).configured = additions.configured ++
        ((addedNodes username specificHosts additions nodes).filter fun node =>
          !specificHosts.all fun hosts => node.displayName.toList ∈ hosts).map (computeInventoryLine · username) ∧
      (nodes.foldl (addNode username specificHosts) additions).toAdd = additions.toAdd ++
        ((addedNodes username specificHosts additions nodes).filter fun node =>
          specificHosts.all fun hosts => node.displayName.toList ∈ hosts).map (computeInventoryLine · username) := by
  induction nodes generalizing additions with
  | nil => exact ⟨(List.append_nil _).symm, (List.append_nil _).symm⟩
  | cons node rest ih =>
      rw [List.foldl_cons, (ih _).1, (ih _).2, addedNodes, addNode]
      split
      · exact ⟨rfl, rfl⟩
      · rw [List.filter_cons, List.filter_cons]
        split
        · rename_i hall
          simp [hall]
        · rename_i hall
          simp [Bool.eq_false_iff.mpr hall]

theorem mem_configured_foldl {line : Text} (nodes : List Node) (additions : Additions) :
    line ∈ (nodes.foldl (addNode username specificHosts) additions).configured ↔
      line ∈ additions.configured ∨ ∃ node ∈ addedNodes username specificHosts additions nodes,
        (specificHosts.all fun hosts => node.displayName.toList ∈ hosts) = false ∧
          line = computeInventoryLine node username := by
  rw [(foldl_addNode_eq nodes additions).1, List.mem_append, List.mem_map]
  refine or_congr_right (exists_congr fun node => ?_)
  rw [List.mem_filter, Bool.not_eq_true', and_assoc, @eq_comm _ line]

/-- A node is given a line where none is found at its turn. -/
theorem mem_addedNodes_iff {front back : List Node} {node : Node} (hnodup : (front ++ node :: back).Nodup) :
    node ∈ addedNodes username specificHosts additions (front ++ node :: back) ↔
      isConfigured (front.foldl (addNode username specificHosts) additions).configured node = false := by
  have hfront : node ∉ addedNodes username specificHosts additions front := fun hmem =>
    (List.nodup_append.mp hnodup).2.2 _ ((addedNodes_sublist _ _).subset hmem) _ List.mem_cons_self rfl
  have hback : ∀ additions, node ∉ addedNodes username specificHosts additions back := fun additions hmem =>
    (List.nodup_cons.mp (List.nodup_append.mp hnodup).2.1).1 ((addedNodes_sublist _ _).subset hmem)
  rw [addedNodes_append, List.mem_append, or_iff_right hfront, addedNodes]
  split
  · rename_i hfound
    rw [hfound]
    exact iff_of_false (hback _) (by decide)
  · rename_i hfound
    exact iff_of_true List.mem_cons_self (Bool.not_eq_true _ ▸ hfound)

end

namespace Start
variable {start : Start}

def added (start : Start) (nodes : List Node) : List Node :=
  addedNodes start.username start.specificHosts ⟨start.configured, start.toAdd, []⟩ nodes

theorem goesToAdd_iff {node : Node} :
    (start.specificHosts.all fun hosts => node.displayName.toList ∈ hosts) = true ↔ start.GoesToAdd node := by
  unfold GoesToAdd
  cases start.specificHosts <;> simp

/-- A node is mentioned where a line is found at its turn, the nodes in front being given a line where they have none. -/
theorem mentioned_iff {front : List Node} (node : Node)
    (hfront : ∀ earlier ∈ front, earlier ∈ start.added front ↔ start.own earlier = 0) :
    isConfigured (front.foldl (addNode start.username start.specificHosts)
      ⟨start.configured, start.toAdd, []⟩).configured node = true ↔ start.Mentioned front node := by
  rw [isConfigured_iff, Mentioned]
  constructor
  · rintro ⟨line, hline, hmentions⟩
    rcases (mem_configured_foldl _ _).mp hline with hline | ⟨earlier, hearlier, hgoes, rfl⟩
    · exact .inl ⟨line, hline, hmentions⟩
    · have hmem := (addedNodes_sublist _ _).subset hearlier
      refine .inr ⟨earlier, hmem, (hfront earlier hmem).mp hearlier, fun htoAdd => ?_, hmentions⟩
      rw [goesToAdd_iff.mpr htoAdd] at hgoes
      cases hgoes
  · rintro (⟨line, hline, hmentions⟩ | ⟨earlier, hmem, hnone, hgoes, hmentions⟩)
    · exact ⟨line, (mem_configured_foldl _ _).mpr (.inl hline), hmentions⟩
    · refine ⟨start.line earlier, (mem_configured_foldl _ _).mpr (.inr ⟨earlier, (hfront earlier hmem).mpr hnone, ?_, rfl⟩),
        hmentions⟩
      exact Bool.not_eq_true _ ▸ mt goesToAdd_iff.mp hgoes

/-- So it is given a line where it is not mentioned. -/
theorem mem_added_iff {front back : List Node} {node : Node} (hnodes : start.nodes = front ++ node :: back)
    (hnodup : start.nodes.Nodup) (hfront : ∀ earlier ∈ front, earlier ∈ start.added front ↔ start.own earlier = 0) :
    node ∈ start.added start.nodes ↔ ¬ start.Mentioned front node := by
  rw [← mentioned_iff node hfront, hnodes, Bool.not_eq_true]
  exact mem_addedNodes_iff (hnodes ▸ hnodup)

/-- Whether a node in front is given a line does not depend on those behind. -/
theorem mem_added_front {front back : List Node} {node : Node} (hnodes : start.nodes = front ++ back)
    (hnodup : start.nodes.Nodup) (hmem : node ∈ front) : node ∈ start.added front ↔ node ∈ start.added start.nodes := by
  rw [added, added, hnodes, addedNodes_append, List.mem_append]
  refine (or_iff_left fun hback => ?_).symm
  rw [hnodes] at hnodup
  exact (List.nodup_append.mp hnodup).2.2 _ hmem _ ((addedNodes_sublist _ _).subset hback) rfl

/-- Where the loop finds each node, the nodes given a line are those without one. -/
theorem FindsEach.mem_added_iff (h : start.FindsEach) (hnodup : start.nodes.Nodup) (front back : List Node)
    (hnodes : start.nodes = front ++ back) :
    ∀ node ∈ front, node ∈ start.added start.nodes ↔ start.own node = 0 := by
  induction front using List.reverseRecOn generalizing back with
  | nil => exact fun node hnode => absurd hnode List.not_mem_nil
  | append_singleton front last ih =>
      rw [List.append_assoc, List.singleton_append] at hnodes
      have hfront := ih (last :: back) hnodes
      intro node hnode
      rcases List.mem_append.mp hnode with hnode | hnode
      · exact hfront node hnode
      · obtain rfl := List.mem_singleton.mp hnode
        obtain ⟨hmentioned, hnot⟩ := h front node back hnodes
        rw [Start.mem_added_iff hnodes hnodup fun earlier hearlier =>
          (mem_added_front hnodes hnodup hearlier).trans (hfront earlier hearlier)]
        refine ⟨fun h => (hnot h).1, fun hnone h => ?_⟩
        rw [hmentioned h] at hnone
        cases hnone

/-- A node that is given a line is not mentioned before. -/
theorem not_mentionedBefore_of_added {node : Node} {nodes : List Node} (h : node ∈ start.added nodes) :
    ¬ start.MentionedBefore node := by
  rintro ⟨line, hline, hname, hip⟩
  exact isConfigured_of_added h line hline ⟨hasInfix_iff.mpr hname, hasInfix_iff.mpr hip⟩

/-! ## The lines after the loop -/

def covered (start : Start) (node : Node) : Nat :=
  start.own node + (start.added start.nodes).countP fun other => describes node (start.line other)

/-- The lines made for the nodes count once, where each is of its own host. -/
theorem countP_added (hdistinct : (start.nodes.map (·.displayName)).Nodup)
    (hown : ∀ node ∈ start.added start.nodes, describes node (start.line node) = true) {node : Node}
    (hnode : node ∈ start.nodes) : ((start.added start.nodes).countP fun other => describes node (start.line other)) =
      if node ∈ start.added start.nodes then 1 else 0 := by
  have hsub : (start.added start.nodes).Sublist start.nodes := addedNodes_sublist _ _
  have hsame : ∀ other ∈ start.added start.nodes,
      (describes node (start.line other) = true ↔ (other == node) = true) := by
    intro other hother
    have hdescribes := hown other hother
    rw [beq_iff_eq]
    constructor
    · intro h
      rw [describes, Bool.and_eq_true, beq_iff_eq, beq_iff_eq] at h hdescribes
      refine List.inj_on_of_nodup_map hdistinct (hsub.subset hother) hnode ?_
      exact String.toList_inj.mp (Option.some.inj (hdescribes.1.symm.trans h.1))
    · rintro rfl
      exact hdescribes
  rw [List.countP_congr hsame]
  exact List.Nodup.count (hdistinct.of_map.sublist hsub)

/-- A node with one line has a name that can be that of a host. -/
theorem isWord_of_covered {node : Node} (h : start.covered node = 1) :
    IsWord node.displayName.toList ∧ startsComment node.displayName.toList = false := by
  obtain ⟨line, hline⟩ : ∃ line, describes node line = true := by
    by_cases hown : 0 < start.own node
    · obtain ⟨line, -, hline⟩ := List.countP_pos_iff.mp hown
      exact ⟨line, hline⟩
    · have hmade : 0 < (start.added start.nodes).countP fun other => describes node (start.line other) := by
        rw [covered] at h
        omega
      obtain ⟨other, -, hline⟩ := List.countP_pos_iff.mp hmade
      exact ⟨_, hline⟩
  rw [describes, Bool.and_eq_true, beq_iff_eq] at hline
  exact isWord_of_hostName hline.1

/-- Where each node ends up with one line, those without a line of their own are given one. -/
theorem own_of_covered (hdistinct : (start.nodes.map (·.displayName)).Nodup)
    (hown : ∀ node ∈ start.nodes, describes node (start.line node) = true) {node : Node} (hnode : node ∈ start.nodes)
    (hcovered : start.covered node = 1) : start.own node = if node ∈ start.added start.nodes then 0 else 1 := by
  rw [covered, countP_added hdistinct (fun other hother => hown other ((addedNodes_sublist _ _).subset hother)) hnode]
    at hcovered
  split at hcovered
  · rename_i hadded
    rw [if_pos hadded]
    omega
  · rename_i hadded
    rw [if_neg hadded]
    omega

theorem findsEach_of_covered (hdistinct : (start.nodes.map (·.displayName)).Nodup)
    (haddress : ∀ node ∈ start.nodes, hostName (start.line node) = some node.displayName.toList →
      hostAddress (start.line node) = some node.ip.toList) (hcovered : ∀ node ∈ start.nodes, start.covered node = 1) :
    start.FindsEach := by
  have hnodup : start.nodes.Nodup := hdistinct.of_map
  have hown : ∀ node ∈ start.nodes, describes node (start.line node) = true := by
    intro node hnode
    obtain ⟨hword, hcomment⟩ := isWord_of_covered (hcovered node hnode)
    have hname : hostName (start.line node) = some node.displayName.toList :=
      hostName_computeInventoryLine hword hcomment
    rw [describes, hname, haddress node hnode hname, beq_self_eq_true, beq_self_eq_true, Bool.and_self]
  have hcount := fun node hnode => own_of_covered hdistinct hown hnode (hcovered node hnode)
  intro front node back hnodes
  have hmem : node ∈ start.nodes := by
    rw [hnodes]
    exact List.mem_append_right _ List.mem_cons_self
  have hfront : ∀ earlier ∈ front, earlier ∈ start.added front ↔ start.own earlier = 0 := by
    intro earlier hearlier
    have hin : earlier ∈ start.nodes := by
      rw [hnodes]
      exact List.mem_append_left _ hearlier
    rw [mem_added_front hnodes hnodup hearlier, hcount earlier hin]
    split
    · rename_i hadded
      exact iff_of_true hadded rfl
    · rename_i hadded
      exact iff_of_false hadded Nat.one_ne_zero
  have hadded := Start.mem_added_iff hnodes hnodup hfront
  refine ⟨fun hmentioned => ?_, fun hnot => ⟨?_, hown node hmem⟩⟩
  · rw [hcount node hmem, if_neg fun h => hadded.mp h hmentioned]
  · rw [hcount node hmem, if_pos (hadded.mpr hnot)]

theorem FindsEach.covered_eq_one (h : start.FindsEach) (hdistinct : (start.nodes.map (·.displayName)).Nodup) {node : Node}
    (hnode : node ∈ start.nodes) : start.covered node = 1 := by
  have hnone := h.mem_added_iff hdistinct.of_map start.nodes [] (List.append_nil _).symm
  have hown : ∀ other ∈ start.added start.nodes, describes other (start.line other) = true := by
    intro other hother
    have hmem := (addedNodes_sublist _ _).subset hother
    obtain ⟨front, back, hnodes⟩ := List.append_of_mem hmem
    refine ((h front other back hnodes).2 fun hmentioned => ?_).2
    have hone := (h front other back hnodes).1 hmentioned
    rw [(hnone other hmem).mp hother] at hone
    cases hone
  rw [covered, countP_added hdistinct hown hnode]
  obtain ⟨front, back, hnodes⟩ := List.append_of_mem hnode
  by_cases hmentioned : start.Mentioned front node
  · have hone := (h front node back hnodes).1 hmentioned
    have hnot : node ∉ start.added start.nodes := fun hadded => by
      rw [(hnone node hnode).mp hadded] at hone
      cases hone
    rw [hone, if_neg hnot]
  · have hzero := ((h front node back hnodes).2 hmentioned).1
    rw [hzero, if_pos ((hnone node hnode).mpr hzero)]

/-- **Each node ends up with one line, exactly when the loop finds each**, the user bringing no other address into the
line of a node. -/
theorem findsEach_iff (hdistinct : (start.nodes.map (·.displayName)).Nodup)
    (haddress : ∀ node ∈ start.nodes, hostName (start.line node) = some node.displayName.toList →
      hostAddress (start.line node) = some node.ip.toList) :
    (∀ node ∈ start.nodes, start.covered node = 1) ↔ start.FindsEach :=
  ⟨findsEach_of_covered hdistinct haddress, fun h _ hnode => h.covered_eq_one hdistinct hnode⟩

end Start
end OciHpc.Resize
