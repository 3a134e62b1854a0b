import OciHpc.Resize.DestroyUnreachable
import OciHpc.Resize.Preparation

/-!
# Reconfiguring after nodes were added

`compute_inventory_line` and `add_reconfigure` of `resize.py`.

* `addNode` : the turn of a node in the loop;
* `planAdd` : the inventory the playbook is run with, and the hosts to wait for;
* `addReconfigure` : the function;
* `Addition.CoversOnce` : what an addition promises;
* `countP_foldl_addNode` : the lines there are after the loop;
* `planAdd_spec`, `finished_spec` : the inventories that are written can be read back.
-/

namespace OciHpc.Resize

/-! ## The loop over the nodes -/

def computeInventoryLine (node : Node) (username : Text) : Text :=
  node.displayName.toList ++ " ansible_host=".toList ++ node.ip.toList ++ " ansible_user=".toList ++ username ++
    " role=compute oci_instance_id=".toList ++ node.ocid.toList ++ ['\n']

/-- The sections the loop appends to, and the addresses of the nodes it made a line for. -/
structure Additions where
  configured : List Text
  toAdd : List Text
  hostToWaitFor : List Text

/-- `name in line and ip in line`, for one of the lines. -/
def isConfigured (configured : List Text) (node : Node) : Bool :=
  configured.any fun line => isIn node.displayName.toList line && isIn node.ip.toList line

def addNode (username : Text) (specificHosts : Option (List Text)) (additions : Additions) (node : Node) : Additions :=
  if isConfigured additions.configured node then additions
  else
    let nodeline := computeInventoryLine node username
    let hosts := additions.hostToWaitFor ++ [node.ip.toList]
    if specificHosts.all fun hosts => node.displayName.toList ∈ hosts then
      ⟨additions.configured, additions.toAdd ++ [nodeline], hosts⟩
    else ⟨additions.configured ++ [nodeline], additions.toAdd, hosts⟩

/-- The lines of `nfs`, where it has none the first one to add or the first one configured. -/
def fillNfs (additions : Additions) (nfs : List Text) : List Text :=
  if nfs.isEmpty then (additions.toAdd.head?.or additions.configured.head?).toList else nfs

/-- The inventory written before the preparation, and the hosts to wait for. A section that is missing raises here,
where the source would raise at its first use. -/
def planAdd (nodes : List Node) (specificHosts : Option (List Text)) (inventory : Inventory) :
    Option (Inventory × List Text) := do
  let username ← computeUsername inventory
  let configured ← inventory.lines? "compute_configured".toList
  let toAdd ← inventory.lines? "compute_to_add".toList
  let nfs ← inventory.lines? "nfs".toList
  let additions := nodes.foldl (addNode username specificHosts) ⟨configured, toAdd, []⟩
  let inventory := inventory.set "compute_configured".toList additions.configured
  let inventory := inventory.set "compute_to_add".toList additions.toAdd
  some (inventory.set "nfs".toList (fillNfs additions nfs), additions.hostToWaitFor)

/-! ## The function -/

/-- What an addition finds: what `get_instances` returns, `none` where it raises, the inventory and the copy a failed
run left in `/tmp`, OCI, what `wait_for_hosts.sh` answers for its file, how the playbook ends, and whether `sudo mv`
works. -/
structure Addition where
  instances : Option (List Node)
  inventory : Option Text
  doNotEdit : Option Text
  specificHosts : Option (List Text)
  cloud : Cloud
  waitForHosts : Text → Int
  run : PlaybookRun
  moved : Bool

namespace Addition

/-- What is known once the inventory is prepared. -/
structure Ready where
  nodes : List Node
  prepared : Text
  hosts : List Text

/-- Up to the run of the playbook: `none` where an exception leaves the inventory as `backup_inventory` made it. -/
def ready (addition : Addition) : Option Ready := do
  let nodes ← addition.instances
  let text ← backupInventory addition.inventory addition.doNotEdit
  let planned ← planAdd nodes addition.specificHosts (parseInventory text)
  match prepareLocalBlockVolumeInventory addition.cloud (writeInventory planned.1) with
  | .error _ => none
  | .ok prepared => some ⟨nodes, prepared, planned.2⟩

/-- What `update_cluster` answers. -/
def answer (addition : Addition) (ready : Ready) : Option Nat :=
  updateCluster ready.prepared (some (addition.waitForHosts (joinWith '\n' ready.hosts))) addition.run

/-- The inventory after the playbook has succeeded. -/
def finished (prepared : Text) : Option Inventory := do
  let inventory := parseInventory prepared
  let toAdd ← inventory.lines? "compute_to_add".toList
  let configured ← inventory.lines? "compute_configured".toList
  some ((inventory.set "compute_configured".toList (configured ++ toAdd)).set "compute_to_add".toList [])

/-- The inventory file where the function does not replace it; `get_instances` comes before the backup. -/
def left (addition : Addition) : Option Text :=
  if addition.instances.isSome then (backupInventory addition.inventory addition.doNotEdit).or addition.inventory
  else addition.inventory

def addReconfigure (addition : Addition) : Reconfigured :=
  match addition.ready with
  | none => ⟨.raised, addition.left⟩
  | some ready =>
      match addition.answer ready with
      | none => ⟨.raised, addition.left⟩
      | some updateFlag =>
          if updateFlag = 0 then
            match finished ready.prepared with
            | none => ⟨.raised, addition.left⟩
            | some inventory =>
                ⟨.returned 0, if addition.moved then some (writeInventory inventory) else addition.left⟩
          else ⟨.returned updateFlag, addition.left⟩

end Addition

/-! ## What is promised -/

/-- The host and the address of the line are those of the node. -/
def describes (node : Node) (line : Text) : Bool :=
  hostName line == some node.displayName.toList && hostAddress line == some node.ip.toList

/-- Nothing is left to add, and each node has one line. -/
structure Covers (nodes : List Node) (inventory : Inventory) : Prop where
  nothingLeft : inventory.lines? "compute_to_add".toList = some []
  once : ∀ node ∈ nodes, ∃ configured, inventory.lines? "compute_configured".toList = some configured ∧
    configured.countP (describes node) = 1

def addedNodes (username : Text) (specificHosts : Option (List Text)) : Additions → List Node → List Node
  | _, [] => []
  | additions, node :: rest =>
      let more := addedNodes username specificHosts (addNode username specificHosts additions node) rest
      if isConfigured additions.configured node then more else node :: more

namespace Addition

/-- **What an addition promises.** The inventory that takes the place of the one before covers each node once; an
addition that fails leaves the inventory as it was. -/
structure CoversOnce (addition : Addition) : Prop where
  covers : addition.addReconfigure.ending = .returned 0 → addition.moved = true →
    ∃ nodes text, addition.instances = some nodes ∧ addition.addReconfigure.inventory = some text ∧
      Covers nodes (parseInventory text)
  keeps : addition.addReconfigure.ending ≠ .returned 0 → addition.addReconfigure.inventory = addition.inventory

/-- The preparation raises nothing, the hosts come up and the playbook succeeds. -/
def Succeeds (addition : Addition) : Prop := ∃ ready, addition.ready = some ready ∧ addition.answer ready = some 0

/-- A copy left in `/tmp` takes the place of another inventory. -/
def Restores (addition : Addition) : Prop :=
  addition.instances.isSome ∧ ∃ text copy, addition.inventory = some text ∧ addition.doNotEdit = some copy ∧ copy ≠ text

/-- What the function is given can stand in the lines of an inventory: the file ends in a newline, and names and
addresses are single words. -/
structure Valid (addition : Addition) : Prop where
  terminated : ∀ text, backupInventory addition.inventory addition.doNotEdit = some text → Terminated text
  username : ∀ text username, backupInventory addition.inventory addition.doNotEdit = some text →
    computeUsername (parseInventory text) = some username → NoSpace username
  nodes : ∀ nodes, addition.instances = some nodes → ∀ node ∈ nodes,
    IsHostName node.displayName.toList ∧ NoSpace node.ip.toList ∧ NoSpace node.ocid.toList
  distinct : ∀ nodes, addition.instances = some nodes → (nodes.map (·.displayName)).Nodup
  cloud : addition.cloud.Valid

end Addition

/-! ## The line of a node -/

section
variable {node : Node} {username : Text}

def nodeParts (node : Node) (username : Text) : HostLine :=
  ⟨[], [node.displayName.toList, "ansible_host=".toList ++ node.ip.toList, "ansible_user=".toList ++ username,
    "role=compute".toList, "oci_instance_id=".toList ++ node.ocid.toList], []⟩

theorem computeInventoryLine_eq (node : Node) (username : Text) :
    computeInventoryLine node username = writeHostLine (nodeParts node username) := by
  simp [computeInventoryLine, writeHostLine, nodeParts, joinWith]

theorem valid_nodeParts (hname : IsHostName node.displayName.toList) (hip : NoSpace node.ip.toList)
    (hocid : NoSpace node.ocid.toList) (husername : NoSpace username) : (nodeParts node username).Valid := by
  have hword : ∀ key value : Text, key ≠ [] → NoSpace key → NoSpace value → IsWord (key ++ value) :=
    fun key value hne hkey hvalue => ⟨List.append_ne_nil_of_left_ne_nil hne _, noSpace_append hkey hvalue⟩
  have hnone : ∀ c ∈ ([] : Text), PyStr.isSpace c = true := fun c hc => absurd hc List.not_mem_nil
  refine ⟨hnone, fun token htoken => ?_, fun token htoken => ?_, fun hcomment => absurd rfl hcomment, fun c hc =>
    absurd hc List.not_mem_nil⟩
  · simp only [nodeParts, List.mem_cons, List.not_mem_nil, or_false] at htoken
    rcases htoken with rfl | rfl | rfl | rfl | rfl
    · exact hname.word
    · exact hword _ _ (by decide) (noSpace_of_all (by decide)) hip
    · exact hword _ _ (by decide) (noSpace_of_all (by decide)) husername
    · exact ⟨by decide, noSpace_of_all (by decide)⟩
    · exact hword _ _ (by decide) (noSpace_of_all (by decide)) hocid
  · simp only [nodeParts, List.mem_cons, List.not_mem_nil, or_false] at htoken
    rcases htoken with rfl | rfl | rfl | rfl | rfl
    · exact hname.noComment
    all_goals rfl

/-- The line of a node is one of the inventory, with its name and its address. -/
theorem computeInventoryLine_spec (hname : IsHostName node.displayName.toList) (hip : NoSpace node.ip.toList)
    (hocid : NoSpace node.ocid.toList) (husername : NoSpace username) :
    (IsLine (computeInventoryLine node username) ∧ isHeader (computeInventoryLine node username) = false) ∧
      hostName (computeInventoryLine node username) = some node.displayName.toList ∧
        hostAddress (computeInventoryLine node username) = some node.ip.toList := by
  have hvalid := valid_nodeParts hname hip hocid husername
  have hread := splitInventoryHostLine_writeHostLine hvalid (List.cons_ne_nil _ _)
  rw [computeInventoryLine_eq]
  refine ⟨⟨hvalid.isLine, hvalid.isHeader_eq rfl hname⟩, ?_, ?_⟩
  · rw [hostName, hread]
    rfl
  · rw [hostAddress, hread]
    rfl

end

/-! ## The lines after the loop -/

section
variable {username : Text} {specificHosts : Option (List Text)} {additions : Additions} {nodes : List Node}

theorem countP_addNode (p : Text → Bool) (node : Node) (h : isConfigured additions.configured node = false) :
    ((addNode username specificHosts additions node).configured ++
        (addNode username specificHosts additions node).toAdd).countP p =
      (additions.configured ++ additions.toAdd).countP p + [computeInventoryLine node username].countP p := by
  rw [addNode, h, if_neg Bool.false_ne_true]
  simp only [List.countP_append]
  split <;> simp only [List.countP_append] <;> omega

/-- The lines with a property: those there were, and those made. -/
theorem countP_foldl_addNode (p : Text → Bool) (nodes : List Node) (additions : Additions) :
    ((nodes.foldl (addNode username specificHosts) additions).configured ++
        (nodes.foldl (addNode username specificHosts) additions).toAdd).countP p =
      (additions.configured ++ additions.toAdd).countP p +
        (addedNodes username specificHosts additions nodes).countP fun node => p (computeInventoryLine node username) := by
  induction nodes generalizing additions with
  | nil => rfl
  | cons node rest ih =>
      rw [List.foldl_cons, ih, addedNodes]
      cases h : isConfigured additions.configured node with
      | true =>
          have hsame : addNode username specificHosts additions node = additions := if_pos h
          rw [hsame, if_pos rfl]
      | false =>
          rw [countP_addNode p node h, if_neg Bool.false_ne_true, List.countP_singleton, List.countP_cons]
          omega

theorem mem_addNode {node : Node} {line : Text}
    (h : line ∈ (addNode username specificHosts additions node).configured ∨
      line ∈ (addNode username specificHosts additions node).toAdd) :
    line ∈ additions.configured ∨ line ∈ additions.toAdd ∨ line = computeInventoryLine node username := by
  rw [addNode] at h
  split at h
  · exact h.imp_right .inl
  · dsimp only at h
    split at h
    · rcases h with h | h
      · exact .inl h
      · exact .inr ((List.mem_append.mp h).imp_right List.mem_singleton.mp)
    · rcases h with h | h
      · rcases List.mem_append.mp h with h | h
        · exact .inl h
        · exact .inr (.inr (List.mem_singleton.mp h))
      · exact .inr (.inl h)

/-- After the loop there are the lines there were, and lines of nodes. -/
theorem mem_foldl_addNode {line : Text} (nodes : List Node) (additions : Additions)
    (h : line ∈ (nodes.foldl (addNode username specificHosts) additions).configured ∨
      line ∈ (nodes.foldl (addNode username specificHosts) additions).toAdd) :
    line ∈ additions.configured ∨ line ∈ additions.toAdd ∨ ∃ node ∈ nodes, line = computeInventoryLine node username := by
  induction nodes generalizing additions with
  | nil => exact h.imp_right .inl
  | cons node rest ih =>
      rcases ih _ h with h | h | ⟨other, hother, h⟩
      · exact (mem_addNode (.inl h)).imp_right fun h => h.imp_right fun h => ⟨node, List.mem_cons_self, h⟩
      · exact (mem_addNode (.inr h)).imp_right fun h => h.imp_right fun h => ⟨node, List.mem_cons_self, h⟩
      · exact .inr (.inr ⟨other, List.mem_cons_of_mem _ hother, h⟩)

theorem mem_fillNfs {nfs : List Text} {line : Text} (h : line ∈ fillNfs additions nfs) :
    line ∈ nfs ∨ line ∈ additions.configured ∨ line ∈ additions.toAdd := by
  rw [fillNfs] at h
  split at h
  · rw [Option.mem_toList, Option.or_eq_some_iff] at h
    rcases h with h | ⟨-, h⟩
    · exact .inr (.inr (List.mem_of_head? h))
    · exact .inr (.inl (List.mem_of_head? h))
  · exact .inl h

theorem addedNodes_sublist (nodes : List Node) (additions : Additions) :
    (addedNodes username specificHosts additions nodes).Sublist nodes := by
  induction nodes generalizing additions with
  | nil => exact List.Sublist.slnil
  | cons node rest ih =>
      rw [addedNodes]
      split
      · exact (ih _).cons _
      · exact (ih _).cons_cons _

theorem addNode_extends (node : Node) {line : Text} (h : line ∈ additions.configured) :
    line ∈ (addNode username specificHosts additions node).configured := by
  rw [addNode]
  split
  · exact h
  · dsimp only
    split
    · exact h
    · exact List.mem_append_left _ h

/-- A node that gets a line had none. -/
theorem isConfigured_of_added {node : Node} (h : node ∈ addedNodes username specificHosts additions nodes) :
    ∀ line ∈ additions.configured, ¬ (isIn node.displayName.toList line = true ∧ isIn node.ip.toList line = true) := by
  induction nodes generalizing additions with
  | nil => cases h
  | cons first rest ih =>
      intro line hline hboth
      rw [addedNodes] at h
      have hextends := @addNode_extends username specificHosts additions first line hline
      have hlater : node ∉ addedNodes username specificHosts (addNode username specificHosts additions first) rest :=
        fun hrest => ih hrest line hextends hboth
      split at h
      · exact hlater h
      · rename_i hnot
        rcases List.mem_cons.mp h with rfl | h
        · refine hnot (List.any_eq_true.mpr ⟨line, hline, ?_⟩)
          rw [hboth.1, hboth.2]
          rfl
        · exact hlater h

end

theorem describes_iff {node : Node} {line : Text} :
    describes node line = true ↔ hostName line = some node.displayName.toList ∧ hostAddress line = some node.ip.toList := by
  rw [describes, Bool.and_eq_true, beq_iff_eq, beq_iff_eq]

/-- Rewritten lines describe the nodes the lines did. -/
theorem countP_of_sameHosts {lines others : List Text} (h : List.Forall₂ SameHost lines others) (node : Node) :
    others.countP (describes node) = lines.countP (describes node) := by
  induction h with
  | nil => rfl
  | cons hfirst _ ih =>
      rw [List.countP_cons, List.countP_cons, ih, describes, describes, hfirst.hostName, hfirst.hostAddress]

/-- What `planAdd` makes of an inventory. -/
structure PlannedFrom (nodes : List Node) (specificHosts : Option (List Text)) (inventory planned : Inventory)
    (username : Text) (additions : Additions) : Prop where
  user : computeUsername inventory = some username
  configured : inventory.lines? "compute_configured".toList = some additions.configured
  toAdd : inventory.lines? "compute_to_add".toList = some additions.toAdd
  wellFormed : planned.WellFormed
  newConfigured : planned.lines? "compute_configured".toList =
    some (nodes.foldl (addNode username specificHosts) additions).configured
  newToAdd : planned.lines? "compute_to_add".toList =
    some (nodes.foldl (addNode username specificHosts) additions).toAdd

/-- The sections that are edited, and what is left of them. -/
theorem planAdd_eq_some {nodes : List Node} {specificHosts : Option (List Text)} {inventory : Inventory}
    {planned : Inventory × List Text} (h : planAdd nodes specificHosts inventory = some planned) :
    ∃ username configured toAdd nfs, computeUsername inventory = some username ∧
      inventory.lines? "compute_configured".toList = some configured ∧
      inventory.lines? "compute_to_add".toList = some toAdd ∧ inventory.lines? "nfs".toList = some nfs ∧
      planned.1 = (((inventory.set "compute_configured".toList
        (nodes.foldl (addNode username specificHosts) ⟨configured, toAdd, []⟩).configured).set "compute_to_add".toList
          (nodes.foldl (addNode username specificHosts) ⟨configured, toAdd, []⟩).toAdd).set "nfs".toList
            (fillNfs (nodes.foldl (addNode username specificHosts) ⟨configured, toAdd, []⟩) nfs)) := by
  obtain ⟨username, hname, h⟩ := Option.bind_eq_some_iff.mp h
  obtain ⟨configured, hconfigured, h⟩ := Option.bind_eq_some_iff.mp h
  obtain ⟨toAdd, htoAdd, h⟩ := Option.bind_eq_some_iff.mp h
  obtain ⟨nfs, hnfs, h⟩ := Option.bind_eq_some_iff.mp h
  obtain rfl := Option.some.inj h
  exact ⟨username, configured, toAdd, nfs, hname, hconfigured, htoAdd, hnfs, rfl⟩

theorem planAdd_spec {nodes : List Node} {specificHosts : Option (List Text)} {inventory : Inventory}
    (hwellFormed : inventory.WellFormed) (hnodes : ∀ node ∈ nodes,
      IsHostName node.displayName.toList ∧ NoSpace node.ip.toList ∧ NoSpace node.ocid.toList)
    (husername : ∀ username, computeUsername inventory = some username → NoSpace username)
    {planned : Inventory × List Text} (h : planAdd nodes specificHosts inventory = some planned) :
    ∃ username configured toAdd,
      PlannedFrom nodes specificHosts inventory planned.1 username ⟨configured, toAdd, []⟩ := by
  obtain ⟨username, configured, toAdd, nfs, hname, hconfigured, htoAdd, hnfs, heq⟩ := planAdd_eq_some h
  rw [heq]
  have hsections : ∀ {section_ lines}, inventory.lines? section_ = some lines → ∀ line ∈ lines,
      IsLine line ∧ isHeader line = false := fun hlines => hwellFormed.lines _ (Inventory.mem_of_lines? hlines)
  have hkeyed : ∀ {section_ lines}, inventory.lines? section_ = some lines → IsName section_ := fun hlines =>
    hwellFormed.names _ (Inventory.mem_of_lines? hlines)
  have hlines : ∀ line, (line ∈ (nodes.foldl (addNode username specificHosts) ⟨configured, toAdd, []⟩).configured ∨
      line ∈ (nodes.foldl (addNode username specificHosts) ⟨configured, toAdd, []⟩).toAdd) →
      IsLine line ∧ isHeader line = false := by
    intro line hline
    rcases mem_foldl_addNode nodes _ hline with hline | hline | ⟨node, hnode, rfl⟩
    · exact hsections hconfigured line hline
    · exact hsections htoAdd line hline
    · obtain ⟨hhost, hip, hocid⟩ := hnodes node hnode
      exact (computeInventoryLine_spec hhost hip hocid (husername username hname)).1
  have hfilled : ∀ line ∈ fillNfs (nodes.foldl (addNode username specificHosts) ⟨configured, toAdd, []⟩) nfs,
      IsLine line ∧ isHeader line = false := by
    intro line hline
    rcases mem_fillNfs hline with hline | hline
    · exact hsections hnfs line hline
    · exact hlines line hline
  refine ⟨username, configured, toAdd, hname, hconfigured, htoAdd, ?_, ?_, ?_⟩
  · exact ((hwellFormed.set (hkeyed hconfigured) fun line hline => hlines line (.inl hline)).set (hkeyed htoAdd)
      fun line hline => hlines line (.inr hline)).set (hkeyed hnfs) hfilled
  · rw [Inventory.lines?_set_of_ne (by decide), Inventory.lines?_set_of_ne (by decide), Inventory.lines?_set_self]
  · rw [Inventory.lines?_set_of_ne (by decide), Inventory.lines?_set_self]

/-! ## The inventory that is installed -/

namespace Addition

/-- The last edit of a prepared inventory can be made and read back. -/
theorem finished_spec {prepared : Inventory} (h : prepared.WellFormed) {configured toAdd : List Text}
    (hconfigured : prepared.lines? "compute_configured".toList = some configured)
    (htoAdd : prepared.lines? "compute_to_add".toList = some toAdd) :
    ∃ inventory : Inventory, finished (writeInventory prepared) = some inventory ∧ inventory.WellFormed ∧
      inventory.lines? "compute_configured".toList = some (configured ++ toAdd) ∧
        inventory.lines? "compute_to_add".toList = some [] := by
  have hfinished : finished (writeInventory prepared) =
      some ((prepared.set "compute_configured".toList (configured ++ toAdd)).set "compute_to_add".toList []) := by
    rw [finished, parse_write h]
    simp only [htoAdd, hconfigured, bind, Option.bind]
  have hlines : ∀ line ∈ configured ++ toAdd, IsLine line ∧ isHeader line = false := fun line hline =>
    (List.mem_append.mp hline).elim (h.lines _ (Inventory.mem_of_lines? hconfigured) line)
      (h.lines _ (Inventory.mem_of_lines? htoAdd) line)
  refine ⟨_, hfinished, ?_, ?_, Inventory.lines?_set_self⟩
  · exact (h.set (h.names _ (Inventory.mem_of_lines? hconfigured)) hlines).set
      (h.names _ (Inventory.mem_of_lines? htoAdd)) fun line hline => absurd hline List.not_mem_nil
  · rw [Inventory.lines?_set_of_ne (by decide), Inventory.lines?_set_self]

variable {addition : Addition}

/-- What has been read and made when the playbook is run. -/
theorem ready_eq_some {ready : Ready} (h : addition.ready = some ready) :
    ∃ text planned, addition.instances = some ready.nodes ∧
      backupInventory addition.inventory addition.doNotEdit = some text ∧
        planAdd ready.nodes addition.specificHosts (parseInventory text) = some planned ∧
          prepareLocalBlockVolumeInventory addition.cloud (writeInventory planned.1) = .ok ready.prepared := by
  obtain ⟨nodes, hnodes, h⟩ := Option.bind_eq_some_iff.mp h
  obtain ⟨text, htext, h⟩ := Option.bind_eq_some_iff.mp h
  obtain ⟨planned, hplanned, h⟩ := Option.bind_eq_some_iff.mp h
  split at h
  · cases h
  · rename_i prepared hprepared
    obtain rfl := Option.some.inj h
    exact ⟨text, planned, hnodes, htext, hplanned, hprepared⟩

/-- The lines of a node after the loop: those it had, and one if the loop makes it. -/
theorem countP_describes {nodes : List Node} {username : Text} (hvalid : ∀ node ∈ nodes,
      IsHostName node.displayName.toList ∧ NoSpace node.ip.toList ∧ NoSpace node.ocid.toList)
    (husername : NoSpace username) (hdistinct : (nodes.map (·.displayName)).Nodup)
    (specificHosts : Option (List Text)) (additions : Additions) {node : Node} (hnode : node ∈ nodes) :
    (addedNodes username specificHosts additions nodes).countP
        (fun other => describes node (computeInventoryLine other username)) =
      if node ∈ addedNodes username specificHosts additions nodes then 1 else 0 := by
  have hsub := @addedNodes_sublist username specificHosts nodes additions
  have hsame : ∀ other ∈ addedNodes username specificHosts additions nodes,
      (describes node (computeInventoryLine other username) = true ↔ (other == node) = true) := by
    intro other hother
    have hmem := hsub.subset hother
    obtain ⟨hhost, hip, hocid⟩ := hvalid other hmem
    obtain ⟨-, hname, haddress⟩ := computeInventoryLine_spec hhost hip hocid husername
    rw [describes, hname, haddress, Bool.and_eq_true, beq_iff_eq, beq_iff_eq, beq_iff_eq, Option.some.injEq,
      Option.some.injEq, String.toList_inj, String.toList_inj]
    constructor
    · rintro ⟨hequal, -⟩
      exact List.inj_on_of_nodup_map hdistinct hmem hnode hequal
    · rintro rfl
      exact ⟨rfl, rfl⟩
  rw [List.countP_congr hsame]
  exact List.Nodup.count (hdistinct.of_map.sublist hsub)

def untagged (id displayName : String) : Instance := ⟨running id displayName ⟨none, "v"⟩, [], true, true⟩

/-- The nodes `inst-10` and `inst-1`; only the first has a line. -/
def similarNames : Addition where
  instances := some [⟨"inst-10", "10.0.0.10", "o10"⟩, ⟨"inst-1", "10.0.0.1", "o1"⟩]
  inventory := some ("[compute_configured]\ninst-10 ansible_host=10.0.0.10 ansible_user=opc oci_instance_id=o10\n" ++
    "[compute_to_add]\n[nfs]\n[all:vars]\ncluster_name=hpc\n").toList
  doNotEdit := none
  specificHosts := none
  cloud := ⟨fun id => if id = "o10".toList then some (untagged "o10" "inst-10") else some (untagged "o1" "inst-1"),
    fun _ => []⟩
  waitForHosts := fun _ => 0
  run := .ended 0
  moved := true

/-- The names of the nodes can stand in a line. -/
theorem isHostName_similar : ∀ name ∈ ["inst-10", "inst-1"], IsHostName name.toList := by
  have hall : ∀ name ∈ ["inst-10", "inst-1"], name.toList ≠ [] ∧ name.toList.all (fun c => !PyStr.isSpace c) = true ∧
    startsComment name.toList = false ∧ name.toList.head? ≠ some '[' ∧ '=' ∉ name.toList := by decide +kernel
  intro name hname
  obtain ⟨hne, hspace, hcomment, hbracket, hequals⟩ := hall name hname
  exact ⟨⟨hne, noSpace_of_all hspace⟩, hcomment, hbracket, hequals⟩

theorem valid_similarNames : similarNames.Valid := by
  obtain ⟨hlast, husername⟩ : ((backupInventory similarNames.inventory similarNames.doNotEdit).map fun text =>
      (universalNewlines text).getLast?) = some (some '\n') ∧
      ((backupInventory similarNames.inventory similarNames.doNotEdit).map fun text =>
        computeUsername (parseInventory text)) = some (some "opc".toList) := by decide +kernel
  have hall : ∀ s ∈ ["opc", "10.0.0.10", "10.0.0.1", "o10", "o1"],
      s.toList.all (fun c => !PyStr.isSpace c) = true := by decide +kernel
  have hspace : ∀ s ∈ ["opc", "10.0.0.10", "10.0.0.1", "o10", "o1"], NoSpace s.toList := fun s hs =>
    noSpace_of_all (hall s hs)
  refine ⟨fun text htext c hc => ?_, fun text username htext hname => ?_, fun nodes hnodes node hnode => ?_,
    fun nodes hnodes => ?_, ?_, ?_⟩
  · rw [htext, Option.map_some, hc] at hlast
    exact Option.some.inj (Option.some.inj hlast)
  · rw [htext, Option.map_some, hname] at husername
    obtain rfl := Option.some.inj (Option.some.inj husername)
    exact hspace "opc" (by simp)
  · obtain rfl := Option.some.inj hnodes
    simp only [List.mem_cons, List.not_mem_nil, or_false] at hnode
    rcases hnode with rfl | rfl
    · exact ⟨isHostName_similar _ (by simp), hspace _ (by simp), hspace _ (by simp)⟩
    · exact ⟨isHostName_similar _ (by simp), hspace _ (by simp), hspace _ (by simp)⟩
  · obtain rfl := Option.some.inj hnodes
    decide
  · intro id found hfound
    unfold similarNames at hfound
    dsimp only at hfound
    split at hfound
    · obtain rfl := Option.some.inj hfound
      exact isHostName_similar "inst-10" (by simp)
    · obtain rfl := Option.some.inj hfound
      exact isHostName_similar "inst-1" (by simp)
  · exact fun id poll hpoll => absurd hpoll List.not_mem_nil

end Addition
end OciHpc.Resize
