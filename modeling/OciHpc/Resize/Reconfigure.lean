import OciHpc.Resize.AddReconfigure

/-!
# Reconfiguring all nodes

`reconfigure` of `resize.py`, which makes the compute lines anew.

* `planReconfigure` : the inventory before the preparation;
* `reconfigure` : the function;
* `reconfigure_covers` : the inventory it installs has one line for each node, in the order of OCI, and no other.
-/

namespace OciHpc.Resize

/-! ## The function -/

/-- The inventory written before the preparation. -/
def planReconfigure (nodes : List Node) (inventory : Inventory) : Option Inventory := do
  let inventory := inventory.set "compute_configured".toList []
  let inventory := inventory.set "compute_to_add".toList []
  let username ← computeUsername inventory
  let configured := nodes.map fun node => computeInventoryLine node username
  let inventory := inventory.set "compute_configured".toList configured
  let nfs ← inventory.lines? "nfs".toList
  some (inventory.set "nfs".toList (fillNfs ⟨configured, [], []⟩ nfs))

structure Rebuild where
  instances : Option (List Node)
  inventory : Option Text
  doNotEdit : Option Text
  cloud : Cloud
  waitForHosts : Text → Int
  run : PlaybookRun
  moved : Bool

namespace Rebuild

/-- The file the playbook is run with; `none` is an exception. -/
def prepared (rebuild : Rebuild) (nodes : List Node) (text : Text) : Option Text := do
  let planned ← planReconfigure nodes (parseInventory text)
  match prepareLocalBlockVolumeInventory rebuild.cloud (writeInventory planned) with
  | .error _ => none
  | .ok prepared => some prepared

/-- The file that the playbook was run with takes the place of the inventory. -/
def reconfigure (rebuild : Rebuild) : Reconfigured :=
  match rebuild.instances with
  | none => ⟨.raised, rebuild.inventory⟩
  | some nodes =>
      match backupInventory rebuild.inventory rebuild.doNotEdit with
      | none => ⟨.exited, rebuild.inventory⟩
      | some text =>
          match rebuild.prepared nodes text with
          | none => ⟨.raised, some text⟩
          | some prepared =>
              let hosts := nodes.map (·.ip.toList)
              match updateCluster prepared (some (rebuild.waitForHosts (joinWith '\n' hosts))) rebuild.run with
              | none => ⟨.raised, some text⟩
              | some updateFlag =>
                  if updateFlag = 0 then ⟨.returned 0, some (if rebuild.moved then prepared else text)⟩
                  else ⟨.returned updateFlag, some text⟩

/-! ## What is installed -/

/-- What the function is given can stand in the lines of an inventory. -/
structure Valid (rebuild : Rebuild) : Prop where
  terminated : ∀ text, backupInventory rebuild.inventory rebuild.doNotEdit = some text → Terminated text
  username : ∀ text username, backupInventory rebuild.inventory rebuild.doNotEdit = some text →
    computeUsername (parseInventory text) = some username → NoSpace username
  nodes : ∀ nodes, rebuild.instances = some nodes → ∀ node ∈ nodes,
    IsHostName node.displayName.toList ∧ NoSpace node.ip.toList ∧ NoSpace node.ocid.toList
  cloud : rebuild.cloud.Valid

end Rebuild

/-- The lines describe the nodes, one each and in their order, and nothing is to be added. -/
structure CoversInOrder (nodes : List Node) (inventory : Inventory) : Prop where
  nothingLeft : inventory.lines? "compute_to_add".toList = some []
  lines : ∃ configured, inventory.lines? "compute_configured".toList = some configured ∧
    List.Forall₂ (fun node line => describes node line = true) nodes configured

theorem planReconfigure_spec {nodes : List Node} {inventory planned : Inventory} (hwell : inventory.WellFormed)
    (hnodes : ∀ node ∈ nodes, IsHostName node.displayName.toList ∧ NoSpace node.ip.toList ∧ NoSpace node.ocid.toList)
    (husername : ∀ username, computeUsername inventory = some username → NoSpace username)
    (h : planReconfigure nodes inventory = some planned) : planned.WellFormed ∧
      CoversInOrder nodes planned ∧
        ∀ name, name ∉ ["compute_configured".toList, "compute_to_add".toList, "nfs".toList] →
          planned.lines? name = inventory.lines? name := by
  have hnames : IsName "compute_configured".toList ∧ IsName "compute_to_add".toList :=
    ⟨⟨by decide, by decide, by decide, by decide⟩, ⟨by decide, by decide, by decide, by decide⟩⟩
  obtain ⟨username, hname, h⟩ := Option.bind_eq_some_iff.mp h
  obtain ⟨nfs, hnfs, h⟩ := Option.bind_eq_some_iff.mp h
  obtain rfl := Option.some.inj h
  have hname' : computeUsername inventory = some username := by
    rw [← hname]
    unfold computeUsername
    rw [Inventory.lines?_set_of_ne (by decide), Inventory.lines?_set_of_ne (by decide)]
  rw [Inventory.lines?_set_of_ne (by decide), Inventory.lines?_set_of_ne (by decide),
    Inventory.lines?_set_of_ne (by decide)] at hnfs
  have hspec := fun node (hnode : node ∈ nodes) =>
    let hvalid := hnodes node hnode
    computeInventoryLine_spec hvalid.1 hvalid.2.1 hvalid.2.2 (husername username hname')
  have hmade : ∀ line ∈ nodes.map fun node => computeInventoryLine node username, IsLine line ∧ isHeader line = false := by
    intro line hline
    obtain ⟨node, hnode, rfl⟩ := List.mem_map.mp hline
    exact (hspec node hnode).1
  have hnone : ∀ line ∈ ([] : List Text), IsLine line ∧ isHeader line = false := fun line hline => absurd hline List.not_mem_nil
  have hfilled : ∀ line ∈ fillNfs ⟨nodes.map fun node => computeInventoryLine node username, [], []⟩ nfs,
      IsLine line ∧ isHeader line = false := by
    intro line hline
    rcases mem_fillNfs hline with hline | hline | hline
    · exact hwell.lines _ (Inventory.mem_of_lines? hnfs) line hline
    · exact hmade line hline
    · exact hnone line hline
  refine ⟨?_, ⟨?_, nodes.map fun node => computeInventoryLine node username, ?_, ?_⟩, fun name hother => ?_⟩
  · exact (((hwell.set hnames.1 hnone).set hnames.2 hnone).set hnames.1 hmade).set
      (hwell.names _ (Inventory.mem_of_lines? hnfs)) hfilled
  · rw [Inventory.lines?_set_of_ne (by decide), Inventory.lines?_set_of_ne (by decide), Inventory.lines?_set_self]
  · rw [Inventory.lines?_set_of_ne (by decide), Inventory.lines?_set_self]
  · rw [List.forall₂_map_right_iff, List.forall₂_same]
    intro node hnode
    obtain ⟨-, hhost, haddress⟩ := hspec node hnode
    rw [describes, hhost, haddress]
    simp
  · have hne : name ≠ "compute_configured".toList ∧ name ≠ "compute_to_add".toList ∧ name ≠ "nfs".toList := by
      simpa using hother
    rw [Inventory.lines?_set_of_ne hne.2.2, Inventory.lines?_set_of_ne hne.1, Inventory.lines?_set_of_ne hne.2.1,
      Inventory.lines?_set_of_ne hne.1]

/-- Rewritten lines describe the nodes that the lines did. -/
theorem forall₂_describes {nodes : List Node} {lines others : List Text}
    (h : List.Forall₂ (fun node line => describes node line = true) nodes lines) (hsame : List.Forall₂ SameHost lines others) :
    List.Forall₂ (fun node line => describes node line = true) nodes others := by
  induction h generalizing others with
  | nil =>
      cases hsame
      exact .nil
  | cons hfirst _ ih =>
      cases hsame with
      | cons hline hrest =>
          refine .cons ?_ (ih hrest)
          rw [describes, hline.hostName, hline.hostAddress]
          exact hfirst

theorem CoversInOrder.of_sameHosts {nodes : List Node} {before after : Inventory} (h : CoversInOrder nodes before)
    (hconfigured : SameHosts "compute_configured".toList before after)
    (htoAdd : SameHosts "compute_to_add".toList before after) : CoversInOrder nodes after := by
  obtain ⟨lines, others, hlines, hothers, hsame⟩ := hconfigured
  obtain ⟨left, left', hleft, hleft', hnone⟩ := htoAdd
  obtain rfl := Option.some.inj (h.nothingLeft.symm.trans hleft)
  cases hnone
  obtain ⟨configured, hcovered, heach⟩ := h.lines
  obtain rfl := Option.some.inj (hcovered.symm.trans hlines)
  exact ⟨hleft', others, hothers, forall₂_describes heach hsame⟩

namespace Rebuild

theorem prepared_spec {rebuild : Rebuild} (hvalid : rebuild.Valid) {nodes : List Node} (hnodes : rebuild.instances = some nodes)
    {text prepared : Text} (htext : backupInventory rebuild.inventory rebuild.doNotEdit = some text)
    (h : rebuild.prepared nodes text = some prepared) :
    ∃ inventory : Inventory, inventory.WellFormed ∧ prepared = writeInventory inventory ∧ CoversInOrder nodes inventory := by
  obtain ⟨planned, hplanned, h⟩ := Option.bind_eq_some_iff.mp h
  split at h
  · cases h
  · rename_i written hprepared
    obtain rfl := Option.some.inj h
    obtain ⟨hwell, hcovers, -⟩ := planReconfigure_spec (wellFormed_parseInventory (hvalid.terminated _ htext))
      (hvalid.nodes _ hnodes) (fun username husername => hvalid.username _ _ htext husername) hplanned
    obtain ⟨after, hafter, hwritten, hconfigured, htoAdd⟩ :=
      prepareLocalBlockVolumeInventory_spec hvalid.cloud hwell hprepared
    exact ⟨after, hafter, hwritten, hcovers.of_sameHosts hconfigured htoAdd⟩

/-- The inventory file where the function does not replace it. -/
def left (rebuild : Rebuild) : Option Text :=
  if rebuild.instances.isSome then (backupInventory rebuild.inventory rebuild.doNotEdit).or rebuild.inventory
  else rebuild.inventory

/-- The inventory is replaced by the prepared one, or is left. -/
theorem reconfigure_cases (rebuild : Rebuild) :
    rebuild.reconfigure.inventory = rebuild.left ∧
        (rebuild.reconfigure.ending ≠ .returned 0 ∨ rebuild.moved = false) ∨
      rebuild.moved = true ∧ ∃ nodes text prepared, rebuild.instances = some nodes ∧
        backupInventory rebuild.inventory rebuild.doNotEdit = some text ∧ rebuild.prepared nodes text = some prepared ∧
          rebuild.reconfigure = ⟨.returned 0, some prepared⟩ := by
  unfold reconfigure left
  cases hnodes : rebuild.instances with
  | none => exact .inl ⟨rfl, .inl (by simp)⟩
  | some nodes =>
      dsimp only
      cases htext : backupInventory rebuild.inventory rebuild.doNotEdit with
      | none => exact .inl ⟨rfl, .inl (by simp)⟩
      | some text =>
          dsimp only
          cases hprepared : rebuild.prepared nodes text with
          | none => exact .inl ⟨rfl, .inl (by simp)⟩
          | some prepared =>
              dsimp only
              generalize updateCluster prepared _ rebuild.run = answer
              cases answer with
              | none => exact .inl ⟨rfl, .inl (by simp)⟩
              | some updateFlag =>
                  dsimp only
                  by_cases hflag : updateFlag = 0
                  · rw [if_pos hflag]
                    cases hmoved : rebuild.moved with
                    | false => exact .inl ⟨rfl, .inr rfl⟩
                    | true => exact .inr ⟨rfl, nodes, text, prepared, rfl, rfl, hprepared, rfl⟩
                  · rw [if_neg hflag]
                    refine .inl ⟨rfl, .inl fun hzero => hflag ?_⟩
                    injection hzero

/-- **A reconfiguration that succeeds covers the nodes OCI lists and no others**: one line each, in their order. Any other
leaves the inventory as the backup left it. -/
theorem reconfigure_covers (rebuild : Rebuild) (hvalid : rebuild.Valid) :
    (rebuild.reconfigure.ending = .returned 0 → rebuild.moved = true → ∃ nodes text,
        rebuild.instances = some nodes ∧ rebuild.reconfigure.inventory = some text ∧
          CoversInOrder nodes (parseInventory text)) ∧
      (rebuild.reconfigure.ending ≠ .returned 0 ∨ rebuild.moved = false →
        rebuild.reconfigure.inventory = rebuild.left) := by
  obtain ⟨hleft, hor⟩ | ⟨hmoved, nodes, text, prepared, hnodes, htext, hprepared, hresult⟩ := rebuild.reconfigure_cases
  · refine ⟨fun hzero hmoved => ?_, fun _ => hleft⟩
    rcases hor with hne | hnot
    · exact absurd hzero hne
    · rw [hmoved] at hnot
      cases hnot
  · obtain ⟨inventory, hwell, rfl, hcovers⟩ := prepared_spec hvalid hnodes htext hprepared
    rw [hresult]
    refine ⟨fun _ _ => ⟨nodes, writeInventory inventory, hnodes, rfl, ?_⟩, fun hor => ?_⟩
    · rw [parse_write hwell]
      exact hcovers
    · rcases hor with hne | hnot
      · exact absurd rfl hne
      · rw [hmoved] at hnot
        cases hnot

def rebuilt : Rebuild where
  instances := Addition.similarNames.instances
  inventory := Addition.similarNames.inventory
  doNotEdit := none
  cloud := Addition.similarNames.cloud
  waitForHosts := fun _ => 0
  run := .ended 0
  moved := true

theorem valid_rebuilt : rebuilt.Valid :=
  have h := Addition.valid_similarNames
  ⟨h.terminated, h.username, h.nodes, h.cloud⟩

/-- Both have one afterwards. -/
theorem covers_rebuilt : ∃ nodes text, rebuilt.instances = some nodes ∧ rebuilt.reconfigure.inventory = some text ∧
    CoversInOrder nodes (parseInventory text) :=
  (reconfigure_covers rebuilt valid_rebuilt).1 (by decide +kernel) rfl

end Rebuild

end OciHpc.Resize
