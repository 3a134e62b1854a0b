import OciHpc.Resize.DestroyReconfigure
import OciHpc.Resize.Reconfigure
import OciHpc.Resize.UnterminatedLine

/-!
# The inventory over a history

Any sequence of the four reconfigurations of `resize.py`, each with any outcome.

* `Reconfiguration`, `Installed` : one of them, and the inventories that a history of them can leave;
* `Honest` : the configured lines are lines of listed nodes, none has two, and nothing is left to add;
* `Shrinks` : what the two removals do to the compute lines;
* `honest_of_installed` : every inventory that a history leaves is honest.
-/

namespace OciHpc.Resize

/-! ## Reconfigurations -/

inductive Reconfiguration
  | add (addition : Addition)
  | destroyUnreachable (removal : Removal)
  | destroy (destruction : Destruction)
  | all (rebuild : Rebuild)

namespace Reconfiguration

def inventory : Reconfiguration → Option Text
  | add addition => addition.inventory
  | destroyUnreachable removal => removal.inventory
  | destroy destruction => destruction.inventory
  | all rebuild => rebuild.inventory

/-- The copy in `/tmp` that it finds. -/
def doNotEdit : Reconfiguration → Option Text
  | add addition => addition.doNotEdit
  | destroyUnreachable removal => removal.doNotEdit
  | destroy destruction => destruction.doNotEdit
  | all rebuild => rebuild.doNotEdit

/-- The nodes it makes lines for, where OCI lists them. -/
def listed : Reconfiguration → List Node
  | add addition => addition.instances.getD []
  | destroyUnreachable _ => []
  | destroy _ => []
  | all rebuild => rebuild.instances.getD []

def result : Reconfiguration → Reconfigured
  | add addition => addition.addReconfigure
  | destroyUnreachable removal => removal.destroyUnreachableReconfigure
  | destroy destruction => destruction.destroyReconfigure
  | all rebuild => rebuild.reconfigure

/-- What is written into the inventory can stand there, and no two nodes have one name. -/
def Valid : Reconfiguration → Prop
  | add addition => addition.Valid
  | destroyUnreachable _ => True
  | destroy _ => True
  | all rebuild => rebuild.Valid ∧ ∀ nodes, rebuild.instances = some nodes → (nodes.map (·.displayName)).Nodup

end Reconfiguration

/-- An inventory that a history leaves. What a failed run may have left in `/tmp` is one that there was before. -/
inductive Installed (Listed : Node → Prop) (initial : Text) : Text → Prop
  | start : Installed Listed initial initial
  | step {text installed : Text} (reconfiguration : Reconfiguration) (h : Installed Listed initial text)
      (hinventory : reconfiguration.inventory = some text)
      (hcopy : ∀ copy, reconfiguration.doNotEdit = some copy → Installed Listed initial copy)
      (hvalid : reconfiguration.Valid) (hlisted : ∀ node ∈ reconfiguration.listed, Listed node)
      (hresult : reconfiguration.result.inventory = some installed) : Installed Listed initial installed

/-- **The inventory is honest**: each configured host line is of a listed node, no node has two, and nothing is to be added. -/
structure Honest (Listed : Node → Prop) (text : Text) : Prop where
  terminated : Terminated text
  nothingToAdd : (parseInventory text).lines? "compute_to_add".toList = some []
  lines : ∃ configured, (parseInventory text).lines? "compute_configured".toList = some configured ∧
    (∀ line ∈ configured, hostName line ≠ none → ∃ node, Listed node ∧ describes node line = true) ∧
      ∀ node, configured.countP (describes node) ≤ 1

/-! ## Inventories that are written -/

theorem terminated_writeInventory {inventory : Inventory} (h : inventory.WellFormed) :
    Terminated (writeInventory inventory) := by
  have hpieces : ∀ piece ∈ inventory.pieces, IsLine piece := by
    intro piece hpiece
    obtain ⟨entry, hentry, hpiece⟩ := List.mem_flatMap.mp hpiece
    rcases List.mem_cons.mp hpiece with rfl | hpiece
    · exact isLine_header (h.names entry hentry)
    · exact (h.lines entry hentry piece hpiece).1
  have hlast : ∀ {pieces : List Text}, (∀ piece ∈ pieces, IsLine piece) →
      ∀ c, pieces.flatten.getLast? = some c → c = '\n' := by
    intro pieces hall
    induction pieces with
    | nil =>
        intro c hc
        cases hc
    | cons piece rest ih =>
        intro c hc
        rw [List.flatten_cons, List.getLast?_append, Option.or_eq_some_iff] at hc
        rcases hc with hc | ⟨-, hc⟩
        · exact ih (fun other hother => hall other (List.mem_cons_of_mem _ hother)) c hc
        · rw [(hall piece List.mem_cons_self).getLast?] at hc
          exact (Option.some.inj hc).symm
  have hreturn : '\r' ∉ writeInventory inventory := fun hmem => by
    rw [writeInventory_eq] at hmem
    obtain ⟨piece, hpiece, hc⟩ := List.mem_flatten.mp hmem
    exact (hpieces piece hpiece).noReturn hc
  intro c hc
  rw [universalNewlines_eq_self hreturn, writeInventory_eq] at hc
  exact hlast hpieces c hc

/-! ## Removals -/

/-- Some configured lines are gone, and nothing is added. -/
structure Shrinks (before after : Inventory) : Prop where
  configured : ∀ lines, before.lines? "compute_configured".toList = some lines →
    ∃ kept, after.lines? "compute_configured".toList = some kept ∧ kept.Sublist lines
  toAdd : before.lines? "compute_to_add".toList = some [] → after.lines? "compute_to_add".toList = some []
  wellFormed : before.WellFormed → after.WellFormed

section
variable {Listed : Node → Prop} {before after last : Inventory}

theorem Shrinks.refl (inventory : Inventory) : Shrinks inventory inventory :=
  ⟨fun lines hlines => ⟨lines, hlines, List.Sublist.refl _⟩, id, id⟩

theorem Shrinks.trans (h : Shrinks before after) (h' : Shrinks after last) : Shrinks before last := by
  refine ⟨fun lines hlines => ?_, fun htoAdd => h'.toAdd (h.toAdd htoAdd), fun hwell => h'.wellFormed (h.wellFormed hwell)⟩
  obtain ⟨kept, hkept, hsub⟩ := h.configured lines hlines
  obtain ⟨kept', hkept', hsub'⟩ := h'.configured kept hkept
  exact ⟨kept', hkept', hsub'.trans hsub⟩

theorem shrinks_set {name : Text} {lines : List Text} (hconfigured : name ≠ "compute_configured".toList)
    (htoAdd : name ≠ "compute_to_add".toList) (hname : before.WellFormed → IsName name)
    (hlines : before.WellFormed → ∀ line ∈ lines, IsLine line ∧ isHeader line = false) :
    Shrinks before (before.set name lines) := by
  refine ⟨fun kept hkept => ⟨kept, ?_, List.Sublist.refl _⟩, fun hnone => ?_, fun hwell =>
    hwell.set (hname hwell) (hlines hwell)⟩
  · rw [Inventory.lines?_set_of_ne hconfigured.symm]
    exact hkept
  · rw [Inventory.lines?_set_of_ne htoAdd.symm]
    exact hnone

theorem shrinks_set_sublist {name : Text} {lines kept : List Text} (hlines : before.lines? name = some lines)
    (hsub : kept.Sublist lines) : Shrinks before (before.set name kept) := by
  refine ⟨fun configured hconfigured => ?_, fun hnone => ?_, fun hwell => ?_⟩
  · by_cases hname : "compute_configured".toList = name
    · subst hname
      obtain rfl := Option.some.inj (hlines.symm.trans hconfigured)
      exact ⟨kept, Inventory.lines?_set_self, hsub⟩
    · rw [Inventory.lines?_set_of_ne hname]
      exact ⟨configured, hconfigured, List.Sublist.refl _⟩
  · by_cases hname : "compute_to_add".toList = name
    · subst hname
      obtain rfl := Option.some.inj (hlines.symm.trans hnone)
      rw [Inventory.lines?_set_self, List.sublist_nil.mp hsub]
    · rw [Inventory.lines?_set_of_ne hname]
      exact hnone
  · exact hwell.set (hwell.names _ (Inventory.mem_of_lines? hlines)) fun line hline =>
      hwell.lines _ (Inventory.mem_of_lines? hlines) line (hsub.subset hline)

theorem removeHost_shrinks {host : Text} {edited : Inventory × List Text} (h : removeHost host before = some edited) :
    Shrinks before edited.1 := by
  obtain ⟨configured, hconfigured, h⟩ := Option.bind_eq_some_iff.mp h
  obtain ⟨configuredLines, hconfiguredLines, rfl⟩ := Option.map_eq_some_iff.mp hconfigured
  obtain ⟨ips, -, h⟩ := Option.bind_eq_some_iff.mp h
  obtain ⟨toAdd, htoAdd, h⟩ := Option.bind_eq_some_iff.mp h
  obtain ⟨toAddLines, htoAddLines, rfl⟩ := Option.map_eq_some_iff.mp htoAdd
  obtain ⟨ips', -, h⟩ := Option.bind_eq_some_iff.mp h
  obtain ⟨nfs, hnfs, h⟩ := Option.bind_eq_some_iff.mp h
  obtain ⟨nfsLines, hnfsLines, rfl⟩ := Option.map_eq_some_iff.mp hnfs
  obtain rfl := Option.some.inj h
  exact ((shrinks_set_sublist hconfiguredLines (removeHostLines_sublist host _)).trans
    (shrinks_set_sublist htoAddLines (removeHostLines_sublist host _))).trans
      (shrinks_set_sublist hnfsLines (removeHostLines_sublist host _))

theorem removeHosts_shrinks {hosts : List Text} {edited : Inventory × List Text} (h : removeHosts hosts before = some edited) :
    Shrinks before edited.1 := by
  induction hosts generalizing before edited with
  | nil =>
      obtain rfl := Option.some.inj h
      exact Shrinks.refl _
  | cons host rest ih =>
      obtain ⟨first, hfirst, h⟩ := Option.bind_eq_some_iff.mp h
      obtain ⟨more, hmore, h⟩ := Option.bind_eq_some_iff.mp h
      obtain rfl := Option.some.inj h
      have hrest : Shrinks first.1 more.1 := ih hmore
      exact (removeHost_shrinks hfirst).trans hrest

theorem removeEach_sublist {lines removed kept : List Text} (h : removeEach removed lines = some kept) :
    kept.Sublist lines := by
  induction removed generalizing lines with
  | nil =>
      obtain rfl := Option.some.inj h
      exact List.Sublist.refl _
  | cons line rest ih =>
      rw [removeEach] at h
      split at h
      · exact (ih h).trans List.erase_sublist
      · cases h

theorem moveHost_shrinks {reachable : List Text} {host : Text} (h : moveHost reachable host before = some after) :
    Shrinks before after := by
  obtain ⟨configured, hconfigured, h⟩ := Option.bind_eq_some_iff.mp h
  obtain ⟨toAdd, htoAdd, h⟩ := Option.bind_eq_some_iff.mp h
  obtain ⟨nfs, hnfs, h⟩ := Option.bind_eq_some_iff.mp h
  obtain ⟨toDestroy, htoDestroy, h⟩ := Option.bind_eq_some_iff.mp h
  obtain ⟨kept, hkept, h⟩ := Option.bind_eq_some_iff.mp h
  obtain ⟨keptNfs, hkeptNfs, h⟩ := Option.bind_eq_some_iff.mp h
  obtain rfl := Option.some.inj h
  have hlines := fun (hwell : before.WellFormed) {name lines} (h : before.lines? name = some lines) =>
    hwell.lines _ (Inventory.mem_of_lines? h)
  have hdestroyed := @shrinks_set before "compute_to_destroy".toList
    (toDestroy ++ if host ∈ reachable then configured.filter (isIn host) ++ toAdd.filter (isIn host) else [])
    (by decide) (by decide) (fun _ => Removal.isName_compute_to_destroy) fun hwell line hline => by
      rcases List.mem_append.mp hline with hline | hline
      · exact hlines hwell htoDestroy line hline
      · split at hline
        · rcases List.mem_append.mp hline with hline | hline
          · exact hlines hwell hconfigured line (List.mem_of_mem_filter hline)
          · exact hlines hwell htoAdd line (List.mem_of_mem_filter hline)
        · cases hline
  refine (hdestroyed.trans (shrinks_set_sublist ?_ (removeEach_sublist hkept))).trans
    (shrinks_set_sublist ?_ (removeEach_sublist hkeptNfs))
  · rw [Inventory.lines?_set_of_ne (by decide)]
    exact hconfigured
  · rw [Inventory.lines?_set_of_ne (by decide), Inventory.lines?_set_of_ne (by decide)]
    exact hnfs

theorem moveHosts_shrinks {reachable hosts : List Text} (h : moveHosts reachable hosts before = some after) :
    Shrinks before after := by
  induction hosts generalizing before with
  | nil =>
      obtain rfl := Option.some.inj h
      exact Shrinks.refl _
  | cons host rest ih =>
      obtain ⟨first, hfirst, h⟩ := Option.bind_eq_some_iff.mp h
      exact (moveHost_shrinks hfirst).trans (ih h)

theorem Thinned.shrinks (h : Thinned before after) : Shrinks before after := by
  refine ⟨h.configured, fun htoAdd => ?_, h.wellFormed⟩
  obtain ⟨kept, hkept, hsub⟩ := h.toAdd [] htoAdd
  rw [hkept, List.sublist_nil.mp hsub]

theorem shrinks_toDestroy (inventory : Inventory) : Shrinks inventory (inventory.set "compute_to_destroy".toList []) :=
  shrinks_set (by decide) (by decide) (fun _ => Removal.isName_compute_to_destroy) fun _ line hline =>
    absurd hline List.not_mem_nil

theorem Honest.shrinks {text : Text} (h : Honest Listed text) {after : Inventory}
    (hshrinks : Shrinks (parseInventory text) after) : Honest Listed (writeInventory after) := by
  have hwell := hshrinks.wellFormed (wellFormed_parseInventory h.terminated)
  obtain ⟨configured, hconfigured, hknown, honce⟩ := h.lines
  obtain ⟨kept, hkept, hsub⟩ := hshrinks.configured configured hconfigured
  refine ⟨terminated_writeInventory hwell, ?_, kept, ?_, fun line hline => hknown line (hsub.subset hline),
    fun node => le_trans (hsub.countP_le) (honce node)⟩
  · rw [parse_write hwell]
    exact hshrinks.toAdd h.nothingToAdd
  · rw [parse_write hwell]
    exact hkept

/-! ## Lines that are made -/

theorem countP_added_le {nodes : List Node} {username : Text} {specificHosts : Option (List Text)} {configured : List Text}
    (hnodes : ∀ node ∈ nodes, IsHostName node.displayName.toList ∧ NoSpace node.ip.toList ∧ NoSpace node.ocid.toList)
    (husername : NoSpace username) (hdistinct : (nodes.map (·.displayName)).Nodup)
    (honce : ∀ node, configured.countP (describes node) ≤ 1) (node : Node) :
    configured.countP (describes node) + (addedNodes username specificHosts ⟨configured, [], []⟩ nodes).countP
      (fun other => describes node (computeInventoryLine other username)) ≤ 1 := by
  by_cases hnone : (addedNodes username specificHosts ⟨configured, [], []⟩ nodes).countP
      (fun other => describes node (computeInventoryLine other username)) = 0
  · rw [hnone]
    exact honce node
  · obtain ⟨other, hother, hdescribes⟩ := List.countP_pos_iff.mp (Nat.pos_of_ne_zero hnone)
    have hmem := (addedNodes_sublist nodes ⟨configured, [], []⟩).subset hother
    obtain ⟨hhost, hip, hocid⟩ := hnodes other hmem
    obtain ⟨-, hname, haddress⟩ := computeInventoryLine_spec hhost hip hocid husername
    rw [describes_iff, hname, haddress, Option.some.injEq, Option.some.injEq, String.toList_inj,
      String.toList_inj] at hdescribes
    have hsame : describes node = describes other := by
      funext line
      rw [describes, describes, hdescribes.1, hdescribes.2]
    have hzero : configured.countP (describes node) = 0 := by
      refine List.countP_eq_zero.mpr fun line hline hline' => ?_
      rw [hsame, describes_iff] at hline'
      exact isConfigured_of_added hother line hline ⟨isIn_of_hostName hline'.1, isIn_of_hostAddress hline'.2⟩
    have hcount := Addition.countP_describes hnodes husername hdistinct specificHosts ⟨configured, [], []⟩ hmem
    rw [if_pos hother] at hcount
    rw [hzero, hsame, hcount]

theorem Honest.added {text : Text} (h : Honest Listed text) {addition : Addition} (hvalid : addition.Valid)
    (htext : backupInventory addition.inventory addition.doNotEdit = some text)
    (hlisted : ∀ nodes, addition.instances = some nodes → ∀ node ∈ nodes, Listed node) {ready : Addition.Ready}
    (hready : addition.ready = some ready) {inventory : Inventory}
    (hfinished : Addition.finished ready.prepared = some inventory) : Honest Listed (writeInventory inventory) := by
  obtain ⟨text', planned, hnodes, htext', hplanned, hprepared⟩ := Addition.ready_eq_some hready
  obtain rfl := Option.some.inj (htext.symm.trans htext')
  have hnodesValid := hvalid.nodes _ hnodes
  obtain ⟨username, configured, toAdd, hplan⟩ := planAdd_spec (wellFormed_parseInventory h.terminated) hnodesValid
    (fun username husername => hvalid.username _ _ htext husername) hplanned
  have husername := hvalid.username _ _ htext hplan.user
  obtain ⟨prepared, hwell, hwritten, ⟨lines, others, hlines, hothers, hsame⟩, ⟨lines', others', hlines', hothers', hsame'⟩⟩ :=
    prepareLocalBlockVolumeInventory_spec hvalid.cloud hplan.wellFormed hprepared
  obtain rfl := Option.some.inj (hplan.newConfigured.symm.trans hlines)
  obtain rfl := Option.some.inj (hplan.newToAdd.symm.trans hlines')
  obtain ⟨inventory', hfinished', hfinalWell, hfinalConfigured, hfinalToAdd⟩ := Addition.finished_spec hwell hothers hothers'
  rw [hwritten, hfinished'] at hfinished
  obtain rfl := Option.some.inj hfinished
  have htoAdd : (parseInventory text).lines? "compute_to_add".toList = some toAdd := hplan.toAdd
  obtain rfl : [] = toAdd := Option.some.inj (h.nothingToAdd.symm.trans htoAdd)
  obtain ⟨configured', hconfigured', hknown, honce⟩ := h.lines
  obtain rfl := Option.some.inj (hconfigured'.symm.trans hplan.configured)
  have hknows : ∀ line,
      (line ∈ (ready.nodes.foldl (addNode username addition.specificHosts) ⟨configured', [], []⟩).configured ∨
        line ∈ (ready.nodes.foldl (addNode username addition.specificHosts) ⟨configured', [], []⟩).toAdd) →
        hostName line ≠ none → ∃ node, Listed node ∧ describes node line = true := by
    intro line hline hhost
    rcases mem_foldl_addNode ready.nodes _ hline with hline | hline | ⟨node, hnode, rfl⟩
    · exact hknown line hline hhost
    · cases hline
    · obtain ⟨hname, hip, hocid⟩ := hnodesValid node hnode
      obtain ⟨-, hhost, haddress⟩ := computeInventoryLine_spec hname hip hocid husername
      exact ⟨node, hlisted _ hnodes node hnode, describes_iff.mpr ⟨hhost, haddress⟩⟩
  have hrewritten : ∀ {lines others : List Text}, List.Forall₂ SameHost lines others →
      (∀ line ∈ lines, hostName line ≠ none → ∃ node, Listed node ∧ describes node line = true) →
        ∀ line ∈ others, hostName line ≠ none → ∃ node, Listed node ∧ describes node line = true := by
    intro lines others hall hlines line hline hhost
    obtain ⟨before, hbefore, hsame⟩ := (mem_of_forall₂ hall).2 line hline
    rw [hsame.hostName] at hhost
    obtain ⟨node, hnode, hdescribes⟩ := hlines before hbefore hhost
    refine ⟨node, hnode, ?_⟩
    rw [describes, hsame.hostName, hsame.hostAddress]
    exact hdescribes
  refine ⟨terminated_writeInventory hfinalWell, ?_, others ++ others', ?_, fun line hline => ?_, fun node => ?_⟩
  · rw [parse_write hfinalWell]
    exact hfinalToAdd
  · rw [parse_write hfinalWell]
    exact hfinalConfigured
  · rcases List.mem_append.mp hline with hline | hline
    · exact hrewritten hsame (fun line hline => hknows line (.inl hline)) line hline
    · exact hrewritten hsame' (fun line hline => hknows line (.inr hline)) line hline
  · rw [List.countP_append, countP_of_sameHosts hsame, countP_of_sameHosts hsame', ← List.countP_append,
      countP_foldl_addNode, List.append_nil]
    exact countP_added_le hnodesValid husername (hvalid.distinct _ hnodes) honce node

/-- The nodes of the lines are distinct, and so the lines are. -/
theorem countP_of_describes {nodes : List Node} {lines : List Text}
    (h : List.Forall₂ (fun node line => describes node line = true) nodes lines) (node : Node) :
    lines.countP (describes node) ≤ (nodes.map (·.displayName)).count node.displayName := by
  induction h with
  | nil => exact Nat.le_refl _
  | cons hfirst _ ih =>
      rename_i first line _ _ _
      rw [List.countP_cons, List.map_cons, List.count_cons]
      by_cases hline : describes node line = true
      · have hname : first.displayName = node.displayName :=
          String.toList_inj.mp (Option.some.inj ((describes_iff.mp hfirst).1.symm.trans (describes_iff.mp hline).1))
        rw [if_pos hline, if_pos (by rw [hname, beq_self_eq_true])]
        omega
      · rw [if_neg hline]
        omega

theorem Honest.covers {nodes : List Node} {inventory : Inventory} (hwell : inventory.WellFormed)
    (h : CoversInOrder nodes inventory) (hlisted : ∀ node ∈ nodes, Listed node)
    (hdistinct : (nodes.map (·.displayName)).Nodup) : Honest Listed (writeInventory inventory) := by
  obtain ⟨configured, hconfigured, heach⟩ := h.lines
  refine ⟨terminated_writeInventory hwell, ?_, configured, ?_, fun line hline _ => ?_, fun node => ?_⟩
  · rw [parse_write hwell]
    exact h.nothingLeft
  · rw [parse_write hwell]
    exact hconfigured
  · obtain ⟨node, hnode, hdescribes⟩ := (mem_of_forall₂ heach).2 line hline
    exact ⟨node, hlisted node hnode, hdescribes⟩
  · exact le_trans (countP_of_describes heach node) (List.nodup_iff_count_le_one.mp hdistinct _)

/-! ## A history -/

theorem Destruction.edited_shrinks {destruction : Destruction} {text : Text} {inventory : Inventory}
    (h : destruction.edited text = some inventory) : Shrinks (parseInventory text) inventory := by
  obtain ⟨listed, -, h⟩ := Option.bind_eq_some_iff.mp h
  obtain ⟨username, -, h⟩ := Option.bind_eq_some_iff.mp h
  obtain ⟨sorted, -, h⟩ := Option.bind_eq_some_iff.mp h
  obtain ⟨moved, hmoved, h⟩ := Option.bind_eq_some_iff.mp h
  exact ((shrinks_toDestroy _).trans (moveHosts_shrinks hmoved)).trans (dropInstances_spec h).shrinks

theorem plan_shrinks {hosts : List Text} {instances : Option (List Node)} {text : Text} {planned : Plan}
    (h : plan hosts instances text = some planned) : Shrinks (parseInventory text) planned.inventory := by
  obtain ⟨edited, ips, hedited, -, rfl⟩ := Removal.plan_eq_some h
  exact removeHosts_shrinks hedited

/-- What the backup leaves is one of two inventories. -/
theorem backup_of_installed {text : Text} {inventory doNotEdit : Option Text} (htext : Honest Listed text)
    (hinventory : inventory = some text) (hcopy : ∀ copy, doNotEdit = some copy → Honest Listed copy) :
    ∃ restored, backupInventory inventory doNotEdit = some restored ∧ Honest Listed restored := by
  subst hinventory
  cases doNotEdit with
  | none => exact ⟨text, rfl, htext⟩
  | some copy => exact ⟨copy, rfl, hcopy copy rfl⟩

end

namespace Reconfiguration
variable {Listed : Node → Prop}

/-- **A reconfiguration that finds an honest inventory leaves one**, whatever raises. -/
theorem honest_result (reconfiguration : Reconfiguration) (hvalid : reconfiguration.Valid)
    (hlisted : ∀ node ∈ reconfiguration.listed, Listed node) {text restored installed : Text} (htext : Honest Listed text)
    (hinventory : reconfiguration.inventory = some text)
    (hbackup : backupInventory reconfiguration.inventory reconfiguration.doNotEdit = some restored)
    (hrestored : Honest Listed restored) (hresult : reconfiguration.result.inventory = some installed) :
    Honest Listed installed := by
  cases reconfiguration with
  | add addition =>
      have hleft : addition.left = some installed → Honest Listed installed := by
        intro h
        unfold Addition.left at h
        split at h
        · obtain rfl : restored = installed := by
            rw [show backupInventory addition.inventory addition.doNotEdit = some restored from hbackup, Option.some_or] at h
            exact Option.some.inj h
          exact hrestored
        · obtain rfl := Option.some.inj (hinventory.symm.trans h)
          exact htext
      have hnodes : ∀ nodes, addition.instances = some nodes → ∀ node ∈ nodes, Listed node := by
        intro nodes hnodes node hnode
        refine hlisted node ?_
        show node ∈ addition.instances.getD []
        rwa [hnodes]
      change addition.addReconfigure.inventory = some installed at hresult
      unfold Addition.addReconfigure at hresult
      split at hresult
      · exact hleft hresult
      · rename_i ready hready
        split at hresult
        · exact hleft hresult
        · split at hresult
          · split at hresult
            · exact hleft hresult
            · rename_i inventory hfinished
              dsimp only at hresult
              split at hresult
              · obtain rfl := Option.some.inj hresult
                exact hrestored.added hvalid hbackup hnodes hready hfinished
              · exact hleft hresult
          · exact hleft hresult
  | destroyUnreachable removal =>
      change removal.destroyUnreachableReconfigure.inventory = some installed at hresult
      change backupInventory removal.inventory removal.doNotEdit = some restored at hbackup
      have hkept : (some restored : Option Text) = some installed → Honest Listed installed := fun h =>
        Option.some.inj h ▸ hrestored
      unfold Removal.destroyUnreachableReconfigure at hresult
      split at hresult
      · obtain rfl := Option.some.inj (hinventory.symm.trans hresult)
        exact htext
      · rw [hbackup] at hresult
        dsimp only at hresult
        split at hresult
        · exact hkept hresult
        · rename_i planned hplanned
          split at hresult
          · exact hkept hresult
          · exact hkept hresult
          · split at hresult
            · dsimp only at hresult
              split at hresult
              · obtain rfl := Option.some.inj hresult
                exact hrestored.shrinks ((plan_shrinks hplanned).trans (shrinks_toDestroy _))
              · exact hkept hresult
            · exact hkept hresult
  | destroy destruction =>
      change destruction.destroyReconfigure.inventory = some installed at hresult
      change backupInventory destruction.inventory destruction.doNotEdit = some restored at hbackup
      have hkept : (some restored : Option Text) = some installed → Honest Listed installed := fun h =>
        Option.some.inj h ▸ hrestored
      unfold Destruction.destroyReconfigure at hresult
      split at hresult
      · obtain rfl := Option.some.inj (hinventory.symm.trans hresult)
        exact htext
      · rw [hbackup] at hresult
        dsimp only at hresult
        split at hresult
        · exact hkept hresult
        · rename_i inventory hedited
          split at hresult
          · exact hkept hresult
          · split at hresult
            · dsimp only at hresult
              split at hresult
              · obtain rfl := Option.some.inj hresult
                exact hrestored.shrinks ((Destruction.edited_shrinks hedited).trans (shrinks_toDestroy _))
              · exact hkept hresult
            · exact hkept hresult
  | all rebuild =>
      obtain ⟨hleft, -⟩ | ⟨-, nodes, before, prepared, hnodes, hbefore, hprepared, hwritten⟩ := rebuild.reconfigure_cases
      · have hleft' : rebuild.left = some installed := hleft.symm.trans hresult
        unfold Rebuild.left at hleft'
        split at hleft'
        · obtain rfl : restored = installed := by
            rw [show backupInventory rebuild.inventory rebuild.doNotEdit = some restored from hbackup, Option.some_or] at hleft'
            exact Option.some.inj hleft'
          exact hrestored
        · obtain rfl := Option.some.inj (hinventory.symm.trans hleft')
          exact htext
      · obtain ⟨inventory, hwell, rfl, hcovers⟩ := Rebuild.prepared_spec hvalid.1 hnodes hbefore hprepared
        change rebuild.reconfigure.inventory = some installed at hresult
        rw [hwritten] at hresult
        obtain rfl := Option.some.inj hresult
        refine Honest.covers hwell hcovers (fun node hnode => hlisted node ?_) (hvalid.2 nodes hnodes)
        show node ∈ rebuild.instances.getD []
        rwa [hnodes]

end Reconfiguration

/-- **Every inventory that a history leaves is honest**, if the first one is. -/
theorem honest_of_installed {Listed : Node → Prop} {initial text : Text} (hinitial : Honest Listed initial)
    (h : Installed Listed initial text) : Honest Listed text := by
  induction h with
  | start => exact hinitial
  | step reconfiguration _ hinventory _ hvalid hlisted hresult ih ihcopy =>
      obtain ⟨restored, hbackup, hrestored⟩ := backup_of_installed ih hinventory ihcopy
      exact reconfiguration.honest_result hvalid hlisted ih hinventory hbackup hrestored hresult

def oneConfigured : Text := Addition.similarNames.inventory.getD []

def OneOfBoth (node : Node) : Prop := node ∈ Rebuild.rebuilt.instances.getD []

theorem honest_oneConfigured : Honest OneOfBoth oneConfigured := by
  obtain ⟨hlast, htoAdd, hconfigured, hdescribes⟩ : (universalNewlines oneConfigured).getLast? = some '\n' ∧
      (parseInventory oneConfigured).lines? "compute_to_add".toList = some [] ∧
      (parseInventory oneConfigured).lines? "compute_configured".toList =
        some ["inst-10 ansible_host=10.0.0.10 ansible_user=opc oci_instance_id=o10\n".toList] ∧
      describes ⟨"inst-10", "10.0.0.10", "o10"⟩
        "inst-10 ansible_host=10.0.0.10 ansible_user=opc oci_instance_id=o10\n".toList = true := by decide +kernel
  refine ⟨fun c hc => Option.some.inj (hc.symm.trans hlast), htoAdd, _, hconfigured, fun line hline _ => ?_, fun node => ?_⟩
  · rw [List.mem_singleton.mp hline]
    exact ⟨_, List.mem_cons_self, hdescribes⟩
  · exact List.countP_le_length

/-- One of the nodes is to be removed from the inventory made for both. -/
def withoutFirst : Destruction := { Destruction.oneOfTwo with inventory := Rebuild.rebuilt.reconfigure.inventory }

theorem withoutFirst_succeeds : withoutFirst.destroyReconfigure.ending = .returned 0 ∧
    withoutFirst.destroyReconfigure.inventory.isSome = true := by
  decide +kernel

/-- A history of two reconfigurations: all nodes, and then without one of them. -/
theorem honest_withoutFirst :
    ∃ installed, withoutFirst.destroyReconfigure.inventory = some installed ∧ Honest OneOfBoth installed := by
  obtain ⟨nodes, rebuilt, -, hrebuilt, -⟩ := Rebuild.covers_rebuilt
  obtain ⟨installed, hinstalled⟩ := Option.isSome_iff_exists.mp withoutFirst_succeeds.2
  have hdistinct : ∀ nodes, Rebuild.rebuilt.instances = some nodes → (nodes.map (·.displayName)).Nodup :=
    Addition.valid_similarNames.distinct
  have hfirst : Installed OneOfBoth oneConfigured rebuilt := .step (.all Rebuild.rebuilt) .start rfl
    (fun copy hcopy => by cases hcopy) ⟨Rebuild.valid_rebuilt, hdistinct⟩ (fun node hnode => hnode) hrebuilt
  have hinventory : (Reconfiguration.destroy withoutFirst).inventory = some rebuilt := by
    rw [Reconfiguration.inventory]
    unfold withoutFirst
    dsimp only
    exact hrebuilt
  have hnone : (Reconfiguration.destroy withoutFirst).doNotEdit = none := rfl
  have hsecond : Installed OneOfBoth oneConfigured installed := by
    refine .step (.destroy withoutFirst) hfirst hinventory (fun copy hcopy => ?_) trivial
      (fun node hnode => absurd hnode List.not_mem_nil) hinstalled
    rw [hnone] at hcopy
    cases hcopy
  exact ⟨installed, hinstalled, honest_of_installed honest_oneConfigured hsecond⟩

end OciHpc.Resize
