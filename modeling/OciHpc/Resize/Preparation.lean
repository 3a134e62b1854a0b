import Mathlib.Data.List.Forall2
import OciHpc.Base.Prog
import OciHpc.Resize.BlockVolume
import OciHpc.Resize.HostLine

/-!
# Preparing the inventory for the local Block Volumes

`prepare_local_block_volume_inventory` of `resize.py`: each compute line is checked against OCI and rewritten with the
settings of the node, and the lines of the same hosts in `nfs` are given the same settings.

* `blockVolumeValues`, `prepareLine`, `prepareLines`, `prepareNfsLine` : one line, and the loops over them;
* `prepareLocalBlockVolumeInventory` : the function;
* `Prepared` : the inventory it leaves has the hosts it had, line by line.
-/

namespace OciHpc.Resize

/-- What OCI answers: the instance of an identifier, and the polls of its attachments. -/
structure Cloud where
  getInstance : Text → Option Instance
  polls : Text → List Poll

/-! ## One line -/

/-- The settings a line is given, from the tags and the attachment of the instance. -/
def blockVolumeValues (cloud : Cloud) (inventory : Inventory) (clusterName instanceId : Text) (found : Instance) :
    Except VolumeError (List (Text × Text)) :=
  match getInstanceLocalBlockVolumeConfig found inventory (String.ofList clusterName) with
  | .error message => .error (.runtime message)
  | .ok none => .ok [("use_local_block_volume".toList, "false".toList)]
  | .ok (some settings) =>
      match getLocalBlockVolumeAttachment found (String.ofList clusterName) (some settings) (cloud.polls instanceId) with
      | .error e => .error e
      | .ok attachment => .ok
          [("use_local_block_volume".toList, "true".toList),
            ("local_block_volume_size".toList, strInt settings.sizeInGbs),
            ("local_block_volume_mount_point".toList, settings.mountPoint),
            ("local_block_volume_iscsi_ip".toList, (attachment.ipv4.getD "").toList),
            ("local_block_volume_iscsi_port".toList, strInt (attachment.port.getD 0)),
            ("local_block_volume_iqn".toList, (attachment.iqn.getD "").toList)]

/-- The host of a compute line and its settings; `none` where the line is no host line. -/
def prepareLine (cloud : Cloud) (inventory : Inventory) (clusterName line : Text) :
    Except VolumeError (Option (Text × List (Text × Text))) :=
  match getInventoryInstanceId line with
  | .error message => .error (.runtime message)
  | .ok none => .ok none
  | .ok (some (host, instanceId)) =>
      match cloud.getInstance instanceId with
      | none => .error .service
      | some found =>
          if found.displayName.toList ≠ host then
            .error (.runtime ("Inventory host " ++ String.ofList host ++ " does not match OCI instance " ++
              found.displayName))
          else
            match blockVolumeValues cloud inventory clusterName instanceId found with
            | .error e => .error e
            | .ok values => .ok (some (host, values))

/-! ## The loops -/

/-- `prepared_values_by_host`. -/
abbrev ValuesByHost := List (Text × List (Text × Text))

def prepareLines (cloud : Cloud) (inventory : Inventory) (clusterName : Text) :
    ValuesByHost → List Text → Except VolumeError (ValuesByHost × List Text)
  | prepared, [] => .ok (prepared, [])
  | prepared, line :: rest => do
      match ← prepareLine cloud inventory clusterName line with
      | none =>
          let result ← prepareLines cloud inventory clusterName prepared rest
          .ok (result.1, line :: result.2)
      | some (host, values) =>
          let result ← prepareLines cloud inventory clusterName (setKey host values prepared) rest
          .ok (result.1, rewriteComputeInventoryLine line values :: result.2)

/-- A line of `nfs` is given the settings of its host, where that is a compute node. -/
def prepareNfsLine (prepared : ValuesByHost) (line : Text) : Text :=
  match (hostName line).bind fun host => prepared.lookup host with
  | none => line
  | some values => rewriteComputeInventoryLine line values

def prepareNfs (prepared : ValuesByHost) (inventory : Inventory) : Inventory :=
  match inventory.lines? "nfs".toList with
  | none => inventory
  | some lines => inventory.set "nfs".toList (lines.map (prepareNfsLine prepared))

/-- The text that takes the place of the inventory. The settings are read in `[all:vars]`, which no rewriting
touches. -/
def prepareLocalBlockVolumeInventory (cloud : Cloud) (text : Text) : Except VolumeError Text :=
  let inventory := parseInventory text
  match getInventoryVariable inventory "cluster_name".toList with
  | none | some [] => .error (.runtime "Inventory does not define cluster_name")
  | some clusterName =>
      match inventory.lines? "compute_configured".toList with
      | none => .error (.runtime "Inventory does not contain [compute_configured]")
      | some configured => do
          let first ← prepareLines cloud inventory clusterName [] configured
          let edited := inventory.set "compute_configured".toList first.2
          match edited.lines? "compute_to_add".toList with
          | none => .error (.runtime "Inventory does not contain [compute_to_add]")
          | some toAdd => do
              let second ← prepareLines cloud inventory clusterName first.1 toAdd
              .ok (writeInventory (prepareNfs second.1 (edited.set "compute_to_add".toList second.2)))

/-! ## What is prepared -/

/-- The names and addresses OCI answers can stand in a line. -/
structure Cloud.Valid (cloud : Cloud) : Prop where
  names : ∀ id found, cloud.getInstance id = some found → IsHostName found.displayName.toList
  addresses : ∀ id, ∀ poll ∈ cloud.polls id, ∀ attachment ∈ poll.attachments,
    NoSpace (attachment.ipv4.getD "").toList ∧ NoSpace (attachment.iqn.getD "").toList

section
variable {cloud : Cloud} {inventory : Inventory} {clusterName : Text}

/-- The mount point of a node is one that passed the check. -/
theorem noSpace_mountPoint {candidate : Instance} {expected : String} {settings : VolumeSettings}
    (h : getInstanceLocalBlockVolumeConfig candidate inventory expected = .ok (some settings)) :
    NoSpace settings.mountPoint := by
  unfold getInstanceLocalBlockVolumeConfig at h
  dsimp only at h
  repeat' split at h
  all_goals try cases h
  rename_i hvalid
  exact not_isSpace_of_matchesPath (matchesPath_of_validateMountPoint hvalid)

theorem isValues_of_blockVolumeValues (hcloud : cloud.Valid) {instanceId : Text} {found : Instance}
    {values : List (Text × Text)} (h : blockVolumeValues cloud inventory clusterName instanceId found = .ok values) :
    IsValues values := by
  unfold blockVolumeValues at h
  split at h
  · cases h
  · obtain rfl := Except.ok.inj h
    intro entry hentry
    rw [List.mem_singleton.mp hentry]
    exact ⟨List.mem_cons_self, noSpace_of_all (by decide)⟩
  · rename_i settings hsettings
    split at h
    · cases h
    · rename_i attachment hattachment
      obtain rfl := Except.ok.inj h
      obtain ⟨poll, hpoll, hmem⟩ := mem_of_getLocalBlockVolumeAttachment hattachment
      have haddresses := hcloud.addresses instanceId poll hpoll attachment (List.mem_of_mem_filter hmem)
      intro entry hentry
      simp only [List.mem_cons, List.not_mem_nil, or_false] at hentry
      rcases hentry with rfl | rfl | rfl | rfl | rfl | rfl
      · exact ⟨by decide, noSpace_of_all (by decide)⟩
      · exact ⟨by dsimp only; decide, noSpace_strInt _⟩
      · exact ⟨by dsimp only; decide, noSpace_mountPoint hsettings⟩
      · exact ⟨by dsimp only; decide, haddresses.1⟩
      · exact ⟨by dsimp only; decide, noSpace_strInt _⟩
      · exact ⟨by dsimp only; decide, haddresses.2⟩

/-! ## A line that is prepared -/

theorem tokens_of_getInventoryInstanceId {line host instanceId : Text}
    (h : getInventoryInstanceId line = .ok (some (host, instanceId))) :
    ∃ parsed rest, splitInventoryHostLine line = some parsed ∧ parsed.tokens = host :: rest := by
  unfold getInventoryInstanceId at h
  split at h
  · cases h
  · rename_i parsed hparsed
    split at h
    · rename_i found hfound
      split at h
      · cases h
      · obtain ⟨rfl, -⟩ := Prod.mk.inj (Option.some.inj (Except.ok.inj h))
        cases htokens : parsed.tokens with
        | nil =>
            rw [htokens] at hfound
            cases hfound
        | cons token rest => exact ⟨parsed, rest, hparsed, htokens⟩
    · cases h

theorem tokens_of_hostName {line host : Text} (h : hostName line = some host) :
    ∃ parsed rest, splitInventoryHostLine line = some parsed ∧ parsed.tokens = host :: rest := by
  obtain ⟨parsed, hparsed, hhead⟩ := Option.bind_eq_some_iff.mp h
  obtain ⟨rest, htokens⟩ := List.head?_eq_some_iff.mp hhead
  exact ⟨parsed, rest, hparsed, htokens⟩

theorem sameHost_refl {line : Text} (h : IsLine line ∧ isHeader line = false) : SameHost line line :=
  ⟨h.1, h.2, rfl, rfl⟩

/-- The hosts prepared so far, and their settings. -/
def AllValid (prepared : ValuesByHost) : Prop := ∀ entry ∈ prepared, IsHostName entry.1 ∧ IsValues entry.2

theorem prepareLine_spec (hcloud : cloud.Valid) {line host : Text} {values : List (Text × Text)} (hline : IsLine line)
    (h : prepareLine cloud inventory clusterName line = .ok (some (host, values))) :
    IsHostName host ∧ IsValues values ∧ SameHost line (rewriteComputeInventoryLine line values) := by
  unfold prepareLine at h
  split at h
  · cases h
  · cases h
  · rename_i found instanceId hid
    split at h
    · cases h
    · rename_i candidate hcandidate
      split at h
      · cases h
      · rename_i hname
        split at h
        · cases h
        · rename_i settings hsettings
          obtain ⟨rfl, rfl⟩ := Prod.mk.inj (Option.some.inj (Except.ok.inj h))
          have hhost : IsHostName found := Decidable.not_not.mp hname ▸ hcloud.names _ _ hcandidate
          have hvalues := isValues_of_blockVolumeValues hcloud hsettings
          obtain ⟨parsed, rest, hsplit, htokens⟩ := tokens_of_getInventoryInstanceId hid
          exact ⟨hhost, hvalues, sameHost_rewritten hline hsplit htokens hhost hvalues⟩

theorem prepareLines_spec (hcloud : cloud.Valid) {lines : List Text}
    (hlines : ∀ line ∈ lines, IsLine line ∧ isHeader line = false) {prepared : ValuesByHost} (hprepared : AllValid prepared)
    {result : ValuesByHost × List Text} (h : prepareLines cloud inventory clusterName prepared lines = .ok result) :
    AllValid result.1 ∧ List.Forall₂ SameHost lines result.2 := by
  induction lines generalizing prepared result with
  | nil =>
      obtain rfl := Except.ok.inj h
      exact ⟨hprepared, List.Forall₂.nil⟩
  | cons line rest ih =>
      have hrest : ∀ other ∈ rest, IsLine other ∧ isHeader other = false := fun other hother =>
        hlines other (List.mem_cons_of_mem _ hother)
      have hline := hlines line List.mem_cons_self
      rw [prepareLines] at h
      obtain ⟨outcome, hfirst, h⟩ := bind_eq_ok h
      cases outcome with
      | none =>
          obtain ⟨more, hmore, h⟩ := bind_eq_ok h
          obtain rfl := Except.ok.inj h
          obtain ⟨hvalid, hsame⟩ := ih hrest hprepared hmore
          exact ⟨hvalid, List.Forall₂.cons (sameHost_refl hline) hsame⟩
      | some entry =>
          obtain ⟨host, values⟩ := entry
          obtain ⟨hhost, hvalues, hrewritten⟩ := prepareLine_spec hcloud hline.1 hfirst
          have hnext : AllValid (setKey host values prepared) := fun entry hentry => by
            rcases mem_setKey hentry with rfl | hentry
            · exact ⟨hhost, hvalues⟩
            · exact hprepared entry hentry
          obtain ⟨more, hmore, h⟩ := bind_eq_ok h
          obtain rfl := Except.ok.inj h
          obtain ⟨hvalid, hsame⟩ := ih hrest hnext hmore
          exact ⟨hvalid, List.Forall₂.cons hrewritten hsame⟩

theorem prepareNfsLine_spec {prepared : ValuesByHost} (hprepared : AllValid prepared) {line : Text}
    (hline : IsLine line ∧ isHeader line = false) : SameHost line (prepareNfsLine prepared line) := by
  unfold prepareNfsLine
  split
  · exact sameHost_refl hline
  · rename_i values hvalues
    obtain ⟨host, hhost, hlookup⟩ := Option.bind_eq_some_iff.mp hvalues
    obtain ⟨before, after, hentry, -⟩ := List.lookup_eq_some_iff.mp hlookup
    have hentry := hprepared (host, values) (hentry ▸ by simp)
    obtain ⟨parsed, rest, hsplit, htokens⟩ := tokens_of_hostName hhost
    exact sameHost_rewritten hline.1 hsplit htokens hentry.1 hentry.2

/-! ## The function -/

/-- The lines of a section are of the same hosts before and after. -/
def SameHosts (name : Text) (before after : Inventory) : Prop :=
  ∃ lines others, before.lines? name = some lines ∧ after.lines? name = some others ∧ List.Forall₂ SameHost lines others

theorem Inventory.WellFormed.setHosts (h : inventory.WellFormed) {name : Text} {lines others : List Text}
    (hlines : inventory.lines? name = some lines) (hsame : ∀ other ∈ others, ∃ line, SameHost line other) :
    (inventory.set name others).WellFormed := by
  refine h.set (h.names _ (Inventory.mem_of_lines? hlines)) fun other hother => ?_
  obtain ⟨line, hline⟩ := hsame other hother
  exact ⟨hline.isLine, hline.noHeader⟩

theorem exists_of_forall₂ {lines others : List Text} (h : List.Forall₂ SameHost lines others) :
    ∀ other ∈ others, ∃ line, SameHost line other := by
  induction h with
  | nil => exact fun other hother => absurd hother List.not_mem_nil
  | cons hfirst _ ih =>
      intro other hother
      rcases List.mem_cons.mp hother with rfl | hother
      · exact ⟨_, hfirst⟩
      · exact ih other hother

theorem prepareNfs_spec {prepared : ValuesByHost} (hprepared : AllValid prepared) (h : inventory.WellFormed) :
    (prepareNfs prepared inventory).WellFormed ∧
      ∀ name, name ≠ "nfs".toList → (prepareNfs prepared inventory).lines? name = inventory.lines? name := by
  unfold prepareNfs
  split
  · exact ⟨h, fun _ _ => rfl⟩
  · rename_i lines hlines
    refine ⟨h.setHosts hlines fun other hother => ?_, fun name hname => Inventory.lines?_set_of_ne hname⟩
    obtain ⟨line, hline, rfl⟩ := List.mem_map.mp hother
    exact ⟨line, prepareNfsLine_spec hprepared (h.lines _ (Inventory.mem_of_lines? hlines) line hline)⟩

/-- **A prepared inventory can be read, and its compute sections have the hosts they had.** -/
theorem prepareLocalBlockVolumeInventory_spec (hcloud : cloud.Valid) (h : inventory.WellFormed) {text : Text}
    (hprepared : prepareLocalBlockVolumeInventory cloud (writeInventory inventory) = .ok text) :
    ∃ after : Inventory, after.WellFormed ∧ text = writeInventory after ∧
      SameHosts "compute_configured".toList inventory after ∧ SameHosts "compute_to_add".toList inventory after := by
  unfold prepareLocalBlockVolumeInventory at hprepared
  rw [parse_write h] at hprepared
  dsimp only at hprepared
  split at hprepared
  · cases hprepared
  · cases hprepared
  · rename_i clusterName _ _
    split at hprepared
    · cases hprepared
    · rename_i configured hconfigured
      obtain ⟨first, hfirst, hprepared⟩ := bind_eq_ok hprepared
      split at hprepared
      · cases hprepared
      · rename_i toAdd htoAdd
        obtain ⟨second, hsecond, hprepared⟩ := bind_eq_ok hprepared
        obtain rfl := Except.ok.inj hprepared
        have hne : "compute_to_add".toList ≠ "compute_configured".toList := by decide
        rw [Inventory.lines?_set_of_ne hne] at htoAdd
        have hempty : AllValid [] := fun entry hentry => absurd hentry List.not_mem_nil
        obtain ⟨hvalid, hconfiguredSame⟩ :=
          prepareLines_spec hcloud (h.lines _ (Inventory.mem_of_lines? hconfigured)) hempty hfirst
        obtain ⟨hvalid, htoAddSame⟩ :=
          prepareLines_spec hcloud (h.lines _ (Inventory.mem_of_lines? htoAdd)) hvalid hsecond
        have hedited := h.setHosts hconfigured (exists_of_forall₂ hconfiguredSame)
        have hboth := hedited.setHosts ((Inventory.lines?_set_of_ne hne).trans htoAdd)
          (exists_of_forall₂ htoAddSame)
        obtain ⟨hwellFormed, hlines⟩ := prepareNfs_spec hvalid hboth
        refine ⟨_, hwellFormed, rfl, ⟨configured, first.2, hconfigured, ?_, hconfiguredSame⟩,
          ⟨toAdd, second.2, htoAdd, ?_, htoAddSame⟩⟩
        · rw [hlines _ (by decide), Inventory.lines?_set_of_ne hne.symm, Inventory.lines?_set_self]
        · rw [hlines _ (by decide), Inventory.lines?_set_self]

end

end OciHpc.Resize
