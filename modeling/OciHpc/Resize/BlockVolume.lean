import OciHpc.Resize.Compartment

/-!
# The local Block Volume of a node

The settings of the inventory, the tags and names of a launch, and the three validators of `resize.py`.

* `getLocalBlockVolumeConfig` : the settings of the inventory, with `validateMountPoint`;
* `getLaunchInstanceDetails` : what a launch asks for;
* `getInstanceLocalBlockVolumeConfig` : the settings read back from the tags;
* `getLocalBlockVolumeAttachment`, `getExclusiveManagedAttachment` : the validators of the attachment;
* `launch_and_validation_agree` : what is launched passes them all.
-/

namespace OciHpc.Resize

/-! ## The settings of the inventory -/

/-- `get_inventory_variable`, without its default. -/
def getInventoryVariable (inventory : Inventory) (name : Text) : Option Text :=
  ((inventory.lines? "all:vars".toList).getD []).findSome? fun line =>
    let parts := PyStr.partition '=' line
    if parts.2.1 && strip parts.1 == name then some (strip parts.2.2) else none

/-- `str.lower`, on characters. -/
def lower (s : Text) : Text := s.map Char.toLower

def parseBool (value : Text) : Except String Bool :=
  let normalized := lower (strip value)
  if normalized ∈ ["true".toList, "yes".toList, "1".toList, "on".toList] then .ok true
  else if normalized ∈ ["false".toList, "no".toList, "0".toList, "off".toList, []] then .ok false
  else .error ("Invalid boolean value: " ++ String.ofList value)

/-- `s.rstrip("/")`. -/
def rstripSlash (s : Text) : Text := (s.reverse.dropWhile (· = '/')).reverse

/-- The components `os.path.normpath` keeps, last first. -/
def normComponents (absolute : Bool) : List Text → List Text → List Text
  | kept, [] => kept
  | kept, component :: rest =>
      if component = [] ∨ component = ['.'] then normComponents absolute kept rest
      else if component ≠ ['.', '.'] ∨ (absolute = false ∧ kept = []) ∨ kept.head? = some ['.', '.'] then
        normComponents absolute (component :: kept) rest
      else normComponents absolute kept.tail rest

/-- `os.path.normpath`. -/
def normpath (path : Text) : Text :=
  let slashes := if "//".toList.isPrefixOf path && !"///".toList.isPrefixOf path then "//".toList
    else if "/".toList.isPrefixOf path then "/".toList else []
  let normalized := slashes ++ joinWith '/' (normComponents (!slashes.isEmpty) [] (splitAt '/' path)).reverse
  if normalized.isEmpty then ['.'] else normalized

/-- An ASCII letter or digit, a dot, an underscore, a slash or a hyphen. -/
def isPathChar (c : Char) : Bool := c.isAlphanum || c == '.' || c == '_' || c == '/' || c == '-'

/-- The pattern of a mount point: a slash and then at least one of these characters. -/
def matchesPath (s : Text) : Bool :=
  match s with
  | '/' :: rest => !rest.isEmpty && rest.all isPathChar
  | _ => false

/-- A variable of the inventory that names a directory, or its default where it is missing or empty. -/
def directoryVariable (inventory : Inventory) (name default : Text) : Text :=
  match getInventoryVariable inventory name with
  | none => rstripSlash default
  | some value => rstripSlash (if value.isEmpty then default else value)

def reservedMountPoints (inventory : Inventory) : List Text :=
  [directoryVariable inventory "nvme_path".toList "/mnt/localdisk".toList,
    directoryVariable inventory "scratch_nfs_path".toList "/nfs/scratch".toList,
    directoryVariable inventory "cluster_nfs_path".toList "/nfs/cluster".toList,
    "/mnt/localdisk/nfs".toList, "/home".toList,
    directoryVariable inventory "nfs_target_path".toList "/share".toList]

/-- One of the two paths is the other, or lies in it. -/
def pathsOverlap (normalized reserved : Text) : Bool :=
  normalized == reserved || (reserved ++ ['/']).isPrefixOf normalized || (normalized ++ ['/']).isPrefixOf reserved

/-- `validate_local_block_volume_mount_point`. -/
def validateMountPoint (mountPoint : Text) (inventory : Inventory) : Except String Text :=
  let normalized := rstripSlash mountPoint
  let components := (splitAt '/' normalized).drop 1
  if !matchesPath mountPoint || mountPoint.length > 200 || normalized == [] || normalized == ['/'] ||
      components.any (fun component => component == [] || component == ['.'] || component == ['.', '.']) ||
      normpath normalized != normalized then
    .error "local_block_volume_mount_point must be a canonical absolute path other than /"
  else
    match (reservedMountPoints inventory).find? (pathsOverlap normalized) with
    | some reserved => .error ("local_block_volume_mount_point conflicts with reserved path " ++ String.ofList reserved)
    | none => .ok normalized

structure BlockVolumeConfig where
  enabled : Bool
  sizeInGbs : Int
  vpusPerGb : Nat
  mountPoint : Text
  deriving DecidableEq, Repr

def performanceValues : List (Text × Nat) :=
  [("0.  Lower performance".toList, 0), ("10. Balanced performance".toList, 10), ("20. High Performance".toList, 20)]

def getLocalBlockVolumeConfig (inventory : Inventory) : Except String BlockVolumeConfig := do
  let enabled ← parseBool ((getInventoryVariable inventory "use_local_block_volume".toList).getD "false".toList)
  let size := (getInventoryVariable inventory "local_block_volume_size".toList).getD "1000".toList
  let performance := (getInventoryVariable inventory "local_block_volume_performance".toList).getD
    "10. Balanced performance".toList
  let mountPoint := (getInventoryVariable inventory "local_block_volume_mount_point".toList).getD "/scratch".toList
  match PyStr.int size with
  | none => .error ("invalid literal for int() with base 10: '" ++ String.ofList size ++ "'")
  | some sizeInGbs =>
      match performanceValues.lookup performance with
      | none => .error ("Invalid local_block_volume_performance: " ++ String.ofList performance)
      | some vpusPerGb =>
          if sizeInGbs < 50 then .error "local_block_volume_size must be at least 50 GB"
          else
            match validateMountPoint mountPoint inventory with
            | .error e => .error e
            | .ok _ => .ok ⟨enabled, sizeInGbs, vpusPerGb, mountPoint⟩

/-! ## A launch -/

def localBlockVolumeDevice : String := "/dev/oracleoci/oraclevdc"

def tagEnabled : String := "oci_hpc_local_block_volume"

def tagSize : String := "oci_hpc_local_block_volume_size"

def tagVpus : String := "oci_hpc_local_block_volume_vpus"

def tagMount : String := "oci_hpc_local_block_volume_mount"

/-- `str` of a number. -/
def strInt : Int → Text
  | .ofNat n => (Nat.repr n).toList
  | .negSucc n => '-' :: (Nat.repr (n + 1)).toList

structure LaunchVolume where
  device : String
  attachmentName : Text
  volumeName : Text
  sizeInGbs : Int
  vpusPerGb : Nat
  deriving DecidableEq, Repr

structure LaunchDetails where
  displayName : Text
  freeformTags : List (String × String)
  volume : Option LaunchVolume

def localScratch (name : Text) : Text := name ++ "-local-scratch".toList

def localScratchAttachment (name : Text) : Text := name ++ "-local-scratch-attachment".toList

/-- `getLaunchInstanceDetails`, as far as the local Block Volume goes. -/
def getLaunchInstanceDetails (template : Instance) (maxPreviousIndex : Int) (index : Nat) (config : BlockVolumeConfig) :
    LaunchDetails :=
  let newDisplayName := launchName template.displayName.toList maxPreviousIndex index
  { displayName := newDisplayName
    freeformTags :=
      setKey tagMount (String.ofList config.mountPoint) (setKey tagVpus (String.ofList (strInt config.vpusPerGb))
        (setKey tagSize (String.ofList (strInt config.sizeInGbs))
          (setKey tagEnabled (if config.enabled then "true" else "false") template.freeformTags)))
    volume :=
      if config.enabled then
        some ⟨localBlockVolumeDevice, localScratchAttachment newDisplayName, localScratch newDisplayName,
          config.sizeInGbs, config.vpusPerGb⟩
      else none }

/-! ## The tags of an instance -/

def tagKeys : List String := [tagEnabled, tagMount, tagSize, tagVpus]

structure VolumeSettings where
  sizeInGbs : Int
  vpusPerGb : Int
  mountPoint : Text
  deriving DecidableEq, Repr

/-- `re.fullmatch(r"[1-9][0-9]*", s)`. -/
def matchesSize (s : Text) : Bool :=
  match s with
  | [] => false
  | c :: rest => c.isDigit && c != '0' && rest.all Char.isDigit

/-- `tags.get("parent_cluster") or tags.get("cluster_name")`. -/
def parentTag (tags : List (String × String)) : Option String :=
  match tags.lookup "parent_cluster" with
  | some parent => if parent = "" then tags.lookup "cluster_name" else some parent
  | none => tags.lookup "cluster_name"

/-- `str(tags[key]).strip()`. -/
def tagText (tags : List (String × String)) (key : String) : Text := strip ((tags.lookup key).getD "").toList

/-- `get_instance_local_block_volume_config`; `none` is `{"enabled": False}`. -/
def getInstanceLocalBlockVolumeConfig (candidate : Instance) (inventory : Inventory) (expectedClusterName : String) :
    Except String (Option VolumeSettings) :=
  let tags := candidate.freeformTags
  let instanceText := "Instance " ++ candidate.id
  if tagKeys.all fun key => (tags.lookup key).isNone then .ok none
  else if (tags.lookup tagEnabled).isNone then .error (instanceText ++ " has incomplete local Block Volume tags")
  else
    let enabledValue := lower (tagText tags tagEnabled)
    if enabledValue ≠ "true".toList ∧ enabledValue ≠ "false".toList then
      .error (instanceText ++ " has an invalid " ++ tagEnabled ++ " tag")
    else if enabledValue = "false".toList then .ok none
    else
      let missing := tagKeys.filter fun key => (tags.lookup key).isNone
      if missing ≠ [] then
        .error (instanceText ++ " is missing local Block Volume tags: " ++ PyStr.join ", " missing)
      else if parentTag tags ≠ some expectedClusterName then
        .error (instanceText ++ " does not belong to cluster " ++ expectedClusterName)
      else
        match matchesSize (tagText tags tagSize), PyStr.int (tagText tags tagSize) with
        | true, some size =>
            if size < 50 then .error (instanceText ++ " has an invalid local Block Volume size tag")
            else if tagText tags tagVpus ∉ ["0".toList, "10".toList, "20".toList] then
              .error (instanceText ++ " has an invalid local Block Volume VPUs tag")
            else
              match validateMountPoint (tagText tags tagMount) inventory with
              | .error e => .error (instanceText ++ " has an invalid local Block Volume mount tag: " ++ e)
              | .ok _ => .ok (some ⟨size, (PyStr.int (tagText tags tagVpus)).getD 0, tagText tags tagMount⟩)
        | _, _ => .error (instanceText ++ " has an invalid local Block Volume size tag")

/-! ## The attachment -/

structure VolumeAttachment where
  device : Option String
  lifecycleState : String
  attachmentType : Option String
  instanceId : String
  displayName : Option String
  isVolumeCreatedDuringLaunch : Option Bool
  volumeId : String
  ipv4 : Option String
  port : Option Int
  iqn : Option String
  deriving DecidableEq, Repr

structure Volume where
  displayName : String
  freeformTags : List (String × String)
  sizeInGbs : Int
  vpusPerGb : Int
  deriving DecidableEq, Repr

/-- A `RuntimeError`, or an error of OCI that is passed on. -/
inductive VolumeError
  | runtime (message : String)
  | service
  deriving DecidableEq, Repr

/-- What one turn of the loop finds: the attachments of the instance, and its volumes. -/
structure Poll where
  attachments : List VolumeAttachment
  getVolume : String → Except Failure Volume

def onVdc (attachment : VolumeAttachment) : Bool :=
  attachment.device == some localBlockVolumeDevice && attachment.lifecycleState != "DETACHED"

/-- `not (attachment.ipv4 and ...)`. -/
def isIncomplete (attachment : VolumeAttachment) : Bool :=
  attachment.ipv4.getD "" == "" || decide (attachment.port.getD 0 ≤ 0) || attachment.iqn.getD "" == ""

/-- The checks of a volume, `clusterScope` saying whose names it carries. -/
def checkVolume (instanceId clusterName : String) (clusterScope : Bool) (expectedName : String)
    (settings : VolumeSettings) (volume : Volume) : Except VolumeError Unit :=
  let parent := parentCluster volume.freeformTags
  let purpose := volume.freeformTags.lookup "oci_hpc_local_scratch"
  if volume.displayName ≠ expectedName then
    .error (.runtime ("The local scratch volume has an unexpected display name for instance " ++ instanceId))
  else if clusterScope ∧ (parent ≠ some clusterName ∨ purpose ≠ some "true") then
    .error (.runtime "The cluster-managed local scratch volume has invalid ownership tags")
  else if clusterScope = false ∧ parent ≠ none ∧ parent ≠ some clusterName then
    .error (.runtime ("The local scratch volume parent tag does not match cluster " ++ clusterName))
  else if clusterScope = false ∧ purpose ≠ none ∧ purpose ≠ some "true" then
    .error (.runtime "The local scratch volume purpose tag is invalid")
  else if volume.sizeInGbs ≠ settings.sizeInGbs ∨ volume.vpusPerGb ≠ settings.vpusPerGb then
    .error (.runtime ("The local scratch volume does not match its instance tags for instance " ++ instanceId))
  else .ok ()

/-- The one attachment found on the device: `none` where it is not ready yet. -/
def checkAttachment (candidate : Instance) (clusterName : String) (settings : VolumeSettings) (poll : Poll)
    (attachment : VolumeAttachment) : Except VolumeError (Option VolumeAttachment) :=
  let scratch := fun name : String => String.ofList (localScratch name.toList)
  let scratchAttachment := fun name : String => String.ofList (localScratchAttachment name.toList)
  let clusterScope := attachment.displayName == some (scratchAttachment clusterName)
  if PyStr.lower (attachment.attachmentType.getD "") ≠ "iscsi" then
    .error (.runtime ("The vdc attachment is not iSCSI for instance " ++ candidate.id))
  else if attachment.instanceId ≠ candidate.id then
    .error (.runtime "The local Block Volume attachment belongs to another instance")
  else if clusterScope = false ∧ attachment.displayName ≠ some (scratchAttachment candidate.displayName) then
    .error (.runtime ("The vdc attachment has an unexpected display name for instance " ++ candidate.id))
  else if attachment.lifecycleState ≠ "ATTACHED" then .ok none
  else if clusterScope = false ∧ attachment.isVolumeCreatedDuringLaunch ≠ some true then
    .error (.runtime ("The local scratch volume was not created with instance " ++ candidate.id))
  else
    match poll.getVolume attachment.volumeId with
    | .error .notFound => .ok none
    | .error .other => .error .service
    | .ok volume =>
        match checkVolume candidate.id clusterName clusterScope
          (if clusterScope then scratch clusterName else scratch candidate.displayName) settings volume with
        | .error e => .error e
        | .ok _ => .ok (if isIncomplete attachment then none else some attachment)

/-- `get_local_block_volume_attachment`, with the turns of its loop up to the deadline. -/
def getLocalBlockVolumeAttachment (candidate : Instance) (clusterName : String) (expected : Option VolumeSettings)
    (polls : List Poll) : Except VolumeError VolumeAttachment :=
  match expected with
  | none => .error (.runtime ("Instance " ++ candidate.id ++ " does not expect a local Block Volume"))
  | some settings => pollFor settings polls
where
  pollFor (settings : VolumeSettings) : List Poll → Except VolumeError VolumeAttachment
    | [] => .error (.runtime
        ("The local Block Volume attachment did not become ready for instance " ++ candidate.id))
    | poll :: rest =>
        match poll.attachments.filter onVdc with
        | [] => pollFor settings rest
        | [attachment] =>
            match checkAttachment candidate clusterName settings poll attachment with
            | .error e => .error e
            | .ok (some attachment) => .ok attachment
            | .ok none => pollFor settings rest
        | _ => .error (.runtime
            ("Multiple local Block Volume attachments were found for instance " ++ candidate.id))

/-- `get_exclusive_managed_local_block_volume_attachment`, which polls once. -/
def getExclusiveManagedAttachment (candidate : Instance) (inventory : Inventory) (clusterName : String)
    (attachments : List VolumeAttachment) (poll : Poll) : Except VolumeError (Option VolumeAttachment) :=
  match getInstanceLocalBlockVolumeConfig candidate inventory clusterName with
  | .error e => .error (.runtime e)
  | .ok none => .ok none
  | .ok (some settings) =>
      if (attachments.filter onVdc).isEmpty then .ok none
      else
        match getLocalBlockVolumeAttachment candidate clusterName (some settings) [poll] with
        | .error e => .error e
        | .ok managed =>
            let launchCreated := attachments.filter fun attachment =>
              attachment.lifecycleState != "DETACHED" && attachment.isVolumeCreatedDuringLaunch == some true
            if managed.isVolumeCreatedDuringLaunch = some true ∧ launchCreated.length > 1 then
              .error (.runtime ("Refusing to terminate instance " ++ candidate.id ++ " because deleting its managed " ++
                "local scratch volume would also delete another launch-created data volume"))
            else .ok (some managed)

/-! ## The attachment that is found -/

theorem eq_of_checkAttachment {candidate : Instance} {expected : String} {settings : VolumeSettings} {poll : Poll}
    {attachment checked : VolumeAttachment}
    (h : checkAttachment candidate expected settings poll attachment = .ok (some checked)) : checked = attachment := by
  unfold checkAttachment at h
  dsimp only at h
  repeat' split at h
  all_goals first
    | exact (Option.some.inj (Except.ok.inj h)).symm
    | cases h

/-- The attachment that is answered was listed on the device. -/
theorem mem_of_getLocalBlockVolumeAttachment {candidate : Instance} {expected : String} {settings : VolumeSettings}
    {polls : List Poll} {attachment : VolumeAttachment}
    (h : getLocalBlockVolumeAttachment candidate expected (some settings) polls = .ok attachment) :
    ∃ poll ∈ polls, attachment ∈ poll.attachments.filter onVdc := by
  rw [getLocalBlockVolumeAttachment] at h
  induction polls with
  | nil => cases h
  | cons poll rest ih =>
      rw [getLocalBlockVolumeAttachment.pollFor] at h
      have hrest : getLocalBlockVolumeAttachment.pollFor candidate expected settings rest = .ok attachment →
          ∃ found ∈ poll :: rest, attachment ∈ found.attachments.filter onVdc := fun hfound => by
        obtain ⟨later, hlater, hmem⟩ := ih hfound
        exact ⟨later, List.mem_cons_of_mem _ hlater, hmem⟩
      split at h
      · exact hrest h
      · rename_i only honly
        split at h
        · cases h
        · rename_i checked hchecked
          obtain rfl := Except.ok.inj h
          have hmem : only ∈ poll.attachments.filter onVdc := honly ▸ List.mem_cons_self
          exact ⟨poll, List.mem_cons_self, eq_of_checkAttachment hchecked ▸ hmem⟩
        · exact hrest h
      · cases h

/-! ## What is promised -/

/-- The settings of the inventory, where the volume is enabled. -/
def BlockVolumeConfig.settings (config : BlockVolumeConfig) : Option VolumeSettings :=
  if config.enabled then some ⟨config.sizeInGbs, config.vpusPerGb, config.mountPoint⟩ else none

/-- The instance has the name and the tags that were asked for. -/
structure LaunchedAs (details : LaunchDetails) (launched : Instance) : Prop where
  displayName : launched.displayName.toList = details.displayName
  freeformTags : launched.freeformTags = details.freeformTags

/-- The iSCSI attachment of the launch is there with the names that were asked for, and so is its volume; nothing
else claims the volume. -/
structure AttachedAs (requested : LaunchVolume) (clusterName : String) (launched : Instance)
    (attachment : VolumeAttachment) (volume : Volume) : Prop where
  device : attachment.device = some requested.device
  attached : attachment.lifecycleState = "ATTACHED"
  iscsi : PyStr.lower (attachment.attachmentType.getD "") = "iscsi"
  instanceId : attachment.instanceId = launched.id
  displayName : attachment.displayName = some (String.ofList requested.attachmentName)
  createdDuringLaunch : attachment.isVolumeCreatedDuringLaunch = some true
  ipv4 : attachment.ipv4.getD "" ≠ ""
  port : 0 < attachment.port.getD 0
  iqn : attachment.iqn.getD "" ≠ ""
  volumeName : volume.displayName = String.ofList requested.volumeName
  sizeInGbs : volume.sizeInGbs = requested.sizeInGbs
  vpusPerGb : volume.vpusPerGb = requested.vpusPerGb
  owner : parentCluster volume.freeformTags = none ∨ parentCluster volume.freeformTags = some clusterName
  purpose : volume.freeformTags.lookup "oci_hpc_local_scratch" = none ∨
    volume.freeformTags.lookup "oci_hpc_local_scratch" = some "true"

/-- The instance has no other attachment created at launch. OCI gives a device to one attachment at a time. -/
structure OnlyLaunchCreated (attachments : List VolumeAttachment) (attachment : VolumeAttachment)
    (others : List VolumeAttachment) : Prop where
  split : attachments.Perm (attachment :: others)
  notLaunchCreated : ∀ other ∈ others, other.lifecycleState ≠ "DETACHED" →
    other.isVolumeCreatedDuringLaunch ≠ some true
  deviceTaken : ∀ other ∈ others, other.lifecycleState ≠ "DETACHED" → other.device ≠ attachment.device

/-! ## Texts read back -/

theorem strip_eq_self {s : Text} (h : ∀ c ∈ s, PyStr.isSpace c = false) : strip s = s := by
  have hkeep : ∀ l : Text, (∀ c ∈ l, PyStr.isSpace c = false) → l.dropWhile PyStr.isSpace = l := by
    intro l hl
    cases l with
    | nil => rfl
    | cons c rest =>
        rw [List.dropWhile_cons_of_neg]
        rw [hl c List.mem_cons_self]
        exact Bool.false_ne_true
  rw [strip, lstrip, hkeep s h, rstrip, hkeep s.reverse fun c hc => h c (List.mem_reverse.mp hc), List.reverse_reverse]

theorem not_isSpace_of_isAlphanum {c : Char} (h : c.isAlphanum = true) : PyStr.isSpace c = false := by
  have hrange : (65 ≤ c.toNat ∧ c.toNat ≤ 90) ∨ (97 ≤ c.toNat ∧ c.toNat ≤ 122) ∨ (48 ≤ c.toNat ∧ c.toNat ≤ 57) := by
    have hkind : ((decide ('A'.val ≤ c.val ∧ c.val ≤ 'Z'.val) ||
        (decide ('a'.val ≤ c.val) && decide (c.val ≤ 'z'.val))) || c.isDigit) = true := h
    rw [Bool.or_eq_true, Bool.or_eq_true, Bool.and_eq_true, decide_eq_true_eq, decide_eq_true_eq,
      decide_eq_true_eq] at hkind
    rcases hkind with (hupper | hlower) | hdigit
    · exact .inl ⟨UInt32.le_iff_toNat_le.mp hupper.1, UInt32.le_iff_toNat_le.mp hupper.2⟩
    · exact .inr (.inl ⟨UInt32.le_iff_toNat_le.mp hlower.1, UInt32.le_iff_toNat_le.mp hlower.2⟩)
    · exact .inr (.inr (PyStr.isDigit_range hdigit))
  unfold PyStr.isSpace
  simp only [Bool.or_eq_false_iff, Bool.and_eq_false_iff, decide_eq_false_iff_not, beq_eq_false_iff_ne]
  omega

theorem not_isSpace_of_isPathChar {c : Char} (h : isPathChar c = true) : PyStr.isSpace c = false := by
  simp only [isPathChar, Bool.or_eq_true, beq_iff_eq] at h
  obtain (((h | rfl) | rfl) | rfl) | rfl := h
  · exact not_isSpace_of_isAlphanum h
  all_goals decide

theorem not_isSpace_of_matchesPath {s : Text} (h : matchesPath s = true) : ∀ c ∈ s, PyStr.isSpace c = false := by
  unfold matchesPath at h
  split at h
  · rename_i rest
    intro c hc
    rcases List.mem_cons.mp hc with rfl | hc
    · decide
    · exact not_isSpace_of_isPathChar (List.all_eq_true.mp (Bool.and_eq_true_iff.mp h).2 c hc)
  · cases h

theorem strip_of_matchesPath {s : Text} (h : matchesPath s = true) : strip s = s :=
  strip_eq_self (not_isSpace_of_matchesPath h)

theorem not_isSpace_of_mem_repr (n : Nat) : ∀ c ∈ (Nat.repr n).toList, PyStr.isSpace c = false := by
  intro c hc
  rw [Nat.toList_repr] at hc
  exact PyStr.not_isSpace_of_isDigit (Nat.isDigit_of_mem_toDigits (by decide) (by decide) hc)

theorem noSpace_strInt (n : Int) : ∀ c ∈ strInt n, PyStr.isSpace c = false := by
  cases n with
  | ofNat n => exact not_isSpace_of_mem_repr n
  | negSucc n =>
      intro c hc
      rcases List.mem_cons.mp hc with rfl | hc
      · decide
      · exact not_isSpace_of_mem_repr _ c hc

theorem strip_repr (n : Nat) : strip (Nat.repr n).toList = (Nat.repr n).toList := strip_eq_self (not_isSpace_of_mem_repr n)

theorem matchesSize_append {s : Text} {c : Char} (hs : matchesSize s = true) (hc : c.isDigit = true) :
    matchesSize (s ++ [c]) = true := by
  cases s with
  | nil => cases hs
  | cons first rest =>
      simp only [matchesSize, Bool.and_eq_true] at hs
      simp only [List.cons_append, matchesSize, List.all_append, List.all_cons, List.all_nil, Bool.and_true,
        Bool.and_eq_true]
      exact ⟨hs.1, hs.2, hc⟩

/-- A positive number is written without a leading zero. -/
theorem matchesSize_repr {n : Nat} (h : 0 < n) : matchesSize (Nat.repr n).toList = true := by
  rw [Nat.toList_repr]
  induction n using Nat.strongRecOn with
  | ind n ih =>
      by_cases hsmall : n < 10
      · rw [Nat.toDigits_of_lt_base hsmall]
        have hall : ∀ n < 10, 0 < n → matchesSize [Nat.digitChar n] = true := by decide
        exact hall n hsmall h
      · rw [Nat.toDigits_of_base_le (by decide) (by omega)]
        have hdigit : ∀ d < 10, (Nat.digitChar d).isDigit = true := by decide
        exact matchesSize_append (ih (n / 10) (by omega) (by omega)) (hdigit _ (Nat.mod_lt _ (by decide)))

/-! ## The settings that are accepted -/

theorem matchesPath_of_validateMountPoint {mountPoint normalized : Text} {inventory : Inventory}
    (h : validateMountPoint mountPoint inventory = .ok normalized) : matchesPath mountPoint = true := by
  unfold validateMountPoint at h
  dsimp only at h
  split at h
  · cases h
  · rename_i hvalid
    simp only [Bool.or_eq_true, not_or, Bool.not_eq_true', Bool.not_eq_false] at hvalid
    exact hvalid.1.1.1.1.1

theorem vpusPerGb_of_performance {performance : Text} {vpusPerGb : Nat}
    (h : performanceValues.lookup performance = some vpusPerGb) : vpusPerGb = 0 ∨ vpusPerGb = 10 ∨ vpusPerGb = 20 := by
  unfold performanceValues at h
  simp only [List.lookup_cons, List.lookup_nil] at h
  split at h
  · exact .inl (Option.some.inj h).symm
  · split at h
    · exact .inr (.inl (Option.some.inj h).symm)
    · split at h
      · exact .inr (.inr (Option.some.inj h).symm)
      · cases h

/-- What `get_local_block_volume_config` accepts. -/
structure AcceptedConfig (inventory : Inventory) (config : BlockVolumeConfig) : Prop where
  sizeInGbs : 50 ≤ config.sizeInGbs
  vpusPerGb : config.vpusPerGb = 0 ∨ config.vpusPerGb = 10 ∨ config.vpusPerGb = 20
  mountPoint : ∃ normalized, validateMountPoint config.mountPoint inventory = .ok normalized

theorem acceptedConfig_of_ok {inventory : Inventory} {config : BlockVolumeConfig}
    (h : getLocalBlockVolumeConfig inventory = .ok config) : AcceptedConfig inventory config := by
  unfold getLocalBlockVolumeConfig at h
  cases henabled : parseBool ((getInventoryVariable inventory "use_local_block_volume".toList).getD "false".toList) with
  | error e =>
      rw [henabled] at h
      cases h
  | ok enabled =>
      rw [henabled] at h
      dsimp only [Bind.bind, Except.bind] at h
      split at h
      · cases h
      · split at h
        · cases h
        · rename_i vpusPerGb hvpus
          split at h
          · cases h
          · rename_i hsize
            split at h
            · cases h
            · rename_i normalized hmount
              obtain rfl := Except.ok.inj h
              exact ⟨by simpa using hsize, vpusPerGb_of_performance hvpus, normalized, hmount⟩

/-! ## The tags are read back -/

section
variable {template launched : Instance} {maxIndex : Int} {index : Nat} {config : BlockVolumeConfig}
  {inventory : Inventory} {clusterName : String}

theorem lookup_launchTags (hlaunched : LaunchedAs (getLaunchInstanceDetails template maxIndex index config) launched) :
    launched.freeformTags.lookup tagEnabled = some (if config.enabled then "true" else "false") ∧
    launched.freeformTags.lookup tagSize = some (String.ofList (strInt config.sizeInGbs)) ∧
    launched.freeformTags.lookup tagVpus = some (String.ofList (strInt config.vpusPerGb)) ∧
    launched.freeformTags.lookup tagMount = some (String.ofList config.mountPoint) := by
  rw [hlaunched.freeformTags]
  unfold getLaunchInstanceDetails
  dsimp only
  refine ⟨?_, ?_, ?_, lookup_setKey_self _ _ _⟩
  · rw [lookup_setKey_of_ne (by decide), lookup_setKey_of_ne (by decide), lookup_setKey_of_ne (by decide),
      lookup_setKey_self]
  · rw [lookup_setKey_of_ne (by decide), lookup_setKey_of_ne (by decide), lookup_setKey_self]
  · rw [lookup_setKey_of_ne (by decide), lookup_setKey_self]

/-- The tags of the launch leave the parent as it is. -/
theorem parentTag_launched (hlaunched : LaunchedAs (getLaunchInstanceDetails template maxIndex index config) launched) :
    parentTag launched.freeformTags = parentTag template.freeformTags := by
  have hkeep : ∀ key, key ∉ tagKeys → launched.freeformTags.lookup key = template.freeformTags.lookup key := by
    intro key hkey
    simp only [tagKeys, List.mem_cons, List.not_mem_nil, or_false, not_or] at hkey
    rw [hlaunched.freeformTags]
    unfold getLaunchInstanceDetails
    dsimp only
    rw [lookup_setKey_of_ne hkey.2.1, lookup_setKey_of_ne hkey.2.2.2, lookup_setKey_of_ne hkey.2.2.1,
      lookup_setKey_of_ne hkey.1]
  unfold parentTag
  rw [hkeep _ (by decide), hkeep _ (by decide)]

theorem tagText_of_lookup {tags : List (String × String)} {key : String} {value : Text}
    (h : tags.lookup key = some (String.ofList value)) (hstrip : strip value = value) : tagText tags key = value := by
  rw [tagText, h, Option.getD_some, String.toList_ofList, hstrip]

/-- **The tags of a launch are decoded to the settings of the inventory.** -/
theorem decode_launched (hconfig : AcceptedConfig inventory config)
    (hparent : parentTag template.freeformTags = some clusterName)
    (hlaunched : LaunchedAs (getLaunchInstanceDetails template maxIndex index config) launched) :
    getInstanceLocalBlockVolumeConfig launched inventory clusterName = .ok config.settings := by
  obtain ⟨henabled, hsize, hvpus, hmount⟩ := lookup_launchTags hlaunched
  have hsome : ∀ key ∈ tagKeys, (launched.freeformTags.lookup key).isNone = false := by
    intro key hkey
    simp only [tagKeys, List.mem_cons, List.not_mem_nil, or_false] at hkey
    obtain rfl | rfl | rfl | rfl := hkey
    · rw [henabled]; rfl
    · rw [hmount]; rfl
    · rw [hsize]; rfl
    · rw [hvpus]; rfl
  have hall : ¬ (tagKeys.all fun key => (launched.freeformTags.lookup key).isNone) = true := fun hnone => by
    have hfirst := List.all_eq_true.mp hnone tagEnabled List.mem_cons_self
    rw [hsome tagEnabled List.mem_cons_self] at hfirst
    cases hfirst
  have hmissing : (tagKeys.filter fun key => (launched.freeformTags.lookup key).isNone) = [] :=
    List.filter_eq_nil_iff.mpr fun key hkey => by
      rw [hsome key hkey]
      exact Bool.false_ne_true
  unfold getInstanceLocalBlockVolumeConfig
  dsimp only
  rw [if_neg hall, hsome tagEnabled List.mem_cons_self, if_neg Bool.false_ne_true]
  cases hon : config.enabled with
  | false =>
      have hoff : lower (tagText launched.freeformTags tagEnabled) = "false".toList := by
        rw [tagText, henabled, hon]
        decide
      rw [hoff, if_neg (by decide), if_pos rfl, BlockVolumeConfig.settings, hon,
        if_neg Bool.false_ne_true]
  | true =>
      have htrue : lower (tagText launched.freeformTags tagEnabled) = "true".toList := by
        rw [tagText, henabled, hon]
        decide
      obtain ⟨normalized, hvalid⟩ := hconfig.mountPoint
      obtain ⟨n, hn⟩ := Int.eq_ofNat_of_zero_le (by have := hconfig.sizeInGbs; omega : 0 ≤ config.sizeInGbs)
      have hpos : 50 ≤ n := by
        have := hconfig.sizeInGbs
        omega
      have hsizeValue : tagText launched.freeformTags tagSize = (Nat.repr n).toList := by
        refine tagText_of_lookup ?_ (strip_repr n)
        rw [hsize, hn]
        rfl
      have hvpusValue : tagText launched.freeformTags tagVpus =
          (Nat.repr config.vpusPerGb).toList := tagText_of_lookup hvpus (strip_repr _)
      have hmountValue : tagText launched.freeformTags tagMount = config.mountPoint :=
        tagText_of_lookup hmount (strip_of_matchesPath (matchesPath_of_validateMountPoint hvalid))
      have hvpusIn : (Nat.repr config.vpusPerGb).toList ∈ ["0".toList, "10".toList, "20".toList] := by
        obtain h | h | h := hconfig.vpusPerGb <;> rw [h] <;> decide
      rw [htrue, if_neg (by decide), if_neg (by decide), hmissing, if_neg (by simp),
        parentTag_launched hlaunched, hparent, if_neg (by simp), hsizeValue, hvpusValue, hmountValue,
        matchesSize_repr (by omega), PyStr.int_repr, PyStr.int_repr]
      dsimp only
      rw [if_neg (by omega), if_neg (not_not_intro hvpusIn), hvalid, BlockVolumeConfig.settings, hon, if_pos rfl, hn]
      rfl

/-! ## The attachment is accepted -/

variable {requested : LaunchVolume} {attachment : VolumeAttachment} {volume : Volume}

theorem requested_eq (h : (getLaunchInstanceDetails template maxIndex index config).volume = some requested) :
    config.enabled = true ∧ requested = ⟨localBlockVolumeDevice,
      localScratchAttachment (getLaunchInstanceDetails template maxIndex index config).displayName,
      localScratch (getLaunchInstanceDetails template maxIndex index config).displayName, config.sizeInGbs,
      config.vpusPerGb⟩ := by
  unfold getLaunchInstanceDetails at h ⊢
  dsimp only at h ⊢
  split at h
  · rename_i henabled
    exact ⟨henabled, (Option.some.inj h).symm⟩
  · cases h

/-- The name of the attachment is that of the instance, not that of the cluster. -/
theorem attachmentName_ne {name other : String} (h : name ≠ other) :
    String.ofList (localScratchAttachment name.toList) ≠ String.ofList (localScratchAttachment other.toList) := by
  intro heq
  have hlists := congrArg String.toList heq
  rw [String.toList_ofList, String.toList_ofList, localScratchAttachment, localScratchAttachment] at hlists
  exact h (String.toList_injective (List.append_cancel_right hlists))

theorem checkVolume_launched (hlaunched : LaunchedAs (getLaunchInstanceDetails template maxIndex index config) launched)
    (hrequested : (getLaunchInstanceDetails template maxIndex index config).volume = some requested)
    (hattached : AttachedAs requested clusterName launched attachment volume) :
    checkVolume launched.id clusterName false (String.ofList (localScratch launched.displayName.toList))
      ⟨config.sizeInGbs, config.vpusPerGb, config.mountPoint⟩ volume = .ok () := by
  obtain ⟨-, rfl⟩ := requested_eq hrequested
  have hname : volume.displayName = String.ofList (localScratch launched.displayName.toList) := by
    rw [hattached.volumeName, hlaunched.displayName]
  have hparent : ¬ (false = false ∧ parentCluster volume.freeformTags ≠ none ∧
      parentCluster volume.freeformTags ≠ some clusterName) := by
    obtain h | h := hattached.owner <;> simp [h]
  have hpurpose : ¬ (false = false ∧ volume.freeformTags.lookup "oci_hpc_local_scratch" ≠ none ∧
      volume.freeformTags.lookup "oci_hpc_local_scratch" ≠ some "true") := by
    obtain h | h := hattached.purpose <;> simp [h]
  have hsettings : ¬ (volume.sizeInGbs ≠ config.sizeInGbs ∨ volume.vpusPerGb ≠ config.vpusPerGb) := by
    rw [hattached.sizeInGbs, hattached.vpusPerGb]
    simp
  unfold checkVolume
  dsimp only
  rw [if_neg (not_not_intro hname), if_neg (by simp), if_neg hparent, if_neg hpurpose, if_neg hsettings]

theorem checkAttachment_launched
    (hlaunched : LaunchedAs (getLaunchInstanceDetails template maxIndex index config) launched)
    (hrequested : (getLaunchInstanceDetails template maxIndex index config).volume = some requested)
    (hattached : AttachedAs requested clusterName launched attachment volume) (hname : launched.displayName ≠ clusterName)
    {poll : Poll} (hvolume : poll.getVolume attachment.volumeId = .ok volume) :
    checkAttachment launched clusterName ⟨config.sizeInGbs, config.vpusPerGb, config.mountPoint⟩ poll attachment =
      .ok (some attachment) := by
  have hscratch : attachment.displayName =
      some (String.ofList (localScratchAttachment launched.displayName.toList)) := by
    rw [hattached.displayName, (requested_eq hrequested).2, hlaunched.displayName]
  have hscope : (attachment.displayName ==
      some (String.ofList (localScratchAttachment clusterName.toList))) = false := by
    rw [hscratch, beq_eq_false_iff_ne]
    exact fun h => attachmentName_ne hname (Option.some.inj h)
  have hcomplete : isIncomplete attachment = false := by
    have hport := hattached.port
    simp only [isIncomplete, Bool.or_eq_false_iff, beq_eq_false_iff_ne, decide_eq_false_iff_not]
    exact ⟨⟨hattached.ipv4, by omega⟩, hattached.iqn⟩
  unfold checkAttachment
  dsimp only
  rw [hscope, if_neg (not_not_intro hattached.iscsi), if_neg (not_not_intro hattached.instanceId),
    if_neg (by simp [hscratch]), if_neg (not_not_intro hattached.attached),
    if_neg (by simp [hattached.createdDuringLaunch]), hvolume]
  dsimp only
  rw [if_neg Bool.false_ne_true, checkVolume_launched hlaunched hrequested hattached]
  dsimp only
  rw [hcomplete, if_neg Bool.false_ne_true]

/-- A filter that takes the attachment and none of the others. -/
theorem filter_eq_singleton {attachments others : List VolumeAttachment} {p : VolumeAttachment → Bool}
    (hsplit : attachments.Perm (attachment :: others)) (h : p attachment = true)
    (hothers : ∀ other ∈ others, p other = false) : attachments.filter p = [attachment] := by
  have hnone : others.filter p = [] := List.filter_eq_nil_iff.mpr fun other hother => by
    rw [hothers other hother]
    exact Bool.false_ne_true
  have hperm := hsplit.filter p
  rw [List.filter_cons_of_pos h, hnone] at hperm
  exact List.perm_singleton.mp hperm

theorem filter_onVdc {attachments others : List VolumeAttachment}
    (hrequested : (getLaunchInstanceDetails template maxIndex index config).volume = some requested)
    (hattached : AttachedAs requested clusterName launched attachment volume)
    (honly : OnlyLaunchCreated attachments attachment others) : attachments.filter onVdc = [attachment] := by
  have hdevice : attachment.device = some localBlockVolumeDevice := by
    rw [hattached.device, (requested_eq hrequested).2]
  refine filter_eq_singleton honly.split ?_ fun other hother => ?_
  · simp [onVdc, hdevice, hattached.attached]
  · by_cases hdetached : other.lifecycleState = "DETACHED"
    · simp [onVdc, hdetached]
    · have hne := honly.deviceTaken other hother hdetached
      rw [hdevice] at hne
      simp [onVdc, hne]

end

/-- **Launch and validation agree.** For settings the inventory is accepted with, and a template that carries the
cluster's parent tag, the tags of what is launched are decoded to the same settings; once its attachment is there,
the attachment is accepted, and it is the managed one unless another was created at launch. -/
theorem launch_and_validation_agree {inventory : Inventory} {config : BlockVolumeConfig}
    (hconfig : getLocalBlockVolumeConfig inventory = .ok config) {clusterName : String} {template : Instance}
    (hparent : parentTag template.freeformTags = some clusterName) (maxIndex : Int) (index : Nat) {launched : Instance}
    (hlaunched : LaunchedAs (getLaunchInstanceDetails template maxIndex index config) launched)
    (hname : launched.displayName ≠ clusterName) :
    getInstanceLocalBlockVolumeConfig launched inventory clusterName = .ok config.settings ∧
    ∀ requested, (getLaunchInstanceDetails template maxIndex index config).volume = some requested →
      ∀ attachment volume, AttachedAs requested clusterName launched attachment volume →
      ∀ (poll : Poll) (others : List VolumeAttachment), OnlyLaunchCreated poll.attachments attachment others →
        poll.getVolume attachment.volumeId = .ok volume →
          (∀ rest, getLocalBlockVolumeAttachment launched clusterName config.settings (poll :: rest) = .ok attachment) ∧
          getExclusiveManagedAttachment launched inventory clusterName poll.attachments poll =
            .ok (some attachment) := by
  have hdecode := decode_launched (acceptedConfig_of_ok hconfig) hparent hlaunched
  refine ⟨hdecode, fun requested hrequested attachment volume hattached poll others honly hvolume => ?_⟩
  have hsettings : config.settings = some ⟨config.sizeInGbs, config.vpusPerGb, config.mountPoint⟩ := by
    rw [BlockVolumeConfig.settings, (requested_eq hrequested).1, if_pos rfl]
  have hfilter := filter_onVdc hrequested hattached honly
  have hcheck := checkAttachment_launched hlaunched hrequested hattached hname hvolume
  have hpoll : ∀ rest, getLocalBlockVolumeAttachment launched clusterName config.settings (poll :: rest) =
      .ok attachment := by
    intro rest
    unfold getLocalBlockVolumeAttachment
    rw [hsettings]
    dsimp only
    rw [getLocalBlockVolumeAttachment.pollFor, hfilter]
    dsimp only
    rw [hcheck]
  have hlaunchCreated : (poll.attachments.filter fun attachment => attachment.lifecycleState != "DETACHED" &&
      attachment.isVolumeCreatedDuringLaunch == some true) = [attachment] := by
    refine filter_eq_singleton honly.split ?_ fun other hother => ?_
    · simp [hattached.attached, hattached.createdDuringLaunch]
    · by_cases hdetached : other.lifecycleState = "DETACHED"
      · simp [hdetached]
      · simp [honly.notLaunchCreated other hother hdetached]
  refine ⟨hpoll, ?_⟩
  rw [getExclusiveManagedAttachment, hdecode, hsettings]
  dsimp only
  rw [hfilter, if_neg (by simp), ← hsettings, hpoll []]
  dsimp only
  rw [hlaunchCreated, if_neg (by simp)]

/-! ### A launch with the defaults -/

def scratchInventory : Inventory := parseInventory "[all:vars]\nuse_local_block_volume=true\n".toList

def scratchConfig : BlockVolumeConfig := ⟨true, 1000, 10, "/scratch".toList⟩

def scratchTemplate : Instance :=
  ⟨⟨"ocid0", "inst-0", "RUNNING", true, none, fun _ => true⟩, [("parent_cluster", "c")], true, true⟩

def scratchDetails : LaunchDetails := getLaunchInstanceDetails scratchTemplate 0 0 scratchConfig

def scratchLaunched : Instance :=
  ⟨⟨"ocid1", String.ofList scratchDetails.displayName, "RUNNING", true, none, fun _ => true⟩,
    scratchDetails.freeformTags, true, true⟩

def scratchAttached : VolumeAttachment :=
  ⟨some localBlockVolumeDevice, "ATTACHED", some "iscsi", "ocid1",
    some (String.ofList (localScratchAttachment scratchDetails.displayName)), some true, "vol1", some "169.254.2.2",
    some 3260, some "iqn.2015-12.com.oracleiaas:1"⟩

def scratchVolume : Volume := ⟨String.ofList (localScratch scratchDetails.displayName), [], 1000, 10⟩

theorem launch_and_validation_agree_defaults :
    getInstanceLocalBlockVolumeConfig scratchLaunched scratchInventory "c" = .ok scratchConfig.settings ∧
      getExclusiveManagedAttachment scratchLaunched scratchInventory "c" [scratchAttached]
        ⟨[scratchAttached], fun _ => .ok scratchVolume⟩ = .ok (some scratchAttached) := by
  have hconfig : getLocalBlockVolumeConfig scratchInventory = .ok scratchConfig := by rfl
  have hname : scratchLaunched.displayName ≠ "c" := by decide +kernel
  obtain ⟨hdecode, hattachment⟩ := @launch_and_validation_agree scratchInventory scratchConfig hconfig "c" scratchTemplate
    (by decide +kernel) 0 0 scratchLaunched ⟨String.toList_ofList, rfl⟩ hname
  refine ⟨hdecode, (hattachment _ rfl scratchAttached scratchVolume ?_ ⟨[scratchAttached], fun _ => .ok scratchVolume⟩ []
    ⟨List.Perm.refl _, fun _ h => absurd h List.not_mem_nil, fun _ h => absurd h List.not_mem_nil⟩ rfl).2⟩
  exact ⟨rfl, rfl, by decide +kernel, rfl, rfl, rfl, by decide +kernel, by decide +kernel, by decide +kernel, rfl, rfl, rfl, .inl rfl, .inl rfl⟩

end OciHpc.Resize
