import OciHpc.Resize.HostLineRewrite
import OciHpc.Resize.InventoryFile
import OciHpc.Resize.Preparation
import OciHpc.Resize.UnterminatedLine

/-!
# The inventory file prepared

`prepare_local_block_volume_inventory` of `resize.py` on the file: what it leaves where it raises and where it returns.

* `preparedInventory`, `prepareInventoryFile` : the inventory that is written, and the function with its files;
* `Decoded`, `GivenSettings`, `LocallyPrepared` : the settings of an instance, a line with settings, and an inventory
  in which just the host lines were given theirs;
* `CanBePrepared` : which inventories are read back as they are written;
* `preparation_is_local` : the file is as it was where the function raises, and is prepared locally just where it can
  be.
-/

namespace OciHpc.Resize
open Prog Files

/-! ## The function and its files -/

/-- The inventory whose text takes the place of the text. -/
def preparedInventory (cloud : Cloud) (text : Text) : Except VolumeError Inventory :=
  let inventory := parseInventory text
  match getInventoryVariable inventory "cluster_name".toList with
  | none | some [] => .error (.runtime "Inventory does not define cluster_name")
  | some clusterName =>
      match inventory.lines? "compute_configured".toList with
      | none => .error (.runtime "Inventory does not contain [compute_configured]")
      | some configured => do
          let first ← prepareLines cloud inventory clusterName [] configured
          let edited := inventory.set "compute_configured".toList first.2
          match edited.lines? "compute_to_add".toList with
          | none => .error (.runtime "Inventory does not contain [compute_to_add]")
          | some toAdd => do
              let second ← prepareLines cloud inventory clusterName first.1 toAdd
              .ok (prepareNfs second.1 (edited.set "compute_to_add".toList second.2))

theorem prepareLocalBlockVolumeInventory_eq (cloud : Cloud) (text : Text) :
    prepareLocalBlockVolumeInventory cloud text = (preparedInventory cloud text).map writeInventory := by
  unfold prepareLocalBlockVolumeInventory preparedInventory
  dsimp only
  cases getInventoryVariable (parseInventory text) "cluster_name".toList with
  | none => rfl
  | some name =>
      cases name with
      | nil => rfl
      | cons c name =>
          cases (parseInventory text).lines? "compute_configured".toList with
          | none => rfl
          | some configured =>
              dsimp only [Bind.bind, Except.bind]
              cases prepareLines cloud (parseInventory text) (c :: name) [] configured with
              | error e => rfl
              | ok first =>
                  dsimp only
                  cases (Inventory.set "compute_configured".toList first.2 (parseInventory text)).lines?
                    "compute_to_add".toList with
                  | none => rfl
                  | some toAdd =>
                      dsimp only
                      cases prepareLines cloud (parseInventory text) (c :: name) first.1 toAdd <;> rfl

variable {ε : Type}

/-- `prepare_local_block_volume_inventory`. -/
def prepareInventoryFile (asError : VolumeError → ε) (isPermission : ε → Bool) (cloud : Cloud) (path : String) :
    Prog (sig String Text) ε Unit :=
  (ask (.read (.named path))).attempt.bind fun (content : Except ε Text) =>
    match content with
    | .error _ => .throw (asError (.runtime ("Inventory file " ++ path ++ " was not found")))
    | .ok text =>
        match preparedInventory cloud text with
        | .error e => .throw (asError e)
        | .ok inventory => writeInventoryAtomic isPermission inventory path

/-- Where it raises the files are as they were, and where it returns the prepared inventory is in the file. -/
theorem prepareInventoryFile_spec (asError : VolumeError → ε) (isPermission : ε → Bool) (cloud : Cloud) (path : String)
    (d : Disk String Text) :
    wp step (prepareInventoryFile asError isPermission cloud path)
      ⟨fun _ d' => ∃ text inventory, d (.named path) = some text ∧ preparedInventory cloud text = .ok inventory ∧
          Replaced d path (writeInventory inventory) d',
        fun _ => SameNamed d, SameNamed d⟩ d := by
  refine wp_perform_attempt_seq (SameNamed.refl d) fun answer d' hread => ?_
  cases answer with
  | error e =>
      rw [show d' = d from hread]
      exact SameNamed.refl d
  | ok text =>
      obtain ⟨htext, rfl⟩ := hread
      show wp step (match preparedInventory cloud text with | .error e => _ | .ok inventory => _) _ _
      split
      · exact SameNamed.refl d'
      · rename_i inventory hprepared
        exact wp_mono (writeInventoryAtomic_spec isPermission inventory path d')
          (fun _ _ hwritten => ⟨text, inventory, htext, hprepared, hwritten⟩) (fun _ _ h => h) fun _ h => h

/-! ## What is promised -/

/-- The settings of a compute line, from the tags and the attachment of its own instance. -/
inductive Decoded (cloud : Cloud) (inventory : Inventory) (line : Text) : List (Text × Text) → Prop
  | disabled {host instanceId : Text} {found : Instance}
      (own : getInventoryInstanceId line = .ok (some (host, instanceId)))
      (answer : cloud.getInstance instanceId = some found) (name : found.displayName.toList = host)
      (tags : getInstanceLocalBlockVolumeConfig found inventory
        (String.ofList ((getInventoryVariable inventory "cluster_name".toList).getD [])) = .ok none) :
      Decoded cloud inventory line [("use_local_block_volume".toList, "false".toList)]
  | enabled {host instanceId : Text} {found : Instance} {settings : VolumeSettings} {poll : Poll}
      {attachment : VolumeAttachment}
      (own : getInventoryInstanceId line = .ok (some (host, instanceId)))
      (answer : cloud.getInstance instanceId = some found) (name : found.displayName.toList = host)
      (tags : getInstanceLocalBlockVolumeConfig found inventory
        (String.ofList ((getInventoryVariable inventory "cluster_name".toList).getD [])) = .ok (some settings))
      (polled : poll ∈ cloud.polls instanceId) (listed : attachment ∈ poll.attachments)
      (checked : getLocalBlockVolumeAttachment found
        (String.ofList ((getInventoryVariable inventory "cluster_name".toList).getD [])) (some settings)
        (cloud.polls instanceId) = .ok attachment) :
      Decoded cloud inventory line
        [("use_local_block_volume".toList, "true".toList),
          ("local_block_volume_size".toList, strInt settings.sizeInGbs),
          ("local_block_volume_mount_point".toList, settings.mountPoint),
          ("local_block_volume_iscsi_ip".toList, (attachment.ipv4.getD "").toList),
          ("local_block_volume_iscsi_port".toList, strInt (attachment.port.getD 0)),
          ("local_block_volume_iqn".toList, (attachment.iqn.getD "").toList)]

/-- The host line `line` with these settings of the local Block Volume, no other, and all else it has. -/
def GivenSettings (line : Text) (values : List (Text × Text)) (other : Text) : Prop :=
  ∃ before after, splitInventoryHostLine line = some before ∧ splitInventoryHostLine other = some after ∧
    after.leadingWhitespace = before.leadingWhitespace ∧ after.comment = before.comment ∧
    after.tokens.filter aboutBlockVolume = values.map valueToken ∧
    after.tokens.filter (fun token => !aboutBlockVolume token) =
      before.tokens.filter fun token => !aboutBlockVolume token

def computeSections : List Text := ["compute_configured".toList, "compute_to_add".toList]

def LastOf (lines : List Text) (host line : Text) : Prop :=
  ∃ front back, lines = front ++ line :: back ∧ hostName line = some host ∧ ∀ other ∈ back, hostName other ≠ some host

/-- A host line of the compute sections, or one of `nfs` whose host has a compute line. -/
def IsRewritten (inventory : Inventory) (name line : Text) : Prop :=
  name ∈ computeSections ∧ hostName line ≠ none ∨
    name = "nfs".toList ∧ ∃ host, hostName line = some host ∧ ∃ other ∈ computeLines inventory, hostName other = some host

/-- A line of the section `name` before and after. -/
inductive PreparedLine (cloud : Cloud) (inventory : Inventory) (name line : Text) : Text → Prop
  | kept (h : ¬ IsRewritten inventory name line) : PreparedLine cloud inventory name line line
  | compute {other : Text} {values : List (Text × Text)} (section? : name ∈ computeSections)
      (decoded : Decoded cloud inventory line values) (given : GivenSettings line values other) :
      PreparedLine cloud inventory name line other
  | nfs {other host last : Text} {values : List (Text × Text)} (section? : name = "nfs".toList)
      (ofHost : hostName line = some host) (isLast : LastOf (computeLines inventory) host last)
      (decoded : Decoded cloud inventory last values) (given : GivenSettings line values other) :
      PreparedLine cloud inventory name line other

/-- The same sections, in which just the host lines were given the settings of their instances. -/
def LocallyPrepared (cloud : Cloud) (before after : Inventory) : Prop :=
  List.Forall₂ (fun entry other : Text × List Text => entry.1 = other.1 ∧
    List.Forall₂ (PreparedLine cloud before entry.1) entry.2 other.2) before after

/-- Each line has its newline or is given one, the last of all apart, and no rewritten line reads as a header. -/
structure CanBePrepared (inventory : Inventory) : Prop where
  newline : ∀ front entry back, inventory = front ++ entry :: back → back ≠ [] →
    ∀ line ∈ entry.2, line.getLast? = some '\n' ∨ IsRewritten inventory entry.1 line
  noHeader : ∀ entry ∈ inventory, ∀ line ∈ entry.2, IsRewritten inventory entry.1 line →
    isHeader (rewriteComputeInventoryLine line [("use_local_block_volume".toList, "false".toList)]) = false

/-- Without white space and without a closing bracket, as an address and an iSCSI qualified name are. -/
def IsPlain (value : Text) : Prop := ∀ c ∈ value, PyStr.isSpace c = false ∧ c ≠ ']'

/-- The address and the name of each iSCSI attachment are such. -/
def Cloud.PlainAddresses (cloud : Cloud) : Prop :=
  ∀ id, ∀ poll ∈ cloud.polls id, ∀ attachment ∈ poll.attachments,
    IsPlain (attachment.ipv4.getD "").toList ∧ IsPlain (attachment.iqn.getD "").toList

/-! ## The settings -/

structure IsGiven (values : List (Text × Text)) : Prop where
  nonempty : values ≠ []
  about : ∀ entry ∈ values, aboutKey entry.1 = true ∧ NoSpace entry.1
  plain : ∀ entry ∈ values, IsPlain entry.2

theorem IsGiven.isSetting {values : List (Text × Text)} (h : IsGiven values) : ∀ entry ∈ values, IsSetting entry :=
  fun entry hentry => ⟨(h.about entry hentry).1, (h.about entry hentry).2, fun c hc => (h.plain entry hentry c hc).1⟩

theorem isPlain_of_all {s : Text} (h : s.all (fun c => !PyStr.isSpace c && c != ']') = true) : IsPlain s := fun c hc => by
  simpa using List.all_eq_true.mp h c hc

theorem isPlain_repr (n : Nat) : IsPlain (Nat.repr n).toList := fun c hc => by
  refine ⟨not_isSpace_of_mem_repr n c hc, ?_⟩
  rintro rfl
  rw [Nat.toList_repr] at hc
  exact absurd (Nat.isDigit_of_mem_toDigits (by decide) (by decide) hc) (by decide)

theorem isPlain_strInt (n : Int) : IsPlain (strInt n) := by
  cases n with
  | ofNat n => exact isPlain_repr n
  | negSucc n =>
      intro c hc
      rcases List.mem_cons.mp hc with rfl | hc
      · decide
      · exact isPlain_repr _ c hc

theorem isPlain_of_matchesPath {s : Text} (h : matchesPath s = true) : IsPlain s := by
  intro c hc
  refine ⟨not_isSpace_of_matchesPath h c hc, ?_⟩
  rintro rfl
  unfold matchesPath at h
  split at h
  · rename_i rest
    have hpath := List.all_eq_true.mp (Bool.and_eq_true_iff.mp h).2 ']' (by simpa using hc)
    exact absurd hpath (by decide)
  · cases h

theorem isPlain_mountPoint {candidate : Instance} {inventory : Inventory} {expected : String} {settings : VolumeSettings}
    (h : getInstanceLocalBlockVolumeConfig candidate inventory expected = .ok (some settings)) :
    IsPlain settings.mountPoint := by
  unfold getInstanceLocalBlockVolumeConfig at h
  dsimp only at h
  repeat' split at h
  all_goals try cases h
  rename_i hvalid
  exact isPlain_of_matchesPath (matchesPath_of_validateMountPoint hvalid)

section
variable {cloud : Cloud} {inventory : Inventory} {line : Text} {values : List (Text × Text)}

theorem Decoded.isGiven (hcloud : cloud.PlainAddresses) (h : Decoded cloud inventory line values) : IsGiven values := by
  have hkeys : ∀ key ∈ valueKeys, aboutKey key = true ∧ NoSpace key := fun key hkey => by
    have hall : valueKeys.all (fun key => aboutKey key && key.all fun c => !PyStr.isSpace c) = true := by decide
    have hboth := Bool.and_eq_true_iff.mp (List.all_eq_true.mp hall key hkey)
    exact ⟨hboth.1, noSpace_of_all hboth.2⟩
  cases h with
  | disabled =>
      refine ⟨List.cons_ne_nil _ _, fun entry hentry => ?_, fun entry hentry => ?_⟩
      · rw [List.mem_singleton.mp hentry]
        exact hkeys _ List.mem_cons_self
      · rw [List.mem_singleton.mp hentry]
        exact isPlain_of_all (by decide)
  | enabled _ _ _ tags polled listed _ =>
      obtain ⟨hipv4, hiqn⟩ := hcloud _ _ polled _ listed
      refine ⟨List.cons_ne_nil _ _, fun entry hentry => hkeys entry.1 ?_, fun entry hentry => ?_⟩
      · have hmem := List.mem_map_of_mem (f := Prod.fst) hentry
        exact hmem
      · simp only [List.mem_cons, List.not_mem_nil, or_false] at hentry
        obtain rfl | rfl | rfl | rfl | rfl | rfl := hentry
        · exact isPlain_of_all (by decide)
        · exact isPlain_strInt _
        · exact isPlain_mountPoint tags
        · exact hipv4
        · exact isPlain_strInt _
        · exact hiqn

/-! ## A line rewritten -/

theorem split_rewritten_of_isGiven (h : IsGiven values) {parsed : HostLine}
    (hparsed : splitInventoryHostLine line = some parsed) :
    splitInventoryHostLine (rewriteComputeInventoryLine line values) = some (parsed.withValues values) := by
  rw [rewriteComputeInventoryLine, hparsed]
  refine ((parts_of_splitInventoryHostLine hparsed).withValues h.isSetting).split_write ?_
  exact List.append_ne_nil_of_right_ne_nil _ (by simpa using h.nonempty)

theorem filter_withValues (parsed : HostLine) (h : IsGiven values) :
    (parsed.withValues values).tokens.filter aboutBlockVolume = values.map valueToken ∧
      (parsed.withValues values).tokens.filter (fun token => !aboutBlockVolume token) =
        parsed.tokens.filter fun token => !aboutBlockVolume token := by
  have habout : ∀ token ∈ values.map valueToken, aboutBlockVolume token = true := fun token htoken => by
    obtain ⟨entry, hentry, rfl⟩ := List.mem_map.mp htoken
    exact (h.isSetting entry hentry).aboutBlockVolume
  refine ⟨?_, ?_⟩
  · have hnone : (parsed.tokens.filter fun token => !aboutBlockVolume token).filter aboutBlockVolume = [] := by
      rw [List.filter_eq_nil_iff]
      intro token htoken
      simpa using (List.mem_filter.mp htoken).2
    rw [HostLine.withValues, List.filter_append, hnone, List.nil_append, List.filter_eq_self]
    exact habout
  · have hnone : (values.map valueToken).filter (fun token => !aboutBlockVolume token) = [] := by
      rw [List.filter_eq_nil_iff]
      intro token htoken
      simp [habout token htoken]
    rw [HostLine.withValues, List.filter_append, hnone, List.append_nil, List.filter_filter]
    simp

theorem givenSettings_rewritten (h : IsGiven values) (hhost : hostName line ≠ none) :
    GivenSettings line values (rewriteComputeInventoryLine line values) := by
  cases hparsed : splitInventoryHostLine line with
  | none => exact absurd (by rw [hostName, hparsed, Option.bind_none]) hhost
  | some parsed =>
      obtain ⟨hown, hothers⟩ := filter_withValues parsed h
      exact ⟨parsed, parsed.withValues values, hparsed, split_rewritten_of_isGiven h hparsed, rfl, rfl, hown, hothers⟩

theorem splitInventoryHostLine_append_newline (rest : Text) :
    splitInventoryHostLine (rest ++ ['\n']) = splitInventoryHostLine rest := by
  have hstrip : rstripNewlines (rest ++ ['\n']) = rstripNewlines rest := by
    rw [rstripNewlines, List.reverse_append, List.reverse_singleton, List.singleton_append,
      List.dropWhile_cons_of_pos (by decide), rstripNewlines]
  rw [splitInventoryHostLine, hstrip, splitInventoryHostLine]

theorem IsPiece.valid (hline : IsPiece line) {parsed : HostLine} (h : splitInventoryHostLine line = some parsed) :
    parsed.Valid := by
  rcases hline with hline | ⟨hrest, -⟩
  · exact valid_of_splitInventoryHostLine hline h
  · exact valid_of_splitInventoryHostLine hrest.isLine ((splitInventoryHostLine_append_newline line).trans h)

/-- A rewritten line has its newline, whether the line had one or not. -/
theorem isLine_rewritten (hline : IsPiece line) (h : IsGiven values) (hhost : hostName line ≠ none) :
    IsLine (rewriteComputeInventoryLine line values) := by
  cases hparsed : splitInventoryHostLine line with
  | none => exact absurd (by rw [hostName, hparsed, Option.bind_none]) hhost
  | some parsed =>
      have hvalid := hline.valid hparsed
      have hparts := hvalid.parts.withValues h.isSetting
      rw [rewriteComputeInventoryLine, hparsed]
      exact HostLine.Valid.isLine ⟨hparts.leading, hparts.words, hparts.noComment, hparts.comment, hvalid.oneLine⟩

theorem isHeader_iff : isHeader line = true ↔ (strip line).head? = some '[' ∧ (strip line).getLast? = some ']' := by
  rw [isHeader, Bool.and_eq_true, List.isPrefixOf_iff_prefix, List.isSuffixOf_iff_suffix]
  refine and_congr ?_ ?_
  · cases strip line with
    | nil => simp
    | cons c rest => simp [List.cons_prefix_cons, eq_comm]
  · constructor
    · rintro ⟨front, hfront⟩
      rw [← hfront]
      simp
    · intro hlast
      obtain ⟨front, hfront⟩ := List.getLast?_eq_some_iff.mp hlast
      exact ⟨front, hfront.symm⟩

/-- Without its settings the line begins with a bracket, and its comment ends with one. -/
def HostLine.Bracketed (parsed : HostLine) : Prop :=
  ((parsed.tokens.filter fun token => !aboutBlockVolume token).head?.bind List.head?) = some '[' ∧
    parsed.comment.getLast? = some ']'

theorem getLast?_joinWith_concat (sep : Char) (tokens : List Text) {last : Text} (hlast : last ≠ []) :
    (joinWith sep (tokens ++ [last])).getLast? = last.getLast? := by
  induction tokens with
  | nil => rfl
  | cons token rest ih =>
      obtain ⟨next, more, hmore⟩ := List.exists_cons_of_ne_nil (l := rest ++ [last]) (by simp)
      rw [List.cons_append, hmore, joinWith_cons_cons, ← hmore, List.getLast?_append, List.getLast?_cons, ih,
        List.getLast?_eq_some_getLast hlast]
      rfl

theorem aboutKey.head?_ne {key : Text} (h : aboutKey key = true) : ∃ c rest, key = c :: rest ∧ c ≠ '[' := by
  rw [aboutKey, Bool.or_eq_true, beq_iff_eq, List.isPrefixOf_iff_prefix] at h
  obtain rfl | ⟨rest, rfl⟩ := h
  · exact ⟨_, _, rfl, by decide⟩
  · exact ⟨_, _, rfl, by decide⟩

/-- Whether a rewritten line reads as a header does not depend on the settings. -/
theorem isHeader_rewritten_iff (h : IsGiven values) {parsed : HostLine}
    (hparsed : splitInventoryHostLine line = some parsed) :
    isHeader (rewriteComputeInventoryLine line values) = true ↔ parsed.Bracketed := by
  have hparts := (parts_of_splitInventoryHostLine hparsed).withValues h.isSetting
  have hne : (parsed.withValues values).tokens ≠ [] :=
    List.append_ne_nil_of_right_ne_nil _ (by simpa using h.nonempty)
  rw [rewriteComputeInventoryLine, hparsed, isHeader_iff, hparts.strip_write hne, HostLine.Bracketed]
  have htokens : (parsed.withValues values).tokens =
      (parsed.tokens.filter fun token => !aboutBlockVolume token) ++ values.map valueToken := rfl
  refine and_congr ?_ ?_
  · cases hkept : parsed.tokens.filter fun token => !aboutBlockVolume token with
    | nil =>
        obtain ⟨entry, rest, rfl⟩ := List.exists_cons_of_ne_nil h.nonempty
        obtain ⟨c, more, hkey, hc⟩ := aboutKey.head?_ne (h.about entry List.mem_cons_self).1
        rw [hkept, List.nil_append, List.map_cons, valueToken, hkey] at htokens
        rw [HostLine.head?_stripped htokens (List.cons_ne_nil _ _)]
        simp [hc]
    | cons token rest =>
        have htoken : token ∈ parsed.tokens := List.mem_of_mem_filter (hkept ▸ List.mem_cons_self)
        rw [hkept, List.cons_append] at htokens
        rw [HostLine.head?_stripped htokens ((parts_of_splitInventoryHostLine hparsed).words token htoken).nonempty]
        rfl
  · have hcomment : (parsed.withValues values).comment = parsed.comment := rfl
    rw [HostLine.stripped, hcomment]
    split
    · rename_i hnone
      obtain ⟨init, last, hvalues⟩ := (List.eq_nil_or_concat values).resolve_left h.nonempty
      rw [List.concat_eq_append] at hvalues
      have hlast : valueToken last ≠ [] := by simp [valueToken]
      have hplain := h.plain last (hvalues ▸ by simp)
      rw [htokens, hvalues, List.map_append, ← List.append_assoc, List.map_singleton, List.append_nil,
        getLast?_joinWith_concat ' ' _ hlast, hnone, valueToken, List.getLast?_append_of_ne_nil _ (List.cons_ne_nil _ _)]
      refine ⟨fun hbracket => ?_, fun hbracket => by cases hbracket⟩
      rcases List.mem_cons.mp (List.mem_of_getLast? hbracket) with hmem | hmem
      · cases hmem
      · exact absurd rfl (hplain ']' hmem).2
    · rename_i hsome
      rw [List.getLast?_append_of_ne_nil _ (List.cons_ne_nil _ _), List.getLast?_cons_of_ne_nil hsome]

theorem isGiven_false : IsGiven [("use_local_block_volume".toList, "false".toList)] := by
  refine ⟨List.cons_ne_nil _ _, fun entry hentry => ?_, fun entry hentry => ?_⟩
  · rw [List.mem_singleton.mp hentry]
    exact ⟨by decide, noSpace_of_all (by decide)⟩
  · rw [List.mem_singleton.mp hentry]
    exact isPlain_of_all (by decide)

theorem isHeader_rewritten_eq (h : IsGiven values) (hhost : hostName line ≠ none) :
    isHeader (rewriteComputeInventoryLine line values) =
      isHeader (rewriteComputeInventoryLine line [("use_local_block_volume".toList, "false".toList)]) := by
  cases hparsed : splitInventoryHostLine line with
  | none => exact absurd (by rw [hostName, hparsed, Option.bind_none]) hhost
  | some parsed =>
      rw [Bool.eq_iff_iff, isHeader_rewritten_iff h hparsed, isHeader_rewritten_iff isGiven_false hparsed]

/-! ## The loops -/

theorem decoded_of_prepareLine {clusterName host : Text}
    (hname : getInventoryVariable inventory "cluster_name".toList = some clusterName)
    (h : prepareLine cloud inventory clusterName line = .ok (some (host, values))) :
    hostName line = some host ∧ Decoded cloud inventory line values := by
  have hcluster : (getInventoryVariable inventory "cluster_name".toList).getD [] = clusterName := by
    rw [hname, Option.getD_some]
  unfold prepareLine at h
  split at h
  · cases h
  · cases h
  · rename_i found instanceId hid
    obtain ⟨parsed, rest, hparsed, htokens⟩ := tokens_of_getInventoryInstanceId hid
    split at h
    · cases h
    · rename_i candidate hcandidate
      split at h
      · cases h
      · rename_i hnames
        split at h
        · cases h
        · rename_i settings hsettings
          obtain ⟨rfl, rfl⟩ := Prod.mk.inj (Option.some.inj (Except.ok.inj h))
          refine ⟨by rw [hostName, hparsed, Option.bind_some, htokens, List.head?_cons], ?_⟩
          unfold blockVolumeValues at hsettings
          split at hsettings
          · cases hsettings
          · rename_i htags
            obtain rfl := Except.ok.inj hsettings
            exact .disabled hid hcandidate (Decidable.not_not.mp hnames) (hcluster ▸ htags)
          · rename_i tags htags
            split at hsettings
            · cases hsettings
            · rename_i attachment hattachment
              obtain rfl := Except.ok.inj hsettings
              obtain ⟨poll, hpoll, hlisted⟩ := mem_of_getLocalBlockVolumeAttachment hattachment
              exact .enabled hid hcandidate (Decidable.not_not.mp hnames) (hcluster ▸ htags) hpoll
                (List.mem_of_mem_filter hlisted) (hcluster ▸ hattachment)

theorem hostName_of_prepareLine {clusterName : Text}
    (h : prepareLine cloud inventory clusterName line = .ok none) : hostName line = none := by
  unfold prepareLine at h
  split at h
  · cases h
  · rename_i hid
    unfold getInventoryInstanceId at hid
    split at hid
    · rename_i hparsed
      rw [hostName, hparsed, Option.bind_none]
    · split at hid
      · split at hid <;> cases hid
      · cases hid
  · repeat' split at h
    all_goals cases h

/-- The table has the settings of the last line of each host. -/
structure IsTable (cloud : Cloud) (inventory : Inventory) (seen : List Text) (prepared : ValuesByHost) : Prop where
  absent : ∀ host, prepared.lookup host = none → ∀ line ∈ seen, hostName line ≠ some host
  present : ∀ host values, prepared.lookup host = some values →
    ∃ last, LastOf seen host last ∧ Decoded cloud inventory last values

variable {seen : List Text} {prepared : ValuesByHost}

theorem LastOf.concat {lines : List Text} {host last : Text} (h : LastOf lines host last)
    (hline : hostName line ≠ some host) : LastOf (lines ++ [line]) host last := by
  obtain ⟨front, back, rfl, hlast, hback⟩ := h
  refine ⟨front, back ++ [line], by rw [List.append_assoc, List.cons_append], hlast, fun other hother => ?_⟩
  rcases List.mem_append.mp hother with hother | hother
  · exact hback other hother
  · rw [List.mem_singleton.mp hother]
    exact hline

/-- A line that is no host line changes nothing. -/
theorem IsTable.skip (h : IsTable cloud inventory seen prepared) (hline : hostName line = none) :
    IsTable cloud inventory (seen ++ [line]) prepared := by
  have hne : ∀ host, hostName line ≠ some host := fun host heq => by
    rw [hline] at heq
    cases heq
  refine ⟨fun host hnone other hother => ?_, fun host values hsome => ?_⟩
  · rcases List.mem_append.mp hother with hother | hother
    · exact h.absent host hnone other hother
    · rw [List.mem_singleton.mp hother]
      exact hne host
  · obtain ⟨last, hlast, hdecoded⟩ := h.present host values hsome
    exact ⟨last, hlast.concat (hne host), hdecoded⟩

/-- A host line takes the place of those before it. -/
theorem IsTable.add (h : IsTable cloud inventory seen prepared) {host : Text} (hline : hostName line = some host)
    (hdecoded : Decoded cloud inventory line values) :
    IsTable cloud inventory (seen ++ [line]) (setKey host values prepared) := by
  refine ⟨fun other hnone found hfound => ?_, fun other found hsome => ?_⟩
  · by_cases hother : other = host
    · rw [hother, lookup_setKey_self] at hnone
      cases hnone
    · rw [lookup_setKey_of_ne hother] at hnone
      rcases List.mem_append.mp hfound with hfound | hfound
      · exact h.absent other hnone found hfound
      · rw [List.mem_singleton.mp hfound, hline]
        exact fun heq => hother (Option.some.inj heq).symm
  · by_cases hother : other = host
    · subst hother
      rw [lookup_setKey_self] at hsome
      obtain rfl := Option.some.inj hsome
      exact ⟨line, ⟨seen, [], rfl, hline, fun other hmem => absurd hmem List.not_mem_nil⟩, hdecoded⟩
    · rw [lookup_setKey_of_ne hother] at hsome
      obtain ⟨last, hlast, hvalues⟩ := h.present other found hsome
      exact ⟨last, hlast.concat fun heq => hother (Option.some.inj (hline.symm.trans heq)).symm, hvalues⟩

/-- A line of a compute section before and after. -/
def ComputeLine (cloud : Cloud) (inventory : Inventory) (line other : Text) : Prop :=
  hostName line = none ∧ other = line ∨
    hostName line ≠ none ∧ ∃ values, Decoded cloud inventory line values ∧ other = rewriteComputeInventoryLine line values

/-- **The loop over a section**: each host line is given its settings, and the table those of the last lines. -/
theorem prepareLines_relates {clusterName : Text}
    (hname : getInventoryVariable inventory "cluster_name".toList = some clusterName) {lines : List Text}
    (htable : IsTable cloud inventory seen prepared) {result : ValuesByHost × List Text}
    (h : prepareLines cloud inventory clusterName prepared lines = .ok result) :
    IsTable cloud inventory (seen ++ lines) result.1 ∧ List.Forall₂ (ComputeLine cloud inventory) lines result.2 := by
  induction lines generalizing seen prepared result with
  | nil =>
      obtain rfl := Except.ok.inj h
      rw [List.append_nil]
      exact ⟨htable, .nil⟩
  | cons line rest ih =>
      rw [prepareLines] at h
      obtain ⟨outcome, hfirst, hrest⟩ := bind_eq_ok h
      cases outcome with
      | none =>
          have hnone := hostName_of_prepareLine hfirst
          obtain ⟨more, hmore, hresult⟩ := bind_eq_ok hrest
          obtain rfl := Except.ok.inj hresult
          obtain ⟨hnext, hsame⟩ := ih (htable.skip hnone) hmore
          rw [List.append_assoc, List.singleton_append] at hnext
          exact ⟨hnext, .cons (.inl ⟨hnone, rfl⟩) hsame⟩
      | some entry =>
          obtain ⟨host, values⟩ := entry
          obtain ⟨hhost, hdecoded⟩ := decoded_of_prepareLine hname hfirst
          obtain ⟨more, hmore, hresult⟩ := bind_eq_ok hrest
          obtain rfl := Except.ok.inj hresult
          obtain ⟨hnext, hsame⟩ := ih (htable.add hhost hdecoded) hmore
          rw [List.append_assoc, List.singleton_append] at hnext
          exact ⟨hnext, .cons (.inr ⟨by rw [hhost]; exact Option.some_ne_none _, values, hdecoded, rfl⟩) hsame⟩

/-! ## The sections -/

/-- A line of the section `name` before and after, as it is written. -/
def Turned (cloud : Cloud) (inventory : Inventory) (name line other : Text) : Prop :=
  PreparedLine cloud inventory name line other ∧
    (¬ IsRewritten inventory name line ∧ other = line ∨ IsRewritten inventory name line ∧ hostName line ≠ none ∧
      ∃ values, IsGiven values ∧ other = rewriteComputeInventoryLine line values)

theorem turned_of_computeLine (hcloud : cloud.PlainAddresses) {name other : Text} (hname : name ∈ computeSections)
    (h : ComputeLine cloud inventory line other) : Turned cloud inventory name line other := by
  have hnfs : name ≠ "nfs".toList := by
    rintro rfl
    exact absurd hname (by decide)
  rcases h with ⟨hnone, rfl⟩ | ⟨hsome, values, hdecoded, rfl⟩
  · have hkept : ¬ IsRewritten inventory name other := fun hrewritten => by
      rcases hrewritten with ⟨-, hsome⟩ | ⟨heq, -⟩
      · exact hsome hnone
      · exact hnfs heq
    exact ⟨.kept hkept, .inl ⟨hkept, rfl⟩⟩
  · have hgiven := hdecoded.isGiven hcloud
    exact ⟨.compute hname hdecoded (givenSettings_rewritten hgiven hsome),
      .inr ⟨.inl ⟨hname, hsome⟩, hsome, values, hgiven, rfl⟩⟩

theorem turned_prepareNfsLine (hcloud : cloud.PlainAddresses)
    (htable : IsTable cloud inventory (computeLines inventory) prepared) (line : Text) :
    Turned cloud inventory "nfs".toList line (prepareNfsLine prepared line) := by
  have hcompute : "nfs".toList ∉ computeSections := by decide
  unfold prepareNfsLine
  split
  · rename_i hnone
    have hkept : ¬ IsRewritten inventory "nfs".toList line := fun hrewritten => by
      rcases hrewritten with ⟨hmem, -⟩ | ⟨-, host, hhost, other, hother, hsame⟩
      · exact hcompute hmem
      · rw [hhost, Option.bind_some] at hnone
        exact htable.absent host hnone other hother hsame
    exact ⟨.kept hkept, .inl ⟨hkept, rfl⟩⟩
  · rename_i values hvalues
    obtain ⟨host, hhost, hlookup⟩ := Option.bind_eq_some_iff.mp hvalues
    obtain ⟨last, hlast, hdecoded⟩ := htable.present host values hlookup
    have hsome : hostName line ≠ none := by
      rw [hhost]
      exact nofun
    have hmem : ∃ other ∈ computeLines inventory, hostName other = some host := by
      obtain ⟨front, back, heq, hname, -⟩ := hlast
      exact ⟨last, heq ▸ List.mem_append_right _ List.mem_cons_self, hname⟩
    have hgiven := hdecoded.isGiven hcloud
    exact ⟨.nfs rfl hhost hlast hdecoded (givenSettings_rewritten hgiven hsome),
      .inr ⟨.inr ⟨rfl, host, hhost, hmem⟩, hsome, values, hgiven, rfl⟩⟩

theorem turned_kept {name : Text} (hcompute : name ∉ computeSections) (hnfs : name ≠ "nfs".toList) (line : Text) :
    Turned cloud inventory name line line := by
  have hkept : ¬ IsRewritten inventory name line := fun hrewritten => by
    rcases hrewritten with ⟨hmem, -⟩ | ⟨heq, -⟩
    · exact hcompute hmem
    · exact hnfs heq
  exact ⟨.kept hkept, .inl ⟨hkept, rfl⟩⟩

/-- What the loops over the compute lines leave of a section. -/
theorem turned_edited (hcloud : cloud.PlainAddresses) {configured toAdd first second : List Text}
    (hconfigured : inventory.lines? "compute_configured".toList = some configured)
    (htoAdd : inventory.lines? "compute_to_add".toList = some toAdd)
    (hfirst : List.Forall₂ (ComputeLine cloud inventory) configured first)
    (hsecond : List.Forall₂ (ComputeLine cloud inventory) toAdd second) {name : Text} {lines others : List Text}
    (hbefore : inventory.lines? name = some lines)
    (hafter : ((inventory.set "compute_configured".toList first).set "compute_to_add".toList second).lines? name = some others)
    (hnfs : name ≠ "nfs".toList) : List.Forall₂ (Turned cloud inventory name) lines others := by
  have hcompute : ∀ name ∈ computeSections, ∀ lines others : List Text,
      List.Forall₂ (ComputeLine cloud inventory) lines others → List.Forall₂ (Turned cloud inventory name) lines others :=
    fun name hmem _ _ hlines => hlines.imp fun _ _ => turned_of_computeLine hcloud hmem
  by_cases hadd : name = "compute_to_add".toList
  · subst hadd
    rw [Inventory.lines?_set_self] at hafter
    obtain rfl := Option.some.inj hafter
    obtain rfl := Option.some.inj (htoAdd.symm.trans hbefore)
    exact hcompute _ (by decide) _ _ hsecond
  · rw [Inventory.lines?_set_of_ne hadd] at hafter
    by_cases hconf : name = "compute_configured".toList
    · subst hconf
      rw [Inventory.lines?_set_self] at hafter
      obtain rfl := Option.some.inj hafter
      obtain rfl := Option.some.inj (hconfigured.symm.trans hbefore)
      exact hcompute _ (by decide) _ _ hfirst
    · rw [Inventory.lines?_set_of_ne hconf] at hafter
      obtain rfl := Option.some.inj (hbefore.symm.trans hafter)
      refine List.forall₂_same.mpr fun line _ => turned_kept ?_ hnfs line
      simp only [computeSections, List.mem_cons, List.not_mem_nil, or_false, not_or]
      exact ⟨hconf, hadd⟩

/-- **What the loops make of the lines.** -/
theorem turned_preparedInventory (hcloud : cloud.PlainAddresses) {text : Text} {after : Inventory}
    (h : preparedInventory cloud text = .ok after) :
    List.Forall₂ (fun entry other : Text × List Text => entry.1 = other.1 ∧
      List.Forall₂ (Turned cloud (parseInventory text) entry.1) entry.2 other.2) (parseInventory text) after := by
  unfold preparedInventory at h
  dsimp only at h
  split at h
  · cases h
  · cases h
  · rename_i clusterName _ hname
    split at h
    · cases h
    · rename_i configured hconfigured
      obtain ⟨first, hfirst, hrest⟩ := bind_eq_ok h
      split at hrest
      · cases hrest
      · rename_i toAdd htoAddSet
        obtain ⟨second, hsecond, hresult⟩ := bind_eq_ok hrest
        obtain rfl := Except.ok.inj hresult
        have hne : "compute_to_add".toList ≠ "compute_configured".toList := by decide
        have htoAdd := htoAddSet
        rw [Inventory.lines?_set_of_ne hne] at htoAdd
        have hempty : IsTable cloud (parseInventory text) [] [] :=
          ⟨fun _ _ line hline => absurd hline List.not_mem_nil, fun _ _ hsome => by cases hsome⟩
        obtain ⟨htable, hconfiguredLines⟩ := prepareLines_relates hname hempty hfirst
        obtain ⟨htable, htoAddLines⟩ := prepareLines_relates hname htable hsecond
        have hcompute : [] ++ configured ++ toAdd = computeLines (parseInventory text) := by
          rw [computeLines, hconfigured, htoAdd]
          rfl
        rw [hcompute] at htable
        have hkeysTwo := (keys_set htoAddSet second.2).trans (keys_set hconfigured first.2)
        have hnodup := (read_parseInventory text).separate.nodup
        unfold prepareNfs
        split
        · rename_i hnone
          refine forall₂_of_lines? hnodup hkeysTwo fun name lines others hbefore hafter => ⟨rfl, ?_⟩
          refine turned_edited hcloud hconfigured htoAdd hconfiguredLines htoAddLines hbefore hafter ?_
          rintro rfl
          rw [hnone] at hafter
          cases hafter
        · rename_i lines hnfs
          refine forall₂_of_lines? hnodup ((keys_set hnfs _).trans hkeysTwo)
            fun name before others hbefore hafter => ⟨rfl, ?_⟩
          by_cases hname : name = "nfs".toList
          · subst hname
            rw [Inventory.lines?_set_self] at hafter
            obtain rfl := Option.some.inj hafter
            rw [Inventory.lines?_set_of_ne (by decide), Inventory.lines?_set_of_ne (by decide), hbefore] at hnfs
            obtain rfl := Option.some.inj hnfs
            rw [List.forall₂_map_right_iff]
            exact List.forall₂_same.mpr fun line _ => turned_prepareNfsLine hcloud htable line
          · rw [Inventory.lines?_set_of_ne hname] at hafter
            exact turned_edited hcloud hconfigured htoAdd hconfiguredLines htoAddLines hbefore hafter hname

/-! ## Read back -/

theorem Turned.isLine {name other : Text} (h : Turned cloud inventory name line other) (hline : IsPiece line)
    (hnewline : line.getLast? = some '\n' ∨ IsRewritten inventory name line) : IsLine other := by
  obtain ⟨-, hsame | ⟨-, hhost, values, hvalues, rfl⟩⟩ := h
  · obtain ⟨hkept, rfl⟩ := hsame
    have hlast := hnewline.resolve_right hkept
    exact hline.resolve_right fun hrest => hrest.1.newline (List.mem_of_getLast? hlast)
  · exact isLine_rewritten hline hvalues hhost

theorem Turned.isPiece {name other : Text} (h : Turned cloud inventory name line other) (hline : IsPiece line) :
    IsPiece other := by
  obtain ⟨-, hsame | ⟨-, hhost, values, hvalues, rfl⟩⟩ := h
  · obtain ⟨-, rfl⟩ := hsame
    exact hline
  · exact .inl (isLine_rewritten hline hvalues hhost)

theorem Turned.noHeader {name other : Text} (h : Turned cloud inventory name line other) (hline : isHeader line = false)
    (hrewritten : IsRewritten inventory name line →
      isHeader (rewriteComputeInventoryLine line [("use_local_block_volume".toList, "false".toList)]) = false) :
    isHeader other = false := by
  obtain ⟨-, hsame | ⟨hmust, hhost, values, hvalues, rfl⟩⟩ := h
  · obtain ⟨-, rfl⟩ := hsame
    exact hline
  · rw [isHeader_rewritten_eq hvalues hhost]
    exact hrewritten hmust

/-- The sections of `before` with their lines turned, those of `all` being the compute lines. -/
abbrev TurnedInto (cloud : Cloud) (all before after : Inventory) : Prop :=
  List.Forall₂ (fun entry other : Text × List Text => entry.1 = other.1 ∧
    List.Forall₂ (Turned cloud all entry.1) entry.2 other.2) before after

variable {before after : Inventory}

theorem TurnedInto.keys {all : Inventory} (h : TurnedInto cloud all before after) :
    after.map (·.1) = before.map (·.1) := by
  induction h with
  | nil => rfl
  | cons hfirst _ ih => rw [List.map_cons, List.map_cons, ih, hfirst.1]

theorem length_allLines_of_forall₂ {R : Text → Text → Text → Prop}
    (h : List.Forall₂ (fun entry other : Text × List Text => entry.1 = other.1 ∧
      List.Forall₂ (R entry.1) entry.2 other.2) before after) : after.allLines.length = before.allLines.length := by
  induction h with
  | nil => rfl
  | @cons entry other rest others hfirst _ ih =>
      have hbefore : Inventory.allLines (entry :: rest) = entry.2 ++ Inventory.allLines rest := rfl
      have hafter : Inventory.allLines (other :: others) = other.2 ++ Inventory.allLines others := rfl
      rw [hbefore, hafter, List.length_append, List.length_append, ih, hfirst.2.length_eq]

theorem TurnedInto.lines {all : Inventory} (h : TurnedInto cloud all before after) {other : Text × List Text}
    (hother : other ∈ after) {line' : Text} (hline : line' ∈ other.2) :
    ∃ entry ∈ before, ∃ line ∈ entry.2, Turned cloud all entry.1 line line' := by
  obtain ⟨entry, hentry, -, hlines⟩ := (mem_of_forall₂ h).2 other hother
  obtain ⟨line, hmem, hturned⟩ := (mem_of_forall₂ hlines).2 line' hline
  exact ⟨entry, hentry, line, hmem, hturned⟩

theorem TurnedInto.isName {all : Inventory} (h : TurnedInto cloud all before after) (hread : before.Read)
    {other : Text × List Text} (hother : other ∈ after) : IsName other.1 := by
  obtain ⟨entry, hentry, hkey, -⟩ := (mem_of_forall₂ h).2 other hother
  exact hkey ▸ hread.separate.names entry hentry

theorem TurnedInto.isPiece {all : Inventory} (h : TurnedInto cloud all before after) (hread : before.Read) :
    ∀ piece ∈ after.pieces, IsPiece piece := by
  intro piece hpiece
  obtain ⟨other, hother, hpiece⟩ := List.mem_flatMap.mp hpiece
  rcases List.mem_cons.mp hpiece with rfl | hpiece
  · exact .inl (isLine_header (h.isName hread hother))
  · obtain ⟨entry, hentry, line, hline, hturned⟩ := h.lines hother hpiece
    exact hturned.isPiece (hread.isPiece hentry hline)

/-- A section all of whose lines have their newline, before or after. -/
theorem isLine_of_turned {name : Text} {lines others : List Text}
    (h : List.Forall₂ (Turned cloud inventory name) lines others) (hlines : ∀ line ∈ lines, IsPiece line)
    (hnewline : ∀ line ∈ lines, line.getLast? = some '\n' ∨ IsRewritten inventory name line) :
    ∀ other ∈ others, IsLine other := by
  intro other hother
  obtain ⟨line, hline, hturned⟩ := (mem_of_forall₂ h).2 other hother
  exact hturned.isLine (hlines line hline) (hnewline line hline)

theorem exists_restLines_of_turned {name : Text} {lines others : List Text} {rest : Text}
    (h : List.Forall₂ (Turned cloud inventory name) (lines ++ restLines rest) others)
    (hlines : ∀ line ∈ lines, IsLine line) (hrest : IsRest rest) :
    ∃ lines' rest', others = lines' ++ restLines rest' ∧ (∀ line ∈ lines', IsLine line) ∧ IsRest rest' := by
  obtain ⟨front, back, rfl, hfront, hback⟩ := exists_append_of_forall₂ h
  have hfrontLines := isLine_of_turned hfront (fun line hline => .inl (hlines line hline))
    fun line hline => .inl (hlines line hline).getLast?
  rw [restLines] at hback
  split at hback
  · obtain rfl := List.forall₂_nil_left_iff.mp hback
    exact ⟨front, [], rfl, hfrontLines, ⟨List.not_mem_nil, List.not_mem_nil⟩⟩
  · rename_i hne
    obtain ⟨other, more, hturned, hmore, rfl⟩ := List.forall₂_cons_left_iff.mp hback
    obtain rfl := List.forall₂_nil_left_iff.mp hmore
    rcases hturned.isPiece (.inr ⟨hrest, hne⟩) with hline | ⟨hother, hneOther⟩
    · refine ⟨front ++ [other], [], (List.append_nil _).symm, fun line hmem => ?_, ⟨List.not_mem_nil, List.not_mem_nil⟩⟩
      rcases List.mem_append.mp hmem with hmem | hmem
      · exact hfrontLines line hmem
      · exact List.mem_singleton.mp hmem ▸ hline
    · exact ⟨front, other, by rw [restLines, if_neg hneOther], hfrontLines, hother⟩

/-- **An inventory that can be prepared is read back as it is written.** -/
theorem CanBePrepared.parse_write (h : CanBePrepared before) (hread : before.Read)
    (hturned : TurnedInto cloud before before after) : parseInventory (writeInventory after) = after := by
  have hseparate : after.Separate := by
    refine ⟨hturned.keys ▸ hread.separate.nodup, fun other hother => hturned.isName hread hother,
      fun other hother line' hline' => ?_⟩
    obtain ⟨entry, hentry, line, hline, hone⟩ := hturned.lines hother hline'
    exact hone.noHeader (hread.separate.noHeader entry hentry line hline) (h.noHeader entry hentry line hline)
  rcases List.eq_nil_or_concat before with rfl | ⟨front, last, hsplit⟩
  · obtain rfl := List.forall₂_nil_left_iff.mp hturned
    rfl
  · rw [List.concat_eq_append] at hsplit
    obtain ⟨lines, rest, hlast, hlines, hrest⟩ := hread.lines last (hsplit ▸ by simp)
    have hboth : TurnedInto cloud before (front ++ [last]) after := hsplit ▸ hturned
    obtain ⟨front', back', rfl, hfront, hback⟩ := exists_append_of_forall₂ hboth
    obtain ⟨other, more, ⟨hkey, hsection⟩, hmore, rfl⟩ := List.forall₂_cons_left_iff.mp hback
    obtain rfl := List.forall₂_nil_left_iff.mp hmore
    obtain ⟨lines', rest', hother, hlines', hrest'⟩ := exists_restLines_of_turned (hlast ▸ hsection) hlines hrest
    have hpieces : Inventory.pieces (front' ++ [other]) =
        (Inventory.pieces front' ++ header other.1 :: lines') ++ restLines rest' := by
      simp only [Inventory.pieces, List.flatMap_append, List.flatMap_cons, List.flatMap_nil, List.append_nil, hother,
        List.cons_append, List.append_assoc]
    refine parse_write_of_pieces hseparate hpieces (fun line hline => ?_) hrest'
    · rcases List.mem_append.mp hline with hline | hline
      · obtain ⟨entry', hentry', hline⟩ := List.mem_flatMap.mp hline
        rcases List.mem_cons.mp hline with rfl | hline
        · exact isLine_header (hturned.isName hread (List.mem_append_left _ hentry'))
        · obtain ⟨entry, hentry, -, hsectionLines⟩ := (mem_of_forall₂ hfront).2 entry' hentry'
          obtain ⟨init, tail, rfl⟩ := List.append_of_mem hentry
          refine isLine_of_turned hsectionLines
            (fun old hold => hread.isPiece (hsplit ▸ List.mem_append_left _ hentry) hold)
            (h.newline init entry (tail ++ [last]) ?_ (by simp)) line hline
          rw [hsplit, List.append_assoc, List.cons_append]
      · rcases List.mem_cons.mp hline with rfl | hline
        · exact isLine_header (hturned.isName hread (by simp))
        · exact hlines' line hline

/-- **Prepared locally, just where it can be.** -/
theorem locallyPrepared_iff (hread : before.Read) (hturned : TurnedInto cloud before before after) :
    LocallyPrepared cloud before (parseInventory (writeInventory after)) ↔ CanBePrepared before := by
  constructor
  · intro hlocal
    have hlength := hturned.length_eq
    have hcount := length_allLines_of_forall₂ hturned
    obtain ⟨hterminated, hheaders⟩ := pieces_of_parse_write (hturned.isPiece hread)
      (hlocal.length_eq.symm.trans hlength) ((length_allLines_of_forall₂ hlocal).trans hcount.symm)
    refine ⟨fun front entry back hsplit hback line hline => ?_, fun entry hentry line hline hrewritten => ?_⟩
    · by_cases hrewritten : IsRewritten before entry.1 line
      · exact .inr hrewritten
      · refine .inl (IsLine.getLast? ?_)
        have hboth : TurnedInto cloud before (front ++ entry :: back) after := hsplit ▸ hturned
        obtain ⟨front', more, rfl, -, hmore⟩ := exists_append_of_forall₂ hboth
        obtain ⟨other, back', ⟨-, hsection⟩, hbackTurned, rfl⟩ := List.forall₂_cons_left_iff.mp hmore
        obtain ⟨line', hline', hone⟩ := (mem_of_forall₂ hsection).1 line hline
        obtain ⟨-, hsame | ⟨hmust, -⟩⟩ := hone
        · obtain ⟨-, rfl⟩ := hsame
          obtain ⟨init, tail, hlines⟩ := List.append_of_mem hline'
          refine hterminated (Inventory.pieces front' ++ header other.1 :: init) line' (tail ++ Inventory.pieces back')
            ?_ ?_
          · simp only [Inventory.pieces, List.flatMap_append, List.flatMap_cons, hlines, List.cons_append,
              List.append_assoc]
          · obtain ⟨next, rest, hnext⟩ := List.exists_cons_of_ne_nil
              (show back' ≠ [] from fun hnil => hback (List.forall₂_nil_right_iff.mp (hnil ▸ hbackTurned)))
            rw [hnext]
            exact List.append_ne_nil_of_right_ne_nil _ (List.cons_ne_nil _ _)
        · exact absurd hmust hrewritten
    · obtain ⟨other, hother, -, hsection⟩ := (mem_of_forall₂ hturned).1 entry hentry
      obtain ⟨line', hline', -, hsame | ⟨-, hhost, values, hvalues, rfl⟩⟩ := (mem_of_forall₂ hsection).1 line hline
      · exact absurd hrewritten hsame.1
      · rw [← isHeader_rewritten_eq hvalues hhost]
        exact hheaders _ (List.mem_flatMap.mpr ⟨other, hother, hline'⟩)
  · intro hcan
    rw [hcan.parse_write hread hturned]
    exact hturned.imp fun entry other hboth => ⟨hboth.1, hboth.2.imp fun line other hone => hone.1⟩

end

/-- **The preparation is atomic and local.** Where it raises the files are as they were. Where it returns, just the host
lines were given the settings of their instances, if and only if each line of a section but the last has its newline
or is given one, and no rewritten line reads as a header. -/
theorem preparation_is_local {cloud : Cloud} (hcloud : cloud.PlainAddresses) {ε : Type} (asError : VolumeError → ε)
    (isPermission : ε → Bool) (path : String) (d : Disk String Text) :
    (∀ e d', Exec step (prepareInventoryFile asError isPermission cloud path) d (.raised e) d' → SameNamed d d') ∧
    ∀ d', Exec step (prepareInventoryFile asError isPermission cloud path) d (.done ()) d' →
      ∃ text written, d (.named path) = some text ∧ d' (.named path) = some written ∧
        (LocallyPrepared cloud (parseInventory text) (parseInventory written) ↔ CanBePrepared (parseInventory text)) := by
  have hspec := prepareInventoryFile_spec asError isPermission cloud path d
  refine ⟨fun e d' hexec => Exec.of_wp hexec hspec, fun d' hexec => ?_⟩
  obtain ⟨text, inventory, htext, hprepared, hwritten⟩ := Exec.of_wp hexec hspec
  exact ⟨text, writeInventory inventory, htext, hwritten.self,
    locallyPrepared_iff (read_parseInventory text) (turned_preparedInventory hcloud hprepared)⟩

def oneNode : Cloud where
  getInstance id := if id = "ocid1".toList then some scratchLaunched else none
  polls id := if id = "ocid1".toList then [⟨[scratchAttached], fun _ => .ok scratchVolume⟩] else []

theorem plainAddresses_oneNode : oneNode.PlainAddresses := by
  intro id poll hpoll attachment hattachment
  unfold oneNode at hpoll
  dsimp only at hpoll
  split at hpoll
  · rw [List.mem_singleton.mp hpoll] at hattachment
    rw [List.mem_singleton.mp hattachment]
    exact ⟨isPlain_of_all (by decide +kernel), isPlain_of_all (by decide +kernel)⟩
  · cases hpoll

/-- Its host, in a file whose lines all have their newline. -/
def oneHostText : Text :=
  ("[nfs]\n[compute_configured]\ninst-1 ansible_host=10.0.0.7 oci_instance_id=ocid1\n[compute_to_add]\n" ++
    "[all:vars]\ncluster_name=c\n").toList

def oneHost : Disk String Text := fun path => if path = .named "hosts" then some oneHostText else none

theorem canBePrepared_oneHost : CanBePrepared (parseInventory oneHostText) := by
  have hlines : ∀ entry ∈ parseInventory oneHostText, ∀ line ∈ entry.2, line.getLast? = some '\n' ∧
      isHeader (rewriteComputeInventoryLine line [("use_local_block_volume".toList, "false".toList)]) = false := by
    decide +kernel
  refine ⟨fun front entry back hsplit _ line hline => .inl (hlines entry ?_ line hline).1, fun entry hentry line hline _ =>
    (hlines entry hentry line hline).2⟩
  rw [hsplit]
  exact List.mem_append_right _ List.mem_cons_self

/-- Where the inventory can be prepared and the calls succeed, the function returns. -/
theorem exists_exec_prepareInventoryFile {cloud : Cloud} {path : String} {d : Disk String Text} {text : Text}
    {inventory : Inventory} (htext : d (.named path) = some text) (hfree : d (.temp 0) = none)
    (hprepared : preparedInventory cloud text = .ok inventory) :
    ∃ d', Exec step (prepareInventoryFile id (fun _ => false) cloud path) d (.done ()) d' ∧
      d' (.named path) = some (writeInventory inventory) := by
  obtain ⟨d', hwrite⟩ := Writer.exists_exec .atomic (fun _ : VolumeError => false) inventory path hfree
  refine ⟨d', Exec.call (show step d (.read (.named path)) (.ok text) d from ⟨htext, rfl⟩) ?_,
    @Writer.text_of_exec _ _ _ _ .atomic _ _ hwrite⟩
  show Exec step (match preparedInventory cloud text with
    | .error e => .throw (id e)
    | .ok inventory => writeInventoryAtomic (fun _ => false) inventory path) d (.done ()) d'
  rw [hprepared]
  exact hwrite

theorem preparation_is_local_oneNode :
    ∃ d' written, Exec step (prepareInventoryFile id (fun _ => false) oneNode "hosts") oneHost (.done ()) d' ∧
      d' (.named "hosts") = some written ∧
      LocallyPrepared oneNode (parseInventory oneHostText) (parseInventory written) := by
  have hprepares : (preparedInventory oneNode oneHostText).isOk = true := by decide +kernel
  cases hprepared : preparedInventory oneNode oneHostText with
  | error e =>
    rw [hprepared] at hprepares
    cases hprepares
  | ok inventory =>
    obtain ⟨d', hexec, -⟩ := exists_exec_prepareInventoryFile (show oneHost (.named "hosts") = _ from rfl) rfl hprepared
    obtain ⟨text, written, htext, hwritten, hlocal⟩ :=
      (preparation_is_local plainAddresses_oneNode id (fun _ => false) "hosts" oneHost).2 d' hexec
    obtain rfl := Option.some.inj htext
    exact ⟨d', written, hexec, hwritten, hlocal.mpr canBePrepared_oneHost⟩

/-- The last line has no newline, and its section was opened before the others. -/
def reopenedSection : Text :=
  "[nfs]\n[compute_configured]\n[compute_to_add]\n[all:vars]\ncluster_name=c\n[nfs]\nbastion role=nfs".toList

/-- The line is written before the header of the next section, on one line with it. -/
theorem reopenedSection_is_merged : ¬ ∀ (cloud : Cloud) (path : String) (d d' : Disk String Text),
    cloud.PlainAddresses → Exec step (prepareInventoryFile id (fun _ => false) cloud path) d (.done ()) d' →
      ∃ text written, d (.named path) = some text ∧ d' (.named path) = some written ∧
        LocallyPrepared cloud (parseInventory text) (parseInventory written) := by
  intro h
  let d : Disk String Text := fun path => if path = .named "hosts" then some reopenedSection else none
  have hprepared : preparedInventory oneNode reopenedSection = .ok (parseInventory reopenedSection) := by decide +kernel
  obtain ⟨d', hexec, hinstalled⟩ := exists_exec_prepareInventoryFile (show d (.named "hosts") = _ from rfl) rfl hprepared
  obtain ⟨text, written, htext, hwritten, hlocal⟩ := h oneNode "hosts" d d' plainAddresses_oneNode hexec
  obtain rfl := Option.some.inj (show some reopenedSection = some text from htext)
  obtain rfl := Option.some.inj (hinstalled.symm.trans hwritten)
  exact absurd hlocal.length_eq (by decide +kernel)

end OciHpc.Resize
