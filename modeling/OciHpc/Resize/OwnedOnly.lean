import OciHpc.Resize.CleanupComputeCluster
import OciHpc.Resize.ResumePolicy

/-!
# Only what is owned is destroyed

The volumes that `resize.py` deletes, and the instances it terminates together with their volumes.

* `Owned` : what has to be seen, earlier in the same call, before a call that destroys data;
* `Operation`, `session` : removals, retries and cleanups in a row;
* `only_owned_destroyed` : every such call of a session is of a volume or an instance that was found to be owned.
-/

namespace OciHpc.Resize
open Prog

/-! ## What has to be seen -/

/-- The record was read from the journal, or is in it since it was remembered. -/
def Recorded (record : Record) (earlier : List (Event resizeSig CallError)) : Prop :=
  ∃ part, part <:+: earlier ∧
    ((∃ records, Trace (onFiles loadPending) (.done records) part ∧ record ∈ records) ∨
      Trace (onFiles (rememberPending record)) (.done ()) part)

/-- The volume is the scratch volume of the cluster, with the size and the VPUs of the record. -/
structure AsRecorded (request : Request) (record : Record) (volume : StoredVolume) : Prop where
  clusterName : record.clusterName = request.clusterName
  recordCompartmentId : record.compartmentId = request.compartmentId
  compartmentId : volume.compartmentId = request.compartmentId
  recordDisplayName : record.volumeDisplayName = request.clusterName ++ "-local-scratch"
  displayName : volume.displayName = record.volumeDisplayName
  parentCluster : parentCluster volume.freeformTags = some request.clusterName
  purpose : volume.freeformTags.lookup "oci_hpc_local_scratch" = some "true"
  sizeInGbs : volume.sizeInGbs = record.sizeInGbs
  vpusPerGb : volume.vpusPerGb = record.vpusPerGb

/-- The volume passed `validate_pending_local_block_volume` with the record of it. -/
def PassedValidation (request : Request) (volumeId : String) (earlier : List (Event resizeSig CallError)) : Prop :=
  ∃ (record : Record) (volume : StoredVolume), Recorded record earlier ∧ record.volumeId = volumeId ∧
    ⟨.getVolume volumeId, .ok volume⟩ ∈ earlier ∧ validatePendingVolume request record volume = .ok () ∧
      AsRecorded request record volume

/-- The attachment is not detached and its volume was created at launch. -/
def isLaunchCreated (attachment : VolumeAttachment) : Bool :=
  attachment.lifecycleState != "DETACHED" && attachment.isVolumeCreatedDuringLaunch == some true

/-- The scratch attachment of an instance is managed by the cluster and created at launch. Where the second listing shows no
other attachments than the first, it is the only one so created. -/
structure ExclusiveScratch (request : Request) (candidate : Instance) (attachments : List VolumeAttachment) (poll : Poll)
    (managed : VolumeAttachment) : Prop where
  validated : ∃ settings,
    getInstanceLocalBlockVolumeConfig candidate request.inventory request.clusterName = .ok (some settings) ∧
      getLocalBlockVolumeAttachment candidate request.clusterName (some settings) [poll] = .ok managed
  launchCreated : managed.isVolumeCreatedDuringLaunch = some true
  only : poll.attachments ⊆ attachments → attachments.filter isLaunchCreated = [managed]

/-- The instance was found to have such an attachment. -/
def OwnsScratch (request : Request) (id : String) (earlier : List (Event resizeSig CallError)) : Prop :=
  ∃ (candidate : Instance) (attachments : List VolumeAttachment) (poll : Poll) (managed : VolumeAttachment),
    ⟨.getInstance id, .ok candidate⟩ ∈ earlier ∧
      ⟨.listVolumeAttachments request.compartmentId id, .ok attachments⟩ ∈ earlier ∧
        ⟨.poll request.compartmentId id, .ok poll⟩ ∈ earlier ∧
          ExclusiveScratch request candidate attachments poll managed

def Owned (request : Request) (earlier : List (Event resizeSig CallError)) : ResizeCall → Prop
  | .deleteVolume volumeId => PassedValidation request volumeId earlier
  | .terminateInstance id false => OwnsScratch request id earlier
  | _ => True

section
variable {request : Request} {earlier events : List (Event resizeSig CallError)}

theorem Recorded.mono {record : Record} (h : Recorded record earlier) (hlog : earlier <+: events) :
    Recorded record events := by
  obtain ⟨part, hpart, hrecorded⟩ := h
  exact ⟨part, hpart.trans hlog.isInfix, hrecorded⟩

theorem PassedValidation.mono {volumeId : String} (h : PassedValidation request volumeId earlier)
    (hlog : earlier <+: events) : PassedValidation request volumeId events := by
  obtain ⟨record, volume, hrecorded, hid, hget, hvalid⟩ := h
  exact ⟨record, volume, hrecorded.mono hlog, hid, hlog.subset hget, hvalid⟩

theorem OwnsScratch.mono {id : String} (h : OwnsScratch request id earlier) (hlog : earlier <+: events) :
    OwnsScratch request id events := by
  obtain ⟨candidate, attachments, poll, managed, hget, hlist, hpoll, howned⟩ := h
  exact ⟨candidate, attachments, poll, managed, hlog.subset hget, hlog.subset hlist, hlog.subset hpoll, howned⟩

theorem Owned.mono {o : ResizeCall} (hlog : earlier <+: events) (h : Owned request earlier o) :
    Owned request events o := by
  cases o with
  | deleteVolume volumeId => exact PassedValidation.mono h hlog
  | terminateInstance id preserveDataVolumes =>
    cases preserveDataVolumes with
    | true => trivial
    | false => exact OwnsScratch.mono h hlog
  | _ => trivial

theorem asRecorded {record : Record} {volume : StoredVolume} (h : validatePendingVolume request record volume = .ok ()) :
    AsRecorded request record volume := by
  unfold validatePendingVolume at h
  split at h
  · cases h
  · rename_i hcluster
    split at h
    · cases h
    · rename_i hcompartment
      split at h
      · rename_i howned
        simp only [ownedAs, Bool.and_eq_true, beq_iff_eq] at howned
        obtain ⟨⟨⟨⟨⟨⟨hrecordName, hname⟩, hvolume⟩, hparent⟩, hpurpose⟩, hsize⟩, hvpus⟩ := howned
        exact ⟨not_not.mp hcluster, not_not.mp hcompartment, hvolume, hrecordName, hname, hparent, hpurpose, hsize, hvpus⟩
      · cases h

end

/-- A call that destroys no data, whatever was seen. -/
def DestroysNothing : ResizeCall → Prop
  | .deleteVolume _ => False
  | .terminateInstance _ preserveDataVolumes => preserveDataVolumes = true
  | _ => True

theorem DestroysNothing.owned {request : Request} {o : ResizeCall} (h : DestroysNothing o)
    (earlier : List (Event resizeSig CallError)) : Owned request earlier o := by
  cases o with
  | deleteVolume volumeId => exact h.elim
  | terminateInstance id preserveDataVolumes =>
    obtain rfl : preserveDataVolumes = true := h
    trivial
  | _ => trivial

/-! ## The managed attachment -/

/-- What `get_exclusive_managed_local_block_volume_attachment` returns, where it was created at launch. -/
theorem exclusiveScratch {request : Request} {candidate : Instance} {attachments : List VolumeAttachment} {poll : Poll}
    {managed : VolumeAttachment}
    (h : getExclusiveManagedAttachment candidate request.inventory request.clusterName attachments poll = .ok (some managed))
    (hcreated : managed.isVolumeCreatedDuringLaunch = some true) :
    ExclusiveScratch request candidate attachments poll managed := by
  unfold getExclusiveManagedAttachment at h
  split at h
  · cases h
  · cases h
  · rename_i settings hsettings
    split at h
    · cases h
    · split at h
      · cases h
      · rename_i other hattachment
        dsimp only at h
        split at h
        · cases h
        · rename_i hexclusive
          obtain rfl := Option.some.inj (Except.ok.inj h)
          refine ⟨⟨settings, hsettings, hattachment⟩, hcreated, fun hsub => ?_⟩
          obtain ⟨listed, hlisted, hmanaged⟩ := mem_of_getLocalBlockVolumeAttachment hattachment
          obtain rfl := List.mem_singleton.mp hlisted
          obtain ⟨hmanaged, hdevice⟩ := List.mem_filter.mp hmanaged
          have hmem : other ∈ attachments.filter isLaunchCreated := by
            refine List.mem_filter.mpr ⟨hsub hmanaged, ?_⟩
            rw [isLaunchCreated, (Bool.and_eq_true_iff.mp hdevice).2, hcreated]
            rfl
          have hlength : (attachments.filter isLaunchCreated).length ≤ 1 :=
            not_lt.mp fun hlt => hexclusive ⟨hcreated, hlt⟩
          obtain ⟨only, honly⟩ := List.length_eq_one_iff.mp (le_antisymm hlength (List.length_pos_of_mem hmem))
          rw [honly] at hmem ⊢
          rw [List.mem_singleton.mp hmem]

/-! ## The calls that destroy -/

/-- The calls made so far, each of which may be answered in any way. -/
abbrev Seen := Unit × List (Event resizeSig CallError)

abbrev seen : Handler resizeSig CallError Seen := Handler.logged anyAnswer

abbrev Safe (request : Request) (w : Seen) : Prop := Justified (Owned request) w.2

/-- The postcondition of a program that is safe, however it ends. -/
def safe {α : Type} (request : Request) : Post Seen CallError α :=
  ⟨fun _ => Safe request, fun _ => Safe request, Safe request⟩

section
variable {request : Request} {turns : Nat}

theorem wp_owned {α : Type} {p : Prog resizeSig CallError α} {w : Seen} (hsafe : Safe request w)
    (hp : p.Calls (Owned request w.2)) : wp seen p (safe request) w := by
  have hkeeps : Keeps seen (fun w' => Safe request w' ∧ w.2 <+: w'.2) p :=
    @keeps_justified resizeSig CallError α (Owned request) (fun hlog ho => Owned.mono hlog ho) w.2 p hp
  exact wp_mono (hkeeps w ⟨hsafe, List.prefix_rfl⟩) (fun _ _ h => h.1) (fun _ _ h => h.1) fun _ h => h.1

theorem keeps_safe {α : Type} {p : Prog resizeSig CallError α} (hp : p.Calls DestroysNothing) :
    Keeps seen (Safe request) p := fun w hsafe =>
  wp_owned hsafe (hp.mono fun _ ho => ho.owned w.2)

theorem Safe.call {w w' : Seen} {o : ResizeCall} {answer : Except CallError o.Ans} (h : Safe request w)
    (hstep : seen w o answer w') (ho : Owned request w.2 o) : Safe request w' := by
  show Justified _ w'.2
  rw [hstep.2]
  exact h.snoc ho

theorem mem_of_step {w w' : Seen} {o : ResizeCall} {answer : Except CallError o.Ans} (hstep : seen w o answer w') :
    (⟨o, answer⟩ : Event resizeSig CallError) ∈ w'.2 := by
  rw [hstep.2]
  exact List.mem_append_right _ (List.mem_singleton.mpr rfl)

theorem log_of_step {w w' : Seen} {o : ResizeCall} {answer : Except CallError o.Ans} (hstep : seen w o answer w') :
    w.2 <+: w'.2 := by
  rw [hstep.2]
  exact List.prefix_append _ _

/-! ## Volumes -/

/-- **A volume that passed the validation is deleted.** -/
theorem wp_deleteManaged {volumeId : String} {deleteRequested : Bool} {w : Seen} (hsafe : Safe request w)
    (hpassed : PassedValidation request volumeId w.2) :
    wp seen (deleteManagedLocalBlockVolume volumeId turns deleteRequested) (safe request) w :=
  wp_owned hsafe (calls_deleteManagedLocalBlockVolume trivial hpassed turns deleteRequested)

theorem wp_deletePendingVolume {record : Record} {w : Seen} (hsafe : Safe request w) (hrecorded : Recorded record w.2) :
    wp seen (deletePendingVolume request turns record) (safe request) w := by
  refine wp_perform_attempt_seq hsafe fun answer w' hstep => ?_
  have hsafe' : Safe request w' := hsafe.call hstep trivial
  split
  · exact hsafe'
  · exact hsafe'
  · rename_i volume
    split
    · exact hsafe'
    · rename_i hvalid
      exact wp_deleteManaged hsafe'
        ⟨record, volume, hrecorded.mono (log_of_step hstep), rfl, mem_of_step hstep, hvalid, asRecorded hvalid⟩

/-! ## Instances -/

/-- The managed attachment, where it was created at launch, is the only one. -/
theorem wp_getExclusiveManaged {id : String} {w : Seen} (hsafe : Safe request w) :
    wp seen (getExclusiveManagedLocalBlockVolumeAttachment request id)
      ⟨fun managed w' => Safe request w' ∧ ∀ attachment, managed = some attachment →
          attachment.isVolumeCreatedDuringLaunch = some true → OwnsScratch request id w'.2,
        fun _ w' => Safe request w', fun w' => Safe request w'⟩ w := by
  refine wp_perform_seq hsafe (fun candidate w₁ hget => ?_) fun e w₁ hget => hsafe.call hget trivial
  have hsafe₁ : Safe request w₁ := hsafe.call hget trivial
  split
  · exact hsafe₁
  · exact ⟨hsafe₁, fun _ hnone => by cases hnone⟩
  · refine wp_perform_seq hsafe₁ (fun attachments w₂ hlist => ?_) fun e w₂ hlist => hsafe₁.call hlist trivial
    have hsafe₂ : Safe request w₂ := hsafe₁.call hlist trivial
    split
    · exact ⟨hsafe₂, fun _ hnone => by cases hnone⟩
    · refine wp_perform_seq hsafe₂ (fun poll w₃ hpoll => ?_) fun e w₃ hpoll => hsafe₂.call hpoll trivial
      have hsafe₃ : Safe request w₃ := hsafe₂.call hpoll trivial
      split
      · exact hsafe₃
      · exact hsafe₃
      · rename_i managed hmanaged
        refine ⟨hsafe₃, fun attachment hsome hcreated => ?_⟩
        subst hsome
        exact ⟨candidate, attachments, poll, attachment,
          (log_of_step hpoll).subset ((log_of_step hlist).subset (mem_of_step hget)),
          (log_of_step hpoll).subset (mem_of_step hlist), mem_of_step hpoll, exclusiveScratch hmanaged hcreated⟩

theorem wp_deletesDataVolumes {id : String} {delete : Option Bool} {w : Seen} (hsafe : Safe request w)
    (howned : delete = some true → OwnsScratch request id w.2) :
    wp seen (deletesDataVolumes request id delete)
      ⟨fun deletes w' => Safe request w' ∧ (deletes = true → OwnsScratch request id w'.2),
        fun _ w' => Safe request w', fun w' => Safe request w'⟩ w := by
  cases delete with
  | some delete => exact ⟨hsafe, fun hdelete => howned (congrArg some hdelete)⟩
  | none =>
    refine wp_seq (wp_getExclusiveManaged hsafe) fun managed w' hmanaged => ⟨hmanaged.1, fun hany => ?_⟩
    obtain ⟨attachment, hsome, hcreated⟩ := (Option.any_eq_true _ _).mp hany
    exact hmanaged.2 attachment hsome (beq_iff_eq.mp hcreated)

theorem calls_waitTerminated_nothing (id : String) : (waitTerminated id turns).Calls DestroysNothing :=
  (@calls_waitTerminated (fun _ _ => False) turns id).mono fun o ho => by
    cases o <;> first | exact ho.elim | trivial

/-- **An instance is terminated with its volumes where it owns its scratch volume.** -/
theorem wp_terminateInstance {id : String} {delete : Option Bool} {w : Seen} (hsafe : Safe request w)
    (howned : delete = some true → OwnsScratch request id w.2) :
    wp seen (terminateInstanceAndDeleteLaunchVolumes request turns id delete) (safe request) w := by
  refine wp_perform_attempt_seq hsafe fun answer w₁ hget => ?_
  have hsafe₁ : Safe request w₁ := hsafe.call hget trivial
  split
  · exact hsafe₁
  · exact hsafe₁
  · split
    · exact hsafe₁
    · split
      · exact keeps_safe (calls_waitTerminated_nothing id) w₁ hsafe₁
      · have howned₁ : delete = some true → OwnsScratch request id w₁.2 := fun hdelete =>
          (howned hdelete).mono (log_of_step hget)
        refine wp_seq (wp_deletesDataVolumes hsafe₁ howned₁) fun deletes w₂ hdeletes => ?_
        refine wp_perform_attempt_seq hdeletes.1 fun answer w₃ hterminate => ?_
        have hallowed : Owned request w₂.2 (.terminateInstance id !deletes) := by
          cases deletes with
          | true => exact hdeletes.2 rfl
          | false => trivial
        have hsafe₃ : Safe request w₃ := hdeletes.1.call hterminate hallowed
        split
        · exact hsafe₃
        · exact hsafe₃
        · exact keeps_safe (calls_waitTerminated_nothing id) w₃ hsafe₃

/-! ## The operations -/

theorem RemovalCall.destroysNothing {o : ResizeCall} (h : RemovalCall o) : DestroysNothing o := by
  cases o <;> first | exact h | exact h.elim

theorem wp_retryRecord_safe {resumePoolMembers : Bool} {readyDeletions : List Record} {record : Record} {w : Seen}
    (hsafe : Safe request w) (hrecorded : Recorded record w.2) :
    wp seen (retryRecord request turns resumePoolMembers readyDeletions record) (safe request) w := by
  unfold retryRecord
  split
  · exact hsafe
  · have hremove := (calls_removePendingInstance request turns resumePoolMembers record).mono
      fun _ => RemovalCall.destroysNothing
    refine wp_logged_seq (keeps_safe hremove w hsafe) fun _ w₁ events hsafe₁ hlog _ => ?_
    exact wp_seq (wp_deletePendingVolume hsafe₁ (hrecorded.mono ⟨events, hlog.symm⟩)) fun _ _ h => h

/-- The records are those that were read, and stay so from one to the next. -/
theorem keeps_retryPending_safe (resumePoolMembers : Bool) :
    Keeps seen (Safe request) (retryPending request turns resumePoolMembers) := by
  intro w hsafe
  have hload : (onFiles loadPending).Calls DestroysNothing := calls_onFiles (fun _ => trivial) loadPending
  refine wp_logged_seq (keeps_safe hload w hsafe) fun pendingDeletions w₁ part hsafe₁ hlog hread => ?_
  have hrecorded : ∀ record ∈ pendingDeletions, Recorded record w₁.2 := fun record hmem =>
    ⟨part, hlog ▸ (List.suffix_append w.2 part).isInfix, .inl ⟨pendingDeletions, hread, hmem⟩⟩
  have hturns : Keeps seen (fun w' => Safe request w' ∧ w₁.2 <+: w'.2)
      (forEach (retryRecord request turns resumePoolMembers) pendingDeletions []) := by
    refine Keeps.forEach (fun readyDeletions record hmem w₂ hw₂ => ?_) []
    have hturn : wp seen (retryRecord request turns resumePoolMembers readyDeletions record) (safe request) w₂ :=
      wp_retryRecord_safe hw₂.1 ((hrecorded record hmem).mono hw₂.2)
    refine wp_mono (wp_logged_trace hturn) ?_ ?_ ?_
    · intro _ w₃ ⟨hsafe₃, events, hlog₃, _⟩
      exact ⟨hsafe₃, hw₂.2.trans ⟨events, hlog₃.symm⟩⟩
    · intro _ w₃ ⟨hsafe₃, events, hlog₃, _⟩
      exact ⟨hsafe₃, hw₂.2.trans ⟨events, hlog₃.symm⟩⟩
    · intro w₃ ⟨hsafe₃, events, hlog₃, _⟩
      exact ⟨hsafe₃, hw₂.2.trans ⟨events, hlog₃.symm⟩⟩
  exact wp_mono (hturns w₁ ⟨hsafe₁, List.prefix_rfl⟩) (fun _ _ h => h.1) (fun _ _ h => h.1) fun _ h => h.1

theorem keeps_processPending_safe (mode : Mode) (requestedHostnames : List String) :
    Keeps seen (Safe request) (processPending request turns mode requestedHostnames) := by
  have hload : (onFiles loadPending).Calls DestroysNothing := calls_onFiles (fun _ => trivial) loadPending
  exact (keeps_safe hload).bind fun pendingDeletions => keeps_retryPending_safe _

theorem keeps_terminateComputeClusterInstances (computeClusterId : Json) (excludedInstanceIds : List Json) :
    Keeps seen (Safe request) (terminateComputeClusterInstances request turns computeClusterId excludedInstanceIds) := by
  have hlist : (oci (.listInstances request.compartmentId computeClusterId)).Calls DestroysNothing := calls_perform trivial
  refine (keeps_safe hlist).bind fun instances => Keeps.bind ?_ fun cleanupErrors => (keeps_safe hlist).bind fun others => ?_
  · refine Keeps.forEach (fun cleanupErrors candidate _ => ?_) []
    refine Keeps.bind (Keeps.attempt fun w hw => ?_) fun result w hw => hw
    exact wp_terminateInstance hw fun hnone => by cases hnone
  · intro w hw
    unfold endTerminations
    split <;> exact hw

theorem keeps_cleanupComputeCluster (readyPendingDeletions : List Record) (state : StateFile) :
    Keeps seen (Safe request) (cleanupComputeCluster request turns readyPendingDeletions state) := by
  have hdns : (cleanupPendingDnsRecords request readyPendingDeletions).Calls DestroysNothing :=
    calls_cleanupPendingDnsRecords (fun _ => trivial) (fun _ _ => trivial) (fun _ _ => trivial) request readyPendingDeletions
  refine (keeps_safe hdns).attempt.bind fun result => ?_
  split
  · exact fun w hw => hw
  · refine (keeps_safe (calls_ofExcept ..)).bind fun resources => ?_
    split
    · exact fun w hw => hw
    · exact fun w hw => hw
    · rename_i computeClusterId trackedInstanceIds
      have hget : (oci (.getComputeCluster computeClusterId)).Calls DestroysNothing := calls_perform trivial
      refine (keeps_safe hget).attempt.bind fun result => ?_
      split
      · exact fun w hw => hw
      · exact fun w hw => hw
      · split
        · exact fun w hw => hw
        · exact (keeps_terminateComputeClusterInstances computeClusterId trackedInstanceIds).bind fun _ w hw => hw

theorem fields_of_validateRecord {fields : Dict} {record : Record} (h : validateRecord (.obj fields) = .ok record) :
    record.fields = fields := by
  rw [validateRecord] at h
  split at h
  · cases h
    rfl
  · cases h

theorem volumeId_of_newFields {id displayName privateIp poolId volumeId : String} {poolSize : Int} {volume : StoredVolume}
    {record : Record} (h : record.fields = newFields request id displayName privateIp poolId poolSize volumeId volume) :
    record.volumeId = volumeId := by
  rw [Record.volumeId, Record.text, h]
  rfl

/-- The volume passed the validation with the record that is built from it. -/
def Validated (request : Request) (record : Record) (earlier : List (Event resizeSig CallError)) : Prop :=
  ∃ volume, (⟨.getVolume record.volumeId, .ok volume⟩ : Event resizeSig CallError) ∈ earlier ∧
    validatePendingVolume request record volume = .ok ()

theorem wp_buildPendingRecord (poolId id privateIp volumeId : String) {w : Seen} (hsafe : Safe request w) :
    wp seen (buildPendingRecord request poolId id privateIp volumeId)
      ⟨fun record w' => Safe request w' ∧ Validated request record w'.2,
        fun _ w' => Safe request w', fun w' => Safe request w'⟩ w := by
  refine wp_perform_seq hsafe (fun found w₁ hget => ?_) fun e w₁ hget => hsafe.call hget trivial
  have hsafe₁ : Safe request w₁ := hsafe.call hget trivial
  split
  · exact hsafe₁
  · split
    · exact hsafe₁
    · refine wp_perform_seq hsafe₁ (fun pool w₂ hpool => ?_) fun e w₂ hpool => hsafe₁.call hpool trivial
      have hsafe₂ : Safe request w₂ := hsafe₁.call hpool trivial
      split
      · exact hsafe₂
      · refine wp_perform_seq hsafe₂ (fun volume w₃ hvolume => ?_) fun e w₃ hvolume => hsafe₂.call hvolume trivial
        have hsafe₃ : Safe request w₃ := hsafe₂.call hvolume trivial
        split
        · exact hsafe₃
        · rename_i record hrecord
          split
          · exact hsafe₃
          · rename_i hvalid
            have hid : record.volumeId = volumeId := volumeId_of_newFields (fields_of_validateRecord hrecord)
            refine ⟨hsafe₃, volume, ?_, hvalid⟩
            rw [hid]
            exact mem_of_step hvolume

/-- The record of a removal is in the journal, and its volume passed the validation. -/
theorem wp_recordPendingVolume (poolId id privateIp : String) (explicitlyDeleted : Option String) {w : Seen}
    (hsafe : Safe request w) :
    wp seen (recordPendingVolume request poolId id privateIp explicitlyDeleted)
      ⟨fun pendingRecord w' => Safe request w' ∧
          ∀ record, pendingRecord = some record → PassedValidation request record.volumeId w'.2,
        fun _ w' => Safe request w', fun w' => Safe request w'⟩ w := by
  cases explicitlyDeleted with
  | none => exact ⟨hsafe, fun _ hnone => by cases hnone⟩
  | some volumeId =>
    refine wp_seq (wp_buildPendingRecord poolId id privateIp volumeId hsafe) fun record w₁ hrecord => ?_
    have hremember : (onFiles (rememberPending record)).Calls DestroysNothing :=
      calls_onFiles (fun _ => trivial) (rememberPending record)
    refine wp_logged_seq (keeps_safe hremember w₁ hrecord.1) fun _ w₂ part hsafe₂ hlog hwritten =>
      ⟨hsafe₂, fun other hother => ?_⟩
    obtain rfl := Option.some.inj hother
    obtain ⟨volume, hget, hvalid⟩ := hrecord.2
    have hrecorded : Recorded record w₂.2 := ⟨part, hlog ▸ (List.suffix_append w₁.2 part).isInfix, .inr hwritten⟩
    have hlater : w₁.2 <+: w₂.2 := ⟨part, hlog.symm⟩
    exact ⟨record, volume, hrecorded, rfl, hlater.subset hget, hvalid, asRecorded hvalid⟩

theorem keeps_removeInstancePoolMember (poolId id privateIp : String) :
    Keeps seen (Safe request) (removeInstancePoolMember request turns poolId id privateIp) := by
  intro w hsafe
  refine wp_seq (wp_getExclusiveManaged hsafe) fun managed w₁ hmanaged => ?_
  dsimp only
  refine wp_logged_seq (wp_recordPendingVolume poolId id privateIp _ hmanaged.1)
    fun pendingRecord w₂ part₁ hrecord hlog₁ hpart => ?_
  have hdetach : (detachInstanceFromPoolIfNeeded turns request.compartmentId poolId id).Calls DestroysNothing :=
    (calls_detachInstanceFromPoolIfNeeded turns request.compartmentId poolId id).mono fun _ => RemovalCall.destroysNothing
  refine wp_logged_seq (keeps_safe hdetach w₂ hrecord.1) fun _ w₃ part₂ hsafe₃ hlog₂ _ => ?_
  have hlater : w₂.2 <+: w₃.2 := ⟨part₂, hlog₂.symm⟩
  refine wp_logged_seq (wp_terminateInstance hsafe₃ fun hdelete => ?_) fun _ w₄ part₃ hsafe₄ hlog₃ _ => ?_
  · obtain ⟨attachment, hsome, hcreated⟩ := (Option.any_eq_true _ _).mp (Option.some.inj hdelete)
    have hscratch := hmanaged.2 attachment hsome (beq_iff_eq.mp hcreated)
    exact (hscratch.mono ⟨part₁, hlog₁.symm⟩).mono hlater
  · split
    · exact hsafe₄
    · rename_i record
      have hpassed := ((hrecord.2 record rfl).mono hlater).mono ⟨part₃, hlog₃.symm⟩
      exact wp_seq (wp_deleteManaged hsafe₄ hpassed) fun _ _ h => h

end

/-! ## Calls in a row -/

/-- A removal, a retry or a cleanup, with its arguments. -/
inductive Operation
  | remove (turns : Nat) (poolId id privateIp : String)
  | retry (turns : Nat) (resumePoolMembers : Bool)
  | process (turns : Nat) (mode : Mode) (requestedHostnames : List String)
  | cleanup (turns : Nat) (readyPendingDeletions : List Record) (state : StateFile)

def Operation.prog (request : Request) : Operation → Prog resizeSig CallError Unit
  | remove turns poolId id privateIp => (removeInstancePoolMember request turns poolId id privateIp).bind fun _ => .ret ()
  | retry turns resumePoolMembers => (retryPending request turns resumePoolMembers).bind fun _ => .ret ()
  | process turns mode requestedHostnames => (processPending request turns mode requestedHostnames).bind fun _ => .ret ()
  | cleanup turns readyPendingDeletions state =>
      (cleanupComputeCluster request turns readyPendingDeletions state).bind fun _ => .ret ()

/-- One operation after the other, whatever they raise. -/
def session (operations : List (Request × Operation)) : Prog resizeSig CallError Unit :=
  forEach (fun _ operation => (operation.2.prog operation.1).attempt.bind fun _ => .ret ()) operations ()

theorem Operation.keeps_safe (request : Request) (operation : Operation) :
    Keeps seen (Safe request) (operation.prog request) := by
  cases operation with
  | remove turns poolId id privateIp => exact (keeps_removeInstancePoolMember poolId id privateIp).bind fun _ w hw => hw
  | retry turns resumePoolMembers => exact (keeps_retryPending_safe resumePoolMembers).bind fun _ w hw => hw
  | process turns mode requestedHostnames =>
    exact (keeps_processPending_safe mode requestedHostnames).bind fun _ w hw => hw
  | cleanup turns readyPendingDeletions state =>
    exact (keeps_cleanupComputeCluster readyPendingDeletions state).bind fun _ w hw => hw

/-- **Only what is owned is destroyed.** Whatever OCI answers, in any row of removals, retries and cleanups: a volume is
deleted, and an instance terminated with its volumes, only where the operation itself has found it to be owned before. -/
theorem only_owned_destroyed {operations : List (Request × Operation)} {out : Outcome CallError Unit}
    {earlier later : List (Event resizeSig CallError)} {event : Event resizeSig CallError}
    (h : Trace (session operations) out (earlier ++ event :: later)) :
    ∃ request operation upTo within following result, (request, operation) ∈ operations ∧ earlier = upTo ++ within ∧
      Trace (operation.prog request) result (within ++ event :: following) ∧ Owned request within event.1 := by
  obtain ⟨before, ⟨request, operation⟩, after, acc, upTo, within, following, rest, result, rfl, -, hturn, hearlier, -⟩ :=
    trace_forEach_call h
  have hmem : (request, operation) ∈ before ++ (request, operation) :: after := List.mem_append_right _ List.mem_cons_self
  have hoperation : ∃ result, Trace (operation.prog request) result (within ++ event :: following) := by
    obtain ⟨_, first, last, hattempt, hret, hevents⟩ | ⟨e, hattempt, -⟩ | ⟨hattempt, -⟩ := trace_bind.mp hturn
    · obtain ⟨-, rfl⟩ := trace_ret.mp hret
      rw [hevents, List.append_nil]
      obtain ⟨result, hresult, -⟩ := trace_attempt.mp hattempt
      exact ⟨result, hresult⟩
    · obtain ⟨result, hresult, -⟩ := trace_attempt.mp hattempt
      exact ⟨result, hresult⟩
    · obtain ⟨result, hresult, -⟩ := trace_attempt.mp hattempt
      exact ⟨result, hresult⟩
  obtain ⟨result, hresult⟩ := hoperation
  have hjustified := hresult.justified (operation.keeps_safe request)
  exact ⟨request, operation, upTo, within, following, result, hmem, hearlier, hresult,
    hjustified within event following rfl⟩

def nodeSession : Prog resizeSig CallError Unit := session [(nodeRequest, .process 1 .list [])]

def nodeEvents : List (Event resizeSig CallError) := nodeSession.runEvents nodeOutside (nodeSite "TERMINATED")

def nodeDeletion : Event resizeSig CallError := ⟨.deleteVolume "v", .ok ()⟩

theorem only_owned_destroyed_node : ∃ earlier later, nodeEvents = earlier ++ nodeDeletion :: later ∧
    ∃ request operation upTo within following result, (request, operation) ∈ [(nodeRequest, Operation.process 1 .list [])] ∧
      earlier = upTo ++ within ∧ Trace (operation.prog request) result (within ++ nodeDeletion :: following) ∧
        Owned request within nodeDeletion.1 := by
  have hsplit : nodeEvents = nodeEvents.take 7 ++ nodeDeletion :: nodeEvents.drop 8 := by rfl
  have htrace := @Trace.of_run resizeSig CallError Unit Site nodeOutside nodeSession (nodeSite "TERMINATED")
  refine ⟨nodeEvents.take 7, nodeEvents.drop 8, hsplit, ?_⟩
  have hevents : nodeSession.runEvents nodeOutside (nodeSite "TERMINATED") = nodeEvents := rfl
  rw [hevents, hsplit] at htrace
  exact only_owned_destroyed htrace

end OciHpc.Resize
