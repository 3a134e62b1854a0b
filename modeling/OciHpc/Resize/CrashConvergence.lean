import OciHpc.Resize.HalfRemoved

/-!
# A removal that was cut off converges

Any history of removal runs, and then a run that names the nodes of the journal and whose calls succeed.

* `Onward` : what a run does not undo; `NodeGone` : a node that is gone;
* `calm_terminate`, `calm_deletePendingVolume`, `good_retryRecord` : no wait comes to its deadline;
* `PoolReached` : the histories; `sound_of_reached`, `no_scratch_lost` : what holds after them;
* `Resumable` : what the last run needs; `Converged` : what it leaves;
* `removal_converges` : it does, wherever the runs before it were cut off.
-/

namespace OciHpc.Resize
open Prog Files

/-! ## What is not undone -/

structure Onward (w w' : World) : Prop where
  terminated : ∀ id, w.Terminated id → w'.Terminated id
  volumeGone : ∀ id, w.VolumeGone id → w'.VolumeGone id
  members : w'.members.Sublist w.members
  waits : ∀ id, w'.waits id ≤ w.waits id
  zones : w'.final.zones = w.final.zones

/-- The node of a record is gone. -/
structure NodeGone (w : World) (record : Record) : Prop where
  terminated : w.Terminated record.instanceId
  left : record.instanceId ∉ w.members
  volumeGone : w.VolumeGone record.volumeId

section
variable {env : Pool} {w w' w'' : World} {o : ResizeCall}

theorem Onward.refl : Onward w w := ⟨fun _ h => h, fun _ h => h, List.Sublist.refl _, fun _ => Nat.le_refl _, rfl⟩

theorem Onward.trans (h : Onward w w') (h' : Onward w' w'') : Onward w w'' :=
  ⟨fun id hid => h'.terminated id (h.terminated id hid), fun id hid => h'.volumeGone id (h.volumeGone id hid),
    h'.members.trans h.members, fun id => (h'.waits id).trans (h.waits id), h'.zones.trans h.zones⟩

theorem NodeGone.onward {record : Record} (h : NodeGone w record) (hw : Onward w w') : NodeGone w' record :=
  ⟨hw.terminated _ h.terminated, fun hmember => h.left (hw.members.subset hmember), hw.volumeGone _ h.volumeGone⟩

theorem Changes.sublist (hc : Changes env w o w') : w'.members.Sublist w.members := by
  obtain ⟨hmembers, -⟩ | ⟨id, -, -, hmembers, -⟩ := hc.pool
  · rw [hmembers]
  · rw [hmembers]
    exact List.erase_sublist

theorem zones_of_finalStep {isWord : Char → Bool} {inventoryPath : String} {d d' : FinalSite} {r : Except CallError o.Ans}
    (h : finalStep isWord inventoryPath d o r d') : d'.zones = d.zones := by
  cases o with
  | file f => rw [h.2]
  | listZones compartmentId name =>
    cases r with
    | ok zones => rw [h.2]
    | error e => rw [show d' = d from h]
  | deleteRrSet zoneId domain =>
    cases r with
    | ok a =>
      rw [show d' = _ from h]
      rfl
    | error e =>
      have hraised : DeletionRaised d zoneId domain e d' := h
      unfold DeletionRaised at hraised
      split at hraised
      · rw [hraised.2]
      · obtain rfl | rfl := hraised
        · rfl
        · rfl
  | updateTFState size =>
    cases r with
    | ok a => rw [h.1]
    | error e => rw [h.1]
  | _ => rw [show d' = d from h]

theorem onward_of_step {r : Except CallError o.Ans} (h : goodStep env w o r w') : Onward w w' :=
  ⟨fun _ hid => h.1.2.1.terminated hid, fun _ hid => h.1.2.1.volumeGone hid, h.1.2.1.sublist, h.2.1,
    zones_of_finalStep h.1.1⟩

theorem keeps_onward {α : Type} (p : Prog resizeSig CallError α) (w : World) : Keeps (goodStep env) (Onward w) p :=
  keeps_of_calls (calls_true p) fun _ _ _ _ _ h hstep => h.trans (onward_of_step hstep)

/-- What holds where any call may raise holds where all succeed. -/
theorem wp_good {α : Type} {p : Prog resizeSig CallError α} {Q : Post World CallError α} (h : wp (anyStep env) p Q w) :
    wp (goodStep env) p Q w := wp_of_less (fun _ _ _ _ hstep => hstep.1) h

/-- An instance or a volume that is on its way out stays so. -/
theorem Changes.ending (hc : Changes env w o w') {id : String}
    (h : ∀ found, w.instances id = some found → IsEnding found.lifecycleState) :
    ∀ found, w'.instances id = some found → IsEnding found.lifecycleState := by
  intro found' hfound'
  obtain ⟨found, hfound, -⟩ := hc.found hfound'
  have hending := h found hfound
  have hages : InstanceAges (some found) (some found') := by
    obtain hages | ⟨-, hages⟩ := hc.instances id
    · rw [hfound, hfound'] at hages
      exact hages
    · rw [hfound, hfound', Option.map_some, terminating, if_pos hending] at hages
      exact hages
  obtain hstate | hstate := hending
  · exact hages.2.1.2 hstate
  · exact .inr (hages.2.1.1 hstate)

/-- The volume is on its way out, or gone. -/
def VolumeEnding (w : World) (id : String) : Prop := ∀ volume, w.volumes id = some volume → IsEnding volume.lifecycleState

theorem Changes.volumeEnding (hc : Changes env w o w') {id : String} (h : VolumeEnding w id) : VolumeEnding w' id := by
  intro volume' hvolume'
  obtain ⟨volume, hvolume, -, hages⟩ := hc.volume hvolume'
  obtain hstate | hstate := h volume hvolume
  · exact hages.2 hstate
  · exact .inr (hages.1 hstate)

end

/-! ## No wait comes to its deadline -/

section
variable {env : Pool} {w : World} {id : String}

theorem calm_waitTurn {next : Prog resizeSig CallError Unit}
    (hending : ∀ found, w.instances id = some found → IsEnding found.lifecycleState)
    (hnext : ∀ w', (∀ found, w'.instances id = some found → IsEnding found.lifecycleState) →
      w'.waits id < w.waits id → wp (goodStep env) next calm w') :
    wp (goodStep env) (waitTurn id next) calm w := by
  refine wp_perform_attempt_seq trivial fun answer w' hstep => ?_
  have hending' := hstep.1.2.1.ending hending
  split
  · trivial
  · rename_i e hother
    obtain ⟨text, rfl⟩ := hstep.2.2
    exact absurd rfl (hother text)
  · rename_i found
    split
    · trivial
    · rename_i hstate
      have hfound : w'.instances id = some found := hstep.1.2.2
      refine hnext w' hending' (hstep.2.2 ?_)
      obtain hterminating | hterminated := hending' found hfound
      · exact hterminating
      · exact absurd hterminated hstate

theorem calm_waitTerminated {turns : Nat}
    (hending : ∀ found, w.instances id = some found → IsEnding found.lifecycleState) (hwaits : w.waits id ≤ turns) :
    wp (goodStep env) (waitTerminated id turns) calm w := by
  induction turns generalizing w with
  | zero => exact calm_waitTurn hending fun w' _ hless => absurd hless (by omega)
  | succ turns ih => exact calm_waitTurn hending fun w' hending' hless => ih hending' (by omega)

/-- **A termination is waited for long enough.** -/
theorem calm_terminate {turns : Nat} (request : Request) (delete : Bool) (hwaits : w.waits id ≤ turns) :
    wp (goodStep env) (terminateInstanceAndDeleteLaunchVolumes request turns id (some delete)) calm w := by
  refine wp_perform_attempt_seq trivial fun answer w' hstep => ?_
  have hwaits' := (hstep.2.1 id).trans hwaits
  split
  · trivial
  · rename_i e hother
    obtain ⟨text, rfl⟩ := hstep.2.2
    exact absurd rfl (hother text)
  · rename_i found
    have hfound : w'.instances id = some found := hstep.1.2.2
    split
    · trivial
    · split
      · rename_i hterminating
        refine calm_waitTerminated (fun other hother => ?_) hwaits'
        rw [← Option.some.inj (hfound.symm.trans hother)]
        exact .inl hterminating
      · show wp (goodStep env) ((oci (.terminateInstance id !delete)).attempt.bind _) _ w'
        refine wp_perform_attempt_seq trivial fun answer w'' hstep' => ?_
        split
        · trivial
        · rename_i e hother
          obtain ⟨text, rfl⟩ := hstep'.2.2
          exact absurd rfl (hother text)
        · exact calm_waitTerminated hstep'.2.2 ((hstep'.2.1 id).trans hwaits')

theorem calm_detach (turns : Nat) (compartmentId poolId : String) :
    wp (goodStep env) (detachInstanceFromPoolIfNeeded turns compartmentId poolId id) calm w := by
  refine wp_seq (R := fun _ _ => True) ?_ fun isMember w' _ => ?_
  · exact wp_perform_seq trivial (fun _ _ _ => trivial) fun _ _ hstep => hstep.2.2
  · split
    · trivial
    · refine wp_perform_attempt_seq trivial fun answer w'' hstep => ?_
      cases answer with
      | ok a => trivial
      | error e => exact hstep.2.2.elim

/-- The postcondition of a deletion that is waited for. -/
def untilGone (id : String) : Post World CallError Unit := ⟨fun _ w' => w'.VolumeGone id, fun _ _ => False, fun _ => True⟩

/-- How long the deletion may take yet. -/
def InTime (turns : Nat) (deleteRequested : Bool) (w : World) (id : String) : Prop :=
  VolumeEnding w id ∧ w.waits id ≤ turns ∨ deleteRequested = false ∧ w.waits id < turns

/-- A turn of the deletion, which ends it or leaves time for the next. -/
theorem calm_deleteTurn {turns : Nat} {deleteRequested : Bool} (htime : InTime turns deleteRequested w id)
    {next : Bool → Prog resizeSig CallError Unit}
    (hnext : ∀ requested w' left, turns = left + 1 → InTime left requested w' id →
      wp (goodStep env) (next requested) (untilGone id) w') :
    wp (goodStep env) (deleteTurn id deleteRequested next) (untilGone id) w := by
  refine wp_perform_attempt_seq trivial fun answer w₁ hstep => ?_
  have hwaits := hstep.2.1 id
  split
  · exact volumeGone_of_none hstep.1.2.2
  · rename_i e hother
    obtain ⟨text, rfl⟩ := hstep.2.2
    exact absurd rfl (hother text)
  · rename_i volume
    have hvolume : w₁.volumes id = some volume := hstep.1.2.2
    split
    · rename_i hstate
      intro other hother
      rw [← Option.some.inj (hvolume.symm.trans hother)]
      exact hstate
    · rename_i hstate
      -- a volume that is on its way out has used up one of its waits
      have htime₁ : (VolumeEnding w₁ id ∧ w₁.waits id + 1 ≤ turns) ∨ deleteRequested = false ∧ w₁.waits id < turns := by
        obtain ⟨hending, htime⟩ | ⟨hrequested, htime⟩ := htime
        · have hending₁ := hstep.1.2.1.volumeEnding hending
          have hless := hstep.2.2 ((hending₁ volume hvolume).resolve_right hstate)
          exact .inl ⟨hending₁, by omega⟩
        · exact .inr ⟨hrequested, by omega⟩
      obtain ⟨left, rfl⟩ : ∃ left, turns = left + 1 := by
        obtain ⟨-, htime₁⟩ | ⟨-, htime₁⟩ := htime₁
        · exact ⟨turns - 1, by omega⟩
        · exact ⟨turns - 1, by omega⟩
      split
      · rename_i hrequested
        obtain ⟨hending₁, htime₁⟩ | ⟨hfalse, -⟩ := htime₁
        · exact hnext true w₁ left rfl (.inl ⟨hending₁, by omega⟩)
        · rw [hfalse] at hrequested
          cases hrequested
      · refine wp_perform_attempt_seq trivial fun answer w₂ hstep₂ => ?_
        have hwaits₂ := hstep₂.2.1 id
        split
        · have hending₂ : VolumeEnding w₂ id := hstep₂.2.2
          exact hnext true w₂ left rfl (.inl ⟨hending₂, by omega⟩)
        · exact volumeGone_of_none hstep₂.1.2.2
        · have hless : w₂.waits id < w₁.waits id := by
            obtain ⟨text, heq⟩ | ⟨-, hless⟩ := hstep₂.2.2
            · cases heq
            · exact hless
          obtain ⟨hending₁, htime₁⟩ | ⟨-, htime₁⟩ := htime₁
          · exact hnext false w₂ left rfl (.inl ⟨hstep₂.1.2.1.volumeEnding hending₁, by omega⟩)
          · exact hnext false w₂ left rfl (.inr ⟨rfl, by omega⟩)
        · rename_i e hnotFound hconflict
          obtain ⟨text, rfl⟩ | ⟨⟨text, rfl⟩, -⟩ := hstep₂.2.2
          · exact absurd rfl (hnotFound text)
          · exact absurd rfl (hconflict text)

/-- **A deletion is waited for long enough.** -/
theorem calm_deleteManaged {turns : Nat} {deleteRequested : Bool} (htime : InTime turns deleteRequested w id) :
    wp (goodStep env) (deleteManagedLocalBlockVolume id turns deleteRequested) (untilGone id) w := by
  induction turns generalizing w deleteRequested with
  | zero => exact calm_deleteTurn htime fun _ _ left hturns => by omega
  | succ turns ih =>
    refine calm_deleteTurn htime fun requested w' left hturns htime' => ?_
    obtain rfl : turns = left := by omega
    exact ih htime'

end

/-! ## A record is retried -/

section
variable {env : Pool} {w : World} {pending : List Record} {turns : Nat} {record : Record}

theorem calm_deletePendingVolume (h : Sound env pending w) (hmem : record ∈ pending)
    (hwaits : w.waits record.volumeId < turns) :
    wp (goodStep env) (deletePendingVolume env.request turns record)
      ⟨fun _ w' => w'.VolumeGone record.volumeId, fun _ _ => False, fun _ => True⟩ w := by
  refine wp_perform_attempt_seq trivial fun answer w' hstep => ?_
  split
  · exact volumeGone_of_none hstep.1.2.2
  · rename_i e hother
    obtain ⟨text, rfl⟩ := hstep.2.2
    exact absurd rfl (hother text)
  · rename_i volume
    have hvolume : w'.volumes record.volumeId = some volume := hstep.1.2.2
    have hfits := (h.step hstep.1.2.1 (fun _ _ => nofun) fun _ => nofun).fits record hmem
    rw [hfits.volume volume hvolume]
    exact calm_deleteManaged (.inr ⟨rfl, lt_of_le_of_lt (hstep.2.1 _) hwaits⟩)

theorem calm_pendingInstanceState (h : Recoverable env pending nobody w) (hmem : record ∈ pending) :
    wp (goodStep env) (pendingInstanceState env.request record)
      ⟨fun state w' => state = "TERMINATED" → w'.Terminated record.instanceId, fun _ _ => False, fun _ => True⟩ w := by
  refine wp_perform_attempt_seq trivial fun answer w' hstep => ?_
  split
  · exact fun _ => terminated_of_none hstep.1.2.2
  · rename_i e hother
    obtain ⟨text, rfl⟩ := hstep.2.2
    exact absurd rfl (hother text)
  · rename_i found
    have hfound : w'.instances record.instanceId = some found := hstep.1.2.2
    obtain ⟨hparent, hname⟩ := ((h.quiet (by exact trivial) hstep.1).sound.fits record hmem).found found hfound
    rw [if_neg (not_not.mpr hparent), if_neg (not_not.mpr hname)]
    exact fun hstate => terminated_of_some hfound hstate

/-- A terminated instance is no member. -/
theorem Sound.not_member {id : String} (h : Sound env pending w) (hterminated : w.Terminated id) : id ∉ w.members := by
  intro hmember
  obtain ⟨found, hfound, hruns⟩ := h.running id hmember
  exact hruns (.inr (hterminated found hfound))

theorem calm_resume : wp (goodStep env) (resumePendingMember env.request turns true record) calm w := by
  refine wp_seq (R := fun _ _ => True) ?_ fun isMember w' _ => ?_
  · refine wp_seq_attempt (R := fun _ _ => True) (E := fun _ _ => False) ?_ (fun _ _ _ => trivial) fun _ _ h => h.elim
    exact wp_perform_seq trivial (fun _ _ _ => trivial) fun _ _ hstep => hstep.2.2
  · cases isMember with
    | false => trivial
    | true => exact calm_detach turns _ _

/-- The instance of a record is terminated, and out of its pool. -/
theorem good_removePendingInstance (h : Recoverable env pending nobody w) (hmem : record ∈ pending)
    (hwaits : w.waits record.instanceId < turns) :
    wp (goodStep env) (removePendingInstance env.request turns true record)
      ⟨fun _ w' => Recoverable env pending nobody w' ∧ w'.Terminated record.instanceId ∧ record.instanceId ∉ w'.members,
        fun _ _ => False, fun _ => True⟩ w := by
  refine wp_seq (wp_mono (wp_and (calm_pendingInstanceState h hmem) (wp_and (keeps_onward _ w w Onward.refl)
    (wp_good (keeps_quiet (calls_pendingInstanceState env.request record) w h)))) (fun _ _ h => h) (fun _ _ h => h.1)
      fun _ _ => trivial) fun state w₁ hstate => ?_
  obtain ⟨hterminated, honward, h₁⟩ := hstate
  split
  · rename_i heq
    exact ⟨h₁, hterminated heq, h₁.sound.not_member (hterminated heq)⟩
  · refine wp_seq (wp_mono (wp_and calm_resume (wp_and (keeps_onward _ w₁ w₁ Onward.refl)
      (wp_good (wp_resume_held hmem h₁ turns true)))) (fun _ _ h => h.2) (fun _ _ h => h.1) fun _ _ => trivial)
        fun _ w₂ hresumed => ?_
    obtain ⟨honward₂, h₂, hleft⟩ := hresumed
    have hwaits₂ : w₂.waits record.instanceId ≤ turns :=
      ((honward.trans honward₂).waits _).trans hwaits.le
    refine wp_mono (wp_and (calm_terminate env.request false hwaits₂)
      (wp_good (wp_terminate_held env.request turns false (leaving_nobody h₂ hleft)))) (fun _ w₃ hends => ?_)
        (fun _ _ h => h.1) fun _ _ => trivial
    exact ⟨hends.2.1.recoverable, hends.2.2, hends.2.1.2⟩

/-- **A record is retried to its end.** -/
theorem good_retryRecord (h : Recoverable env pending nobody w) (hmem : record ∈ pending) (hwaits : ∀ id, w.waits id < turns)
    (readyDeletions : List Record) :
    wp (goodStep env) (retryRecord env.request turns true readyDeletions record)
      ⟨fun ready w' => ready = readyDeletions ++ [record] ∧ Recoverable env pending nobody w' ∧ NodeGone w' record,
        fun _ _ => False, fun _ => True⟩ w := by
  have hfits := h.sound.fits record hmem
  unfold retryRecord
  rw [if_neg (not_or.mpr ⟨not_not.mpr hfits.clusterName, not_not.mpr hfits.compartmentId⟩)]
  refine wp_seq (wp_mono (wp_and (good_removePendingInstance h hmem (hwaits _)) (keeps_onward _ w w Onward.refl))
    (fun _ _ h => h) (fun _ _ h => h.1) fun _ _ => trivial) fun _ w₁ hremoved => ?_
  obtain ⟨⟨h₁, hterminated, hleft⟩, honward⟩ := hremoved
  have hwaits₁ : w₁.waits record.volumeId < turns := lt_of_le_of_lt (honward.waits _) (hwaits _)
  refine wp_seq (wp_mono (wp_and (calm_deletePendingVolume h₁.sound hmem hwaits₁) (wp_and (keeps_onward _ w₁ w₁ Onward.refl)
    (wp_good (keeps_quiet (calls_deletePendingVolume env.request turns trivial trivial) w₁ h₁)))) (fun _ _ h => h)
      (fun _ _ h => h.1) fun _ _ => trivial) fun _ w₂ hdeleted => ?_
  obtain ⟨hgone, honward₂, h₂⟩ := hdeleted
  exact ⟨rfl, h₂, honward₂.terminated _ hterminated, fun hmember => hleft (honward₂.members.subset hmember), hgone⟩

/-! ### The journal is loaded -/

theorem smooth_of_good {o : ResizeCall} {r : Except CallError o.Ans} {w' : World} (ho : FinalCall o)
    (h : goodStep env w o r w') : smoothStep env.isWord env.inventoryPath w.final o r w'.final := by
  refine ⟨h.1.1, ?_⟩
  have hgoes := h.2.2
  cases r with
  | ok a =>
    cases o <;> trivial
  | error e =>
    cases o with
    | deleteRrSet zoneId domain => exact hgoes
    | file f => exact hgoes
    | listZones compartmentId name => exact hgoes
    | updateTFState size => exact hgoes
    | _ => exact ho.elim

/-- What a finalization does to the files, to DNS and to Terraform where the calls succeed. -/
theorem wp_final_good {α : Type} {p : Prog resizeSig CallError α} (hp : p.Calls FinalCall) {Q : Post FinalSite CallError α}
    (h : wp (smoothStep env.isWord env.inventoryPath) p Q w.final) :
    wp (goodStep env) p ⟨fun a w' => Q.ret a w'.final, fun e w' => Q.exc e w'.final, fun w' => Q.cut w'.final⟩ w :=
  wp_comap World.final hp (fun ho hstep => smooth_of_good ho hstep) h

theorem good_load (h : Recoverable env pending nobody w) :
    wp (goodStep env) (onFiles loadPending) ⟨fun found w' => found = pending ∧ Recoverable env pending nobody w' ∧ Onward w w',
      fun _ _ => False, fun _ => True⟩ w := by
  have hcalls : (onFiles loadPending).Calls FinalCall := calls_onFiles (fun _ => trivial) loadPending
  have hcalm := wp_final_good hcalls (wp_beside_smooth (loadPending_calm h.journal) :
    wp (smoothStep env.isWord env.inventoryPath) (onFiles loadPending) _ w.final)
  refine wp_mono (wp_and hcalm (wp_and (wp_good (wp_load_held h)) (keeps_onward _ w w Onward.refl))) (fun _ _ h => ?_)
    (fun _ _ h => h.1.1) fun _ _ => trivial
  exact ⟨h.2.1.2, h.2.1.1, h.2.2⟩

def retried (env : Pool) (pending : List Record) (w : World) : Post World CallError (List Record) :=
  ⟨fun ready w' => ready = pending ∧ Recoverable env pending nobody w' ∧ (∀ record ∈ pending, NodeGone w' record) ∧ Onward w w',
    fun _ _ => False, fun _ => True⟩

/-- **All records are retried to their end.** -/
theorem good_retryPending (h : Recoverable env pending nobody w) (hwaits : ∀ id, w.waits id < turns) :
    wp (goodStep env) (retryPending env.request turns true) (retried env pending w) w := by
  refine wp_seq (wp_mono (good_load h) (fun _ _ h => h) (fun _ _ h => h) fun _ h => h) fun found w₁ hload => ?_
  obtain ⟨rfl, h₁, honward₁⟩ := hload
  refine wp_forEach (fun rest ready w' => ready ++ rest = found ∧ Recoverable env found nobody w' ∧
    (∀ record ∈ ready, NodeGone w' record) ∧ Onward w w') (fun ready w' hinv => ?_) (fun record rest ready w₂ hinv => ?_)
      ⟨rfl, h₁, fun _ hnone => absurd hnone List.not_mem_nil, honward₁⟩
  · obtain ⟨hready, h', hremoved, honward⟩ := hinv
    rw [List.append_nil] at hready
    exact ⟨hready, h', hready ▸ hremoved, honward⟩
  · obtain ⟨hready, h₂, hremoved, honward⟩ := hinv
    have hmem : record ∈ found := hready ▸ List.mem_append_right _ List.mem_cons_self
    have hwaits₂ : ∀ id, w₂.waits id < turns := fun id => lt_of_le_of_lt (honward.waits id) (hwaits id)
    refine wp_mono (wp_and (good_retryRecord h₂ hmem hwaits₂ ready) (keeps_onward _ w₂ w₂ Onward.refl))
      (fun later w₃ hturn => ?_) (fun _ _ h => h.1) fun _ _ => trivial
    obtain ⟨⟨rfl, h₃, hgone⟩, honward₃⟩ := hturn
    refine ⟨by rw [List.append_assoc, List.singleton_append, hready], h₃, fun other hother => ?_, honward.trans honward₃⟩
    rcases List.mem_append.mp hother with hother | hother
    · exact (hremoved other hother).onward honward₃
    · rw [List.mem_singleton.mp hother]
      exact hgone

/-- A removal that names the nodes of the journal resumes. -/
theorem good_processPending (h : Recoverable env pending nobody w) (hwaits : ∀ id, w.waits id < turns)
    {hostnames : List String} (hnamed : ∀ record ∈ pending, record.instanceDisplayName ∈ hostnames) :
    wp (goodStep env) (processPending env.request turns .remove hostnames) (retried env pending w) w := by
  refine wp_seq (wp_mono (good_load h) (fun _ _ h => h) (fun _ _ h => h) fun _ h => h) fun found w₁ hload => ?_
  obtain ⟨rfl, h₁, honward⟩ := hload
  have hall : (found.all fun record => hostnames.contains record.instanceDisplayName) = true :=
    List.all_eq_true.mpr fun record hrecord => List.contains_iff_mem.mpr (hnamed record hrecord)
  rw [hall]
  refine wp_mono (good_retryPending h₁ fun id => lt_of_le_of_lt (honward.waits id) (hwaits id)) (fun ready w₂ hends => ?_)
    (fun _ _ h => h) fun _ h => h
  exact ⟨hends.1, hends.2.1, hends.2.2.1, honward.trans hends.2.2.2⟩

end

/-! ## The lookups -/

def Waited (w w' : World) : Prop := w' = { w with waits := w'.waits } ∧ ∀ id, w'.waits id ≤ w.waits id

section
variable {env : Pool} {w w' w'' : World} {pending : List Record} {turns : Nat}

theorem Waited.refl : Waited w w := ⟨rfl, fun _ => Nat.le_refl _⟩

theorem Waited.trans (h : Waited w w') (h' : Waited w' w'') : Waited w w'' := by
  refine ⟨?_, fun id => (h'.2 id).trans (h.2 id)⟩
  have hfirst := h.1
  rw [h'.1, hfirst]

theorem Waited.onward (h : Waited w w') : Onward w w' := by
  obtain ⟨heq, hwaits⟩ := h
  rw [heq]
  exact ⟨fun _ h => h, fun _ h => h, List.Sublist.refl _, hwaits, rfl⟩

theorem Fits.waited {record : Record} (h : Fits env w record) (hw : Waited w w') : Fits env w' record := by
  rw [hw.1]
  exact ⟨h.clusterName, h.compartmentId, h.poolId, h.found, h.volume, h.scratch, h.once⟩

theorem Recoverable.waited (h : Recoverable env pending nobody w) (hw : Waited w w') : Recoverable env pending nobody w' := by
  have hfits := fun record hrecord => (h.sound.fits record hrecord).waited hw
  rw [hw.1] at hfits ⊢
  exact ⟨h.journal, ⟨h.sound.nodup, h.sound.size, h.sound.running, h.sound.undetached, hfits, h.sound.came, h.sound.spoken⟩,
    fun _ hnone => hnone.elim⟩

theorem wp_routine_good {α : Type} (p : Prog resizeSig CallError α) (Q : Post World CallError α) (w : World) :
    wp (goodCall env) (routine p) Q w ↔ wp (goodStep env) p Q w :=
  wp_via (fun o Q w => wp_perform (S := clusterSig) (.resize o) Q w) p Q w

/-- **The cluster is found.** -/
theorem good_getSummary (hkind : env.kind ≠ .computeCluster) :
    wp (goodCall env) (getSummary env.request)
      ⟨fun found w' => Waited w w' ∧ ∃ id, found = some ⟨env.kind, id, some ⟨env.poolId, w.size⟩⟩, fun _ _ => False,
        fun _ => True⟩ w := by
  refine wp_perform_seq trivial (fun (networks : List NetworkSummary) w₁ hstep => ?_) fun e w₁ hstep => hstep.2.2.2
  obtain ⟨heq, hwaits, hare, hgoes⟩ := hstep
  have hwaited : Waited w w₁ := ⟨heq, hwaits⟩
  have hsize : w₁.size = w.size := by rw [heq]
  cases hrunning : runningNetwork networks with
  | some network =>
    have hmem := List.mem_filter.mp (List.mem_of_getLast? hrunning)
    obtain ⟨hnetwork, -, hhead⟩ := (show NetworksAre env w₁ networks from hare) network hmem.1 (of_decide_eq_true hmem.2)
    dsimp only
    cases hpool : network.instancePools with
    | nil =>
      rw [hpool] at hhead
      cases hhead
    | cons pool rest =>
      rw [hpool] at hhead
      refine ⟨hwaited, network.id, ?_⟩
      rw [hnetwork, Option.some.inj hhead, hsize]
  | none =>
    have hpoolKind : env.kind = .instancePool := by
      cases hcase : env.kind with
      | computeCluster => exact absurd hcase hkind
      | clusterNetwork => exact absurd hrunning (hgoes hcase)
      | instancePool => rfl
    dsimp only
    refine wp_perform_attempt_seq trivial fun answer w₂ hstep₂ => ?_
    obtain ⟨heq₂, hwaits₂, htells, hgoes₂⟩ := hstep₂
    have hwaited₂ := hwaited.trans ⟨heq₂, hwaits₂⟩
    cases answer with
    | error e => exact hgoes₂.elim
    | ok clusters =>
      dsimp only
      unfold findBeside
      rw [show activeCluster env.request.clusterName clusters = none from htells]
      refine wp_perform_seq trivial (fun (pools : List ListedPool) w₃ hstep₃ => ?_) fun e w₃ hstep₃ => hstep₃.2.2.2
      obtain ⟨heq₃, hwaits₃, hpools, hgoes₃⟩ := hstep₃
      have hwaited₃ := hwaited₂.trans ⟨heq₃, hwaits₃⟩
      obtain ⟨pool, hpool⟩ := Option.ne_none_iff_exists'.mp (hgoes₃ hpoolKind)
      have hmem := List.mem_filter.mp (List.mem_of_getLast? hpool)
      have hsame := (show PoolsAre env w₃ pools from hpools) pool hmem.1 (of_decide_eq_true hmem.2)
      refine ⟨hwaited₃, pool.id, ?_⟩
      rw [hpool, Option.map_some, hsame, hpoolKind, hwaited₃.1]

/-! ### The nodes -/

/-- The names and the addresses of the members are found, and differ. -/
structure Identified (env : Pool) (ids : List String) : Prop where
  known : ∀ id ∈ ids, ∀ previous, entryOf env.privateIp env.kind previous (env.turnOf id) = some (env.nodeOf id)
  addressed : ∀ id ∈ ids, addressText (env.nodeOf id) ≠ none
  names : (ids.map fun id => (env.nodeOf id).displayName).Nodup
  addresses : (ids.map fun id => addressText (env.nodeOf id)).Nodup

theorem Identified.sublist {ids others : List String} (h : Identified env ids) (hids : others.Sublist ids) :
    Identified env others :=
  ⟨fun id hid => h.known id (hids.subset hid), fun id hid => h.addressed id (hids.subset hid),
    h.names.sublist (hids.map _), h.addresses.sublist (hids.map _)⟩

theorem getInstancesFrom_known {ids : List String}
    (hknown : ∀ id ∈ ids, ∀ previous, entryOf env.privateIp env.kind previous (env.turnOf id) = some (env.nodeOf id))
    (previous : Option VnicAttachment) :
    getInstancesFrom env.privateIp env.kind previous (ids.map env.turnOf) = ids.map env.nodeOf := by
  induction ids generalizing previous with
  | nil => rfl
  | cons id rest ih =>
    rw [List.map_cons, List.map_cons, getInstancesFrom, hknown id List.mem_cons_self,
      ih fun other hother => hknown other (List.mem_cons_of_mem id hother)]
    rfl

theorem exists_mapM {α β : Type} {f : α → Option β} {xs : List α} (h : ∀ x ∈ xs, f x ≠ none) :
    ∃ ys, xs.mapM f = some ys ∧ xs.map f = ys.map some := by
  induction xs with
  | nil => exact ⟨[], rfl, rfl⟩
  | cons x rest ih =>
    obtain ⟨ys, hmap, hsame⟩ := ih fun other hother => h other (List.mem_cons_of_mem x hother)
    obtain ⟨y, hy⟩ := Option.ne_none_iff_exists'.mp (h x List.mem_cons_self)
    refine ⟨y :: ys, ?_, ?_⟩
    · rw [List.mapM_cons, hy, hmap]
      rfl
    · rw [List.map_cons, List.map_cons, hy, hsame]

/-- These are the names and the addresses of the members. -/
def IdentityOf (env : Pool) (ids : List String) (names ips : List String) : Prop :=
  names = ids.map (fun id => (env.nodeOf id).displayName) ∧ ids.map (fun id => addressText (env.nodeOf id)) = ips.map some

theorem exists_identities {ids : List String} (h : Identified env ids) :
    ∃ names ips, identities (ids.map env.nodeOf) ids.length = .ok (names, ips) ∧ IdentityOf env ids names ips := by
  have haddressed : ∀ node ∈ ids.map env.nodeOf, addressText node ≠ none := fun node hnode => by
    obtain ⟨id, hid, rfl⟩ := List.mem_map.mp hnode
    exact h.addressed id hid
  obtain ⟨ips, hips, hsame⟩ := exists_mapM haddressed
  have hnames : (ids.map env.nodeOf).map (·.displayName) = ids.map fun id => (env.nodeOf id).displayName := by
    rw [List.map_map]
    rfl
  have haddresses : ids.map (fun id => addressText (env.nodeOf id)) = ips.map some := by
    rw [← hsame, List.map_map]
    rfl
  have hdistinct : ips.Nodup := List.Nodup.of_map some (haddresses ▸ h.addresses)
  refine ⟨_, ips, ?_, rfl, haddresses⟩
  unfold identities
  rw [if_neg (by rw [List.length_map]; exact not_not.mpr rfl), hips]
  dsimp only
  rw [if_neg (not_or.mpr ⟨not_not.mpr (hnames ▸ h.names), not_not.mpr hdistinct⟩), hnames]

theorem good_runningTurn {id : String} {next : Prog clusterSig CallError Unit} (h : Waited w w')
    (hsize : w.size = w.members.length)
    (hnext : ∀ later, Waited w later → later.waits id < w'.waits id →
      wp (goodCall env) next ⟨fun _ => Waited w, fun _ _ => False, fun _ => True⟩ later) :
    wp (goodCall env) (runningTurn env.request env.kind id (some w.size) next)
      ⟨fun _ => Waited w, fun _ _ => False, fun _ => True⟩ w' := by
  refine wp_perform_seq trivial (fun (state : String) w₁ hstep => ?_) fun e w₁ hstep => hstep.2.2.2
  obtain ⟨heq, hwaits, -, hgoes⟩ := hstep
  have hwaited := h.trans ⟨heq, hwaits⟩
  refine wp_perform_seq trivial (fun (ids : List String) w₂ hstep₂ => ?_) fun e w₂ hstep₂ => hstep₂.2.2.2
  obtain ⟨heq₂, hwaits₂, -, hmembers⟩ := hstep₂
  have hwaited₂ := hwaited.trans ⟨heq₂, hwaits₂⟩
  split
  · rename_i hstate
    exact hnext w₂ hwaited₂ (lt_of_le_of_lt (hwaits₂ id) (hgoes hstate))
  · have hids : ids = w.members := by
      rw [show ids = w₁.members from hmembers, hwaited.1]
    rw [hids, Option.all_some, ← hsize, decide_eq_true rfl, if_pos rfl]
    exact hwaited₂

theorem good_waitForRunning {id : String} (h : Waited w w') (hsize : w.size = w.members.length)
    (hwaits : w'.waits id ≤ turns) :
    wp (goodCall env) (waitForRunning env.request env.kind id (some w.size) turns)
      ⟨fun _ => Waited w, fun _ _ => False, fun _ => True⟩ w' := by
  induction turns generalizing w' with
  | zero => exact good_runningTurn h hsize fun later _ hless => absurd hless (by omega)
  | succ turns ih => exact good_runningTurn h hsize fun later hlater hless => ih hlater (by omega)

/-- **The names and the addresses in use are found**, where they are asked for. -/
theorem good_activeIdentities {id : String} (hkind : env.kind ≠ .computeCluster) (hsize : w.size = w.members.length)
    (hwaits : w.waits id ≤ turns) (hidentified : env.request.dnsEntries = true → Identified env w.members) :
    wp (goodCall env) (activeIdentities env.privateIp env.request turns env.kind id w.size)
      ⟨fun active w' => Waited w w' ∧ (env.request.dnsEntries = true → ∃ names ips, active = (some names, some ips) ∧
        IdentityOf env w.members names ips), fun _ _ => False, fun _ => True⟩ w := by
  unfold activeIdentities
  split
  · rename_i hdns
    unfold waitForRunningStatus
    rw [if_neg hkind]
    refine wp_seq (good_waitForRunning Waited.refl hsize hwaits) fun _ w₁ hwaited => ?_
    obtain ⟨names, ips, hfound, hidentity⟩ := exists_identities (hidentified hdns)
    refine wp_seq (R := fun found w' => Waited w w' ∧ found = (names, ips)) ?_ fun found w₂ hlooked => ?_
    · refine wp_seq (R := fun nodes w' => Waited w w' ∧ nodes = w.members.map env.nodeOf) ?_ fun nodes w₂ hnodes => ?_
      · refine wp_perform_seq trivial (fun (listed : List Turn) w₂ hstep => ?_) fun e w₂ hstep => hstep.2.2.2
        obtain ⟨heq, hless, -, hlisted⟩ := hstep
        refine ⟨hwaited.trans ⟨heq, hless⟩, ?_⟩
        rw [show listed = w₁.members.map env.turnOf from hlisted, hwaited.1]
        exact getInstancesFrom_known (hidentified hdns).known none
      · rw [hnodes.2, hsize, hfound]
        exact ⟨hnodes.1, rfl⟩
    · exact ⟨hlooked.1, fun _ => ⟨names, ips, by rw [hlooked.2], hidentity⟩⟩
  · rename_i hdns
    exact ⟨Waited.refl, fun htrue => absurd htrue hdns⟩

end

/-! ## Finalizing -/

def Record.node (record : Record) : Node := ⟨record.instanceDisplayName, record.instancePrivateIp, record.instanceId⟩

/-- The DNS records of the nodes can be deleted: the site has a zone and names for them, and the nodes that stay are found
and have other names and addresses. -/
structure Cleanable (env : Pool) (pending : List Record) (w : World) : Prop where
  zones : w.final.zones env.request.compartmentId env.request.dns.zoneName ≠ []
  queue : env.request.dns.queue.isSome
  privateSubnet : env.request.dns.privateSubnet.isSome
  slurmNamed : ∀ record ∈ pending, (env.request.dns.slurmDomain record.instancePrivateIp.toList).isSome
  identified : Identified env w.members
  fresh : ∀ record ∈ pending, ∀ id ∈ w.members, id ∉ pending.map (·.instanceId) →
    (env.nodeOf id).displayName ≠ record.node.displayName ∧ addressText (env.nodeOf id) ≠ addressText record.node

/-- The variables of Terraform have this node count: they are found, and writing it changes nothing. -/
def Counted (isWord : Char → Bool) (size : Nat) (variablesTf : Option Text) : Prop :=
  ∃ text, variablesTf = some text ∧ foundVariables text = true ∧ rewriteVariables isWord size text = some text

/-- Nothing is left to be done for the records: each node is gone and was detached once, the journal is empty, only members
have a scratch volume, and the node count is the size of the pool, unless the cluster is the permanent one. -/
structure Converged (env : Pool) (pending : List Record) (w : World) : Prop where
  removed : ∀ record ∈ pending, NodeGone w record
  once : ∀ record ∈ pending, w.detached record.instanceId = 1
  journal : journalOf w.final.disk = some []
  size : w.size = w.members.length
  clean : ∀ id volumeId, env.scratch id volumeId → id ∈ w.members ∨ w.VolumeGone volumeId
  counted : env.inventoryPath ≠ "/etc/ansible/hosts" → Counted env.isWord w.size.toNat w.final.terraform.variablesTf

theorem Record.text_ne_empty (record : Record) {key : String} (hkey : key ∈ requiredStringKeys) : record.text key ≠ "" := by
  have hvalid := record.valid
  unfold invalidKey at hvalid
  have hstring := List.find?_eq_none.mp (Option.or_eq_none_iff.mp hvalid).1 key hkey
  unfold Record.text
  cases hvalue : Dict.getD record.fields key .null with
  | str s =>
    rw [hvalue] at hstring
    simpa [Json.nonemptyStr, Json.str?] using hstring
  | _ =>
    rw [hvalue] at hstring
    exact absurd rfl hstring

theorem storedRecord_of_mem {pending : List Record} (hdistinct : (pending.map (·.volumeId)).Nodup) {record : Record}
    (hmem : record ∈ pending) : storedRecord pending record.volumeId = some record := by
  cases hfind : storedRecord pending record.volumeId with
  | none => exact absurd (beq_self_eq_true record.volumeId) (List.find?_eq_none.mp hfind record hmem)
  | some stored =>
    have hid : (stored.volumeId == record.volumeId) = true :=
      List.find?_some (p := fun other : Record => other.volumeId == record.volumeId) hfind
    rw [List.inj_on_of_nodup_map hdistinct (List.mem_of_find?_eq_some hfind) hmem (eq_of_beq hid)]

section
variable {env : Pool} {w w' : World} {pending : List Record} {turns : Nat}

theorem Cleanable.onward (h : Cleanable env pending w) (hw : Onward w w') : Cleanable env pending w' :=
  ⟨hw.zones ▸ h.zones, h.queue, h.privateSubnet, h.slurmNamed, h.identified.sublist hw.members,
    fun record hrecord id hid => h.fresh record hrecord id (hw.members.subset hid)⟩

theorem ipAddress_of_slurmDomain {dns : DnsSite} {ip : Text} (h : (dns.slurmDomain ip).isSome) :
    ∃ address, ipAddress ip = some address := by
  cases hip : ipAddress ip with
  | some address => exact ⟨address, rfl⟩
  | none =>
    unfold DnsSite.slurmDomain at h
    cases hsubnet : dns.privateSubnet with
    | none => simp [hsubnet] at h
    | some subnet => simp [hsubnet, Subnet.hostIndex, hip] at h

/-- **The removed nodes are not active.** -/
theorem inactive_of_removed (hclean : Cleanable env pending w) (hremoved : ∀ record ∈ pending, NodeGone w record)
    {names ips : List String} (hidentity : IdentityOf env w.members names ips) {record : Record} (hmem : record ∈ pending) :
    Inactive env.request.dns names ips record := by
  have hslurm := hclean.slurmNamed record hmem
  obtain ⟨address, haddress⟩ := ipAddress_of_slurmDomain hslurm
  have hfresh := fun id hid => hclean.fresh record hmem id hid fun hpending => by
    obtain ⟨other, hother, rfl⟩ := List.mem_map.mp hpending
    exact (hremoved other hother).left hid
  have htext : addressText record.node = some (String.ofList (dotted address)) := by
    unfold addressText
    rw [show ipAddress record.node.ip.toList = some address from haddress, Option.map_some]
  refine ⟨⟨address, haddress, fun hname => ?_, fun hip => ?_⟩, Option.isSome_iff_exists.mp hslurm⟩
  · rw [hidentity.1] at hname
    obtain ⟨id, hid, heq⟩ := List.mem_map.mp hname
    exact (hfresh id hid).1 heq
  · have hsome : some (String.ofList (dotted address)) ∈ ips.map some := List.mem_map_of_mem hip
    rw [← hidentity.2] at hsome
    obtain ⟨id, hid, heq⟩ := List.mem_map.mp hsome
    exact (hfresh id hid).2 (heq.trans htext.symm)

/-- **The checks of the finalization pass**, once the nodes are gone. -/
theorem checksPass_of_removed (h : Recoverable env pending nobody w) (hnonempty : pending ≠ [])
    (hremoved : ∀ record ∈ pending, NodeGone w record) {active : Option (List String) × Option (List String)}
    (hactive : env.request.dnsEntries = true → Cleanable env pending w ∧
      ∃ names ips, active = (some names, some ips) ∧ IdentityOf env w.members names ips) :
    ChecksPass env.request pending ⟨some w.size, some env.poolId, active.1, active.2⟩ w.final where
  records := by
    refine ⟨pending, h.journal, fun record hmem => ⟨⟨(h.sound.fits record hmem).clusterName,
      (h.sound.fits record hmem).compartmentId⟩, record, ?_, Json.SameValue.refl _⟩⟩
    exact storedRecord_of_mem (nodup_of_journalOf h.journal) hmem
  poolIdentity := by
    obtain ⟨record, hmem⟩ := List.exists_mem_of_ne_nil pending hnonempty
    refine ⟨env.poolId, rfl, ?_, fun other hother => (h.sound.fits other hother).poolId⟩
    rw [← (h.sound.fits record hmem).poolId]
    exact record.text_ne_empty (by decide)
  poolSize := by
    refine ⟨w.size, rfl, fun record hmem => ?_⟩
    obtain ⟨hmember, -⟩ | ⟨-, -, hless⟩ := (h.sound.fits record hmem).once
    · exact absurd hmember (hremoved record hmem).left
    · exact hless
  zone hdns := ⟨(hactive hdns).1.zones, (hactive hdns).1.queue, (hactive hdns).1.privateSubnet⟩
  activeIdentity hdns := by
    obtain ⟨hclean, names, ips, rfl, hidentity⟩ := hactive hdns
    exact ⟨names, ips, rfl, rfl, fun record hmem => inactive_of_removed hclean hremoved hidentity hmem⟩

theorem counted_of_recounted {inventoryPath : String} {isWord : Char → Bool} {size : Nat} {before after : Option Text}
    (hpath : inventoryPath ≠ "/etc/ansible/hosts") (h : Recounted isWord inventoryPath size before after) :
    Counted isWord size after := by
  unfold Recounted at h
  rw [if_neg hpath] at h
  obtain ⟨text, written, -, hwritten, hfound, rfl⟩ := h
  obtain ⟨hfoundAgain, next, hnext, hsame⟩ := rewriteVariables_again hfound hwritten size
  exact ⟨written, rfl, hfoundAgain, by rw [hnext, ← hsame, hwritten]⟩

theorem remaining_self (pending : List Record) : remaining pending pending = [] := by
  refine List.filter_eq_nil_iff.mpr fun record hmem => ?_
  have hvolume : record.volumeId ∈ pending.map (·.volumeId) := List.mem_map_of_mem hmem
  simpa using hvolume

/-- **A finalization of all records**, once their nodes are gone. -/
theorem good_finalizePending (h : Recoverable env pending nobody w) (hnonempty : pending ≠ [])
    (hremoved : ∀ record ∈ pending, NodeGone w record) {pool : PoolState}
    (hpool : pool.size = some w.size) (hchecks : ChecksPass env.request pending pool w.final) :
    wp (goodStep env) (finalizePending env.request pending pool)
      ⟨fun _ => Converged env pending, fun _ _ => False, fun _ => True⟩ w := by
  obtain ⟨found, size, removed, hplanned⟩ := checksPass_iff.mp hchecks
  have hcalls := calls_finalizePending_final env.request pending pool
  have hcalm := wp_final_good hcalls (calm_finalizePending hplanned : wp (smoothStep env.isWord env.inventoryPath)
    (finalizePending env.request pending pool) _ w.final)
  have heffects := wp_final (finalizePending_effects hnonempty : wp (finalStep env.isWord env.inventoryPath)
    (finalizePending env.request pending pool) _ w.final)
  have hkept : Keeps (goodStep env) (fun w' => Sound env pending w' ∧ w.SamePool w')
      (finalizePending env.request pending pool) :=
    keeps_of_calls hcalls fun w' o r w'' ho hw' hstep => by
      refine ⟨hw'.1.final ho hstep.1, ?_⟩
      obtain ⟨hmembers, hsize, hdetached⟩ := hstep.1.2.1.samePool fun id heq => by
        subst heq
        exact ho.elim
      exact ⟨hmembers.trans hw'.2.1, hsize.trans hw'.2.2.1, hdetached.trans hw'.2.2.2⟩
  refine wp_mono (wp_and hcalm (wp_and (wp_good heffects) (wp_and (hkept w ⟨h.sound, rfl, rfl, rfl⟩)
    (keeps_onward _ w w Onward.refl)))) (fun _ w' hends => ?_) (fun _ _ h => h.1) fun _ _ => trivial
  obtain ⟨-, hcommitted, ⟨hsound, hsame⟩, honward⟩ := hends
  obtain ⟨others, another, gone, hagain, -, -, hcount, hwritten⟩ := hcommitted
  obtain rfl := Option.some.inj (h.journal.symm.trans hagain.journal)
  obtain ⟨-, -, hsize, -⟩ := checkFinalize_eq_ok.mp hagain.checked
  obtain rfl := Option.some.inj (hpool.symm.trans hsize)
  have hgone : ∀ record ∈ pending, NodeGone w' record := fun record hmem => (hremoved record hmem).onward honward
  rw [remaining_self] at hwritten
  refine ⟨hgone, fun record hmem => ?_, journalOf_of_written hwritten List.nodup_nil, hsound.size,
    fun id volumeId hscratch => ?_, fun hpath => ?_⟩
  · obtain ⟨hmember, -⟩ | ⟨-, honce, -⟩ := (hsound.fits record hmem).once
    · exact absurd hmember (hgone record hmem).left
    · exact honce
  · refine (hsound.spoken id).imp_right fun hspoken => ?_
    obtain hpending | hdone := hspoken volumeId hscratch
    · obtain ⟨record, hmem, rfl⟩ := List.mem_map.mp hpending
      exact (hgone record hmem).volumeGone
    · exact hdone
  · rw [hsame.2.1]
    exact counted_of_recounted hpath hcount

/-- **What is ready is finalized** with the pool as it is found. -/
theorem good_finalizeReady (hkind : env.kind ≠ .computeCluster)
    (h : Recoverable env pending nobody w) (hnonempty : pending ≠ []) (hremoved : ∀ record ∈ pending, NodeGone w record)
    (hwaits : ∀ id, w.waits id < turns) (hdns : env.request.dnsEntries = true → Cleanable env pending w) (id : String) :
    wp (goodCall env) (finalizeReady env.privateIp env.request turns ⟨env.kind, id, some ⟨env.poolId, w.size⟩⟩ pending)
      ⟨fun _ => Converged env pending, fun _ _ => False, fun _ => True⟩ w := by
  refine wp_seq (good_activeIdentities hkind h.sound.size (hwaits id).le fun htrue => (hdns htrue).identified)
    fun active w₁ hfound => ?_
  obtain ⟨hwaited, hactive⟩ := hfound
  have honward := hwaited.onward
  have hsize : w₁.size = w.size := by rw [hwaited.1]
  have hmembers : w₁.members = w.members := by rw [hwaited.1]
  have hremoved₁ : ∀ record ∈ pending, NodeGone w₁ record := fun record hmem => (hremoved record hmem).onward honward
  rw [wp_routine_good]
  refine good_finalizePending (h.waited hwaited) hnonempty hremoved₁ (congrArg some hsize.symm) ?_
  rw [← hsize]
  exact checksPass_of_removed (h.waited hwaited) hnonempty hremoved₁ fun htrue =>
    ⟨(hdns htrue).onward honward, by rw [hmembers]; exact hactive htrue⟩

end

/-! ## Histories -/

/-- The pool before the first removal: the journal is empty, the members run, and what a removal recognizes of them is what they
came with. -/
structure Intact (env : Pool) (w : World) : Prop where
  journal : journalOf w.final.disk = some []
  nodup : w.members.Nodup
  size : w.size = w.members.length
  running : ∀ id ∈ w.members, w.Running id
  undetached : ∀ id, w.detached id = 0
  scratch : ∀ id volumeId, env.scratch id volumeId ↔
    id ∈ w.members ∧ ∃ found, w.instances id = some found ∧ ScratchOf env found id volumeId

/-- Between two runs what is on its way out may go; nobody changes the journal or the pool. -/
structure Rests (w w' : World) : Prop where
  journal : journalOf w'.final.disk = journalOf w.final.disk
  instances : ∀ id, InstanceAges (w.instances id) (w'.instances id)
  volumes : ∀ id, VolumeAges (w.volumes id) (w'.volumes id)
  pool : w.SamePool w'

/-- The worlds that removals leave, each of which may be cut off anywhere. -/
inductive PoolReached (env : Pool) : World → Prop
  | intact {w : World} (h : Intact env w) : PoolReached env w
  | run {w w' : World} {out : Outcome CallError Unit} (turns : Nat) (names : List String)
      (select : List Node → Option (List String)) (h : PoolReached env w)
      (hrun : Exec (anyCall env) (removeRun env.privateIp env.request turns names select) w out w') : PoolReached env w'
  | rests {w w' : World} (h : PoolReached env w) (hrests : Rests w w') : PoolReached env w'

/-- The run names the nodes of the journal, no wait comes to its deadline, and the DNS records can be deleted. -/
structure Resumable (env : Pool) (pending : List Record) (hostnames : List String) (turns : Nat) (w : World) : Prop where
  named : ∀ record ∈ pending, record.instanceDisplayName ∈ hostnames
  patient : ∀ id, w.waits id < turns
  cleanable : env.request.dnsEntries = true → Cleanable env pending w

section
variable {env : Pool} {w w' : World} {pending : List Record} {turns : Nat} {hostnames : List String}

theorem Intact.canRecover (h : Intact env w) : CanRecover env nobody w := by
  have hcame : ∀ id found, w.instances id = some found → ∀ volumeId, env.scratch id volumeId →
      ScratchOf env found id volumeId := by
    intro id found hfound volumeId hscratch
    obtain ⟨-, other, hother, hcame⟩ := (h.scratch id volumeId).mp hscratch
    rw [Option.some.inj (hfound.symm.trans hother)]
    exact hcame
  have hspoken : ∀ id, id ∈ w.members ∨ Spoken env [] w id := fun id => by
    by_cases hmember : id ∈ w.members
    · exact .inl hmember
    · exact .inr fun volumeId hscratch => absurd ((h.scratch id volumeId).mp hscratch).1 hmember
  exact ⟨[], h.journal, ⟨h.nodup, h.size, h.running, fun id _ => h.undetached id,
    fun _ hnone => absurd hnone List.not_mem_nil, hcame, hspoken⟩, fun _ hnone => hnone.elim⟩

theorem Recoverable.rests (h : Recoverable env pending nobody w) (hw : Rests w w') : Recoverable env pending nobody w' := by
  -- what happens between the runs, as if a call that only looks were answered meanwhile
  have hchanges : Changes env w (.getVolume "") w' := ⟨fun id => .inl (hw.instances id), hw.volumes, .inl hw.pool⟩
  exact ⟨hw.journal.trans h.journal, h.sound.step hchanges (fun _ _ => nofun) fun _ => nofun, fun _ hnone => hnone.elim⟩

theorem CanRecover.run {names : List String} {select : List Node → Option (List String)} {out : Outcome CallError Unit}
    (h : CanRecover env nobody w)
    (hrun : Exec (anyCall env) (removeRun env.privateIp env.request turns names select) w out w') :
    CanRecover env nobody w' := by
  have hspec := hrun.of_wp (wp_removeRun h turns names select)
  cases out with
  | done a => exact hspec
  | raised e => exact hspec
  | cut => exact hspec

theorem PoolReached.canRecover (h : PoolReached env w) : CanRecover env nobody w := by
  induction h with
  | intact h => exact h.canRecover
  | run turns names select _ hrun ih => exact ih.run hrun
  | rests _ hrests ih =>
    obtain ⟨pending, h⟩ := ih
    exact ⟨pending, h.rests hrests⟩

/-- **A run that resumes converges.** -/
theorem good_removeRun (hkind : env.kind ≠ .computeCluster)
    (h : Recoverable env pending nobody w) (hnonempty : pending ≠ []) (hresumable : Resumable env pending hostnames turns w)
    (select : List Node → Option (List String)) :
    wp (goodCall env) (removeRun env.privateIp env.request turns hostnames select)
      ⟨fun _ => Converged env pending, fun _ _ => False, fun _ => True⟩ w := by
  refine wp_seq (R := fun ready w' => ready = pending ∧ Recoverable env pending nobody w' ∧
    (∀ record ∈ pending, NodeGone w' record) ∧ Onward w w') ?_ fun ready w₁ hretried => ?_
  · rw [wp_routine_good]
    exact good_processPending h hresumable.patient hresumable.named
  obtain ⟨rfl, h₁, hremoved, honward⟩ := hretried
  refine wp_seq (good_getSummary hkind) fun found w₂ hfound => ?_
  obtain ⟨hwaited, id, rfl⟩ := hfound
  have honward₂ := honward.trans hwaited.onward
  dsimp only
  rw [if_neg fun hempty => hnonempty (List.isEmpty_iff.mp hempty), show w₁.size = w₂.size by rw [hwaited.1]]
  refine wp_seq (good_finalizeReady hkind (h₁.waited hwaited) hnonempty
    (fun record hmem => (hremoved record hmem).onward hwaited.onward)
      (fun other => lt_of_le_of_lt (honward₂.waits other) (hresumable.patient other))
        (fun htrue => (hresumable.cleanable htrue).onward honward₂) id) fun _ _ hends => hends

end

/-- **The journal is accepted and the pool is sound** after any history: no member was detached, and each node of the journal
is a member or was detached once. -/
theorem sound_of_reached {env : Pool} {w : World} (h : PoolReached env w) :
    ∃ pending, journalOf w.final.disk = some pending ∧ Sound env pending w := by
  obtain ⟨pending, h⟩ := h.canRecover
  exact ⟨pending, h.journal, h.sound⟩

/-- **No scratch volume is lost**: it is that of a member, it is in the journal, or it is gone. -/
theorem no_scratch_lost {env : Pool} {w : World} (h : PoolReached env w) {id volumeId : String}
    (hscratch : env.scratch id volumeId) : id ∈ w.members ∨
      (∃ pending, journalOf w.final.disk = some pending ∧ volumeId ∈ pending.map (·.volumeId)) ∨ w.VolumeGone volumeId := by
  obtain ⟨pending, hjournal, hsound⟩ := sound_of_reached h
  refine (hsound.spoken id).imp_right fun hspoken => ?_
  exact (hspoken volumeId hscratch).imp_left fun hpending => ⟨pending, hjournal, hpending⟩

/-- **A removal that was cut off converges**, after any history. -/
theorem removal_converges {env : Pool} (hkind : env.kind ≠ .computeCluster) {turns : Nat} {hostnames : List String}
    {select : List Node → Option (List String)} {w w' : World} {out : Outcome CallError Unit} {pending : List Record}
    (hreached : PoolReached env w) (hjournal : journalOf w.final.disk = some pending) (hnonempty : pending ≠ [])
    (hresumable : Resumable env pending hostnames turns w)
    (hrun : Exec (goodCall env) (removeRun env.privateIp env.request turns hostnames select) w out w') (hends : out ≠ .cut) :
    out = .done () ∧ Converged env pending w' := by
  obtain ⟨others, h⟩ := hreached.canRecover
  obtain rfl := Option.some.inj (h.journal.symm.trans hjournal)
  have hspec := hrun.of_wp (good_removeRun hkind h hnonempty hresumable select)
  cases out with
  | done a => exact ⟨rfl, hspec⟩
  | raised e => exact hspec.elim
  | cut => exact absurd rfl hends

/-! ### A pool of two nodes -/

def pairPool : Pool where
  isWord _ := false
  inventoryPath := "hosts"
  request := nodeRequest
  kind := .instancePool
  clusterId := "p"
  poolId := "p"
  attachments id := if id = "i" then [scratchVolumeAttachment] else []
  scratch id volumeId := id = "i" ∧ volumeId = "v"
  turnOf id := ⟨id, if id = "i" then "node" else "other", "RUNNING", true, some [⟨none, id⟩], fun _ => true⟩
  nodeOf id := ⟨if id = "i" then "node" else "other", if id = "i" then "10.0.0.2" else "10.0.0.3", id⟩
  privateIp id := if id = "i" then "10.0.0.2" else "10.0.0.3"

/-- The node with its scratch volume, beside another. -/
def pairWorld : World where
  final := ⟨noFiles, fun _ _ => [], ∅, poolFiles⟩
  instances id :=
    if id = "i" then some scratchInstance
    else if id = "j" then some { scratchInstance with id := "j", displayName := "other" }
    else none
  volumes id := if id = "v" then some nodeVolume else none
  members := ["i", "j"]
  size := 2
  detached _ := 0
  waits _ := 0

/-- What is written of the variables and the state of the pool once one node is left. -/
def pairPushed : Text := "\x7b\n  \"serial\": 5,\n  \"resources\": [\n      \"size\": 1,\n  ]\n\x7d\n".toList

def pairWritten : Text := "variable \"node_count\" \x7b default = \"1\" \x7d\n".toList

/-- The files of Terraform are those of the two nodes. -/
def HasPoolFiles (w : Terraform) : Prop :=
  w.files (.named .tfstate) = some poolState ∧ w.files (.named .variablesTf) = some poolVariables ∧
    w.files (.temp 0) = none ∧ w.files (.temp 1) = none

instance (w : Terraform) : Decidable (HasPoolFiles w) := inferInstanceAs (Decidable (_ ∧ _))

/-- OCI shows what it has, and terminates and deletes at once. No detachment succeeds where `cutting`. -/
def pairStep (cutting : Bool) (w : World) : (o : ResizeCall) → Except CallError o.Ans × World
  | .file o =>
      let answered := scratchOutside [] false w.final.disk (.file o)
      (answered.1, { w with final := { w.final with disk := answered.2 } })
  | .getInstance id => (shown (w.instances id), w)
  | .listVolumeAttachments _ id => (.ok (pairPool.attachments id), w)
  | .poll _ id => (.ok ⟨pairPool.attachments id, fun _ => .ok nodeVolume.toVolume⟩, w)
  | .terminateInstance id _ => (.ok (), { w with instances := Function.update w.instances id none })
  | .getInstancePool _ => (.ok ⟨"p", "c", w.size⟩, w)
  | .listInstancePoolInstances .. => (.ok w.members, w)
  | .detachInstance poolId id =>
      if cutting = false ∧ poolId = "p" ∧ id ∈ w.members ∧ w.members.Nodup then
        (.ok (), { w with
          members := w.members.erase id
          size := w.size - 1
          detached := Function.update w.detached id (w.detached id + 1) })
      else (.error (.service 500 "InternalServerError"), w)
  | .getVolume id => (shown (w.volumes id), w)
  | .deleteVolume id => (.ok (), { w with volumes := Function.update w.volumes id none })
  | .updateTFState size =>
      if size = 1 ∧ HasPoolFiles w.final.terraform then
        (.ok (), { w with final := { w.final with terraform := w.final.terraform.updated pairPushed pairWritten } })
      else (.error (.service 500 "InternalServerError"), w)
  | _ => (.error (.service 500 "InternalServerError"), w)

def pairOutside (cutting : Bool) (w : World) : (o : ClusterCall) → Except CallError o.Ans × World
  | .resize o => pairStep cutting w o
  | .listClusterNetworks .. => (.ok ([] : List NetworkSummary), w)
  | .listComputeClusters .. => (.ok ([] : List ListedCluster), w)
  | .listInstancePools .. => (.ok [(⟨⟨"p", w.size⟩, "RUNNING"⟩ : ListedPool)], w)
  | .getLifecycleState .. => (.ok "RUNNING", w)
  | .listMembers .. => (.ok w.members, w)
  | .listTurns .. => (.ok (w.members.map pairPool.turnOf), w)
  | .listNamed _ name =>
      (.ok ((w.instances "i").filter fun found => found.id == "i" && name == found.displayName).toList, w)

/-- Every call of the execution passes a test of the state before it. -/
def meets {S : Sig} {ε α W : Type} (outside : W → (o : S.Call) → Except ε (S.Ans o) × W) (test : W → S.Call → Bool) :
    Prog S ε α → W → Bool
  | .ret _, _ | .throw _, _ => true
  | .call o k, w => test w o && meets outside test (k (outside w o).1) (outside w o).2

theorem exec_of_meets {S : Sig} {ε α W : Type} {H : Handler S ε W} {outside : W → (o : S.Call) → Except ε (S.Ans o) × W}
    {test : W → S.Call → Bool} (hout : ∀ w o, test w o = true → H w o (outside w o).1 (outside w o).2) {p : Prog S ε α}
    {w : W} (h : meets outside test p w = true) :
    Exec H p w (.ofExcept (p.run outside w).1) (p.run outside w).2 := by
  induction p generalizing w with
  | ret a => exact .ret
  | throw e => exact .throw
  | call o k ih =>
    obtain ⟨ho, hk⟩ := Bool.and_eq_true_iff.mp h
    exact .call (hout w o ho) (ih _ hk)

theorem exec_of_less {S : Sig} {ε α W : Type} {H H' : Handler S ε W} (hless : ∀ {w o r w'}, H w o r w' → H' w o r w')
    {p : Prog S ε α} {w w' : W} {out : Outcome ε α} (h : Exec H p w out w') : Exec H' p w out w' := by
  induction h with
  | ret => exact .ret
  | throw => exact .throw
  | cut => exact .cut
  | call hstep _ ih => exact .call (hless hstep) ih

def isAnswered (cutting : Bool) (w : World) (o : ClusterCall) : Bool :=
  match (pairOutside cutting w o).1 with
  | .ok _ => true
  | .error _ => false

def mayRaise (cutting : Bool) (w : World) : ClusterCall → Bool
  | .resize (.updateTFState size) => isAnswered cutting w (.resize (.updateTFState size))
  | _ => true

/-- The call is answered, with what is not on its way out or with what is gone. -/
def isSettled (cutting : Bool) (w : World) : ClusterCall → Bool
  | .resize (.getInstance id) => (w.instances id).all fun found => found.lifecycleState != "TERMINATING"
  | .resize (.getVolume id) => (w.volumes id).all fun volume => volume.lifecycleState != "TERMINATING"
  | o => isAnswered cutting w o

section
variable {cutting : Bool} {w : World} {env : Pool}

theorem InstanceAges.refl (found : Option Instance) : InstanceAges found found := by
  cases found with
  | none => rfl
  | some found => exact ⟨rfl, ⟨fun h => h, .inl⟩, fun h => h⟩

theorem VolumeAges.refl (volume : Option StoredVolume) : VolumeAges volume volume := by
  cases volume with
  | none => rfl
  | some volume => exact ⟨rfl, fun h => h, .inl⟩

theorem VolumeAges.gone (volume : Option StoredVolume) : VolumeAges volume none := by
  cases volume with
  | none => rfl
  | some volume => trivial

theorem InstanceAges.gone (found : Option Instance) : InstanceAges (found.map terminating) none := by
  cases found with
  | none => rfl
  | some found =>
    show IsEnding (terminating found).lifecycleState
    unfold terminating
    split
    · assumption
    · exact .inl rfl

theorem changes_final (o : ResizeCall) (final : FinalSite) : Changes env w o { w with final := final } :=
  ⟨fun _ => .inl (InstanceAges.refl _), fun _ => VolumeAges.refl _, .inl ⟨rfl, rfl, rfl⟩⟩

theorem exec_updated {isWord : Char → Bool} {size : Nat} {w : Terraform} {stateText variablesText pushed written : Text}
    (hpath : inventoryPath ≠ "/etc/ansible/hosts") (h : Accepts isWord size w stateText variablesText pushed written) :
    Exec terraformStep (updateTFState isWord inventoryPath size) w (.done true) (w.updated pushed written) := by
  obtain ⟨next, hrun⟩ := exists_updateTFState hpath h
  obtain ⟨hne, -⟩ | ⟨s, v, p, t, haccepts, ⟨hne, -⟩ | rfl⟩ := exec_updateTFState hrun (by simp)
  · exact absurd rfl hne
  · exact absurd rfl hne
  · obtain ⟨rfl, rfl⟩ := h.unique haccepts
    exact exec_of_less (fun hstep => hstep.1) hrun

theorem pairStep_any (o : ResizeCall) (h : mayRaise cutting w (.resize o) = true) :
    anyStep pairPool w o (pairStep cutting w o).1 (pairStep cutting w o).2 := by
  cases o with
  | file o => exact ⟨⟨scratchOutside_answers [] false w.final.disk (.file o), rfl⟩, changes_final _ _, trivial⟩
  | getInstance id =>
    show anyStep pairPool w (.getInstance id) (shown (w.instances id)) w
    cases hfound : w.instances id <;> exact ⟨rfl, changes_final _ _, hfound⟩
  | getVolume id =>
    show anyStep pairPool w (.getVolume id) (shown (w.volumes id)) w
    cases hfound : w.volumes id <;> exact ⟨rfl, changes_final _ _, hfound⟩
  | listVolumeAttachments compartmentId id => exact ⟨rfl, changes_final _ _, fun _ => rfl⟩
  | poll compartmentId id => exact ⟨rfl, changes_final _ _, fun _ => rfl⟩
  | getInstancePool id => exact ⟨rfl, changes_final _ _, fun _ => rfl⟩
  | listInstancePoolInstances compartmentId poolId => exact ⟨rfl, changes_final _ _, fun _ _ => Iff.rfl⟩
  | terminateInstance id preserve =>
    refine ⟨rfl, ⟨fun other => ?_, fun _ => VolumeAges.refl _, .inl ⟨rfl, rfl, rfl⟩⟩, trivial⟩
    show InstanceAges _ (Function.update w.instances id none other) ∨
      _ ∧ InstanceAges _ (Function.update w.instances id none other)
    by_cases hid : other = id
    · subst hid
      rw [Function.update_self]
      exact .inr ⟨⟨preserve, rfl⟩, InstanceAges.gone _⟩
    · rw [Function.update_of_ne hid]
      exact .inl (InstanceAges.refl _)
  | deleteVolume id =>
    refine ⟨rfl, ⟨fun _ => .inl (InstanceAges.refl _), fun other => ?_, .inl ⟨rfl, rfl, rfl⟩⟩, trivial⟩
    show VolumeAges _ (Function.update w.volumes id none other)
    by_cases hid : other = id
    · subst hid
      rw [Function.update_self]
      exact VolumeAges.gone _
    · rw [Function.update_of_ne hid]
      exact VolumeAges.refl _
  | detachInstance poolId id =>
    unfold pairStep
    dsimp only
    split
    · rename_i hdetaches
      obtain ⟨-, rfl, hmem, hnodup⟩ := hdetaches
      exact ⟨rfl, ⟨fun _ => .inl (InstanceAges.refl _), fun _ => VolumeAges.refl _, .inr ⟨id, rfl, hmem, rfl, rfl, rfl⟩⟩,
        fun _ => hnodup.not_mem_erase⟩
    · exact ⟨rfl, changes_final _ _, trivial⟩
  | updateTFState size =>
    unfold pairStep
    dsimp only
    split
    · rename_i hfiles
      obtain ⟨rfl, hstate, hvariables, hfirst, hsecond⟩ := hfiles
      have haccepts := accepts_poolFiles
      have hupdate : Accepts (fun _ => false) 1 w.final.terraform poolState poolVariables pairPushed pairWritten :=
        ⟨hstate, haccepts.pushed, haccepts.foundState, hvariables, haccepts.written, haccepts.foundVariables, 0, 1,
          by decide, hfirst, hsecond⟩
      have hrun : Exec terraformStep (updateTFState _ "hosts" 1) w.final.terraform (.done true) _ :=
        exec_updated (by decide) hupdate
      exact ⟨⟨rfl, true, hrun⟩, changes_final _ _, trivial⟩
    · rename_i hfiles
      simp [mayRaise, isAnswered, pairOutside, pairStep, hfiles] at h
  | deleteRrSet zoneId domain => exact ⟨.inl rfl, changes_final _ _, trivial⟩
  | _ => exact ⟨rfl, changes_final _ _, trivial⟩

theorem pairOutside_any (o : ClusterCall) (h : mayRaise cutting w o = true) :
    anyCall pairPool w o (pairOutside cutting w o).1 (pairOutside cutting w o).2 := by
  cases o with
  | resize o => exact pairStep_any o h
  | listClusterNetworks => exact ⟨rfl, fun _ hmem => absurd hmem List.not_mem_nil⟩
  | listComputeClusters => exact ⟨rfl, rfl⟩
  | listInstancePools =>
    refine ⟨rfl, fun pool hmem _ => ?_⟩
    rw [List.mem_singleton.mp hmem]
    rfl
  | getLifecycleState => exact ⟨rfl, trivial⟩
  | listMembers => exact ⟨rfl, trivial⟩
  | listTurns =>
    refine ⟨rfl, ?_⟩
    show List.map (·.id) (w.members.map pairPool.turnOf) ⊆ w.members
    rw [List.map_map]
    show List.map id w.members ⊆ w.members
    rw [List.map_id]
    exact List.Subset.refl _
  | listNamed compartmentId name =>
    refine ⟨rfl, fun found hmem => ?_⟩
    obtain ⟨hfound, hname⟩ := Option.filter_eq_some_iff.mp (Option.mem_toList.mp hmem)
    rw [eq_of_beq (Bool.and_eq_true_iff.mp hname).1]
    exact hfound

theorem pairStep_waits (o : ResizeCall) : (pairStep cutting w o).2.waits = w.waits := by
  cases o with
  | detachInstance poolId id =>
    unfold pairStep
    dsimp only
    split <;> rfl
  | updateTFState size =>
    unfold pairStep
    dsimp only
    split <;> rfl
  | _ => rfl

theorem answer_of_isAnswered {o : ResizeCall} (h : isAnswered cutting w (.resize o) = true) :
    ∃ a, (pairStep cutting w o).1 = .ok a := by
  unfold isAnswered at h
  split at h
  · rename_i a ha
    exact ⟨a, ha⟩
  · cases h

theorem pairStep_goes (o : ResizeCall) (h : isSettled cutting w (.resize o) = true) :
    Goes w o (pairStep cutting w o).1 (pairStep cutting w o).2 := by
  cases o with
  | getInstance id =>
    show Goes w (.getInstance id) (shown (w.instances id)) w
    have hstate : (w.instances id).all (fun found => found.lifecycleState != "TERMINATING") = true := h
    cases hfound : w.instances id with
    | none => exact ⟨"NotFound", rfl⟩
    | some found =>
      rw [hfound] at hstate
      exact fun heq => absurd heq (bne_iff_ne.mp hstate)
  | getVolume id =>
    show Goes w (.getVolume id) (shown (w.volumes id)) w
    have hstate : (w.volumes id).all (fun volume => volume.lifecycleState != "TERMINATING") = true := h
    cases hfound : w.volumes id with
    | none => exact ⟨"NotFound", rfl⟩
    | some volume =>
      rw [hfound] at hstate
      exact fun heq => absurd heq (bne_iff_ne.mp hstate)
  | terminateInstance id preserve =>
    intro found hfound
    rw [show (pairStep cutting w (.terminateInstance id preserve)).2.instances id = none from
      Function.update_self ..] at hfound
    cases hfound
  | deleteVolume id =>
    intro volume hvolume
    rw [show (pairStep cutting w (.deleteVolume id)).2.volumes id = none from Function.update_self ..] at hvolume
    cases hvolume
  | file o =>
    obtain ⟨a, ha⟩ := answer_of_isAnswered h
    rw [ha]
    trivial
  | detachInstance poolId id =>
    obtain ⟨a, ha⟩ := answer_of_isAnswered h
    rw [ha]
    trivial
  | updateTFState size =>
    obtain ⟨a, ha⟩ := answer_of_isAnswered h
    rw [ha]
    trivial
  | _ => trivial

theorem pairOutside_good (o : ClusterCall) (h : isSettled cutting w o = true) :
    goodCall pairPool w o (pairOutside cutting w o).1 (pairOutside cutting w o).2 := by
  cases o with
  | resize o =>
    refine ⟨pairStep_any o ?_, fun id => ?_, pairStep_goes o h⟩
    · cases o with
      | updateTFState size => exact h
      | _ => rfl
    · show (pairStep cutting w o).2.waits id ≤ w.waits id
      rw [pairStep_waits]
  | listClusterNetworks compartmentId name =>
    exact ⟨rfl, fun _ => Nat.le_refl _, (pairOutside_any (.listClusterNetworks compartmentId name) rfl).2, nofun⟩
  | listInstancePools compartmentId name =>
    exact ⟨rfl, fun _ => Nat.le_refl _, (pairOutside_any (.listInstancePools compartmentId name) rfl).2, fun _ => nofun⟩
  | getLifecycleState kind id => exact ⟨rfl, fun _ => Nat.le_refl _, trivial, fun hstate => absurd rfl hstate⟩
  | listNamed compartmentId name =>
    exact ⟨rfl, fun _ => Nat.le_refl _, (pairOutside_any (.listNamed compartmentId name) rfl).2, trivial⟩
  | listTurns kind compartmentId id =>
    exact ⟨rfl, fun _ => Nat.le_refl _, (pairOutside_any (.listTurns kind compartmentId id) rfl).2, rfl⟩
  | listComputeClusters => exact ⟨rfl, fun _ => Nat.le_refl _, rfl, trivial⟩
  | listMembers => exact ⟨rfl, fun _ => Nat.le_refl _, trivial, rfl⟩

end

/-- The removal of the node, cut off where it is to be detached. -/
def pairRemoval : Prog clusterSig CallError Unit :=
  removeRun pairPool.privateIp pairPool.request 0 [] fun _ => some ["node"]

def pairAgain : Prog clusterSig CallError Unit :=
  removeRun pairPool.privateIp pairPool.request 1 ["node"] fun _ => none

def pairCut : World := (pairRemoval.run (pairOutside true) pairWorld).2

def pairEnd : World := (pairAgain.run (pairOutside false) pairCut).2

def pairPending : List Record := (journalOf pairCut.final.disk).getD []

theorem intact_pairWorld : Intact pairPool pairWorld where
  journal := rfl
  nodup := by decide
  size := rfl
  running id hid := by
    rcases List.mem_cons.mp hid with rfl | hid
    · exact ⟨scratchInstance, rfl, by decide⟩
    · obtain rfl := List.mem_singleton.mp hid
      exact ⟨_, rfl, by decide⟩
  undetached _ := rfl
  scratch id volumeId := by
    constructor
    · rintro ⟨rfl, rfl⟩
      exact ⟨List.mem_cons_self, scratchInstance, rfl, ⟨_, rfl⟩, scratchVolumeAttachment, rfl, by decide, rfl⟩
    · rintro ⟨hid, -, -, -, attachment, hone, -, rfl⟩
      rcases List.mem_cons.mp hid with rfl | hid
      · obtain rfl : scratchVolumeAttachment = attachment := (List.cons.inj hone).1
        exact ⟨rfl, rfl⟩
      · obtain rfl := List.mem_singleton.mp hid
        cases hone

/-- What an outside keeps is kept by an execution. -/
theorem run_keeps {S : Sig} {ε α W V : Type} {outside : W → (o : S.Call) → Except ε (S.Ans o) × W} {f : W → V}
    (hkeeps : ∀ w o, f (outside w o).2 = f w) (p : Prog S ε α) (w : W) : f (p.run outside w).2 = f w := by
  induction p generalizing w with
  | ret a => rfl
  | throw e => rfl
  | call o k ih => exact (ih _ _).trans (hkeeps w o)

theorem pairOutside_waits (cutting : Bool) (w : World) (o : ClusterCall) :
    (pairOutside cutting w o).2.waits = w.waits := by
  cases o with
  | resize o => exact pairStep_waits o
  | _ => rfl

theorem pairCut_waits (id : String) : pairCut.waits id = 0 := by
  unfold pairCut
  rw [run_keeps (f := World.waits) (pairOutside_waits true)]
  rfl

def pairOut : Outcome CallError Unit :=
  .ofExcept (pairRemoval.run (pairOutside true) pairWorld).1

def pairOutAgain : Outcome CallError Unit :=
  .ofExcept (pairAgain.run (pairOutside false) pairCut).1

theorem exec_pairRemoval (h : meets (pairOutside true) (mayRaise true)
    pairRemoval pairWorld = true) :
    Exec (anyCall pairPool) pairRemoval pairWorld pairOut
      pairCut :=
  exec_of_meets (fun _ o ho => pairOutside_any o ho) h

theorem exec_pairAgain (h : meets (pairOutside false) (isSettled false)
    pairAgain pairCut = true) :
    Exec (goodCall pairPool) pairAgain pairCut pairOutAgain
      pairEnd :=
  exec_of_meets (fun _ o ho => pairOutside_good o ho) h

theorem pairOutAgain_ne_cut : pairOutAgain ≠ .cut := by
  unfold pairOutAgain
  cases (pairAgain.run (pairOutside false) pairCut).1 <;> exact nofun

theorem journalOf_pairCut (h : (journalOf pairCut.final.disk).isSome = true) :
    journalOf pairCut.final.disk = some pairPending := by
  obtain ⟨pending, hpending⟩ := Option.isSome_iff_exists.mp h
  rw [pairPending, hpending]
  rfl

theorem resumable_pairCut (h : ∀ record ∈ pairPending, record.instanceDisplayName ∈ ["node"]) :
    Resumable pairPool pairPending ["node"] 1 pairCut where
  named := h
  patient id := by
    rw [pairCut_waits]
    exact Nat.one_pos
  cleanable hdns := by cases hdns

theorem reached_pairCut : PoolReached pairPool pairCut :=
  .run 0 [] _ (.intact intact_pairWorld) (exec_pairRemoval (by decide +kernel))

theorem sound_pairCut : ∃ pending, journalOf pairCut.final.disk = some pending ∧ Sound pairPool pending pairCut :=
  sound_of_reached reached_pairCut

theorem scratch_pairCut : "i" ∈ pairCut.members ∨
    (∃ pending, journalOf pairCut.final.disk = some pending ∧ "v" ∈ pending.map (·.volumeId)) ∨ pairCut.VolumeGone "v" :=
  no_scratch_lost reached_pairCut ⟨rfl, rfl⟩

/-- The removal of the node converges. -/
theorem pair_converges : pairPending.map (·.instanceId) = ["i"] ∧ pairOutAgain = .done () ∧
    Converged pairPool pairPending pairEnd := by
  refine ⟨by decide +kernel, ?_⟩
  exact removal_converges (by decide) reached_pairCut (journalOf_pairCut (by decide +kernel))
    (fun hnil => absurd (congrArg List.isEmpty hnil) (by decide +kernel)) (resumable_pairCut (by decide +kernel))
      (exec_pairAgain (by decide +kernel)) pairOutAgain_ne_cut

end OciHpc.Resize
