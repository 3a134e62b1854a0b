import OciHpc.Resize.RemovalWorld
import OciHpc.Resize.WriteAhead

/-!
# Half-removed nodes

What holds of the journal and of the pool at every point of a removal run.

* `Fits` : a record and the state of its node; `Sound` : the pool, with the records of a journal;
* `Noted`, `Recoverable` : what a removal would recognize is in the journal already;
* `wp_detach`, `wp_terminate_held`, `wp_remove_held`, `wp_retry_held`, `wp_finalize_held` : the routines keep it;
* `wp_removeRun` : so does a run, wherever it ends.
-/

namespace OciHpc.Resize
open Prog Files

/-! ## The invariant -/

/-- A record, its instance and its scratch volume. The instance is detached at most once. -/
structure Fits (env : Pool) (w : World) (record : Record) : Prop where
  clusterName : record.clusterName = env.request.clusterName
  compartmentId : record.compartmentId = env.request.compartmentId
  poolId : record.instancePoolId = env.poolId
  found : ∀ found, w.instances record.instanceId = some found →
    parentCluster found.freeformTags = some env.request.clusterName ∧ found.displayName = record.instanceDisplayName
  volume : ∀ volume, w.volumes record.volumeId = some volume → validatePendingVolume env.request record volume = .ok ()
  scratch : ∀ volumeId, env.scratch record.instanceId volumeId → volumeId = record.volumeId
  once : record.instanceId ∈ w.members ∧ w.size ≤ record.instancePoolSizeBeforeRemoval ∨
    record.instanceId ∉ w.members ∧ w.detached record.instanceId = 1 ∧ w.size < record.instancePoolSizeBeforeRemoval

/-- The volume that a removal recognizes and that was not created at launch. -/
def ScratchOf (env : Pool) (found : Instance) (id volumeId : String) : Prop :=
  (∃ settings, getInstanceLocalBlockVolumeConfig found env.request.inventory env.request.clusterName = .ok (some settings)) ∧
    ∃ attachment, (env.attachments id).filter onVdc = [attachment] ∧
      attachment.isVolumeCreatedDuringLaunch ≠ some true ∧ attachment.volumeId = volumeId

/-- The scratch volume of the instance is in the journal, or gone. -/
def Spoken (env : Pool) (pending : List Record) (w : World) (id : String) : Prop :=
  ∀ volumeId, env.scratch id volumeId → volumeId ∈ pending.map (·.volumeId) ∨ w.VolumeGone volumeId

/-- The pool, with the records of a journal. A member is running, and was not detached; the scratch volumes of those that are
no members are spoken for. -/
structure Sound (env : Pool) (pending : List Record) (w : World) : Prop where
  nodup : w.members.Nodup
  size : w.size = w.members.length
  running : ∀ id ∈ w.members, w.Running id
  undetached : ∀ id ∈ w.members, w.detached id = 0
  fits : ∀ record ∈ pending, Fits env w record
  came : ∀ id found, w.instances id = some found → ∀ volumeId, env.scratch id volumeId → ScratchOf env found id volumeId
  spoken : ∀ id, id ∈ w.members ∨ Spoken env pending w id

/-- The instance is running, unless it is terminated, and what a removal recognizes is in the journal. -/
def Noted (env : Pool) (pending : List Record) (w : World) (id : String) : Prop :=
  ∀ found, w.instances id = some found → found.lifecycleState ≠ "TERMINATED" → ¬ IsEnding found.lifecycleState ∧
    ∀ volumeId, ScratchOf env found id volumeId → volumeId ∈ pending.map (·.volumeId)

/-- The journal is accepted, and these instances are members or noted. -/
structure Recoverable (env : Pool) (pending : List Record) (S : String → Prop) (w : World) : Prop where
  journal : journalOf w.final.disk = some pending
  sound : Sound env pending w
  settled : ∀ id, S id → id ∈ w.members ∨ Noted env pending w id

def nobody : String → Prop := fun _ => False

/-! ## One call -/

section
variable {env : Pool} {w w' : World} {o : ResizeCall} {pending : List Record} {S : String → Prop}

theorem Changes.found (hc : Changes env w o w') {id : String} {found' : Instance} (h : w'.instances id = some found') :
    ∃ found, w.instances id = some found ∧ found' = { found with lifecycleState := found'.lifecycleState } := by
  obtain hages | ⟨-, hages⟩ := hc.instances id
  · rw [h] at hages
    cases hfound : w.instances id with
    | none =>
      rw [hfound] at hages
      cases hages
    | some found =>
      rw [hfound] at hages
      exact ⟨found, rfl, hages.1⟩
  · rw [h] at hages
    cases hfound : w.instances id with
    | none =>
      rw [hfound] at hages
      cases hages
    | some found =>
      rw [hfound] at hages
      refine ⟨found, rfl, hages.1.trans ?_⟩
      unfold terminating
      split <;> rfl

/-- Without a termination of its own a running instance stays so. -/
theorem Changes.runs (hc : Changes env w o w') {id : String} (ho : ∀ preserve, o ≠ .terminateInstance id preserve)
    (h : w.Running id) : w'.Running id := by
  obtain ⟨found, hfound, hruns⟩ := h
  obtain hages | ⟨⟨preserve, heq⟩, -⟩ := hc.instances id
  · rw [hfound] at hages
    cases hfound' : w'.instances id with
    | none =>
      rw [hfound'] at hages
      exact absurd hages hruns
    | some found' =>
      rw [hfound'] at hages
      exact ⟨found', hfound', fun hending => hruns (hages.2.2 hending)⟩
  · exact absurd heq (ho preserve)

theorem Changes.terminated (hc : Changes env w o w') {id : String} (h : w.Terminated id) : w'.Terminated id := by
  intro found' hfound'
  obtain ⟨found, hfound, -⟩ := hc.found hfound'
  have hstate := h found hfound
  obtain hages | ⟨-, hages⟩ := hc.instances id
  · rw [hfound, hfound'] at hages
    exact hages.2.1.1 hstate
  · rw [hfound, hfound'] at hages
    refine hages.2.1.1 ?_
    rw [terminating, if_pos (.inr hstate), hstate]

theorem Changes.volume (hc : Changes env w o w') {id : String} {volume' : StoredVolume} (h : w'.volumes id = some volume') :
    ∃ volume, w.volumes id = some volume ∧ volume' = { volume with lifecycleState := volume'.lifecycleState } ∧
      Ages volume.lifecycleState volume'.lifecycleState := by
  have hages := hc.volumes id
  rw [h] at hages
  cases hvolume : w.volumes id with
  | none =>
    rw [hvolume] at hages
    cases hages
  | some volume =>
    rw [hvolume] at hages
    exact ⟨volume, rfl, hages⟩

theorem Changes.volumeGone (hc : Changes env w o w') {id : String} (h : w.VolumeGone id) : w'.VolumeGone id := by
  intro volume' hvolume'
  obtain ⟨volume, hvolume, -, hages⟩ := hc.volume hvolume'
  exact hages.1 (h volume hvolume)

theorem Changes.members_subset (hc : Changes env w o w') : w'.members ⊆ w.members := by
  obtain ⟨hmembers, -⟩ | ⟨id, -, -, hmembers, -⟩ := hc.pool
  · rw [hmembers]
    exact List.Subset.refl _
  · rw [hmembers]
    exact List.erase_subset

theorem Changes.samePool (hc : Changes env w o w') (ho : ∀ id, o ≠ .detachInstance env.poolId id) : w.SamePool w' := by
  obtain hsame | ⟨id, heq, -⟩ := hc.pool
  · exact hsame
  · exact absurd heq (ho id)

theorem Fits.step {record : Record} (h : Fits env w record) (hs : Sound env pending w) (hc : Changes env w o w') :
    Fits env w' record where
  clusterName := h.clusterName
  compartmentId := h.compartmentId
  poolId := h.poolId
  found found' hfound' := by
    obtain ⟨found, hfound, hsame⟩ := hc.found hfound'
    rw [hsame]
    exact h.found found hfound
  volume volume' hvolume' := by
    obtain ⟨volume, hvolume, hsame, -⟩ := hc.volume hvolume'
    rw [hsame]
    exact h.volume volume hvolume
  scratch := h.scratch
  once := by
    obtain ⟨hmembers, hsize, hdetached⟩ | ⟨id, -, hmember, hmembers, hsize, hdetached⟩ := hc.pool
    · rw [hmembers, hsize, hdetached]
      exact h.once
    · rw [hmembers, hsize, hdetached]
      by_cases hid : record.instanceId = id
      · rw [hid, Function.update_self]
        have hbefore : w.size ≤ record.instancePoolSizeBeforeRemoval := by
          obtain ⟨-, hbefore⟩ | ⟨hleft, -⟩ := h.once
          · exact hbefore
          · exact absurd (hid ▸ hmember) hleft
        refine .inr ⟨hs.nodup.not_mem_erase, ?_, by omega⟩
        rw [hs.undetached id hmember]
      · rw [Function.update_of_ne hid, List.mem_erase_of_ne hid]
        obtain ⟨hin, hbefore⟩ | ⟨hout, hone, hbefore⟩ := h.once
        · exact .inl ⟨hin, by omega⟩
        · exact .inr ⟨hout, hone, by omega⟩

theorem Spoken.step {id : String} (h : Spoken env pending w id) (hc : Changes env w o w') : Spoken env pending w' id :=
  fun volumeId hscratch => (h volumeId hscratch).imp_right hc.volumeGone

/-- **The pool stays sound**, where no member is terminated and the volume of one that is detached is spoken for. -/
theorem Sound.step (h : Sound env pending w) (hc : Changes env w o w')
    (ho : ∀ id preserve, o = .terminateInstance id preserve → id ∉ w.members)
    (hd : ∀ id, o = .detachInstance env.poolId id → Spoken env pending w id) : Sound env pending w' where
  nodup := by
    obtain ⟨hmembers, -⟩ | ⟨id, -, -, hmembers, -⟩ := hc.pool
    · exact hmembers ▸ h.nodup
    · exact hmembers ▸ h.nodup.erase id
  size := by
    obtain ⟨hmembers, hsize, -⟩ | ⟨id, -, hmember, hmembers, hsize, -⟩ := hc.pool
    · rw [hsize, hmembers, h.size]
    · have hpos := List.length_pos_of_mem hmember
      rw [hsize, hmembers, h.size, List.length_erase_of_mem hmember]
      omega
  running id hid :=
    have hmember := hc.members_subset hid
    hc.runs (fun preserve heq => ho id preserve heq hmember) (h.running id hmember)
  undetached id hid := by
    have hmember := hc.members_subset hid
    obtain ⟨-, -, hdetached⟩ | ⟨other, -, -, hmembers, -, hdetached⟩ := hc.pool
    · rw [hdetached]
      exact h.undetached id hmember
    · have hne : id ≠ other := fun heq => by
        rw [hmembers, heq] at hid
        exact h.nodup.not_mem_erase hid
      rw [hdetached, Function.update_of_ne hne]
      exact h.undetached id hmember
  fits record hrecord := (h.fits record hrecord).step h hc
  came id found' hfound' volumeId hscratch := by
    obtain ⟨found, hfound, hsame⟩ := hc.found hfound'
    rw [hsame]
    exact h.came id found hfound volumeId hscratch
  spoken id := by
    obtain ⟨hmembers, -⟩ | ⟨left, heq, -, hmembers, -⟩ := hc.pool
    · rw [hmembers]
      exact (h.spoken id).imp_right fun hspoken => hspoken.step hc
    · by_cases hid : id = left
      · exact .inr ((hid ▸ hd left heq).step hc)
      · rw [hmembers, List.mem_erase_of_ne hid]
        exact (h.spoken id).imp_right fun hspoken => hspoken.step hc

theorem Noted.step {id : String} (h : Noted env pending w id) (hc : Changes env w o w')
    (ho : ∀ preserve, o ≠ .terminateInstance id preserve) : Noted env pending w' id := by
  intro found' hfound' hstate'
  obtain ⟨found, hfound, hsame⟩ := hc.found hfound'
  have hstate : found.lifecycleState ≠ "TERMINATED" := fun heq => hstate' (hc.terminated
    (fun other hother => by rw [Option.some.inj (hother.symm.trans hfound)]; exact heq) found' hfound')
  obtain ⟨hruns, hscratch⟩ := h found hfound hstate
  obtain ⟨later, hlater, hstill⟩ := hc.runs ho ⟨found, hfound, hruns⟩
  rw [hfound'] at hlater
  obtain rfl := Option.some.inj hlater
  refine ⟨hstill, fun volumeId hvolume => hscratch volumeId ?_⟩
  rw [hsame] at hvolume
  exact hvolume

theorem Noted.of_terminated {id : String} (h : w.Terminated id) : Noted env pending w id :=
  fun found hfound hstate => absurd (h found hfound) hstate

theorem Noted.mono {others : List Record} {id : String} (h : Noted env pending w id)
    (hsubset : pending.map (·.volumeId) ⊆ others.map (·.volumeId)) : Noted env others w id := by
  intro found hfound hstate
  obtain ⟨hruns, hscratch⟩ := h found hfound hstate
  exact ⟨hruns, fun volumeId hvolume => hsubset (hscratch volumeId hvolume)⟩

theorem Recoverable.mono {S' : String → Prop} (h : Recoverable env pending S w) (hS : ∀ id, S' id → S id) :
    Recoverable env pending S' w :=
  ⟨h.journal, h.sound, fun id hid => h.settled id (hS id hid)⟩

theorem Recoverable.forget (h : Recoverable env pending S w) : Recoverable env pending nobody w :=
  h.mono fun _ hnone => hnone.elim

/-! ### The files -/

/-- Calls on files that only look, and calls on anything else, leave the files. -/
theorem disk_of_finalStep {isWord : Char → Bool} {inventoryPath : String} {d d' : FinalSite} {r : Except CallError o.Ans}
    (ho : ∀ f, o = .file f → f.Harmless) (h : finalStep isWord inventoryPath d o r d') : d'.disk = d.disk := by
  cases o with
  | file f => exact eq_of_harmless (ho f rfl) h.1
  | listZones compartmentId name =>
    cases r with
    | ok zones => rw [h.2]
    | error e => rw [show d' = d from h]
  | deleteRrSet zoneId domain =>
    cases r with
    | ok a =>
      rw [show d' = _ from h]
      rfl
    | error e =>
      have hraised : DeletionRaised d zoneId domain e d' := h
      unfold DeletionRaised at hraised
      split at hraised
      · rw [hraised.2]
      · obtain rfl | rfl := hraised
        · rfl
        · rfl
  | updateTFState size =>
    cases r with
    | ok a => rw [h.1]
    | error e => rw [h.1]
  | _ => rw [show d' = d from h]

/-- A call that removes nothing and writes no file. -/
def Quiet : ResizeCall → Prop
  | .file o => o.Harmless
  | .detachInstance .. | .terminateInstance .. => False
  | _ => True

theorem Quiet.not_terminate (ho : Quiet o) (id : String) (preserve : Bool) : o ≠ .terminateInstance id preserve := by
  rintro rfl
  exact ho

theorem Quiet.not_detach (ho : Quiet o) (poolId id : String) : o ≠ .detachInstance poolId id := by
  rintro rfl
  exact ho

theorem Quiet.harmless (ho : Quiet o) (f : FileCall) (heq : o = .file f) : f.Harmless := by
  subst heq
  exact ho

theorem Recoverable.quiet (h : Recoverable env pending S w) (ho : Quiet o) {r : Except CallError o.Ans}
    (hstep : anyStep env w o r w') : Recoverable env pending S w' := by
  obtain ⟨hfinal, hc, -⟩ := hstep
  refine ⟨?_, h.sound.step hc (fun id preserve heq => absurd heq (ho.not_terminate id preserve))
    fun id heq => absurd heq (ho.not_detach _ id), fun id hid => ?_⟩
  · rw [disk_of_finalStep ho.harmless hfinal]
    exact h.journal
  · rw [(hc.samePool fun id => ho.not_detach _ id).1]
    exact (h.settled id hid).imp_right fun hnoted => hnoted.step hc (ho.not_terminate id)

theorem keeps_quiet {α : Type} {p : Prog resizeSig CallError α} (hp : p.Calls Quiet) :
    Keeps (anyStep env) (Recoverable env pending S) p :=
  keeps_of_calls hp fun _ _ _ _ ho hw hstep => hw.quiet ho hstep

end

/-! ## The routines -/

/-- A program of one world in another, which has more to it. -/
theorem wp_comap {S : Sig} {ε α W W' : Type} {H : Handler S ε W} {H' : Handler S ε W'} {P : S.Call → Prop} (f : W → W')
    {p : Prog S ε α} (hp : p.Calls P) (hH : ∀ {w o r w'}, P o → H w o r w' → H' (f w) o r (f w')) {Q : Post W' ε α} {w : W}
    (h : wp H' p Q (f w)) :
    wp H p ⟨fun a w' => Q.ret a (f w'), fun e w' => Q.exc e (f w'), fun w' => Q.cut (f w')⟩ w := by
  induction p generalizing w with
  | ret a => exact h
  | throw e => exact h
  | call o k ih => exact ⟨h.1, fun r w' hr => ih r (hp.2 r) (h.2 r (f w') (hH hp.1 hr))⟩

/-- What a program does to the files, to DNS and to Terraform. -/
theorem wp_final {env : Pool} {α : Type} {p : Prog resizeSig CallError α} {Q : Post FinalSite CallError α} {w : World}
    (h : wp (finalStep env.isWord env.inventoryPath) p Q w.final) :
    wp (anyStep env) p
      ⟨fun a w' => Q.ret a w'.final, fun e w' => Q.exc e w'.final, fun w' => Q.cut w'.final⟩ w :=
  wp_comap World.final (calls_true p) (fun _ hstep => hstep.1) h

section
variable {env : Pool} {w : World} {pending : List Record} {S : String → Prop} {id : String}

/-! ### Detaching -/

structure MayLeave (env : Pool) (pending : List Record) (S : String → Prop) (id : String) (w : World) : Prop where
  held : Recoverable env pending S w
  noted : S id → Noted env pending w id
  spoken : Spoken env pending w id

theorem MayLeave.step {o : ResizeCall} {r : Except CallError o.Ans} {w' : World} (h : MayLeave env pending S id w)
    (ho : Quiet o ∨ o = .detachInstance env.poolId id) (hstep : anyStep env w o r w') : MayLeave env pending S id w' := by
  have hspoken := h.spoken.step hstep.2.1
  obtain hquiet | rfl := ho
  · exact ⟨h.held.quiet hquiet hstep, fun hid => (h.noted hid).step hstep.2.1 (hquiet.not_terminate id), hspoken⟩
  · obtain ⟨hfinal, hc, -⟩ := hstep
    have hnoted : S id → Noted env pending w' id := fun hid => (h.noted hid).step hc fun _ => nofun
    have hsound : Sound env pending w' := h.held.sound.step hc (fun _ _ => nofun) fun other heq => by
      obtain rfl : id = other := by injection heq
      exact h.spoken
    refine ⟨⟨?_, hsound, fun other hother => ?_⟩, hnoted, hspoken⟩
    · rw [disk_of_finalStep (fun _ heq => by cases heq) hfinal]
      exact h.held.journal
    · by_cases hid : other = id
      · rw [hid] at hother ⊢
        exact .inr (hnoted hother)
      · refine (h.held.settled other hother).imp (fun hmember => ?_) fun hn => hn.step hc fun _ => nofun
        obtain ⟨hmembers, -⟩ | ⟨left, heq, -, hmembers, -⟩ := hc.pool
        · rw [hmembers]
          exact hmember
        · obtain rfl : id = left := by injection heq
          rw [hmembers, List.mem_erase_of_ne hid]
          exact hmember

theorem wp_isPoolMember (h : MayLeave env pending S id w) (compartmentId : String) :
    wp (anyStep env) (instanceIsPoolMember compartmentId env.poolId id)
      ⟨fun isMember w' => MayLeave env pending S id w' ∧ (isMember = true ↔ id ∈ w'.members),
        fun e w' => MayLeave env pending S id w' ∧ ∀ text, e ≠ .service 404 text, MayLeave env pending S id⟩ w := by
  refine wp_perform_seq h (fun (ids : List String) w' hstep => ?_) fun e w' hstep =>
    ⟨h.step (.inl (by exact trivial)) hstep, ?_⟩
  · have hlists : w'.Lists ids := hstep.2.2 rfl
    exact ⟨h.step (.inl (by exact trivial)) hstep, List.contains_iff_mem.trans (hlists id)⟩
  · rintro text rfl
    exact hstep.2.2 rfl

theorem wp_waitDetached (h : MayLeave env pending S id w) (compartmentId : String) (detachError : CallError) (turns : Nat) :
    wp (anyStep env) (waitDetached compartmentId env.poolId id detachError turns)
      ⟨fun _ w' => MayLeave env pending S id w' ∧ id ∉ w'.members, fun _ => MayLeave env pending S id,
        MayLeave env pending S id⟩ w := by
  induction turns generalizing w with
  | zero => exact h
  | succ turns ih =>
    refine wp_seq_attempt (wp_isPoolMember h compartmentId) (fun isMember w' hasked => ?_) fun e w' herror => ih herror.1
    cases isMember with
    | true => exact ih hasked.1
    | false => exact ⟨hasked.1, fun hmember => by cases hasked.2.mpr hmember⟩

/-- **A detachment that returns leaves the instance out of the pool.** -/
theorem wp_detach (h : MayLeave env pending S id w) (turns : Nat) (compartmentId : String) :
    wp (anyStep env) (detachInstanceFromPoolIfNeeded turns compartmentId env.poolId id)
      ⟨fun _ w' => MayLeave env pending S id w' ∧ id ∉ w'.members, fun _ => MayLeave env pending S id,
        MayLeave env pending S id⟩ w := by
  refine wp_seq (wp_mono (wp_isPoolMember h compartmentId) (fun _ _ h => h) (fun _ _ h => h.1) fun _ h => h)
    fun isMember w' hasked => ?_
  cases isMember with
  | false => exact ⟨hasked.1, fun hmember => by cases hasked.2.mpr hmember⟩
  | true =>
    refine wp_perform_attempt_seq hasked.1 fun answer w'' hstep => ?_
    have hleft := hasked.1.step (.inr rfl) hstep
    cases answer with
    | ok a => exact ⟨hleft, hstep.2.2 rfl⟩
    | error e => exact wp_waitDetached hleft compartmentId e turns

/-! ### Terminating -/

/-- The others are settled, and the instance is no member. -/
def Leaving (env : Pool) (pending : List Record) (S : String → Prop) (id : String) (w : World) : Prop :=
  Recoverable env pending (fun other => S other ∧ other ≠ id) w ∧ id ∉ w.members

theorem Leaving.step {o : ResizeCall} {r : Except CallError o.Ans} {w' : World} (h : Leaving env pending S id w)
    (ho : Quiet o ∨ ∃ preserve, o = .terminateInstance id preserve) (hstep : anyStep env w o r w') :
    Leaving env pending S id w' := by
  refine ⟨?_, fun hmember => h.2 (hstep.2.1.members_subset hmember)⟩
  obtain hquiet | ⟨preserve, rfl⟩ := ho
  · exact h.1.quiet hquiet hstep
  · obtain ⟨hfinal, hc, -⟩ := hstep
    refine ⟨?_, h.1.sound.step hc (fun other _ heq => ?_) (fun _ => nofun), fun other hother => ?_⟩
    · rw [disk_of_finalStep (fun _ heq => by cases heq) hfinal]
      exact h.1.journal
    · obtain rfl : id = other := by injection heq
      exact h.2
    · rw [(hc.samePool fun _ => nofun).1]
      refine (h.1.settled other hother).imp_right fun hnoted => hnoted.step hc fun _ heq => hother.2 ?_
      injection heq with hid
      exact hid.symm

theorem Leaving.settle (h : Leaving env pending S id w) (hdone : w.Terminated id) : Recoverable env pending S w := by
  refine ⟨h.1.journal, h.1.sound, fun other hother => ?_⟩
  by_cases hid : other = id
  · rw [hid]
    exact .inr (.of_terminated hdone)
  · exact h.1.settled other ⟨hother, hid⟩

theorem terminated_of_none (h : w.instances id = none) : w.Terminated id := fun found hfound => by
  rw [h] at hfound
  cases hfound

theorem terminated_of_some {found : Instance} (h : w.instances id = some found) (hstate : found.lifecycleState = "TERMINATED") :
    w.Terminated id := fun other hother => by
  rw [← Option.some.inj (h.symm.trans hother)]
  exact hstate

/-- What a termination leaves; it raises no 404. -/
def untilTerminated {α : Type} (env : Pool) (pending : List Record) (S : String → Prop) (id : String) :
    Post World CallError α :=
  ⟨fun _ w' => Leaving env pending S id w' ∧ w'.Terminated id,
    fun e w' => Leaving env pending S id w' ∧ ∀ text, e ≠ .service 404 text, Leaving env pending S id⟩

theorem wp_waitTurn_held (h : Leaving env pending S id w) {next : Prog resizeSig CallError Unit}
    (hnext : ∀ w', Leaving env pending S id w' → wp (anyStep env) next (untilTerminated env pending S id) w') :
    wp (anyStep env) (waitTurn id next) (untilTerminated env pending S id) w := by
  refine wp_perform_attempt_seq h fun answer w' hstep => ?_
  have hleaving := h.step (.inl (by exact trivial)) hstep
  split
  · exact ⟨hleaving, terminated_of_none hstep.2.2⟩
  · rename_i e hother
    exact ⟨hleaving, hother⟩
  · rename_i found
    split
    · rename_i hstate
      exact ⟨hleaving, terminated_of_some hstep.2.2 hstate⟩
    · exact hnext w' hleaving

theorem wp_waitTerminated_held (turns : Nat) (h : Leaving env pending S id w) :
    wp (anyStep env) (waitTerminated id turns) (untilTerminated env pending S id) w := by
  induction turns generalizing w with
  | zero => exact wp_waitTurn_held h fun w' h' => ⟨h', fun _ => nofun⟩
  | succ turns ih => exact wp_waitTurn_held h fun w' h' => ih h'

/-- **A termination of an instance that has left the pool.** -/
theorem wp_terminate_held (request : Request) (turns : Nat) (delete : Bool) (h : Leaving env pending S id w) :
    wp (anyStep env) (terminateInstanceAndDeleteLaunchVolumes request turns id (some delete))
      (untilTerminated env pending S id) w := by
  refine wp_perform_attempt_seq h fun answer w' hstep => ?_
  have hleaving := h.step (.inl (by exact trivial)) hstep
  split
  · exact ⟨hleaving, terminated_of_none hstep.2.2⟩
  · rename_i e hother
    exact ⟨hleaving, hother⟩
  · rename_i found
    split
    · rename_i hstate
      exact ⟨hleaving, terminated_of_some hstep.2.2 hstate⟩
    · split
      · exact wp_waitTerminated_held turns hleaving
      · show wp (anyStep env) ((oci (.terminateInstance id !delete)).attempt.bind _) _ w'
        refine wp_perform_attempt_seq hleaving fun answer w'' hstep' => ?_
        have hleaving' := hleaving.step (.inr ⟨_, rfl⟩) hstep'
        split
        · exact ⟨hleaving', terminated_of_none hstep'.2.2⟩
        · rename_i e hother
          exact ⟨hleaving', hother⟩
        · exact wp_waitTerminated_held turns hleaving'

/-! ### Retrying -/

/-- The postcondition of a program that keeps the journal recoverable. -/
def recoverably {α : Type} (env : Pool) (pending : List Record) : Post World CallError α :=
  ⟨fun _ => Recoverable env pending nobody, fun _ => Recoverable env pending nobody, Recoverable env pending nobody⟩

theorem mayLeave_nobody {record : Record} (hmem : record ∈ pending) (h : Recoverable env pending nobody w) :
    MayLeave env pending nobody record.instanceId w :=
  ⟨h, False.elim, fun volumeId hscratch =>
    .inl ((h.sound.fits record hmem).scratch volumeId hscratch ▸ List.mem_map_of_mem hmem)⟩

theorem leaving_nobody (h : Recoverable env pending nobody w) (hout : id ∉ w.members) : Leaving env pending nobody id w :=
  ⟨h.mono fun _ hother => hother.1, hout⟩

theorem Leaving.recoverable (h : Leaving env pending nobody id w) : Recoverable env pending nobody w :=
  h.1.mono fun _ hnone => hnone.elim

theorem wp_resume_held {record : Record} (hmem : record ∈ pending) (h : Recoverable env pending nobody w) (turns : Nat)
    (resumePoolMembers : Bool) :
    wp (anyStep env) (resumePendingMember env.request turns resumePoolMembers record)
      ⟨fun _ w' => Recoverable env pending nobody w' ∧ record.instanceId ∉ w'.members,
        fun _ => Recoverable env pending nobody, Recoverable env pending nobody⟩ w := by
  unfold resumePendingMember pendingIsPoolMember
  rw [(h.sound.fits record hmem).poolId]
  refine wp_seq (R := fun isMember w' => Recoverable env pending nobody w' ∧
    (isMember = true ↔ record.instanceId ∈ w'.members)) ?_ fun isMember w' hasked => ?_
  · refine wp_seq_attempt (wp_mono (wp_isPoolMember (mayLeave_nobody hmem h) _) (fun _ _ h => h) (fun _ _ h => h)
      fun _ h => h.1) (fun isMember w' hasked => ⟨hasked.1.1, hasked.2⟩) fun e w' herror => ?_
    split
    · rename_i text heq
      cases heq
      exact absurd rfl (herror.2 text)
    · exact herror.1.1
    · rename_i heq
      cases heq
  · cases isMember with
    | false => exact ⟨hasked.1, fun hmember => by cases hasked.2.mpr hmember⟩
    | true =>
      cases resumePoolMembers with
      | false => exact hasked.1
      | true =>
        refine wp_mono (wp_detach (mayLeave_nobody hmem hasked.1) turns _) (fun _ _ h => ?_) (fun _ _ h => ?_) fun _ h => ?_
        · exact ⟨h.1.1, h.2⟩
        · exact h.1
        · exact h.1

theorem calls_pendingInstanceState (request : Request) (record : Record) :
    (pendingInstanceState request record).Calls Quiet := by
  refine Calls.bind (calls_perform trivial).attempt fun answer => ?_
  split
  · trivial
  · trivial
  · split
    · trivial
    · split <;> trivial

def VolumesGone (w : World) (records : List Record) : Prop := ∀ record ∈ records, w.VolumeGone record.volumeId

theorem VolumesGone.step {records : List Record} {o : ResizeCall} {w' : World} (h : VolumesGone w records)
    (hc : Changes env w o w') : VolumesGone w' records := fun record hmem => hc.volumeGone (h record hmem)

theorem volumeGone_of_none (h : w.volumes id = none) : w.VolumeGone id := fun volume hvolume => by
  rw [h] at hvolume
  cases hvolume

/-- The postcondition of a deletion: where it returns, the volume is gone. -/
def gone {α : Type} (id : String) : Post World CallError α := ⟨fun _ w' => w'.VolumeGone id, fun _ _ => True, fun _ => True⟩

theorem gone_deleteTurn {deleteRequested : Bool} {next : Bool → Prog resizeSig CallError Unit}
    (hnext : ∀ requested w', wp (anyStep env) (next requested) (gone id) w') :
    wp (anyStep env) (deleteTurn id deleteRequested next) (gone id) w := by
  refine wp_perform_attempt_seq trivial fun answer w₁ hstep => ?_
  split
  · exact volumeGone_of_none hstep.2.2
  · trivial
  · rename_i volume
    have hvolume : w₁.volumes id = some volume := hstep.2.2
    split
    · rename_i hstate
      intro other hother
      rw [← Option.some.inj (hvolume.symm.trans hother)]
      exact hstate
    · split
      · exact hnext true w₁
      · refine wp_perform_attempt_seq trivial fun answer w₂ hstep₂ => ?_
        split
        · exact hnext true w₂
        · exact volumeGone_of_none hstep₂.2.2
        · exact hnext false w₂
        · trivial

/-- **A deletion that returns leaves the volume gone.** -/
theorem gone_deleteManaged {turns : Nat} {deleteRequested : Bool} :
    wp (anyStep env) (deleteManagedLocalBlockVolume id turns deleteRequested) (gone id) w := by
  induction turns generalizing w deleteRequested with
  | zero => exact gone_deleteTurn fun _ _ => trivial
  | succ turns ih => exact gone_deleteTurn fun _ _ => ih

theorem gone_deletePendingVolume (request : Request) (turns : Nat) (record : Record) :
    wp (anyStep env) (deletePendingVolume request turns record) (gone record.volumeId) w := by
  refine wp_perform_attempt_seq trivial fun answer w' hstep => ?_
  split
  · exact volumeGone_of_none hstep.2.2
  · trivial
  · split
    · trivial
    · exact gone_deleteManaged

theorem keeps_volumesGone {α : Type} (p : Prog resizeSig CallError α) (records : List Record) :
    Keeps (anyStep env) (VolumesGone · records) p :=
  keeps_of_calls (calls_true p) fun _ _ _ _ _ h hstep => h.step hstep.2.1

/-- What a retry leaves: the volumes of what it returns are gone. -/
def retriedHeld (env : Pool) (pending : List Record) : Post World CallError (List Record) :=
  ⟨fun ready w' => Recoverable env pending nobody w' ∧ VolumesGone w' ready, fun _ => Recoverable env pending nobody,
    Recoverable env pending nobody⟩

theorem wp_retryRecord_held {record : Record} (hmem : record ∈ pending) (h : Recoverable env pending nobody w) (turns : Nat)
    (resumePoolMembers : Bool) {readyDeletions : List Record} (hgone : VolumesGone w readyDeletions) :
    wp (anyStep env) (retryRecord env.request turns resumePoolMembers readyDeletions record) (retriedHeld env pending) w := by
  have hdelete : ∀ w', Recoverable env pending nobody w' → VolumesGone w' readyDeletions → wp (anyStep env)
      ((deletePendingVolume env.request turns record).bind fun _ => .ret (readyDeletions ++ [record]))
      (retriedHeld env pending) w' := by
    intro w' h' hgone'
    refine wp_seq (wp_mono (wp_and (keeps_quiet (calls_deletePendingVolume env.request turns trivial trivial) w' h')
      (wp_and (keeps_volumesGone _ readyDeletions w' hgone') (gone_deletePendingVolume env.request turns record)))
        (fun _ _ h => h) (fun _ _ h => h.1) fun _ h => h.1) fun _ w'' hdeleted => ?_
    refine ⟨hdeleted.1, fun other hother => ?_⟩
    rcases List.mem_append.mp hother with hother | hother
    · exact hdeleted.2.1 other hother
    · rw [List.mem_singleton.mp hother]
      exact hdeleted.2.2
  unfold retryRecord
  split
  · exact h
  · refine wp_seq (R := fun _ w' => Recoverable env pending nobody w' ∧ VolumesGone w' readyDeletions)
      (wp_mono (wp_and (Q := recoverably env pending) ?_ (keeps_volumesGone _ readyDeletions w hgone)) (fun _ _ h => h)
        (fun _ _ h => h.1) fun _ h => h.1) fun _ w' h' => hdelete w' h'.1 h'.2
    refine wp_seq (keeps_quiet (calls_pendingInstanceState env.request record) w h) fun state w₁ h₁ => ?_
    split
    · exact h₁
    · refine wp_seq (wp_resume_held hmem h₁ turns resumePoolMembers) fun _ w₂ h₂ => ?_
      exact wp_mono (wp_terminate_held env.request turns false (leaving_nobody h₂.1 h₂.2)) (fun _ _ h => h.1.recoverable)
        (fun _ _ h => h.1.recoverable) fun _ h => h.recoverable

theorem wp_load_held (h : Recoverable env pending S w) :
    wp (anyStep env) (onFiles loadPending)
      ⟨fun found w' => Recoverable env pending S w' ∧ found = pending, fun _ => Recoverable env pending S,
        Recoverable env pending S⟩ w := by
  have hquiet : (onFiles loadPending).Calls Quiet := calls_loadPending.via fun o ho => calls_perform ho
  have hload := wp_final (wp_beside_final (loadPending_spec w.final.disk) : wp (finalStep env.isWord env.inventoryPath) _ _ _)
  refine wp_mono (wp_and (keeps_quiet hquiet w h) hload) (fun found w' hboth => ⟨hboth.1, ?_⟩) (fun _ _ h => h.1)
    fun _ h => h.1
  exact Option.some.inj (hboth.2.1.2.symm.trans h.journal)

/-- **A retry keeps the journal recoverable.** -/
theorem wp_retry_held (h : Recoverable env pending nobody w) (turns : Nat) (resumePoolMembers : Bool) :
    wp (anyStep env) (retryPending env.request turns resumePoolMembers) (retriedHeld env pending) w := by
  refine wp_seq (wp_load_held h) fun found w' hload => ?_
  obtain ⟨h', rfl⟩ := hload
  refine wp_forEach (fun rest ready w => rest ⊆ found ∧ Recoverable env found nobody w ∧ VolumesGone w ready)
    (fun _ _ h => h.2) ?_ ⟨List.Subset.refl _, h', fun _ hnone => absurd hnone List.not_mem_nil⟩
  intro record rest ready w'' ⟨hrest, h'', hgone⟩
  refine wp_mono (wp_retryRecord_held (hrest List.mem_cons_self) h'' turns resumePoolMembers hgone) (fun _ _ h => ?_)
    (fun _ _ h => h) fun _ h => h
  exact ⟨fun other hother => hrest (List.mem_cons_of_mem _ hother), h⟩

/-! ### Recording -/

theorem Record.text_written (record : Record) (key : String) : record.written.text key = record.text key :=
  record.same_written.text key

theorem Record.int_written (record : Record) (key : String) : record.written.int key = record.int key := by
  rw [Record.int, Record.int]
  show (Json.asInt? (Dict.getD (writtenFields record.fields) key .null)).getD 0 = _
  rw [writtenFields, Json.getD_sortKeys, Json.asInt?_sortKeys]

theorem validatePendingVolume_written (request : Request) (record : Record) (volume : StoredVolume) :
    validatePendingVolume request record.written volume = validatePendingVolume request record volume := by
  have hcluster : record.written.clusterName = record.clusterName := record.text_written _
  have hcompartment : record.written.compartmentId = record.compartmentId := record.text_written _
  have howned : ownedAs request record.written volume = ownedAs request record volume := by
    simp only [ownedAs, Record.volumeDisplayName, Record.sizeInGbs, Record.vpusPerGb, Record.text_written,
      Record.int_written]
  unfold validatePendingVolume
  rw [hcluster, hcompartment, howned]

theorem Fits.written {record : Record} (h : Fits env w record) : Fits env w record.written where
  clusterName := (record.text_written _).trans h.clusterName
  compartmentId := (record.text_written _).trans h.compartmentId
  poolId := (record.text_written _).trans h.poolId
  found := by
    rw [Record.instanceId, Record.instanceDisplayName, Record.text_written, Record.text_written]
    exact h.found
  volume volume := by
    rw [Record.volumeId, Record.text_written, validatePendingVolume_written]
    exact h.volume volume
  scratch := by
    rw [Record.instanceId, Record.volumeId, Record.text_written, Record.text_written]
    exact h.scratch
  once := by
    rw [Record.instanceId, Record.instancePoolSizeBeforeRemoval, Record.text_written, Record.int_written]
    exact h.once

theorem volumeIds_written (records : List Record) :
    (records.map Record.written).map (·.volumeId) = records.map (·.volumeId) := by
  rw [List.map_map]
  exact List.map_congr_left fun record _ => record.volumeId_written

/-- A journal of records that fit is sound as it is written. -/
theorem Sound.written (h : Sound env pending w) {others : List Record} (hfits : ∀ record ∈ others, Fits env w record)
    (hspoken : ∀ id, id ∈ w.members ∨ Spoken env others w id) : Sound env (others.map Record.written) w := by
  refine ⟨h.nodup, h.size, h.running, h.undetached, fun record hrecord => ?_, h.came, fun id => ?_⟩
  · obtain ⟨other, hother, rfl⟩ := List.mem_map.mp hrecord
    exact (hfits other hother).written
  · unfold Spoken
    rw [volumeIds_written]
    exact hspoken id

/-- The attachment that is managed is the only one on the device. -/
theorem filter_of_managed {candidate : Instance} {inventory : Inventory} {clusterName : String}
    {attachments : List VolumeAttachment} {poll : Poll} {managed : VolumeAttachment} (hpoll : poll.attachments = attachments)
    (h : getExclusiveManagedAttachment candidate inventory clusterName attachments poll = .ok (some managed)) :
    attachments.filter onVdc = [managed] := by
  unfold getExclusiveManagedAttachment at h
  split at h
  · cases h
  · cases h
  · rename_i settings _
    split at h
    · cases h
    · split at h
      · cases h
      · rename_i found hlocal
        have hmanaged : found = managed := by
          dsimp only at h
          split at h
          · cases h
          · cases h
            rfl
        subst hmanaged
        rw [getLocalBlockVolumeAttachment, getLocalBlockVolumeAttachment.pollFor, hpoll] at hlocal
        split at hlocal
        · cases hlocal
        · rename_i attachment hfilter
          split at hlocal
          · cases hlocal
          · rename_i checked hcheck
            cases hlocal
            rw [hfilter, eq_of_checkAttachment hcheck]
          · cases hlocal
        · cases hlocal

/-- The instance runs, with nothing changed but its state. -/
def StillRuns (found : Instance) (id : String) (w : World) : Prop :=
  ∃ later, w.instances id = some later ∧ ¬ IsEnding later.lifecycleState ∧
    later = { found with lifecycleState := later.lifecycleState }

theorem StillRuns.step {found : Instance} {o : ResizeCall} {w' : World} (h : StillRuns found id w) (hc : Changes env w o w')
    (ho : Quiet o) : StillRuns found id w' := by
  obtain ⟨later, hlater, hruns, hsame⟩ := h
  obtain ⟨next, hnext, hstill⟩ := hc.runs (ho.not_terminate id) ⟨later, hlater, hruns⟩
  obtain ⟨before, hbefore, heq⟩ := hc.found hnext
  obtain rfl := Option.some.inj (hlater.symm.trans hbefore)
  refine ⟨next, hnext, hstill, heq.trans ?_⟩
  rw [hsame]

theorem ScratchOf.unique {found : Instance} {volumeId other : String} (h : ScratchOf env found id volumeId)
    (h' : ScratchOf env found id other) : volumeId = other := by
  obtain ⟨-, attachment, hone, -, rfl⟩ := h
  obtain ⟨-, attachment', hone', -, rfl⟩ := h'
  rw [(List.cons.inj (hone.symm.trans hone')).1]

/-- The scratch volume that a running instance came with. -/
theorem scratch_of_came {found : Instance} (h : Sound env pending w) (hruns : StillRuns found id w) {volumeId : String}
    (hscratch : env.scratch id volumeId) : ScratchOf env found id volumeId := by
  obtain ⟨later, hlater, -, hsame⟩ := hruns
  have hcame := h.came id later hlater volumeId hscratch
  rw [hsame] at hcame
  exact hcame

/-- **What a removal recognizes is the scratch volume.** -/
theorem wp_exclusive_held (h : Recoverable env pending S w) (hruns : w.Running id) :
    wp (anyStep env) (getExclusiveManagedLocalBlockVolumeAttachment env.request id)
      ⟨fun managed w' => Recoverable env pending S w' ∧ ∃ found, StillRuns found id w' ∧
          ∀ volumeId, explicitlyDeleted managed = some volumeId ↔ ScratchOf env found id volumeId,
        fun _ => Recoverable env pending S, Recoverable env pending S⟩ w := by
  refine wp_perform_seq h (fun (found : Instance) w₁ hstep => ?_) fun e w₁ hstep => h.quiet (by exact trivial) hstep
  have h₁ := h.quiet (by exact trivial) hstep
  have hfound : w₁.instances id = some found := hstep.2.2
  have hruns₁ : StillRuns found id w₁ := by
    obtain ⟨later, hlater, hstill⟩ := hstep.2.1.runs (fun _ heq => by cases heq) hruns
    obtain rfl := Option.some.inj (hlater.symm.trans hfound)
    exact ⟨later, hlater, hstill, rfl⟩
  have hrunning : ∀ {w' : World}, StillRuns found id w' → w'.Running id := fun h => by
    obtain ⟨later, hlater, hstill, -⟩ := h
    exact ⟨later, hlater, hstill⟩
  split
  · exact h₁
  · rename_i hconfig
    refine ⟨h₁, found, hruns₁, fun volumeId => ⟨fun hnone => ?_, fun hscratch => ?_⟩⟩
    · cases hnone
    · obtain ⟨⟨settings, hsome⟩, -⟩ := hscratch
      rw [hconfig] at hsome
      cases hsome
  · rename_i settings hconfig
    refine wp_perform_seq h₁ (fun (attachments : List VolumeAttachment) w₂ hstep₂ => ?_) fun e w₂ hstep₂ =>
      h₁.quiet (by exact trivial) hstep₂
    have h₂ := h₁.quiet (by exact trivial) hstep₂
    have hruns₂ := hruns₁.step hstep₂.2.1 (by exact trivial)
    have hattachments : attachments = env.attachments id := hstep₂.2.2 (hrunning hruns₂)
    split
    · rename_i hempty
      refine ⟨h₂, found, hruns₂, fun volumeId => ⟨fun hnone => ?_, fun hscratch => ?_⟩⟩
      · cases hnone
      · obtain ⟨-, attachment, hfilter, -⟩ := hscratch
        rw [hattachments, hfilter] at hempty
        cases hempty
    · rename_i hnonempty
      refine wp_perform_seq h₂ (fun (poll : Poll) w₃ hstep₃ => ?_) fun e w₃ hstep₃ => h₂.quiet (by exact trivial) hstep₃
      have h₃ := h₂.quiet (by exact trivial) hstep₃
      have hruns₃ := hruns₂.step hstep₃.2.1 (by exact trivial)
      have hpoll : poll.attachments = env.attachments id := hstep₃.2.2 (hrunning hruns₃)
      split
      · exact h₃
      · exact h₃
      · rename_i managed hmanaged
        refine ⟨h₃, found, hruns₃, fun volumeId => ?_⟩
        cases managed with
        | none =>
          exfalso
          unfold getExclusiveManagedAttachment at hmanaged
          rw [hconfig] at hmanaged
          dsimp only at hmanaged
          rw [if_neg hnonempty] at hmanaged
          split at hmanaged
          · cases hmanaged
          · split at hmanaged <;> cases hmanaged
        | some managed =>
          have hfilter := filter_of_managed (hpoll.trans hattachments.symm) hmanaged
          rw [hattachments] at hfilter
          constructor
          · intro hexplicit
            rw [explicitlyDeleted, Option.any_some] at hexplicit
            split at hexplicit
            · cases hexplicit
            · rename_i hlaunch
              refine ⟨⟨settings, hconfig⟩, managed, hfilter, ?_, Option.some.inj hexplicit⟩
              intro heq
              rw [heq] at hlaunch
              exact hlaunch rfl
          · rintro ⟨-, attachment, hone, hlaunch, hid⟩
            obtain rfl : managed = attachment := by
              rw [hfilter] at hone
              exact (List.cons.inj hone).1
            rw [explicitlyDeleted_some hlaunch, hid]

/-- **The record that is built fits**, where the instance is a member. -/
theorem wp_build_held {found : Instance} {volumeId : String} (h : Recoverable env pending S w) (hruns : StillRuns found id w)
    (honly : ∀ other, env.scratch id other → other = volumeId) (privateIp : String) :
    wp (anyStep env) (buildPendingRecord env.request env.poolId id privateIp volumeId)
      ⟨fun record w' => Recoverable env pending S w' ∧ StillRuns found id w' ∧ w'.members = w.members ∧
          record.volumeId = volumeId ∧ (id ∈ w'.members → Fits env w' record),
        fun _ => Recoverable env pending S, Recoverable env pending S⟩ w := by
  refine wp_perform_seq h (fun (candidate : Instance) w₁ hstep₁ => ?_) fun e w₁ hstep₁ => h.quiet (by exact trivial) hstep₁
  have h₁ := h.quiet (by exact trivial) hstep₁
  have hcandidate : w₁.instances id = some candidate := hstep₁.2.2
  split
  · exact h₁
  rename_i hparent
  split
  · exact h₁
  refine wp_perform_seq h₁ (fun (pool : InstancePool) w₂ hstep₂ => ?_) fun e w₂ hstep₂ => h₁.quiet (by exact trivial) hstep₂
  have h₂ := h₁.quiet (by exact trivial) hstep₂
  have hsize : pool.size = w₂.size := hstep₂.2.2 rfl
  split
  · exact h₂
  refine wp_perform_seq h₂ (fun (volume : StoredVolume) w₃ hstep₃ => ?_) fun e w₃ hstep₃ => h₂.quiet (by exact trivial) hstep₃
  have h₃ := h₂.quiet (by exact trivial) hstep₃
  have hvolume : w₃.volumes volumeId = some volume := hstep₃.2.2
  split
  · exact h₃
  rename_i record hrecord
  split
  · exact h₃
  rename_i hvalid
  have hfields := fields_of_validateRecord hrecord
  have hid : record.instanceId = id := by
    rw [Record.instanceId, Record.text, hfields]
    rfl
  have hvolumeId : record.volumeId = volumeId := volumeId_of_newFields hfields
  have hsame₁ := hstep₁.2.1.samePool fun _ heq => by cases heq
  have hsame₂ := hstep₂.2.1.samePool fun _ heq => by cases heq
  have hsame₃ := hstep₃.2.1.samePool fun _ heq => by cases heq
  have hruns₂ := (hruns.step hstep₁.2.1 (by exact trivial)).step hstep₂.2.1 (by exact trivial)
  refine ⟨h₃, hruns₂.step hstep₃.2.1 (by exact trivial),
    hsame₃.1.trans (hsame₂.1.trans hsame₁.1), hvolumeId, fun hmember => ?_⟩
  refine ⟨?_, ?_, ?_, fun later hlater => ?_, fun other hother => ?_, fun other hscratch => ?_, .inl ⟨hid ▸ hmember, ?_⟩⟩
  · rw [Record.clusterName, Record.text, hfields]
    rfl
  · rw [Record.compartmentId, Record.text, hfields]
    rfl
  · rw [Record.instancePoolId, Record.text, hfields]
    rfl
  · rw [hid] at hlater
    obtain ⟨between, hbetween, hsame⟩ := hstep₃.2.1.found hlater
    obtain ⟨before, hbefore, hsame'⟩ := hstep₂.2.1.found hbetween
    obtain rfl := Option.some.inj (hcandidate.symm.trans hbefore)
    have hname : record.instanceDisplayName = candidate.displayName := by
      rw [Record.instanceDisplayName, Record.text, hfields]
      rfl
    rw [hname, hsame, hsame']
    exact ⟨not_not.mp hparent, rfl⟩
  · rw [hvolumeId] at hother
    obtain rfl := Option.some.inj (hvolume.symm.trans hother)
    exact hvalid
  · rw [hvolumeId]
    exact honly other (hid ▸ hscratch)
  · have hbefore : record.instancePoolSizeBeforeRemoval = pool.size := by
      rw [Record.instancePoolSizeBeforeRemoval, Record.int, hfields]
      rfl
    rw [hbefore, hsize, hsame₃.2.1]

def CanRecover (env : Pool) (S : String → Prop) (w : World) : Prop := ∃ pending, Recoverable env pending S w

/-- What a call on files leaves besides the files. -/
structure OffDisk (env : Pool) (pending : List Record) (S : String → Prop) (record : Record) (found : Instance) (id : String)
    (w : World) : Prop where
  sound : Sound env pending w
  settled : ∀ other, S other → other ∈ w.members ∨ Noted env pending w other
  runs : StillRuns found id w
  fits : id ∈ w.members → Fits env w record

theorem OffDisk.step {record : Record} {found : Instance} {f : FileCall} {w' : World}
    (h : OffDisk env pending S record found id w) (hc : Changes env w (.file f) w') :
    OffDisk env pending S record found id w' := by
  have hmembers : w'.members = w.members := (hc.samePool fun _ heq => by cases heq).1
  refine ⟨h.sound.step hc (fun _ _ heq => by cases heq) (fun _ heq => by cases heq), fun other hother => ?_, ?_,
    fun hmember => ?_⟩
  · rw [hmembers]
    exact (h.settled other hother).imp_right fun hnoted => hnoted.step hc fun _ heq => by cases heq
  · obtain ⟨later, hlater, hruns, hsame⟩ := h.runs
    obtain ⟨next, hnext, hstill⟩ := hc.runs (fun _ heq => by cases heq) ⟨later, hlater, hruns⟩
    obtain ⟨before, hbefore, heq⟩ := hc.found hnext
    obtain rfl := Option.some.inj (hlater.symm.trans hbefore)
    refine ⟨next, hnext, hstill, heq.trans ?_⟩
    rw [hsame]
  · exact (h.fits (hmembers ▸ hmember)).step h.sound hc

/-- **A journal with one record more is recoverable.** -/
theorem recoverable_of_remembered {record : Record} {found : Instance} {d : PendingDisk}
    (h : OffDisk env pending S record found id w) (hjournal : journalOf d = some pending)
    (hmember : id ∈ w.members ∨ record.volumeId ∈ pending.map (·.volumeId)) (hdisk : Remembered d record w.final.disk) :
    ∃ others, Recoverable env others S w ∧ pending.map (·.volumeId) ⊆ others.map (·.volumeId) ∧
      record.volumeId ∈ others.map (·.volumeId) := by
  obtain ⟨stored, hstored, ⟨existing, hexisting, -, hsame⟩ | ⟨hnew, hwritten⟩⟩ := hdisk
  · obtain rfl := Option.some.inj (hjournal.symm.trans hstored)
    have hmem := List.mem_of_find?_eq_some hexisting
    have hid : existing.volumeId = record.volumeId := by simpa using List.find?_some hexisting
    refine ⟨pending, ⟨?_, h.sound, h.settled⟩, List.Subset.refl _, hid ▸ List.mem_map_of_mem hmem⟩
    rw [hsame]
    exact hjournal
  · obtain rfl := Option.some.inj (hjournal.symm.trans hstored)
    have hdistinct := nodup_append_of_new (nodup_of_journalOf hjournal) hnew
    have hin : id ∈ w.members := by
      obtain hin | hold := hmember
      · exact hin
      · obtain ⟨other, hother, heq⟩ := List.mem_map.mp hold
        exact absurd (beq_iff_eq.mpr heq) (List.find?_eq_none.mp hnew other hother)
    have hvolumes := volumeIds_written (pending ++ [record])
    have hsubset : pending.map (·.volumeId) ⊆ ((pending ++ [record]).map Record.written).map (·.volumeId) := by
      rw [hvolumes, List.map_append]
      exact List.subset_append_left _ _
    refine ⟨_, ⟨journalOf_of_written hwritten hdistinct, h.sound.written (fun other hother => ?_) (fun other => ?_),
      fun other hother => ?_⟩, hsubset, ?_⟩
    · rcases List.mem_append.mp hother with hother | hother
      · exact h.sound.fits other hother
      · rw [List.mem_singleton.mp hother]
        exact h.fits hin
    · refine (h.sound.spoken other).imp_right fun hspoken volumeId hscratch =>
        (hspoken volumeId hscratch).imp_left fun hold => ?_
      rw [List.map_append]
      exact List.mem_append_left _ hold
    · exact (h.settled other hother).imp_right fun hnoted => hnoted.mono hsubset
    · rw [hvolumes]
      exact List.mem_map_of_mem (List.mem_append_right _ List.mem_cons_self)

theorem OffDisk.unchanged {record : Record} {found : Instance} {d : PendingDisk} (h : OffDisk env pending S record found id w)
    (hjournal : journalOf d = some pending) (hdisk : SameNamed d w.final.disk) : Recoverable env pending S w :=
  ⟨(journalOf_of_sameNamed hdisk).trans hjournal, h.sound, h.settled⟩

/-- **A record is remembered before its instance leaves the pool.** -/
theorem wp_remember_held {record : Record} {found : Instance} (h : Recoverable env pending S w)
    (hruns : StillRuns found id w) (hmember : id ∈ w.members ∨ record.volumeId ∈ pending.map (·.volumeId))
    (hfits : id ∈ w.members → Fits env w record) :
    wp (anyStep env) (onFiles (rememberPending record))
      ⟨fun _ w' => ∃ others, Recoverable env others S w' ∧ StillRuns found id w' ∧ record.volumeId ∈ others.map (·.volumeId),
        fun _ => CanRecover env S, CanRecover env S⟩ w := by
  have hbeside : Keeps (anyStep env) (fun w' => w'.members = w.members ∧ OffDisk env pending S record found id w')
      (onFiles (rememberPending record)) := by
    refine keeps_of_calls (P := fun o => ∃ f, o = ResizeCall.file f) (calls_onFiles (fun f => ⟨f, rfl⟩) _) ?_
    rintro w₁ o r w₂ ⟨f, rfl⟩ ⟨hmembers, h₁⟩ hstep
    exact ⟨(hstep.2.1.samePool fun _ heq => by cases heq).1.trans hmembers, h₁.step hstep.2.1⟩
  have hdisk := wp_final
    (wp_beside_final (rememberPending_spec record w.final.disk) : wp (finalStep env.isWord env.inventoryPath) _ _ _)
  have hends : ∀ w', (w'.members = w.members ∧ OffDisk env pending S record found id w') →
      Remembered w.final.disk record w'.final.disk → ∃ others, Recoverable env others S w' ∧ StillRuns found id w' ∧
        record.volumeId ∈ others.map (·.volumeId) := by
    intro w' ⟨hmembers, h'⟩ hremembered
    obtain ⟨others, hothers, -, hin⟩ :=
      recoverable_of_remembered h' h.journal (hmember.imp_left fun hin => hmembers ▸ hin) hremembered
    exact ⟨others, hothers, h'.runs, hin⟩
  have hany : ∀ w', (w'.members = w.members ∧ OffDisk env pending S record found id w') →
      SameNamed w.final.disk w'.final.disk ∨ Remembered w.final.disk record w'.final.disk → CanRecover env S w' := by
    intro w' h' hdisk'
    obtain hsame | hremembered := hdisk'
    · exact ⟨pending, h'.2.unchanged h.journal hsame⟩
    · obtain ⟨others, hothers, -⟩ := hends w' h' hremembered
      exact ⟨others, hothers⟩
  refine wp_mono (wp_and (hbeside w ⟨rfl, h.sound, h.settled, hruns, hfits⟩) hdisk) (fun _ w' hboth => ?_)
    (fun _ w' hboth => ?_) fun w' hboth => ?_
  · exact hends w' hboth.1 hboth.2.1
  · exact hany w' hboth.1 hboth.2.1
  · exact hany w' hboth.1 hboth.2.1

/-! ### Removing -/

/-- What a removal leaves. Where it raises a 404, its instance was not told to terminate. -/
def removalPost {α : Type} (env : Pool) (S : String → Prop) : Post World CallError α :=
  ⟨fun _ => CanRecover env S, fun e w' => CanRecover env nobody w' ∧ ((∃ text, e = .service 404 text) → CanRecover env S w'),
    CanRecover env nobody⟩

theorem CanRecover.forget (h : CanRecover env S w) : CanRecover env nobody w := by
  obtain ⟨pending, h⟩ := h
  exact ⟨pending, h.forget⟩

theorem removalPost_of_kept {α : Type} {p : Prog resizeSig CallError α}
    (h : wp (anyStep env) p ⟨fun _ => CanRecover env S, fun _ => CanRecover env S, CanRecover env S⟩ w) :
    wp (anyStep env) p (removalPost env S) w :=
  wp_mono h (fun _ _ h => h) (fun _ _ h => ⟨h.forget, fun _ => h⟩) fun _ h => h.forget

/-- The record of the scratch volume is in the journal, and so the instance is noted. -/
theorem noted_of_recorded {found : Instance} (hruns : StillRuns found id w)
    (hscratch : ∀ volumeId, ScratchOf env found id volumeId → volumeId ∈ pending.map (·.volumeId)) :
    Noted env pending w id := by
  obtain ⟨later, hlater, hstill, hsame⟩ := hruns
  intro other hother _
  obtain rfl := Option.some.inj (hlater.symm.trans hother)
  refine ⟨hstill, fun volumeId hvolume => hscratch volumeId ?_⟩
  rw [hsame] at hvolume
  exact hvolume

theorem mayLeave_of_recorded {found : Instance} (h : Recoverable env pending S w) (hruns : StillRuns found id w)
    (hscratch : ∀ volumeId, ScratchOf env found id volumeId → volumeId ∈ pending.map (·.volumeId)) :
    MayLeave env pending S id w :=
  ⟨h, fun _ => noted_of_recorded hruns hscratch, fun volumeId hcame =>
    .inl (hscratch volumeId (scratch_of_came h.sound hruns hcame))⟩

/-- The record is written, unless the journal has it. -/
theorem wp_record_held {managed : Option VolumeAttachment} {found : Instance} (h : Recoverable env pending S w) (hid : S id)
    (hruns : StillRuns found id w)
    (hmanaged : ∀ volumeId, explicitlyDeleted managed = some volumeId ↔ ScratchOf env found id volumeId)
    (privateIp : String) :
    wp (anyStep env) (recordPendingVolume env.request env.poolId id privateIp (explicitlyDeleted managed))
      ⟨fun _ w' => ∃ others, MayLeave env others S id w', fun _ => CanRecover env S, CanRecover env S⟩ w := by
  cases hexplicit : explicitlyDeleted managed with
  | none =>
    refine ⟨pending, mayLeave_of_recorded h hruns fun volumeId hscratch => ?_⟩
    have hsome := (hmanaged volumeId).mpr hscratch
    rw [hexplicit] at hsome
    cases hsome
  | some volumeId =>
    have hscratch := (hmanaged volumeId).mp hexplicit
    have hmember : id ∈ w.members ∨ volumeId ∈ pending.map (·.volumeId) := by
      obtain hmember | hnoted := h.settled id hid
      · exact .inl hmember
      · obtain ⟨later, hlater, hstill, hsame⟩ := hruns
        have hstate : later.lifecycleState ≠ "TERMINATED" := fun heq => hstill (.inr heq)
        refine .inr ((hnoted later hlater hstate).2 volumeId ?_)
        rw [hsame]
        exact hscratch
    have honly : ∀ other, env.scratch id other → other = volumeId := fun other hcame =>
      (scratch_of_came h.sound hruns hcame).unique hscratch
    refine wp_seq (wp_mono (wp_build_held h hruns honly privateIp) (fun _ _ h => h) (fun _ _ h => ⟨pending, h⟩)
      fun _ h => ⟨pending, h⟩) fun record w₁ hbuilt => ?_
    obtain ⟨h₁, hruns₁, hmembers, hvolume, hfits⟩ := hbuilt
    have hmember₁ : id ∈ w₁.members ∨ record.volumeId ∈ pending.map (·.volumeId) := by
      rw [hmembers, hvolume]
      exact hmember
    refine wp_seq (wp_remember_held h₁ hruns₁ hmember₁ hfits) fun _ w₂ hremembered => ?_
    obtain ⟨others, h₂, hruns₂, hin⟩ := hremembered
    refine ⟨others, mayLeave_of_recorded h₂ hruns₂ fun other hother => ?_⟩
    obtain rfl : other = volumeId := Option.some.inj (((hmanaged other).mpr hother).symm.trans hexplicit)
    exact hvolume ▸ hin

/-- **A removal keeps the journal recoverable**, wherever it ends. -/
theorem wp_remove_held (h : CanRecover env S w) (hid : S id) (hruns : w.Running id) (turns : Nat) (privateIp : String) :
    wp (anyStep env) (removeInstancePoolMember env.request turns env.poolId id privateIp) (removalPost env S) w := by
  obtain ⟨pending, h⟩ := h
  rw [removeInstancePoolMember_eq]
  refine wp_seq (R := fun managed w' => Recoverable env pending S w' ∧ ∃ found, StillRuns found id w' ∧
      ∀ volumeId, explicitlyDeleted managed = some volumeId ↔ ScratchOf env found id volumeId)
    (wp_mono (wp_exclusive_held h hruns) (fun _ _ h => h) (fun _ _ h => ?_) fun _ h => ?_) fun managed w₁ hfound => ?_
  · exact ⟨⟨pending, h.forget⟩, fun _ => ⟨pending, h⟩⟩
  · exact ⟨pending, h.forget⟩
  obtain ⟨h₁, found, hruns₁, hmanaged⟩ := hfound
  refine wp_seq (R := fun _ w' => ∃ others, MayLeave env others S id w')
    (wp_mono (wp_record_held h₁ hid hruns₁ hmanaged privateIp) (fun _ _ h => h) (fun _ _ h => ⟨h.forget, fun _ => h⟩)
      fun _ h => h.forget) fun pendingRecord w₂ hrecorded => ?_
  obtain ⟨others, h₂⟩ := hrecorded
  refine wp_seq (R := fun _ w' => Leaving env others S id w')
    (wp_mono (wp_detach h₂ turns _) (fun _ _ h => ?_) (fun _ _ h => ?_) fun _ h => ?_) fun _ w₃ h₃ => ?_
  · exact ⟨h.1.1.mono fun _ hother => hother.1, h.2⟩
  · exact ⟨⟨others, h.1.forget⟩, fun _ => ⟨others, h.1⟩⟩
  · exact ⟨others, h.1.forget⟩
  refine wp_seq (R := fun _ w' => Recoverable env others S w')
    (wp_mono (wp_terminate_held env.request turns _ h₃) (fun _ _ h => ?_) (fun _ _ h => ?_) fun _ h => ?_) fun _ w₄ h₄ => ?_
  · exact h.1.settle h.2
  · refine ⟨⟨others, h.1.1.forget⟩, fun hnotFound => ?_⟩
    obtain ⟨text, heq⟩ := hnotFound
    exact absurd heq (h.2 text)
  · exact ⟨others, h.1.forget⟩
  have hkept : CanRecover env S w₄ := ⟨others, h₄⟩
  cases pendingRecord with
  | none => exact hkept
  | some record =>
    have hcalls : ((deleteManagedLocalBlockVolume record.volumeId turns false).bind fun _ =>
        .ret (some record) : Prog resizeSig CallError (Option Record)).Calls Quiet :=
      (calls_deleteManagedLocalBlockVolume trivial trivial turns false).bind fun _ => calls_ret ..
    refine removalPost_of_kept (wp_mono (keeps_quiet hcalls w₄ h₄) (fun _ _ h => ?_) (fun _ _ h => ?_) fun _ h => ?_)
    · exact ⟨others, h⟩
    · exact ⟨others, h⟩
    · exact ⟨others, h⟩

/-! ### Finalizing -/

theorem calls_finalizePending {P : ResizeCall → Prop} (hfile : ∀ o, P (.file o))
    (hlist : ∀ compartmentId name, P (.listZones compartmentId name))
    (hdelete : ∀ zoneId domain, P (.deleteRrSet zoneId domain)) (hupdate : ∀ size, P (.updateTFState size))
    (request : Request) (readyDeletions : List Record) (pool : PoolState) :
    (finalizePending request readyDeletions pool).Calls P := by
  have hdns : (finalizeDns request readyDeletions pool).Calls P := by
    unfold finalizeDns
    split
    · trivial
    · split
      · refine Calls.bind (calls_perform (hlist ..)) fun zones => ?_
        split
        · trivial
        · split
          · trivial
          · split
            · trivial
            · exact calls_deleteDomains hdelete _ _
      · trivial
  unfold finalizePending
  split
  · trivial
  · refine (calls_onFiles hfile loadPending).bind fun pendingDeletions => ?_
    split
    · trivial
    · refine hdns.bind fun _ => Calls.bind (calls_perform (hupdate _)) fun _ => ?_
      exact (calls_onFiles hfile _).bind fun _ => calls_ret ..

def FinalCall : ResizeCall → Prop
  | .file _ | .listZones .. | .deleteRrSet .. | .updateTFState _ => True
  | _ => False

theorem calls_finalizePending_final (request : Request) (readyDeletions : List Record) (pool : PoolState) :
    (finalizePending request readyDeletions pool).Calls FinalCall :=
  calls_finalizePending (fun _ => trivial) (fun _ _ => trivial) (fun _ _ => trivial) (fun _ => trivial) _ _ _

theorem Sound.final {o : ResizeCall} {r : Except CallError o.Ans} {w' : World} (h : Sound env pending w) (ho : FinalCall o)
    (hstep : anyStep env w o r w') : Sound env pending w' :=
  h.step hstep.2.1 (fun _ _ heq => by
    subst heq
    exact ho.elim) fun _ heq => by
    subst heq
    exact ho.elim

/-- A volume whose record leaves the journal is gone. -/
theorem spoken_of_remaining {readyDeletions : List Record} (h : Spoken env pending w id)
    (hgone : VolumesGone w readyDeletions) : Spoken env (remaining pending readyDeletions) w id := by
  intro volumeId hscratch
  obtain hpending | hdone := h volumeId hscratch
  · obtain ⟨record, hmem, rfl⟩ := List.mem_map.mp hpending
    by_cases hready : record.volumeId ∈ readyDeletions.map (·.volumeId)
    · obtain ⟨ready, hin, hsame⟩ := List.mem_map.mp hready
      exact .inr (hsame ▸ hgone ready hin)
    · exact .inl (List.mem_map_of_mem (List.mem_filter.mpr ⟨hmem, decide_eq_true hready⟩))
  · exact .inr hdone

/-- **Finalizing keeps the journal recoverable.** -/
theorem wp_finalize_held (h : CanRecover env nobody w) {readyDeletions : List Record} (hgone : VolumesGone w readyDeletions)
    (pool : PoolState) :
    wp (anyStep env) (finalizePending env.request readyDeletions pool)
      ⟨fun _ => CanRecover env nobody, fun _ => CanRecover env nobody, CanRecover env nobody⟩ w := by
  obtain ⟨pending, h⟩ := h
  by_cases hready : readyDeletions = []
  · subst hready
    exact ⟨pending, h⟩
  have hsound : Keeps (anyStep env) (fun w' => Sound env pending w' ∧ VolumesGone w' readyDeletions)
      (finalizePending env.request readyDeletions pool) :=
    keeps_of_calls (calls_finalizePending_final ..) fun _ _ _ _ ho hs hstep => ⟨hs.1.final ho hstep, hs.2.step hstep.2.1⟩
  have heffects := wp_final (finalizePending_effects hready :
    wp (finalStep env.isWord env.inventoryPath) (finalizePending env.request readyDeletions pool) _ w.final)
  have hhalf : ∀ w' : World, Sound env pending w' →
      Halfway env.isWord env.inventoryPath env.request readyDeletions pool w.final w'.final → CanRecover env nobody w' := by
    intro w' hs hhalf
    exact ⟨pending, (journalOf_of_sameNamed hhalf.disk).trans h.journal, hs, fun _ hnone => hnone.elim⟩
  have hdone : ∀ w' : World, Sound env pending w' ∧ VolumesGone w' readyDeletions →
      Committed env.isWord env.inventoryPath env.request readyDeletions pool w.final w'.final → CanRecover env nobody w' := by
    intro w' ⟨hs, hgone'⟩ hcommitted
    obtain ⟨found, size, removed, hplanned, -, -, -, hwritten⟩ := hcommitted
    obtain rfl := Option.some.inj (h.journal.symm.trans hplanned.journal)
    have hsublist : (remaining pending readyDeletions).Sublist pending := List.filter_sublist
    have hdistinct := (nodup_of_journalOf h.journal).sublist (hsublist.map (·.volumeId))
    refine ⟨_, journalOf_of_written hwritten hdistinct, hs.written (fun record hrecord =>
      hs.fits record (hsublist.subset hrecord)) fun id => ?_, fun _ hnone => hnone.elim⟩
    exact (hs.spoken id).imp_right fun hspoken => spoken_of_remaining hspoken hgone'
  refine wp_mono (wp_and (hsound w ⟨h.sound, hgone⟩) heffects) (fun _ w' hboth => ?_) (fun _ w' hboth => ?_)
    fun w' hboth => ?_
  · exact hdone w' hboth.1 hboth.2
  · exact hboth.2.elim (hhalf w' hboth.1.1) (hdone w' hboth.1)
  · exact hboth.2.elim (hhalf w' hboth.1.1) (hdone w' hboth.1)

end

/-! ## A run -/

section
variable {env : Pool} {w : World} {pending : List Record} {S : String → Prop}

theorem wp_routine {α : Type} (p : Prog resizeSig CallError α) (Q : Post World CallError α) (w : World) :
    wp (anyCall env) (routine p) Q w ↔ wp (anyStep env) p Q w :=
  wp_via (fun o Q w => wp_perform (S := clusterSig) (.resize o) Q w) p Q w

/-- A call that removes nothing and writes no file. -/
def QuietCluster : ClusterCall → Prop
  | .resize o => Quiet o
  | _ => True

theorem eq_of_anyCall {o : ClusterCall} {r : Except CallError o.Ans} {w' : World} (ho : ∀ o', o ≠ .resize o')
    (h : anyCall env w o r w') : w' = w := by
  cases o with
  | resize o => exact absurd rfl (ho o)
  | _ => exact h.1

theorem keeps_quietCluster {α : Type} {p : Prog clusterSig CallError α} (hp : p.Calls QuietCluster) :
    Keeps (anyCall env) (CanRecover env S) p :=
  keeps_of_calls hp fun w o r w' ho hw hstep => by
    obtain ⟨pending, hw⟩ := hw
    cases o with
    | resize o => exact ⟨pending, hw.quiet ho hstep⟩
    | _ =>
      rw [eq_of_anyCall (fun _ heq => by cases heq) hstep]
      exact ⟨pending, hw⟩

section
variable (privateIp : String → String) (request : Request) (turns : Nat)

theorem calls_runningTurn {kind : ClusterKind} {id : String} {expectedSize : Option Int} {next : Prog clusterSig CallError Unit}
    (hnext : next.Calls QuietCluster) : (runningTurn request kind id expectedSize next).Calls QuietCluster := by
  refine Calls.bind (calls_perform trivial) fun state => Calls.bind (calls_perform trivial) fun ids => ?_
  split
  · exact hnext
  · split
    · trivial
    · exact hnext

theorem calls_waitForRunningStatus (kind : ClusterKind) (id : String) (expectedSize : Option Int) :
    (waitForRunningStatus request turns kind id expectedSize).Calls QuietCluster := by
  unfold waitForRunningStatus
  split
  · trivial
  · induction turns with
    | zero => exact calls_runningTurn request (calls_throw ..)
    | succ turns ih => exact calls_runningTurn request ih

theorem calls_getInstancesOf (kind : ClusterKind) (id : String) :
    (getInstancesOf privateIp request kind id).Calls QuietCluster :=
  Calls.bind (calls_perform trivial) fun _ => calls_ret ..

theorem calls_activeIdentities (kind : ClusterKind) (id : String) (size : Int) :
    (activeIdentities privateIp request turns kind id size).Calls QuietCluster := by
  unfold activeIdentities
  split
  · refine (calls_waitForRunningStatus request turns kind id (some size)).bind fun _ => Calls.bind ?_ fun found => calls_ret ..
    refine (calls_getInstancesOf privateIp request kind id).bind fun nodes => ?_
    split <;> trivial
  · trivial

theorem calls_routine {α : Type} {p : Prog resizeSig CallError α} (hp : p.Calls Quiet) : (routine p).Calls QuietCluster :=
  hp.via fun o ho => calls_perform (show QuietCluster (.resize o) from ho)

theorem calls_findZone : (findZone request).Calls QuietCluster := by
  unfold findZone
  split
  · refine Calls.bind (calls_routine (calls_perform trivial)) fun zones => ?_
    split <;> trivial
  · trivial

theorem calls_deleteNodeDns (zoneId instanceName : String) (cnInstances : List Node) :
    (deleteNodeDns request zoneId instanceName cnInstances).Calls Quiet := by
  have hdelete : ∀ domain, (deletePrivateDnsRrsetIfPresent zoneId domain).Calls Quiet := fun domain => by
    refine Calls.bind (calls_perform trivial).attempt fun answer => ?_
    split <;> trivial
  refine (hdelete _).bind fun _ => ?_
  split
  · trivial
  · split
    · trivial
    · exact hdelete _

end

/-- The cluster that is found has the pool, with its size. -/
def HasPool (env : Pool) (size : Int) (summary : Summary) : Prop :=
  summary.kind ≠ .computeCluster ∧ summary.pool = some ⟨env.poolId, size⟩

theorem wp_getSummary :
    wp (anyCall env) (getSummary env.request)
      ⟨fun found w' => w' = w ∧ ∀ summary, found = some summary → HasPool env w.size summary,
        fun _ w' => w' = w, fun w' => w' = w⟩ w := by
  have hpools : ∀ {clusters : List ListedCluster} {w : World}, activeCluster env.request.clusterName clusters = none →
      wp (anyCall env) (findBeside env.request clusters) ⟨fun found w' => w' = w ∧
        ∀ summary : Summary, found = some summary → HasPool env w.size summary,
          fun _ w' => w' = w, fun w' => w' = w⟩ w := by
    intro clusters w hnone
    unfold findBeside
    rw [hnone]
    refine wp_perform_seq rfl (fun (pools : List ListedPool) w' hstep => ?_) fun e w' hstep => hstep.1
    obtain ⟨rfl, hare⟩ := hstep
    refine ⟨rfl, fun summary hsummary => ?_⟩
    obtain ⟨pool, hpool, rfl⟩ := Option.map_eq_some_iff.mp hsummary
    have hmem := List.mem_filter.mp (List.mem_of_getLast? hpool)
    exact ⟨nofun, congrArg some ((show PoolsAre env w' pools from hare) pool hmem.1 (of_decide_eq_true hmem.2))⟩
  refine wp_perform_seq rfl (fun (networks : List NetworkSummary) w' hstep => ?_) fun e w' hstep => hstep.1
  obtain ⟨rfl, hare⟩ := hstep
  cases hrunning : runningNetwork networks with
  | some network =>
    have hmem := List.mem_filter.mp (List.mem_of_getLast? hrunning)
    obtain ⟨-, -, hhead⟩ := (show NetworksAre env w' networks from hare) network hmem.1 (of_decide_eq_true hmem.2)
    dsimp only
    cases hpool : network.instancePools with
    | nil => exact rfl
    | cons pool rest =>
      rw [hpool] at hhead
      refine ⟨rfl, fun summary hsummary => ?_⟩
      obtain rfl := Option.some.inj hsummary
      exact ⟨nofun, hhead⟩
  | none =>
    dsimp only
    refine wp_perform_attempt_seq rfl fun answer w'' hstep => ?_
    obtain ⟨rfl, htells⟩ := hstep
    cases answer with
    | ok clusters => exact hpools htells
    | error e => exact hpools rfl

theorem wp_getInstancesOf (privateIp : String → String) (kind : ClusterKind) (id : String) :
    wp (anyCall env) (getInstancesOf privateIp env.request kind id)
      ⟨fun nodes w' => w' = w ∧ ∀ node ∈ nodes, node.ocid ∈ w.members, fun _ w' => w' = w, fun w' => w' = w⟩ w := by
  refine wp_perform_seq rfl (fun (listed : List Turn) w' hstep => ?_) fun e w' hstep => hstep.1
  obtain ⟨rfl, hlisted⟩ := hstep
  refine ⟨rfl, fun node hnode => hlisted ?_⟩
  have hmem := (getInstancesFrom_sublist none listed).subset (List.mem_map_of_mem hnode)
  obtain ⟨turn, hturn, heq⟩ := List.mem_map.mp hmem
  exact (Prod.mk.inj heq).1 ▸ List.mem_map_of_mem hturn

/-- The postcondition of a program that keeps some journal recoverable. -/
def recovering {α : Type} (env : Pool) (S : String → Prop) : Post World CallError α :=
  ⟨fun _ => CanRecover env S, fun _ => CanRecover env S, CanRecover env S⟩

theorem keeps_volumesGoneCluster {α : Type} (p : Prog clusterSig CallError α) (records : List Record) :
    Keeps (anyCall env) (VolumesGone · records) p :=
  keeps_of_calls (calls_true p) fun w o r w' _ h hstep => by
    cases o with
    | resize o => exact h.step (show anyStep env w o r w' from hstep).2.1
    | _ =>
      rw [eq_of_anyCall (fun _ heq => by cases heq) hstep]
      exact h

theorem wp_finalizeReady_held (h : CanRecover env nobody w) (turns : Nat) {summary : Summary} {readyDeletions : List Record}
    (hgone : VolumesGone w readyDeletions) :
    wp (anyCall env) (finalizeReady env.privateIp env.request turns summary readyDeletions) (recovering env nobody) w := by
  unfold finalizeReady
  split
  · exact h
  · refine wp_seq (wp_mono (wp_and (keeps_quietCluster (calls_activeIdentities ..) w h)
      (keeps_volumesGoneCluster _ readyDeletions w hgone)) (fun _ _ h => h) (fun _ _ h => h.1) fun _ h => h.1)
        fun active w' h' => ?_
    rw [wp_routine]
    exact wp_finalize_held h'.1 h'.2 _

def listedIn (cnInstances : List Node) (id : String) : Prop := ∃ node ∈ cnInstances, node.ocid = id

/-- **The removal of a node by its name.** -/
theorem wp_removeNode {cnInstances : List Node} (h : CanRecover env (listedIn cnInstances) w) (turns : Nat)
    {summary current : Summary} {size size' : Int} (hpool : HasPool env size summary) (hcurrent : HasPool env size' current)
    (zoneId : Option String) (instanceName : String) :
    wp (anyCall env) (removeNode env.request turns summary current cnInstances zoneId instanceName)
      (removalPost env (listedIn cnInstances)) w := by
  refine wp_seq (R := fun found w' => w' = w ∧ ∀ id, found = some id →
    ∃ candidate, w.instances id = some candidate ∧ candidate.lifecycleState ≠ "TERMINATED") ?_ fun found w' hfound => ?_
  · refine wp_perform_seq h.forget (fun (instances : List Instance) w' hstep => ?_) fun e w' hstep => ?_
    · obtain ⟨rfl, hhas⟩ := hstep
      split
      · exact ⟨rfl, fun id hnone => by cases hnone⟩
      · rename_i candidate hmatching
        refine ⟨rfl, fun id hsome => ?_⟩
        obtain rfl := Option.some.inj hsome
        have hmem := List.mem_filter.mp (hmatching ▸ List.mem_cons_self : candidate ∈ matching _ _ instances)
        exact ⟨candidate, (show World.Has w' instances from hhas) candidate hmem.1, (of_decide_eq_true hmem.2).2.1⟩
      · exact ⟨h.forget, fun _ => h⟩
    · rw [eq_of_anyCall (fun _ heq => by cases heq) hstep]
      exact ⟨h.forget, fun _ => h⟩
  · obtain ⟨rfl, hfound⟩ := hfound
    cases found with
    | none => exact h
    | some id =>
      obtain ⟨candidate, hcandidate, hstate⟩ := hfound id rfl
      refine wp_seq (R := fun _ => CanRecover env (listedIn cnInstances)) ?_ fun pendingRecord w₁ h₁ => ?_
      · unfold removeFound
        rw [if_neg hcurrent.1, hpool.2]
        split
        · exact ⟨h.forget, fun _ => h⟩
        · rename_i node hnode
          have hlisted : listedIn cnInstances id :=
            ⟨node, List.mem_of_find?_eq_some hnode, by simpa using List.find?_some hnode⟩
          rw [wp_routine]
          refine wp_remove_held h hlisted ?_ turns node.ip
          obtain ⟨pending, hpending⟩ := h
          obtain hmember | hnoted := hpending.settled id hlisted
          · exact hpending.sound.running id hmember
          · exact ⟨candidate, hcandidate, (hnoted candidate hcandidate hstate).1⟩
      · split
        · rw [wp_routine]
          obtain ⟨pending, h₁⟩ := h₁
          refine removalPost_of_kept (wp_mono (keeps_quiet (calls_deleteNodeDns ..) w₁ h₁) (fun _ _ h => ?_) (fun _ _ h => ?_)
            fun _ h => ?_)
          · exact ⟨pending, h⟩
          · exact ⟨pending, h⟩
          · exact ⟨pending, h⟩
        · exact h₁

/-- **The loop over the names**, which passes over a 404. -/
theorem wp_removeNodes {cnInstances : List Node} (h : CanRecover env (listedIn cnInstances) w) (turns : Nat)
    {summary current : Summary} {size size' : Int} (hpool : HasPool env size summary) (hcurrent : HasPool env size' current)
    (zoneId : Option String) (names : List String) :
    wp (anyCall env) (removeNodes env.request turns summary current cnInstances zoneId names) (recovering env nobody) w := by
  refine wp_forEach (fun _ _ => CanRecover env (listedIn cnInstances)) (fun _ _ h => h.forget) ?_ h
  intro name rest _ w' h'
  rw [wp_tryCatch]
  refine wp_mono (wp_removeNode h' turns hpool hcurrent zoneId name) (fun _ _ h => h) (fun e w'' hraised => ?_) fun _ h => h
  dsimp only
  split
  · exact hraised.2 ⟨_, rfl⟩
  · exact hraised.1

theorem wp_finishRemoval (h : CanRecover env nobody w) (turns : Nat) (summary : Summary) :
    wp (anyCall env) (finishRemoval env.privateIp env.request turns summary) (recovering env nobody) w := by
  refine wp_seq (wp_mono wp_getSummary (fun _ _ h => h) (fun _ _ hsame => hsame ▸ h) fun _ hsame => hsame ▸ h)
    fun found w' hfound => ?_
  obtain ⟨rfl, hpool⟩ := hfound
  cases found with
  | none => exact h
  | some current =>
    dsimp only
    rw [(hpool current rfl).2]
    dsimp only
    obtain ⟨pending, h⟩ := h
    refine wp_seq (R := fun ready w' => CanRecover env nobody w' ∧ VolumesGone w' ready) ?_ fun ready w₁ h₁ => ?_
    · rw [wp_routine]
      exact wp_mono (wp_retry_held h turns false) (fun _ _ h => ⟨⟨pending, h.1⟩, h.2⟩) (fun _ _ h => ⟨pending, h⟩)
        fun _ h => ⟨pending, h⟩
    · split
      · exact wp_seq (keeps_quietCluster (calls_routine (calls_perform (by exact trivial))) w₁ h₁.1) fun _ _ h => h
      · exact wp_seq (wp_finalizeReady_held h₁.1 turns h₁.2) fun _ _ h => h

theorem wp_removeSelected (h : CanRecover env nobody w) (turns : Nat) (select : List Node → Option (List String))
    {summary : Summary} {size : Int} (hpool : HasPool env size summary) :
    wp (anyCall env) (removeSelected env.privateIp env.request turns select summary) (recovering env nobody) w := by
  refine wp_seq (keeps_quietCluster (calls_waitForRunningStatus ..) w h) fun _ w₁ h₁ => ?_
  refine wp_seq (wp_mono (wp_getInstancesOf env.privateIp _ _) (fun _ _ h => h) (fun _ _ hsame => hsame ▸ h₁)
    fun _ hsame => hsame ▸ h₁) fun cnInstances w₂ hlisted => ?_
  obtain ⟨rfl, hlisted⟩ := hlisted
  have h₂ : CanRecover env (listedIn cnInstances) w₂ := by
    obtain ⟨pending, h₁⟩ := h₁
    refine ⟨pending, h₁.journal, h₁.sound, fun id hid => ?_⟩
    obtain ⟨node, hnode, rfl⟩ := hid
    exact .inl (hlisted node hnode)
  refine wp_seq (wp_mono (keeps_quietCluster (calls_findZone env.request) w₂ h₂) (fun _ _ h => h) (fun _ _ h => h.forget)
    fun _ h => h.forget) fun zoneId w₃ h₃ => ?_
  split
  · exact h₃.forget
  · exact h₃.forget
  · refine wp_seq (wp_mono wp_getSummary (fun _ _ h => h) (fun _ _ hsame => hsame ▸ h₃.forget) fun _ hsame => hsame ▸ h₃.forget)
      fun found w₄ hfound => ?_
    obtain ⟨rfl, hcurrent⟩ := hfound
    cases found with
    | none => exact h₃.forget
    | some current =>
      exact wp_seq (wp_removeNodes h₃ turns hpool (hcurrent current rfl) zoneId _) fun _ w₅ h₅ =>
        wp_finishRemoval h₅ turns summary

/-- **Wherever a run ends, the journal can be recovered.** -/
theorem wp_removeRun (h : CanRecover env nobody w) (turns : Nat) (hostnames : List String)
    (select : List Node → Option (List String)) :
    wp (anyCall env) (removeRun env.privateIp env.request turns hostnames select) (recovering env nobody) w := by
  refine wp_seq (R := fun ready w' => CanRecover env nobody w' ∧ VolumesGone w' ready) ?_ fun ready w₁ h₁ => ?_
  · rw [wp_routine]
    obtain ⟨pending, h⟩ := h
    refine wp_seq (wp_mono (wp_load_held h) (fun _ _ h => h) (fun _ _ h => ⟨pending, h⟩) fun _ h => ⟨pending, h⟩)
      fun found w' hload => ?_
    exact wp_mono (wp_retry_held hload.1 turns _) (fun _ _ h => ⟨⟨pending, h.1⟩, h.2⟩) (fun _ _ h => ⟨pending, h⟩)
      fun _ h => ⟨pending, h⟩
  · refine wp_seq (wp_mono wp_getSummary (fun _ _ h => h) (fun _ _ hsame => hsame ▸ h₁.1) fun _ hsame => hsame ▸ h₁.1)
      fun found w' hfound => ?_
    obtain ⟨rfl, hpool⟩ := hfound
    cases found with
    | none => exact h₁.1
    | some summary =>
      dsimp only
      split
      · exact wp_removeSelected h₁.1 turns select (hpool summary rfl)
      · exact wp_seq (wp_finalizeReady_held h₁.1 turns h₁.2) fun _ _ h => h

end

end OciHpc.Resize
