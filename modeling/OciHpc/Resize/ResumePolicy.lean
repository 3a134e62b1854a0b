import OciHpc.Resize.PendingReached

/-!
# Which removals are resumed

What `process_pending_local_block_volume_deletions_for_operation` does with an instance that is still in its pool.

* `Site`, `siteStep` : what OCI has, and how it answers the calls of a retry;
* `Resumes` : the operations that resume the removal of a member;
* `IsTurn` : the calls that are made in the turn of a record;
* `turn_of_member` : the turn of a record whose instance is a member, where the removal is not resumed;
* `resume_policy` : a whole run that does not resume.
-/

namespace OciHpc.Resize
open Prog

/-! ## What OCI has -/

/-- The files, the instances, the volumes and the members of the pools, by their OCIDs. -/
structure Site where
  disk : PendingDisk
  instances : String → Option Instance
  volumes : String → Option StoredVolume
  pools : String → Option (List String)

namespace Site
variable (s : Site)

/-- The instance is there, and not reported as terminated. -/
def Live (id : String) : Prop := ∃ found, s.instances id = some found ∧ found.lifecycleState ≠ "TERMINATED"

def Member (poolId id : String) : Prop := ∃ ids, s.pools poolId = some ids ∧ id ∈ ids

/-- A call that succeeds shows what is there, and a 404 is about what is not. Any other error may come. -/
def Answers : (o : ResizeCall) → Except CallError o.Ans → Prop
  | .getInstance id, .ok found => s.instances id = some found
  | .getInstance id, .error (.service 404 _) => s.instances id = none
  | .terminateInstance id _, .error (.service 404 _) => s.instances id = none
  | .getVolume id, .ok volume => s.volumes id = some volume
  | .getVolume id, .error (.service 404 _) => s.volumes id = none
  | .listInstancePoolInstances _ poolId, .ok ids => s.pools poolId = some ids
  | .listInstancePoolInstances _ poolId, .error (.service 404 _) => s.pools poolId = none
  | _, _ => True

/-- The pools after a call: a detach may take its instance out, and nothing else changes them. -/
def PoolsAfter : ResizeCall → (String → Option (List String)) → Prop
  | .detachInstance poolId id, pools =>
      pools = s.pools ∨ pools = Function.update s.pools poolId ((s.pools poolId).map (·.erase id))
  | _, pools => pools = s.pools

end Site

/-- The instances and the volumes change as they do; no instance comes back. -/
def siteStep : Handler resizeSig CallError Site := fun s o r s' =>
  onDisk s.disk o r s'.disk ∧ s.Answers o r ∧ s.PoolsAfter o s'.pools ∧ ∀ id, s'.Live id → s.Live id

/-! ## The policy -/

/-- The operations that resume the removal of a member of a pool. -/
def Resumes (mode : Mode) (pendingDeletions : List Record) (requestedHostnames : List String) : Prop :=
  mode = .cleanupComputeCluster ∨ (mode = .remove ∨ mode = .removeUnreachable) ∧
    ∀ record ∈ pendingDeletions, record.instanceDisplayName ∈ requestedHostnames

/-- The instance is detached or terminated. -/
def Removes (id : String) : ResizeCall → Prop
  | .detachInstance _ other | .terminateInstance other _ => other = id
  | _ => False

/-- The instance of a record is removed, or its volume deleted. -/
def Touches (record : Record) (o : ResizeCall) : Prop :=
  Removes record.instanceId o ∨ o = .deleteVolume record.volumeId

/-- What is done where nothing is resumed, up to the turn of the record that follows these. -/
def turnsBefore (request : Request) (turns : Nat) (before : List Record) : Prog resizeSig CallError (List Record) :=
  (onFiles loadPending).bind fun _ => (onFiles loadPending).bind fun _ =>
    forEach (retryRecord request turns false) before []

/-- The turn of `record` comes after the calls `upTo`. -/
def TurnBegins (request : Request) (turns : Nat) (pendingDeletions : List Record) (record : Record)
    (readyDeletions : List Record) (upTo : List (Event resizeSig CallError)) : Prop :=
  ∃ before after, pendingDeletions = before ++ record :: after ∧
    Trace (turnsBefore request turns before) (.done readyDeletions) upTo

/-- The calls `upTo` come before the turn of `record`, and the calls `turn` are made in it. -/
def IsTurn (request : Request) (turns : Nat) (pendingDeletions : List Record) (record : Record)
    (upTo turn : List (Event resizeSig CallError)) : Prop :=
  ∃ readyDeletions result, TurnBegins request turns pendingDeletions record readyDeletions upTo ∧
    Trace (retryRecord request turns false readyDeletions record) result turn

/-! ## The site along the calls -/

theorem not_live_of_gone {s : Site} {id : String} (h : s.instances id = none) : ¬ s.Live id := by
  rintro ⟨found, hfound, -⟩
  rw [h] at hfound
  cases hfound

theorem not_live_of_terminated {s : Site} {id : String} {found : Instance} (h : s.instances id = some found)
    (hstate : found.lifecycleState = "TERMINATED") : ¬ s.Live id := by
  rintro ⟨other, hother, hlive⟩
  obtain rfl := Option.some.inj (h.symm.trans hother)
  exact hlive hstate

section
variable {s s' : Site} {events : List (Event resizeSig CallError)}

theorem live_of_follows (h : Follows siteStep s events s') {id : String} (hlive : s'.Live id) : s.Live id := by
  by_contra hgone
  exact h.keeps (I := fun s => ¬ s.Live id) (fun _ _ _ _ hstep hw hw' => hw (hstep.2.2.2 id hw')) hgone hlive

theorem poolsAfter_of_ne {o : ResizeCall} (h : ∀ poolId id, o ≠ .detachInstance poolId id)
    {pools : String → Option (List String)} (hpools : s.PoolsAfter o pools) : pools = s.pools := by
  cases o with
  | detachInstance poolId id => exact absurd rfl (h poolId id)
  | _ => exact hpools

theorem pools_of_follows (h : Follows siteStep s events s')
    (hevents : ∀ event ∈ events, ∀ poolId id, event.1 ≠ .detachInstance poolId id) : s'.pools = s.pools :=
  h.keeps (I := fun w => w.pools = s.pools) (fun event hevent _ _ hstep hw =>
    (poolsAfter_of_ne (hevents event hevent) hstep.2.2.1).trans hw) rfl

theorem disk_of_follows (h : Follows siteStep s events s') : Follows onDisk s.disk events s'.disk :=
  h.map Site.disk fun _ _ _ _ hstep => hstep.1

/-- What the loader returns is what the file holds, which stays. -/
theorem load_spec {pending : List Record} (h : Trace (onFiles loadPending) (.done pending) events)
    (hs : Follows siteStep s events s') : journalOf s.disk = some pending ∧ s'.disk = s.disk := by
  have hload := (h.exec (disk_of_follows hs)).of_wp ((wp_onFiles _ _ _).mpr (loadPending_spec s.disk))
  exact ⟨hload.2, hload.1⟩

end

/-! ## The turn of a record -/

def TurnCall (record : Record) : ResizeCall → Prop
  | .terminateInstance id _ => id = record.instanceId
  | .deleteVolume id => id = record.volumeId
  | .getInstance _ | .listVolumeAttachments .. | .poll .. | .listInstancePoolInstances .. | .getVolume _ => True
  | _ => False

/-- No call touches the instance or the volume. -/
def LeftAlone (record : Record) (events : List (Event resizeSig CallError)) : Prop :=
  ∀ event ∈ events, ¬ Touches record event.1

/-- No call removes the instance. -/
def Kept (id : String) (events : List (Event resizeSig CallError)) : Prop := ∀ event ∈ events, ¬ Removes id event.1

theorem LeftAlone.kept {record : Record} {events : List (Event resizeSig CallError)} (h : LeftAlone record events) :
    Kept record.instanceId events := fun event hevent hremoves => h event hevent (.inl hremoves)

theorem LeftAlone.snoc {record : Record} {events : List (Event resizeSig CallError)} (h : LeftAlone record events)
    {event : Event resizeSig CallError} (hevent : ¬ Touches record event.1) : LeftAlone record (events ++ [event]) := by
  intro other hother
  rcases List.mem_append.mp hother with hother | hother
  · exact h other hother
  · rw [List.mem_singleton.mp hother]
    exact hevent

section
variable (request : Request) (turns : Nat) (record : Record)

theorem calls_removePendingInstance_closed :
    (removePendingInstance request turns false record).Calls (TurnCall record) := by
  have hterminate := @calls_terminateInstanceAndDeleteLaunchVolumes (fun id _ => id = record.instanceId) request turns
    record.instanceId (fun _ => rfl) (some false)
  refine calls_removePendingInstance_of request turns false trivial trivial (fun hresume => by cases hresume) ?_
  refine hterminate.mono fun o ho => ?_
  cases o <;> first | exact ho | trivial

theorem calls_retryRecord_closed (readyDeletions : List Record) :
    (retryRecord request turns false readyDeletions record).Calls (TurnCall record) := by
  unfold retryRecord
  split
  · trivial
  · refine (calls_removePendingInstance_closed request turns record).bind fun _ => ?_
    have hdelete : TurnCall record (.deleteVolume record.volumeId) := rfl
    exact (calls_deletePendingVolume request turns trivial hdelete).bind fun _ => calls_ret ..

theorem wp_waitTurn {id : String} {next : Prog resizeSig CallError Unit} {s : Site}
    (hnext : ∀ s, wp siteStep next ⟨fun _ s' => ¬ s'.Live id, fun _ _ => True, fun _ => True⟩ s) :
    wp siteStep (waitTurn id next) ⟨fun _ s' => ¬ s'.Live id, fun _ _ => True, fun _ => True⟩ s := by
  refine wp_perform_attempt_seq trivial fun answer s' hstep => ?_
  obtain ⟨-, hanswer, -, hlive⟩ := hstep
  split
  · exact fun hback => not_live_of_gone hanswer (hlive id hback)
  · trivial
  · split
    · rename_i hstate
      exact fun hback => not_live_of_terminated hanswer hstate (hlive id hback)
    · exact hnext s'

theorem wp_waitTerminated (id : String) (s : Site) :
    wp siteStep (waitTerminated id turns) ⟨fun _ s' => ¬ s'.Live id, fun _ _ => True, fun _ => True⟩ s := by
  induction turns generalizing s with
  | zero => exact wp_waitTurn fun _ => trivial
  | succ turns ih => exact wp_waitTurn ih

/-- A termination that returns leaves the instance terminated or gone. -/
theorem wp_terminate (id : String) (s : Site) :
    wp siteStep (terminateInstanceAndDeleteLaunchVolumes request turns id (some false))
      ⟨fun _ s' => ¬ s'.Live id, fun _ _ => True, fun _ => True⟩ s := by
  refine wp_perform_attempt_seq trivial fun answer s' hstep => ?_
  obtain ⟨-, hanswer, -, hlive⟩ := hstep
  split
  · exact fun hback => not_live_of_gone hanswer (hlive id hback)
  · trivial
  · split
    · rename_i hstate
      exact fun hback => not_live_of_terminated hanswer hstate (hlive id hback)
    · split
      · exact wp_waitTerminated turns id s'
      · show wp siteStep ((oci (.terminateInstance id true)).attempt.bind _) _ s'
        refine wp_perform_attempt_seq trivial fun answer s'' hstep => ?_
        obtain ⟨-, hanswer, -, hlive⟩ := hstep
        split
        · exact fun hback => not_live_of_gone hanswer (hlive id hback)
        · trivial
        · exact wp_waitTerminated turns id s''

/-- The state of the instance of a record: where it is given as terminated, the instance is not live. -/
theorem wp_pendingInstanceState {w : Site × List (Event resizeSig CallError)} (hspared : LeftAlone record w.2) :
    wp siteStep.logged (pendingInstanceState request record)
      ⟨fun state w' => w'.1.pools = w.1.pools ∧ LeftAlone record w'.2 ∧ (state = "TERMINATED" → ¬ w.1.Live record.instanceId) ∧
          ∀ id, w'.1.Live id → w.1.Live id,
        fun _ w' => LeftAlone record w'.2, fun w' => LeftAlone record w'.2⟩ w := by
  refine wp_perform_attempt_seq hspared fun answer w' hstep => ?_
  obtain ⟨⟨-, hanswer, hpools, hlive⟩, hevents⟩ := hstep
  have hspared' : LeftAlone record w'.2 := by
    rw [hevents]
    exact hspared.snoc (by rintro (htouch | htouch) <;> cases htouch)
  split
  · exact ⟨hpools, hspared', fun _ => not_live_of_gone hanswer, hlive⟩
  · exact hspared'
  · split
    · exact hspared'
    · split
      · exact hspared'
      · exact ⟨hpools, hspared', fun hstate => not_live_of_terminated hanswer hstate, hlive⟩

/-- **A member makes the run raise**, where the removal is not resumed. -/
theorem wp_resumePendingMember {w : Site × List (Event resizeSig CallError)} (hspared : LeftAlone record w.2)
    (hmember : w.1.Member record.instancePoolId record.instanceId) :
    wp siteStep.logged (resumePendingMember request turns false record)
      ⟨fun _ _ => False, fun _ w' => LeftAlone record w'.2, fun w' => LeftAlone record w'.2⟩ w := by
  obtain ⟨ids, hids, hmem⟩ := hmember
  refine wp_seq (R := fun isMember w' => isMember = true ∧ LeftAlone record w'.2) ?_ fun isMember w' hasked => ?_
  · refine wp_seq_attempt (R := fun isMember w' => isMember = true ∧ LeftAlone record w'.2)
      (E := fun e w' => (∀ text, e ≠ .service 404 text) ∧ LeftAlone record w'.2) ?_ (fun isMember w' h => h) fun e w' h => ?_
    · have hsnoc : ∀ (answer : Except CallError (List String)) (w' : Site × List (Event resizeSig CallError)),
          w'.2 = w.2 ++ [⟨.listInstancePoolInstances request.compartmentId record.instancePoolId, answer⟩] →
            LeftAlone record w'.2 := by
        intro answer w' hevents
        rw [hevents]
        exact hspared.snoc (by rintro (htouch | htouch) <;> cases htouch)
      refine wp_perform_seq hspared (fun answer w' hstep => ?_) fun e w' hstep => ?_
      · obtain ⟨⟨-, hanswer, -⟩, hevents⟩ := hstep
        obtain rfl := Option.some.inj (hids.symm.trans hanswer)
        exact ⟨List.elem_eq_true_of_mem hmem, hsnoc _ w' hevents⟩
      · obtain ⟨⟨-, hanswer, -⟩, hevents⟩ := hstep
        refine ⟨?_, hsnoc _ w' hevents⟩
        rintro text rfl
        have hnone : w.1.pools record.instancePoolId = none := hanswer
        rw [hids] at hnone
        cases hnone
    · split
      · rename_i text heq
        cases heq
        exact absurd rfl (h.1 text)
      · exact h.2
      · rename_i heq
        cases heq
  · rw [hasked.1]
    exact hasked.2

theorem wp_removePendingInstance_of_member {s : Site} (hmember : s.Member record.instancePoolId record.instanceId) :
    wp siteStep.logged (removePendingInstance request turns false record)
      ⟨fun _ w' => ¬ s.Live record.instanceId ∧ LeftAlone record w'.2, fun _ w' => LeftAlone record w'.2,
        fun w' => LeftAlone record w'.2⟩ (s, []) := by
  have hnone : LeftAlone record [] := fun _ hevent => absurd hevent List.not_mem_nil
  refine wp_seq (wp_pendingInstanceState request record hnone) fun instanceState w' hstate => ?_
  obtain ⟨hpools, hspared, hterminated, -⟩ := hstate
  split
  · rename_i heq
    exact ⟨hterminated heq, hspared⟩
  · have hmember' : w'.1.Member record.instancePoolId record.instanceId := by
      rw [Site.Member, hpools]
      exact hmember
    exact wp_seq (wp_resumePendingMember request turns record hspared hmember') fun _ _ h => h.elim

/-- A removal that returns leaves the instance terminated or gone. -/
theorem wp_removePendingInstance (s : Site) :
    wp siteStep.logged (removePendingInstance request turns false record)
      ⟨fun _ w' => ¬ w'.1.Live record.instanceId, fun _ _ => True, fun _ => True⟩ (s, []) := by
  have hnone : LeftAlone record [] := fun _ hevent => absurd hevent List.not_mem_nil
  refine wp_seq (wp_mono (wp_pendingInstanceState request record hnone) (fun _ _ h => h) (fun _ _ _ => trivial)
    fun _ _ => trivial) fun instanceState w' hstate => ?_
  obtain ⟨-, -, hterminated, hlive⟩ := hstate
  split
  · rename_i heq
    exact fun hback => hterminated heq (hlive _ hback)
  · exact wp_seq (wp_true _ _ _) fun _ w'' _ => wp_logged (wp_terminate request turns record.instanceId w''.1)

theorem wp_retryRecord (readyDeletions : List Record) (s : Site) :
    wp siteStep.logged (retryRecord request turns false readyDeletions record)
      ⟨fun _ w' => ¬ w'.1.Live record.instanceId, fun _ _ => True, fun _ => True⟩ (s, []) := by
  unfold retryRecord
  split
  · trivial
  · refine wp_seq (wp_removePendingInstance request turns record s) fun _ w' hgone => ?_
    have hkeeps : Keeps siteStep.logged (fun w => ¬ w.1.Live record.instanceId) (deletePendingVolume request turns record) :=
      keeps_of_calls (calls_true _) fun w o r w'' _ hw hstep hback => hw (hstep.1.2.2.2 _ hback)
    exact wp_seq (wp_mono (hkeeps w' hgone) (fun _ _ h => h) (fun _ _ _ => trivial) fun _ _ => trivial) fun _ _ h => h

theorem wp_retryRecord_of_member (readyDeletions : List Record) {s : Site}
    (hmember : s.Member record.instancePoolId record.instanceId) :
    wp siteStep.logged (retryRecord request turns false readyDeletions record)
      ⟨fun _ w' => ¬ s.Live record.instanceId ∧ Kept record.instanceId w'.2,
        fun _ w' => Kept record.instanceId w'.2 ∧ (s.Live record.instanceId → LeftAlone record w'.2),
        fun w' => Kept record.instanceId w'.2 ∧ (s.Live record.instanceId → LeftAlone record w'.2)⟩ (s, []) := by
  have hnone : LeftAlone record [] := fun _ hevent => absurd hevent List.not_mem_nil
  unfold retryRecord
  split
  · exact ⟨hnone.kept, fun _ => hnone⟩
  · refine wp_seq (R := fun _ w' => ¬ s.Live record.instanceId ∧ LeftAlone record w'.2)
      (wp_mono (wp_removePendingInstance_of_member request turns record hmember) (fun _ _ h => h)
        (fun _ _ h => ⟨h.kept, fun _ => h⟩) fun _ h => ⟨h.kept, fun _ => h⟩) fun _ w' hremoved => ?_
    have hcalls : (deletePendingVolume request turns record).Calls fun o => ¬ Removes record.instanceId o :=
      calls_deletePendingVolume request turns id id
    have hkeeps : Keeps siteStep.logged (fun w => Kept record.instanceId w.2) (deletePendingVolume request turns record) :=
      keeps_of_calls hcalls fun w o r w'' ho hw hstep event hevent => by
        rw [hstep.2] at hevent
        rcases List.mem_append.mp hevent with hevent | hevent
        · exact hw event hevent
        · rw [List.mem_singleton.mp hevent]
          exact ho
    refine wp_seq (wp_mono (hkeeps w' hremoved.2.kept) (fun _ _ h => h) (fun _ _ h => ⟨h, fun hlive => ?_⟩)
      fun _ h => ⟨h, fun hlive => ?_⟩) fun _ _ h => ⟨hremoved.1, h⟩
    · exact absurd hlive hremoved.1
    · exact absurd hlive hremoved.1

end

/-- **The turn of a member**, where the removal is not resumed: the instance is kept, and where it is live the run raises
or is cut off, and the volume is kept as well. -/
theorem turn_of_member {request : Request} {turns : Nat} {record : Record} {readyDeletions : List Record} {s s' : Site}
    {out : Outcome CallError (List Record)} {events : List (Event resizeSig CallError)}
    (h : Trace (retryRecord request turns false readyDeletions record) out events) (hs : Follows siteStep s events s')
    (hmember : s.Member record.instancePoolId record.instanceId) :
    Kept record.instanceId events ∧
      (s.Live record.instanceId → ((∃ e, out = .raised e) ∨ out = .cut) ∧ LeftAlone record events) := by
  have hspec := h.of_wp hs (wp_retryRecord_of_member request turns record readyDeletions hmember)
  cases out with
  | done ready => exact ⟨hspec.2, fun hlive => absurd hlive hspec.1⟩
  | raised e => exact ⟨hspec.1, fun hlive => ⟨.inl ⟨e, rfl⟩, hspec.2 hlive⟩⟩
  | cut => exact ⟨hspec.1, fun hlive => ⟨.inr rfl, hspec.2 hlive⟩⟩

/-! ## A run that does not resume -/

theorem resumes_iff {mode : Mode} {pendingDeletions : List Record} {requestedHostnames : List String} :
    (mode == .cleanupComputeCluster || ((mode == .remove || mode == .removeUnreachable) &&
      pendingDeletions.all fun record => requestedHostnames.contains record.instanceDisplayName)) = true ↔
        Resumes mode pendingDeletions requestedHostnames := by
  simp only [Resumes, Bool.or_eq_true, Bool.and_eq_true, beq_iff_eq, List.all_eq_true, List.contains_eq_mem,
    decide_eq_true_eq]

section
variable {request : Request} {turns : Nat} {s s' : Site} {events : List (Event resizeSig CallError)}

/-- The instances of the records whose turns are done are terminated or gone. -/
theorem gone_of_turns {before acc readyDeletions : List Record}
    (h : Trace (forEach (retryRecord request turns false) before acc) (.done readyDeletions) events)
    (hs : Follows siteStep s events s') : ∀ record ∈ before, ¬ s'.Live record.instanceId := by
  induction before generalizing acc s events with
  | nil => exact fun _ hmem => absurd hmem List.not_mem_nil
  | cons record rest ih =>
    obtain ⟨acc', first, later, hturn, hrest, rfl⟩ | ⟨e, -, hout⟩ | ⟨-, hout⟩ := trace_bind.mp h
    · obtain ⟨s₁, hfirst, hlater⟩ := follows_append.mp hs
      intro other hmem
      rcases List.mem_cons.mp hmem with rfl | hmem
      · have hgone : ¬ s₁.Live other.instanceId := hturn.of_wp hfirst (wp_retryRecord request turns other acc s)
        exact fun hback => hgone (live_of_follows hlater hback)
      · exact ih hrest hlater other hmem
    · cases hout
    · cases hout

theorem file_of_load {out : Outcome CallError (List Record)} (h : Trace (onFiles loadPending) out events) :
    ∀ event ∈ events, ∃ o, event.1 = .file o :=
  h.calls (P := fun o => ∃ o', o = .file o') (calls_onFiles (fun o => ⟨o, rfl⟩) loadPending)

theorem spared_of_files (record : Record) (h : ∀ event ∈ events, ∃ o, event.1 = .file o) : LeftAlone record events := by
  intro event hevent
  obtain ⟨o, ho⟩ := h event hevent
  rw [ho]
  rintro (htouch | htouch) <;> cases htouch

/-- A run that does not resume: it ends with the loads, or it goes through the records. -/
theorem run_cases {mode : Mode} {requestedHostnames : List String} {records : List Record}
    {out : Outcome CallError (List Record)} (h : Trace (processPending request turns mode requestedHostnames) out events)
    (hs : Follows siteStep s events s') (hjournal : journalOf s.disk = some records)
    (hresumes : ¬ Resumes mode records requestedHostnames) :
    (∀ event ∈ events, ∃ o, event.1 = .file o) ∨
      ∃ loads rest, events = loads ++ rest ∧ (∀ event ∈ loads, ∃ o, event.1 = .file o) ∧
        (∀ before readyDeletions upTo, Trace (forEach (retryRecord request turns false) before []) (.done readyDeletions) upTo →
          Trace (turnsBefore request turns before) (.done readyDeletions) (loads ++ upTo)) ∧
        Trace (forEach (retryRecord request turns false) records []) out rest := by
  have hclosed := Bool.eq_false_iff.mpr (mt resumes_iff.mp hresumes)
  obtain ⟨pending, first, later, hload, hretry, rfl⟩ | ⟨e, hload, -⟩ | ⟨hload, -⟩ := trace_bind.mp h
  · obtain ⟨s₁, hfirst, hlater⟩ := follows_append.mp hs
    obtain ⟨hpending, hdisk⟩ := load_spec hload hfirst
    obtain rfl := Option.some.inj (hjournal.symm.trans hpending)
    rw [hclosed] at hretry
    obtain ⟨pending, second, rest, hload', hloop, rfl⟩ | ⟨e, hload', -⟩ | ⟨hload', -⟩ := trace_bind.mp hretry
    · obtain ⟨s₂, hsecond, -⟩ := follows_append.mp hlater
      obtain rfl := Option.some.inj ((hdisk ▸ hjournal).symm.trans (load_spec hload' hsecond).1)
      refine .inr ⟨first ++ second, rest, (List.append_assoc ..).symm, ?_, fun before readyDeletions upTo hbefore => ?_, hloop⟩
      · exact fun event hevent => (List.mem_append.mp hevent).elim (file_of_load hload event) (file_of_load hload' event)
      · rw [List.append_assoc]
        exact trace_bind.mpr (.inl ⟨_, _, _, hload, trace_bind.mpr (.inl ⟨_, _, _, hload', hbefore, rfl⟩), rfl⟩)
    · exact .inl fun event hevent =>
        (List.mem_append.mp hevent).elim (file_of_load hload event) (file_of_load hload' event)
    · exact .inl fun event hevent =>
        (List.mem_append.mp hevent).elim (file_of_load hload event) (file_of_load hload' event)
  · exact .inl (file_of_load hload)
  · exact .inl (file_of_load hload)

/-- A run that does not resume detaches nothing. -/
theorem not_detach {mode : Mode} {requestedHostnames : List String} {records : List Record}
    {out : Outcome CallError (List Record)} (h : Trace (processPending request turns mode requestedHostnames) out events)
    (hs : Follows siteStep s events s') (hjournal : journalOf s.disk = some records)
    (hresumes : ¬ Resumes mode records requestedHostnames) :
    ∀ event ∈ events, ∀ poolId id, event.1 ≠ .detachInstance poolId id := by
  have hfile : ∀ event : Event resizeSig CallError, (∃ o, event.1 = .file o) →
      ∀ poolId id, event.1 ≠ .detachInstance poolId id := by
    rintro event ⟨o, ho⟩ poolId id
    rw [ho]
    exact ResizeCall.noConfusion
  obtain hfiles | ⟨loads, rest, rfl, hloads, -, hloop⟩ := run_cases h hs hjournal hresumes
  · exact fun event hevent => hfile event (hfiles event hevent)
  · intro event hevent
    rcases List.mem_append.mp hevent with hevent | hevent
    · exact hfile event (hloads event hevent)
    · refine hloop.calls (P := fun o => ∀ poolId id, o ≠ .detachInstance poolId id) ?_ event hevent
      refine Calls.forEach (fun readyDeletions record => ?_) records []
      refine (calls_retryRecord_closed request turns record readyDeletions).mono fun o ho poolId id => ?_
      rintro rfl
      exact ho

end

/-- In the turn of a record that `met` holds of, the run raises or is cut off, and the instance and the volume of the
record are left alone. -/
def LeavesAlone (request : Request) (turns : Nat) (records : List Record) (met : Site → Record → Prop) (s s' : Site)
    (events : List (Event resizeSig CallError)) (out : Outcome CallError (List Record)) : Prop :=
  ∀ record readyDeletions upTo rest s₁, TurnBegins request turns records record readyDeletions upTo →
    events = upTo ++ rest → Follows siteStep s upTo s₁ → Follows siteStep s₁ rest s' → met s₁ record →
      ((∃ e, out = .raised e) ∨ out = .cut) ∧ LeftAlone record events

/-- An instance is detached or terminated in the turn of its record, where it is no member of the recorded pool. -/
def RemovesNoMember (request : Request) (turns : Nat) (records : List Record) (s : Site)
    (events : List (Event resizeSig CallError)) : Prop :=
  ∀ earlier later event id, events = earlier ++ event :: later → Removes id event.1 →
    ∃ record upTo within following, IsTurn request turns records record upTo (within ++ event :: following) ∧
      earlier = upTo ++ within ∧ record.instanceId = id ∧
        ∀ s₁, Follows siteStep s earlier s₁ → ¬ s₁.Member record.instancePoolId id

section
variable {request : Request} {turns : Nat} {mode : Mode} {requestedHostnames : List String} {records : List Record}
  {s s' : Site} {events : List (Event resizeSig CallError)} {out : Outcome CallError (List Record)}

theorem removesNoMember (h : Trace (processPending request turns mode requestedHostnames) out events)
    (hs : Follows siteStep s events s') (hjournal : journalOf s.disk = some records)
    (hresumes : ¬ Resumes mode records requestedHostnames) : RemovesNoMember request turns records s events := by
  rintro earlier later event id rfl hremoves
  have hdetach := not_detach h hs hjournal hresumes
  obtain hfiles | ⟨loads, rest, hevents, hloads, hbegins, hloop⟩ := run_cases h hs hjournal hresumes
  · obtain ⟨o, ho⟩ := hfiles event (List.mem_append_right _ List.mem_cons_self)
    rw [ho] at hremoves
    exact hremoves.elim
  · obtain ⟨start, rfl, hrest⟩ : ∃ start, earlier = loads ++ start ∧ rest = start ++ event :: later := by
      obtain ⟨following, hloaded, hlater⟩ | ⟨start, hearlier, hrest⟩ := List.append_eq_append_iff.mp hevents
      · cases following with
        | nil =>
          rw [List.append_nil] at hloaded
          exact ⟨[], by rw [hloaded, List.append_nil], hlater.symm⟩
        | cons other following =>
          obtain ⟨rfl, -⟩ := List.cons_eq_cons.mp hlater
          obtain ⟨o, ho⟩ := hloads event (hloaded ▸ List.mem_append_right _ List.mem_cons_self)
          rw [ho] at hremoves
          exact hremoves.elim
      · exact ⟨start, hearlier, hrest⟩
    rw [hrest] at hloop
    obtain ⟨before, record, after, readyDeletions, upTo, within, following, last, result, hrecords, hbefore, hturn, rfl,
      hlast⟩ := trace_forEach_call hloop
    have hevent : event ∈ within ++ event :: following := List.mem_append_right _ List.mem_cons_self
    have hid : record.instanceId = id := by
      have hcall := hturn.calls (calls_retryRecord_closed request turns record readyDeletions) event hevent
      obtain ⟨o, answer⟩ := event
      cases o with
      | terminateInstance other preserveDataVolumes => exact hcall.symm.trans hremoves
      | detachInstance => exact hcall.elim
      | _ => exact hremoves.elim
    refine ⟨record, loads ++ upTo, within, following,
      ⟨readyDeletions, result, ⟨before, after, hrecords, hbegins _ _ _ hbefore⟩, hturn⟩,
      (List.append_assoc ..).symm, hid, fun s₁ hs₁ hmember => ?_⟩
    -- The pools stay, so the instance was a member when its turn began.
    have hpools₁ : s₁.pools = s.pools :=
      pools_of_follows hs₁ fun other hother => hdetach other (List.mem_append_left _ hother)
    have hsplit : loads ++ (upTo ++ within) ++ event :: later =
        (loads ++ upTo) ++ ((within ++ event :: following) ++ last) := by
      simp only [hlast, List.append_assoc, List.cons_append]
    rw [hsplit] at hs hdetach
    obtain ⟨s₂, hfirst, hsecond⟩ := follows_append.mp hs
    obtain ⟨s₃, hthird, -⟩ := follows_append.mp hsecond
    have hpools₂ : s₂.pools = s.pools :=
      pools_of_follows hfirst fun other hother => hdetach other (List.mem_append_left _ hother)
    have hmember₂ : s₂.Member record.instancePoolId record.instanceId := by
      rw [Site.Member, hpools₂, ← hpools₁, hid]
      exact hmember
    exact (turn_of_member hturn hthird hmember₂).1 event hevent (hid ▸ hremoves)

/-- The calls before a turn leave its record alone, where its instance is still live. -/
theorem spared_of_turns {before acc readyDeletions : List Record} {record : Record}
    (h : Trace (forEach (retryRecord request turns false) before acc) (.done readyDeletions) events)
    (hs : Follows siteStep s events s') (hlive : s'.Live record.instanceId)
    (hvolumes : ∀ other ∈ before, other.volumeId ≠ record.volumeId) : LeftAlone record events := by
  have hgone := gone_of_turns h hs
  intro event hevent htouch
  have hcall : ∃ other ∈ before, TurnCall other event.1 := by
    refine h.calls (P := fun o => ∃ other ∈ before, TurnCall other o) ?_ event hevent
    refine Calls.forEach_of_mem (fun other hother ready => ?_) acc
    exact (calls_retryRecord_closed request turns other ready).mono fun o ho => ⟨other, hother, ho⟩
  obtain ⟨other, hother, hcall⟩ := hcall
  obtain ⟨o, answer⟩ := event
  rcases htouch with hremoves | hdelete
  · cases o with
    | terminateInstance id preserveDataVolumes =>
      have hid : other.instanceId = record.instanceId := hcall.symm.trans hremoves
      exact hgone other hother (hid ▸ hlive)
    | detachInstance => exact hcall
    | _ => exact hremoves
  · obtain rfl : o = .deleteVolume record.volumeId := hdelete
    exact hvolumes other hother hcall.symm

theorem leavesAlone (h : Trace (processPending request turns mode requestedHostnames) out events)
    (hjournal : journalOf s.disk = some records) (hresumes : ¬ Resumes mode records requestedHostnames) :
    LeavesAlone request turns records
      (fun s record => s.Live record.instanceId ∧ s.Member record.instancePoolId record.instanceId) s s' events out := by
  rintro record readyDeletions upTo rest s₁ ⟨before, after, rfl, hbefore⟩ rfl hfirst hrest ⟨hlive, hmember⟩
  have hclosed := Bool.eq_false_iff.mpr (mt resumes_iff.mp hresumes)
  obtain ⟨pending, load, later, hload, hlater, rfl⟩ | ⟨e, -, hout⟩ | ⟨-, hout⟩ := trace_bind.mp hbefore
  · obtain ⟨pending', load', start, hload', hstart, rfl⟩ | ⟨e, -, hout⟩ | ⟨-, hout⟩ := trace_bind.mp hlater
    · obtain ⟨w₁, hw₁, hw⟩ := follows_append.mp hfirst
      obtain ⟨w₂, hw₂, hw⟩ := follows_append.mp hw
      obtain ⟨hpending, hdisk⟩ := load_spec hload hw₁
      obtain rfl := Option.some.inj (hjournal.symm.trans hpending)
      obtain rfl := Option.some.inj ((hdisk ▸ hjournal).symm.trans (load_spec hload' hw₂).1)
      rw [List.append_assoc, List.append_assoc] at h
      have hretry := hload.rest h
      rw [hclosed] at hretry
      have hloop := hload'.rest hretry
      rw [forEach_append] at hloop
      have hturn := hstart.rest hloop
      have hspared : LeftAlone record (load ++ (load' ++ start)) := by
        have hdistinct := nodup_of_journalOf hjournal
        rw [List.map_append, List.map_cons, List.nodup_append] at hdistinct
        have hturns : LeftAlone record start := spared_of_turns hstart hw hlive fun other hother =>
          hdistinct.2.2 _ (List.mem_map_of_mem hother) _ List.mem_cons_self
        intro event hevent
        rcases List.mem_append.mp hevent with hevent | hevent
        · exact spared_of_files record (file_of_load hload) event hevent
        · rcases List.mem_append.mp hevent with hevent | hevent
          · exact spared_of_files record (file_of_load hload') event hevent
          · exact hturns event hevent
      have happend : LeftAlone record rest → LeftAlone record (load ++ (load' ++ start) ++ rest) := fun hrest event hevent =>
        (List.mem_append.mp hevent).elim (hspared event) (hrest event)
      obtain ⟨ready, turn, following, hdone, -, rfl⟩ | ⟨e, hraised, rfl⟩ | ⟨hcut, rfl⟩ := trace_bind.mp hturn
      · obtain ⟨s₂, hs₂, -⟩ := follows_append.mp hrest
        obtain ⟨e, hout⟩ | hout := ((turn_of_member hdone hs₂ hmember).2 hlive).1
        · cases hout
        · cases hout
      · exact ⟨.inl ⟨e, rfl⟩, happend ((turn_of_member hraised hrest hmember).2 hlive).2⟩
      · exact ⟨.inr rfl, happend ((turn_of_member hcut hrest hmember).2 hlive).2⟩
    · cases hout
    · cases hout
  · cases hout
  · cases hout

/-- **The resume policy.** Whatever the journal, the pools and the answers of OCI, a run that does not resume detaches and
terminates no member of a recorded pool, and a live member makes it raise and is left alone with its volume. No run changes
the files, and with a journal that is not accepted it asks nothing of OCI. -/
theorem resume_policy (h : Trace (processPending request turns mode requestedHostnames) out events)
    (hs : Follows siteStep s events s') :
    s'.disk = s.disk ∧ (journalOf s.disk = none → ∀ event ∈ events, ∃ o, event.1 = .file o) ∧
      ∀ records, journalOf s.disk = some records → ¬ Resumes mode records requestedHostnames →
        RemovesNoMember request turns records s events ∧
          LeavesAlone request turns records
            (fun s record => s.Live record.instanceId ∧ s.Member record.instancePoolId record.instanceId) s s' events out := by
  have hdisk := (h.exec (disk_of_follows hs)).of_wp
    (keeps_processPending request turns mode requestedHostnames s.disk s.disk rfl)
  refine ⟨?_, fun hnone => ?_, fun records hjournal hresumes =>
    ⟨removesNoMember h hs hjournal hresumes, leavesAlone h hjournal hresumes⟩⟩
  · cases out with
    | done ready => exact hdisk
    | raised e => exact hdisk
    | cut => exact hdisk
  · obtain ⟨pending, first, later, hload, -, rfl⟩ | ⟨e, hload, -⟩ | ⟨hload, -⟩ := trace_bind.mp h
    · obtain ⟨s₁, hfirst, -⟩ := follows_append.mp hs
      rw [(load_spec hload hfirst).1] at hnone
      cases hnone
    · exact file_of_load hload
    · exact file_of_load hload

end

/-! ## A node that is listed -/

/-- What is kept of a node of the cluster `hpc`. -/
def nodeFields : Dict :=
  [("cluster_name", .str "hpc"), ("compartment_id", .str "c"), ("instance_id", .str "i"),
    ("instance_display_name", .str "node"), ("instance_private_ip", .str "10.0.0.2"), ("instance_pool_id", .str "p"),
    ("instance_pool_size_before_removal", .int 2), ("volume_id", .str "v"),
    ("volume_display_name", .str "hpc-local-scratch"), ("size_in_gbs", .int 50), ("vpus_per_gb", .int 10)]

def nodeRecord : Record := ⟨nodeFields, by decide +kernel⟩

def nodeJournal : Json := .obj [("version", .int 1), ("deletions", .arr [nodeRecord.json])]

def nodeVolume : StoredVolume where
  displayName := "hpc-local-scratch"
  freeformTags := [("parent_cluster", "hpc"), ("oci_hpc_local_scratch", "true")]
  sizeInGbs := 50
  vpusPerGb := 10
  compartmentId := "c"
  lifecycleState := "AVAILABLE"

def nodeRequest : Request := ⟨"hpc", "c", [], false, ⟨none, [], [], none⟩⟩

def nodeInstance (lifecycleState : String) : Instance where
  id := "i"
  displayName := "node"
  lifecycleState := lifecycleState
  found := true
  attachments := none
  readable _ := true
  freeformTags := [("parent_cluster", "hpc")]
  inCluster := true
  volumeSettled := true

/-- OCI has the node in this state, listed in its pool, and its volume. -/
def nodeSite (lifecycleState : String) : Site where
  disk path := if path = journalFile then some (some nodeJournal) else none
  instances id := if id = "i" then some (nodeInstance lifecycleState) else none
  volumes id := if id = "v" then some nodeVolume else none
  pools id := if id = "p" then some ["i"] else none

def shown {α : Type} : Option α → Except CallError α
  | some a => .ok a
  | none => .error (.service 404 "NotFound")

/-- OCI shows what it has and deletes volumes; nothing else succeeds. -/
def nodeOutside (w : Site) : (o : ResizeCall) → Except CallError o.Ans × Site
  | .file (.exists path) => (.ok (w.disk path).isSome, w)
  | .file (.read path) => (shown (w.disk path), w)
  | .getInstance id => (shown (w.instances id), w)
  | .getVolume id => (shown (w.volumes id), w)
  | .listInstancePoolInstances _ poolId => (shown (w.pools poolId), w)
  | .deleteVolume id => (.ok (), { w with volumes := Function.update w.volumes id none })
  | _ => (.error (.service 500 "InternalServerError"), w)

theorem nodeOutside_answers (w : Site) (o : ResizeCall) : siteStep w o (nodeOutside w o).1 (nodeOutside w o).2 := by
  have hpools : ∀ o : ResizeCall, w.PoolsAfter o w.pools := by
    intro o
    cases o with
    | detachInstance poolId id => exact .inl rfl
    | _ => exact rfl
  cases o with
  | file o =>
    cases o with
    | «exists» path => exact ⟨⟨rfl, rfl⟩, trivial, rfl, fun _ h => h⟩
    | read path =>
      show siteStep w (.file (.read path)) (shown (w.disk path)) w
      cases hfile : w.disk path with
      | none => exact ⟨rfl, trivial, rfl, fun _ h => h⟩
      | some content => exact ⟨⟨hfile, rfl⟩, trivial, rfl, fun _ h => h⟩
    | write => exact ⟨.inl rfl, trivial, rfl, fun _ h => h⟩
    | _ => exact ⟨rfl, trivial, rfl, fun _ h => h⟩
  | getInstance id =>
    show siteStep w (.getInstance id) (shown (w.instances id)) w
    cases hfound : w.instances id <;> exact ⟨rfl, hfound, rfl, fun _ h => h⟩
  | getVolume id =>
    show siteStep w (.getVolume id) (shown (w.volumes id)) w
    cases hfound : w.volumes id <;> exact ⟨rfl, hfound, rfl, fun _ h => h⟩
  | listInstancePoolInstances compartmentId poolId =>
    show siteStep w (.listInstancePoolInstances compartmentId poolId) (shown (w.pools poolId)) w
    cases hfound : w.pools poolId <;> exact ⟨rfl, hfound, rfl, fun _ h => h⟩
  | _ => exact ⟨rfl, trivial, hpools _, fun _ h => h⟩

/-- The nodes are listed, with one of them in the journal. -/
def listRun : Prog resizeSig CallError (List Record) := processPending nodeRequest 1 .list []

theorem journalOf_nodeSite (lifecycleState : String) : journalOf (nodeSite lifecycleState).disk = some [nodeRecord] := by
  have hdecode : decode nodeJournal = .ok [nodeRecord] :=
    @decodeRecords_json [] [nodeRecord] (fun _ _ => List.not_mem_nil) (List.nodup_singleton _)
  show (decode nodeJournal).toOption = _
  rw [hdecode]
  rfl

theorem not_resumes_list : ¬ Resumes .list [nodeRecord] [] := by
  rintro (hmode | ⟨hmode | hmode, -⟩)
  · cases hmode
  · cases hmode
  · cases hmode

section
variable (lifecycleState : String)

def listingEvents : List (Event resizeSig CallError) := listRun.runEvents nodeOutside (nodeSite lifecycleState)

def listingOut : Outcome CallError (List Record) := .ofExcept (listRun.run nodeOutside (nodeSite lifecycleState)).1

def listingEnd : Site := (listRun.run nodeOutside (nodeSite lifecycleState)).2

theorem trace_listing : Trace listRun (listingOut lifecycleState) (listingEvents lifecycleState) :=
  @Trace.of_run resizeSig CallError (List Record) Site nodeOutside listRun (nodeSite lifecycleState)

theorem follows_listing :
    Follows siteStep (nodeSite lifecycleState) (listingEvents lifecycleState) (listingEnd lifecycleState) :=
  Follows.of_run nodeOutside_answers listRun (nodeSite lifecycleState)

end

/-- A list raises where the node is running, and leaves it alone. -/
theorem resume_policy_running :
    (listRun.run nodeOutside (nodeSite "RUNNING")).1.map List.length =
        .error (.runtime "Pending removal for node must be resumed explicitly with --nodes node") ∧
      RemovesNoMember nodeRequest 1 [nodeRecord] (nodeSite "RUNNING") (listingEvents "RUNNING") ∧
        LeavesAlone nodeRequest 1 [nodeRecord]
          (fun s record => s.Live record.instanceId ∧ s.Member record.instancePoolId record.instanceId)
          (nodeSite "RUNNING") (listingEnd "RUNNING") (listingEvents "RUNNING") (listingOut "RUNNING") :=
  ⟨by decide +kernel, (resume_policy (trace_listing "RUNNING") (follows_listing "RUNNING")).2.2 [nodeRecord]
    (journalOf_nodeSite "RUNNING") not_resumes_list⟩

def loadEvents : List (Event resizeSig CallError) :=
  (turnsBefore nodeRequest 1 []).runEvents nodeOutside (nodeSite "TERMINATED")

theorem trace_loads : Trace (turnsBefore nodeRequest 1 []) (.done []) loadEvents := by
  have hrun : ((turnsBefore nodeRequest 1 []).run nodeOutside (nodeSite "TERMINATED")).1 = .ok [] := by rfl
  have htrace := @Trace.of_run resizeSig CallError (List Record) Site nodeOutside (turnsBefore nodeRequest 1 [])
    (nodeSite "TERMINATED")
  rw [hrun] at htrace
  exact htrace

theorem file_of_loadEvents : ∀ event ∈ loadEvents, ∃ o, event.1 = .file o := by
  refine trace_loads.calls (P := fun o => ∃ o', o = .file o') ?_
  refine (calls_onFiles (fun o => ⟨o, rfl⟩) loadPending).bind fun _ => ?_
  exact (calls_onFiles (fun o => ⟨o, rfl⟩) loadPending).bind fun _ => calls_ret ..

theorem listing_terminated : ∃ readyDeletions, listingOut "TERMINATED" = .done readyDeletions := by
  have hlength : (listRun.run nodeOutside (nodeSite "TERMINATED")).1.map List.length = .ok 1 := by decide +kernel
  rw [listingOut]
  cases hrun : (listRun.run nodeOutside (nodeSite "TERMINATED")).1 with
  | ok readyDeletions => exact ⟨readyDeletions, rfl⟩
  | error e =>
    rw [hrun] at hlength
    cases hlength

/-- **A terminated instance that is still listed in its pool is passed over**: the list returns. -/
theorem terminated_member_is_passed : journalOf (nodeSite "TERMINATED").disk = some [nodeRecord] ∧
    ¬ Resumes .list [nodeRecord] [] ∧ Trace listRun (listingOut "TERMINATED") (listingEvents "TERMINATED") ∧
      Follows siteStep (nodeSite "TERMINATED") (listingEvents "TERMINATED") (listingEnd "TERMINATED") ∧
        ¬ LeavesAlone nodeRequest 1 [nodeRecord] (fun s record => s.Member record.instancePoolId record.instanceId)
          (nodeSite "TERMINATED") (listingEnd "TERMINATED") (listingEvents "TERMINATED") (listingOut "TERMINATED") := by
  refine ⟨journalOf_nodeSite _, not_resumes_list, trace_listing _, follows_listing _, fun hleaves => ?_⟩
  have hsplit : listingEvents "TERMINATED" = loadEvents ++ (listingEvents "TERMINATED").drop 4 := by rfl
  have hfollows := follows_listing "TERMINATED"
  rw [hsplit] at hfollows
  obtain ⟨s₁, hfirst, hrest⟩ := follows_append.mp hfollows
  have hmember : s₁.Member nodeRecord.instancePoolId nodeRecord.instanceId := by
    have hpools : s₁.pools = (nodeSite "TERMINATED").pools := pools_of_follows hfirst fun event hevent poolId id => by
      obtain ⟨o, ho⟩ := file_of_loadEvents event hevent
      rw [ho]
      exact ResizeCall.noConfusion
    refine ⟨["i"], ?_, ?_⟩
    · rw [hpools]
      decide +kernel
    · decide +kernel
  obtain ⟨⟨e, hout⟩ | hout, -⟩ := hleaves nodeRecord [] loadEvents _ s₁
    ⟨[], [], rfl, trace_loads⟩ hsplit hfirst hrest hmember
  · obtain ⟨ready, hdone⟩ := listing_terminated
    rw [hdone] at hout
    cases hout
  · obtain ⟨ready, hdone⟩ := listing_terminated
    rw [hdone] at hout
    cases hout

end OciHpc.Resize
