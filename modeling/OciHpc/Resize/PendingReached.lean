import OciHpc.Resize.PendingRemoval

/-!
# The journals that are reached

* `onDisk` : what the calls of a removal do to the files;
* `Reached` : the journals that remembering, retrying and finalizing lead to from an absent file;
* `journal_is_read_back` : every one of them is accepted by the loader, and what is written is read.
-/

namespace OciHpc.Resize
open Prog Files

/-- The calls on files act on them; no other call touches the journal. -/
def onDisk : Handler resizeSig CallError PendingDisk
  | d, .file o, r, d' => step d o r d'
  | d, _, _, d' => d' = d

theorem wp_onFiles {α : Type} (p : Prog fileSig CallError α) (Q : Post PendingDisk CallError α) (d : PendingDisk) :
    wp onDisk (onFiles p) Q d ↔ wp step p Q d :=
  wp_via (fun o Q d => wp_perform (S := resizeSig) (.file o) Q d) p Q d

/-! ## Retrying only looks at the journal -/

/-- The calls that remove an instance, whose volumes created at launch are preserved. -/
def RemovalCall : ResizeCall → Prop
  | .terminateInstance _ preserveDataVolumes => preserveDataVolumes = true
  | .getInstance _ | .listVolumeAttachments .. | .poll .. | .listInstancePoolInstances .. | .detachInstance .. => True
  | _ => False

/-- The calls of a retry: of the files it only looks at them, and the volumes created at launch are preserved. -/
def RetryCall : ResizeCall → Prop
  | .file o => o.Harmless
  | .terminateInstance _ preserveDataVolumes => preserveDataVolumes = true
  | .getInstance _ | .listVolumeAttachments .. | .poll .. | .listInstancePoolInstances .. | .detachInstance .. |
    .getVolume _ | .deleteVolume _ => True
  | _ => False

theorem RemovalCall.retry {o : ResizeCall} (h : RemovalCall o) : RetryCall o := by
  cases o <;> first | exact h | exact h.elim

theorem calls_loadPending : loadPending.Calls Call.Harmless := by
  refine Calls.bind (calls_perform trivial) fun present => ?_
  split
  · trivial
  · refine Calls.bind (calls_perform trivial).attempt fun content => ?_
    split
    · trivial
    · trivial
    · unfold decodePending
      split <;> trivial

theorem calls_instanceIsPoolMember (compartmentId poolId id : String) :
    (instanceIsPoolMember compartmentId poolId id).Calls RemovalCall :=
  Calls.bind (calls_perform trivial) fun _ => calls_ret ..

theorem calls_waitDetached (compartmentId poolId id : String) (detachError : CallError) (turns : Nat) :
    (waitDetached compartmentId poolId id detachError turns).Calls RemovalCall := by
  induction turns with
  | zero => trivial
  | succ turns ih =>
    refine (calls_instanceIsPoolMember compartmentId poolId id).attempt.bind fun result => ?_
    split
    · trivial
    · exact ih
    · exact ih

theorem calls_detachInstanceFromPoolIfNeeded (turns : Nat) (compartmentId poolId id : String) :
    (detachInstanceFromPoolIfNeeded turns compartmentId poolId id).Calls RemovalCall := by
  refine (calls_instanceIsPoolMember compartmentId poolId id).bind fun isMember => ?_
  split
  · trivial
  · refine Calls.bind (calls_perform trivial).attempt fun result => ?_
    split
    · trivial
    · exact calls_waitDetached ..

section
variable {P : ResizeCall → Prop}

theorem calls_deleteTurn {id : String} (hget : P (.getVolume id)) (hdelete : P (.deleteVolume id)) (deleteRequested : Bool)
    {next : Bool → Prog resizeSig CallError Unit} (hnext : ∀ requested, (next requested).Calls P) :
    (deleteTurn id deleteRequested next).Calls P := by
  refine Calls.bind (calls_perform hget).attempt fun result => ?_
  split
  · trivial
  · trivial
  · split
    · trivial
    · split
      · exact hnext true
      · refine Calls.bind (calls_perform hdelete).attempt fun result => ?_
        split
        · exact hnext true
        · trivial
        · exact hnext false
        · trivial

theorem calls_deleteManagedLocalBlockVolume {id : String} (hget : P (.getVolume id)) (hdelete : P (.deleteVolume id))
    (turns : Nat) (deleteRequested : Bool) : (deleteManagedLocalBlockVolume id turns deleteRequested).Calls P := by
  induction turns generalizing deleteRequested with
  | zero => exact calls_deleteTurn hget hdelete deleteRequested fun _ => calls_throw ..
  | succ turns ih => exact calls_deleteTurn hget hdelete deleteRequested ih

theorem calls_deletePendingVolume (request : Request) (turns : Nat) {record : Record} (hget : P (.getVolume record.volumeId))
    (hdelete : P (.deleteVolume record.volumeId)) : (deletePendingVolume request turns record).Calls P := by
  refine Calls.bind (calls_perform hget).attempt fun result => ?_
  split
  · trivial
  · trivial
  · split
    · trivial
    · exact calls_deleteManagedLocalBlockVolume hget hdelete ..

end

section
variable (request : Request) (turns : Nat) (resumePoolMembers : Bool)

theorem calls_terminatePending (record : Record) :
    (terminateInstanceAndDeleteLaunchVolumes request turns record.instanceId (some false)).Calls RemovalCall := by
  refine Calls.bind (calls_perform trivial).attempt fun result => ?_
  split
  · trivial
  · trivial
  · split
    · trivial
    · have hwait : (waitTerminated record.instanceId turns).Calls RemovalCall :=
        (@calls_waitTerminated (fun _ _ => False) turns record.instanceId).mono fun o ho => by
          cases o <;> first | exact ho.elim | exact trivial
      split
      · exact hwait
      · show ((oci (.terminateInstance record.instanceId true)).attempt.bind _).Calls RemovalCall
        have hpreserve : RemovalCall (.terminateInstance record.instanceId true) := rfl
        refine Calls.bind (calls_perform hpreserve).attempt fun result => ?_
        split
        · trivial
        · trivial
        · exact hwait

/-- The calls of a removal that is retried; of a member it is detached only where the removal may be resumed. -/
theorem calls_removePendingInstance_of {P : ResizeCall → Prop} {record : Record} (hget : P (.getInstance record.instanceId))
    (hlist : P (.listInstancePoolInstances request.compartmentId record.instancePoolId))
    (hdetach : resumePoolMembers = true →
      (detachInstanceFromPoolIfNeeded turns request.compartmentId record.instancePoolId record.instanceId).Calls P)
    (hterminate : (terminateInstanceAndDeleteLaunchVolumes request turns record.instanceId (some false)).Calls P) :
    (removePendingInstance request turns resumePoolMembers record).Calls P := by
  refine Calls.bind ?_ fun instanceState => ?_
  · refine Calls.bind (calls_perform hget).attempt fun result => ?_
    split
    · trivial
    · trivial
    · split
      · trivial
      · split <;> trivial
  · split
    · trivial
    · refine Calls.bind ?_ fun _ => hterminate
      refine Calls.bind ?_ fun isMember => ?_
      · refine Calls.bind (Calls.attempt ?_) fun result => ?_
        · exact Calls.bind (calls_perform hlist) fun _ => calls_ret ..
        · split <;> trivial
      · split
        · trivial
        · split
          · exact calls_throw ..
          · rename_i hresume
            exact hdetach (by simpa using hresume)

theorem calls_removePendingInstance (record : Record) :
    (removePendingInstance request turns resumePoolMembers record).Calls RemovalCall :=
  calls_removePendingInstance_of request turns resumePoolMembers trivial trivial
    (fun _ => calls_detachInstanceFromPoolIfNeeded ..) (calls_terminatePending request turns record)

theorem calls_retryPending : (retryPending request turns resumePoolMembers).Calls RetryCall := by
  refine Calls.bind (calls_loadPending.via fun o ho => calls_perform ho) fun pendingDeletions => ?_
  refine Calls.forEach (fun readyDeletions record => ?_) pendingDeletions []
  unfold retryRecord
  split
  · trivial
  · refine ((calls_removePendingInstance request turns resumePoolMembers record).mono fun _ => RemovalCall.retry).bind
      fun _ => ?_
    exact (calls_deletePendingVolume request turns trivial trivial).bind fun _ => calls_ret ..

theorem keeps_of_retryCalls {α : Type} {p : Prog resizeSig CallError α} (hp : p.Calls RetryCall) (d : PendingDisk) :
    Keeps onDisk (· = d) p :=
  keeps_of_calls hp fun w o r w' ho hw hstep => by
    subst hw
    cases o with
    | file o => exact eq_of_harmless ho hstep
    | _ => exact hstep

/-- **A retry leaves the files as they are.** -/
theorem keeps_retryPending (d : PendingDisk) : Keeps onDisk (· = d) (retryPending request turns resumePoolMembers) :=
  keeps_of_retryCalls (calls_retryPending request turns resumePoolMembers) d

theorem keeps_processPending (mode : Mode) (requestedHostnames : List String) (d : PendingDisk) :
    Keeps onDisk (· = d) (processPending request turns mode requestedHostnames) := by
  refine keeps_of_retryCalls ?_ d
  refine Calls.bind (calls_loadPending.via fun o ho => calls_perform ho) fun pendingDeletions => ?_
  exact calls_retryPending request turns _

end

/-! ## Finalizing -/

/-- The journal is the old one, or it has lost the records that are ready. -/
def Finalized (d : PendingDisk) (readyDeletions : List Record) (d' : PendingDisk) : Prop :=
  SameNamed d d' ∨ ∃ pending, journalOf d = some pending ∧ Written d (remaining pending readyDeletions) d'

theorem calls_finalizeDns {P : ResizeCall → Prop} (hlist : ∀ compartmentId name, P (.listZones compartmentId name))
    (hdelete : ∀ zoneId domain, P (.deleteRrSet zoneId domain)) (request : Request) (readyDeletions : List Record)
    (pool : PoolState) : (finalizeDns request readyDeletions pool).Calls P := by
  unfold finalizeDns
  split
  · trivial
  · split
    · refine Calls.bind (calls_perform (hlist ..)) fun zones => ?_
      split
      · trivial
      · split
        · trivial
        · split
          · trivial
          · exact calls_deleteDomains hdelete ..
    · trivial

def NoFile : ResizeCall → Prop
  | .file _ => False
  | _ => True

theorem keeps_of_noFile {α : Type} {p : Prog resizeSig CallError α} (hp : p.Calls NoFile) (d : PendingDisk) :
    Keeps onDisk (· = d) p :=
  keeps_of_calls hp fun w o r w' ho hw hstep => by
    subst hw
    cases o with
    | file o => exact ho.elim
    | _ => exact hstep

/-- **Finalizing leaves the old journal or the one without the records that are ready.** -/
theorem finalizePending_spec (request : Request) (readyDeletions : List Record) (pool : PoolState) (d : PendingDisk) :
    wp onDisk (finalizePending request readyDeletions pool)
      ⟨fun _ => Finalized d readyDeletions, fun _ => Finalized d readyDeletions, Finalized d readyDeletions⟩ d := by
  have hsame : Finalized d readyDeletions d := .inl (SameNamed.refl d)
  unfold finalizePending
  split
  · exact hsame
  · refine wp_seq (R := fun pending d' => d' = d ∧ journalOf d = some pending) ?_ fun pending d' hload => ?_
    · rw [wp_onFiles]
      exact wp_mono (loadPending_spec d) (fun _ _ h => h) (fun _ _ h => h ▸ hsame) fun _ h => h ▸ hsame
    · obtain ⟨rfl, hpending⟩ := hload
      split
      · exact hsame
      · rename_i size _
        have hcalls : (finalizeDns request readyDeletions pool).Calls NoFile :=
          calls_finalizeDns (fun _ _ => trivial) (fun _ _ => trivial) request readyDeletions pool
        have hdns := keeps_of_noFile hcalls d' d' rfl
        refine wp_seq (R := fun _ d'' => d'' = d')
          (wp_mono hdns (fun _ _ h => h) (fun _ _ h => h ▸ hsame) fun _ h => h ▸ hsame) fun _ d'' hd'' => ?_
        subst hd''
        refine wp_perform_seq hsame (fun _ d₁ hupdate => ?_) fun e d₁ hupdate => ?_
        · rw [show d₁ = d'' from hupdate]
          have hwritten : ∀ d₂, Written d'' (remaining pending readyDeletions) d₂ → Finalized d'' readyDeletions d₂ :=
            fun d₂ h => .inr ⟨pending, hpending, h⟩
          refine wp_seq (R := fun _ => Finalized d'' readyDeletions) ?_ fun _ d₂ h => h
          rw [wp_onFiles]
          exact wp_mono (writePending_spec _ d'') (fun _ d₂ h => hwritten d₂ h)
            (fun _ d₂ h => h.elim .inl (hwritten d₂)) fun d₂ h => h.elim .inl (hwritten d₂)
        · rw [show d₁ = d'' from hupdate]
          exact hsame

theorem nodup_remaining {pending : List Record} (h : (pending.map (·.volumeId)).Nodup) (readyDeletions : List Record) :
    ((remaining pending readyDeletions).map (·.volumeId)).Nodup :=
  h.sublist (List.filter_sublist.map _)

/-! ## What is reached -/

/-- The journals that remembering, retrying and finalizing lead to from an absent file, whatever fails and wherever a
run is cut off. -/
inductive Reached : PendingDisk → Prop
  | absent {d : PendingDisk} (h : d journalFile = none) : Reached d
  | remember {d d' : PendingDisk} {record : Record} {out : Outcome CallError Unit} (hd : Reached d)
      (h : Exec onDisk (onFiles (rememberPending record)) d out d') : Reached d'
  | retry {d d' : PendingDisk} {request : Request} {turns : Nat} {resumePoolMembers : Bool}
      {out : Outcome CallError (List Record)} (hd : Reached d)
      (h : Exec onDisk (retryPending request turns resumePoolMembers) d out d') : Reached d'
  | finalize {d d' : PendingDisk} {request : Request} {readyDeletions : List Record} {pool : PoolState}
      {out : Outcome CallError Nat} (hd : Reached d)
      (h : Exec onDisk (finalizePending request readyDeletions pool) d out d') : Reached d'
  | elsewhere {d d' : PendingDisk} (hd : Reached d) (h : d' journalFile = d journalFile) : Reached d'

theorem journalOf_congr {d d' : PendingDisk} (h : d' journalFile = d journalFile) : journalOf d' = journalOf d := by
  rw [journalOf, journalOf, h]

/-- **Every journal that is reached is accepted.** -/
theorem Reached.accepted {d : PendingDisk} (h : Reached d) : ∃ pending, journalOf d = some pending := by
  induction h with
  | absent h => exact ⟨[], by rw [journalOf, h]⟩
  | @remember d d' record out _ h ih =>
    have hspec := rememberPending_spec record d
    rw [← wp_onFiles] at hspec
    have hremembered := h.of_wp hspec
    have haccepted : SameNamed d d' ∨ Remembered d record d' → ∃ pending, journalOf d' = some pending := by
      rintro (hsame | hremembered)
      · exact ih.imp fun pending hpending => (journalOf_of_sameNamed hsame).trans hpending
      · exact journalOf_of_remembered hremembered
    cases out with
    | done a => exact haccepted (.inr hremembered)
    | raised e => exact haccepted hremembered
    | cut => exact haccepted hremembered
  | @retry d d' request turns resumePoolMembers out _ h ih =>
    have hkept := h.of_wp (keeps_retryPending request turns resumePoolMembers d d rfl)
    have hd' : d' = d := by cases out <;> exact hkept
    rw [hd']
    exact ih
  | @finalize d d' request readyDeletions pool out _ h ih =>
    have hfinalized := h.of_wp (finalizePending_spec request readyDeletions pool d)
    have hd' : Finalized d readyDeletions d' := by cases out <;> exact hfinalized
    rcases hd' with hsame | ⟨pending, hpending, hwritten⟩
    · exact ih.imp fun pending hpending => (journalOf_of_sameNamed hsame).trans hpending
    · exact ⟨_, journalOf_of_written hwritten (nodup_remaining (nodup_of_journalOf hpending) readyDeletions)⟩
  | elsewhere _ h ih => exact ih.imp fun pending hpending => (journalOf_congr h).trans hpending

/-! ## Remembering again -/

theorem storedRecord_map_written (records : List Record) (volumeId : String) :
    storedRecord (records.map Record.written) volumeId = (storedRecord records volumeId).map Record.written := by
  rw [storedRecord, storedRecord, List.find?_map]
  congr 1
  exact congrArg (fun p => List.find? p records) (funext fun record => by
    show (record.written.volumeId == volumeId) = _
    rw [record.volumeId_written])

theorem stored_of_remembered {d d' : PendingDisk} {record : Record} (h : Remembered d record d') :
    ∃ pending existing, journalOf d' = some pending ∧ storedRecord pending record.volumeId = some existing ∧
      existing.Same record := by
  obtain ⟨pending, hpending, ⟨existing, hstored, hsame, rfl⟩ | ⟨hnew, hwritten⟩⟩ := h
  · exact ⟨pending, existing, hpending, hstored, hsame⟩
  · have hdistinct := nodup_append_of_new (nodup_of_journalOf hpending) hnew
    refine ⟨_, record.written, journalOf_of_written hwritten hdistinct, ?_, record.same_written⟩
    have hfound : storedRecord (pending ++ [record]) record.volumeId = some record := by
      rw [storedRecord] at hnew ⊢
      rw [List.find?_append, hnew, Option.none_or, List.find?_singleton, beq_self_eq_true, if_pos rfl]
    rw [storedRecord_map_written, hfound, Option.map_some]

/-- Where a record is stored, remembering it changes nothing. -/
theorem rememberPending_of_stored {d : PendingDisk} {pending : List Record} {existing record : Record}
    (hpending : journalOf d = some pending) (hstored : storedRecord pending record.volumeId = some existing) :
    wp step (rememberPending record) ⟨fun _ d' => d' = d ∧ existing.Same record, fun _ d' => d' = d, fun d' => d' = d⟩ d := by
  refine wp_seq (R := fun found d' => d' = d ∧ journalOf d = some found) (loadPending_spec d) fun found d' hload => ?_
  obtain ⟨rfl, hfound⟩ := hload
  obtain rfl := Option.some.inj (hpending.symm.trans hfound)
  rw [hstored]
  dsimp only
  split
  · rename_i hsame
    exact ⟨rfl, hsame⟩
  · exact rfl

theorem exec_rememberPending {d : PendingDisk} {pending : List Record} {existing record : Record}
    (hpending : journalOf d = some pending) (hstored : storedRecord pending record.volumeId = some existing)
    (hsame : existing.Same record) : Exec step (rememberPending record) d (.done ()) d := by
  refine (exec_loadPending hpending).bind ?_
  rw [hstored]
  dsimp only
  rw [if_pos hsame]
  exact .ret

/-! ## The format of the journal -/

def Loads (d : PendingDisk) (pendingDeletions : List Record) : Prop := Exec step loadPending d (.done pendingDeletions) d

theorem loads_iff {d : PendingDisk} {pendingDeletions : List Record} :
    Loads d pendingDeletions ↔ journalOf d = some pendingDeletions :=
  ⟨fun h => (h.of_wp (loadPending_spec d)).2, exec_loadPending⟩

theorem exec_touch (d : PendingDisk) (operation : String) (path : Files.Path PendingFile) :
    Exec step (ask (.touch operation path) : Prog fileSig CallError Unit) d (.done ()) d :=
  Exec.perform (show step d (.touch operation path) (.ok ()) d from rfl)

theorem exec_fsyncDirectory (d : PendingDisk) : Exec step fsyncDirectory d (.done ()) d :=
  (exec_touch d _ _).bind ((exec_touch d _ _).attempt.bind ((exec_touch d _ _).bind .ret))

theorem exec_preparePending (temp : Files.Path PendingFile) (d : PendingDisk) :
    Exec step (preparePending temp) d (.done ()) d := by
  refine (exec_touch d _ _).bind ((exec_touch d _ _).bind ?_)
  have hexists : Exec step (ask (.exists (.named .inventory)) : Prog fileSig CallError Bool) d
      (.done (d (.named .inventory)).isSome) d :=
    Exec.perform (show step d (.exists (.named .inventory)) (.ok _) d from ⟨rfl, rfl⟩)
  refine hexists.bind ?_
  cases (d (.named .inventory)).isSome with
  | false => exact .ret
  | true => exact (exec_touch d _ _).bind ((exec_touch d _ _).attempt.bind .ret)

/-- **A journal can be written.** -/
theorem exists_writePending (pendingDeletions : List Record) {d : PendingDisk} (h : d (.temp 0) = none) :
    ∃ d', Exec step (writePending pendingDeletions) d (.done ()) d' := by
  have hcommit : ∃ changed d', Exec step (commitPending pendingDeletions) d (.done changed) d' := by
    unfold commitPending
    split
    · have hunlink : Exec step (ask (.unlink journalFile) : Prog fileSig CallError Bool) d
          (.done (d journalFile).isSome) (Function.update d journalFile none) :=
        Exec.perform (show step d (.unlink journalFile) (.ok _) _ from ⟨rfl, rfl⟩)
      exact ⟨_, _, hunlink.bind .ret⟩
    · obtain ⟨d', hd'⟩ := @exists_replaceFile _ _ CallError _ PendingFile.journal
        (some (encode pendingDeletions)) preparePending d h exec_preparePending
      exact ⟨true, d', hd'.bind .ret⟩
  obtain ⟨changed, d', hd'⟩ := hcommit
  refine ⟨d', hd'.bind ?_⟩
  cases changed with
  | false => exact .ret
  | true => exact exec_fsyncDirectory d'

/-- What the journal promises of a reader and its writers. -/
structure JournalFormat : Prop where
  /-- Every list of records can be written. -/
  written : ∀ records : List Record, ∀ d : PendingDisk, d (.temp 0) = none →
    ∃ d', Exec step (writePending records) d (.done ()) d'
  /-- What is written is loaded. -/
  loaded : ∀ records : List Record, (records.map (·.volumeId)).Nodup → ∀ d d',
    Exec step (writePending records) d (.done ()) d' →
      ∃ pending, List.Forall₂ Record.Same pending records ∧ ∀ other, Loads d' other ↔ other = pending
  /-- Every journal that is reached is accepted. -/
  accepted : ∀ d, Reached d → ∃ pending, Loads d pending
  /-- Remembering a record again, after a run that returned or changed the journal, changes nothing and can return. -/
  again : ∀ record d out d₁, Exec step (rememberPending record) d out d₁ → (out = .done () ∨ ¬ SameNamed d d₁) →
    (∀ out d₂, Exec step (rememberPending record) d₁ out d₂ → d₂ = d₁) ∧
      Exec step (rememberPending record) d₁ (.done ()) d₁
  /-- A record that conflicts with a stored one is refused. -/
  conflict : ∀ record d pending, Loads d pending → (∃ existing ∈ pending, existing.volumeId = record.volumeId ∧
    ¬ existing.Same record) → ∀ out d', Exec step (rememberPending record) d out d' → d' = d ∧ out ≠ .done ()
  /-- A write that does not get to its rename or unlink leaves the files. -/
  unchanged : ∀ records d out d', Exec step (commitPending records) d out d' → (∀ changed, out ≠ .done changed) →
    SameNamed d d'

theorem eq_of_nodup {pending : List Record} (h : (pending.map (·.volumeId)).Nodup) {a b : Record} (ha : a ∈ pending)
    (hb : b ∈ pending) (hid : a.volumeId = b.volumeId) : a = b :=
  List.inj_on_of_nodup_map h ha hb hid

/-- **The format of the journal.** -/
theorem journal_format : JournalFormat := by
  refine ⟨fun records d h => exists_writePending records h, fun records hdistinct d d' h => ?_, fun d h => ?_,
    fun record d out d₁ h hstored => ?_, ?_, ?_⟩
  · have hjournal := journalOf_of_written (h.of_wp (writePending_spec records d)) hdistinct
    refine ⟨records.map Record.written, forall₂_written records, fun other => ?_⟩
    rw [loads_iff, hjournal, Option.some.injEq, eq_comm]
  · exact h.accepted.imp fun pending hpending => loads_iff.mpr hpending
  · have hspec := h.of_wp (rememberPending_spec record d)
    have hremembered : Remembered d record d₁ := by
      cases out with
      | done a => exact hspec
      | raised e => exact Or.resolve_left hspec (hstored.resolve_left nofun)
      | cut => exact Or.resolve_left hspec (hstored.resolve_left nofun)
    obtain ⟨pending, existing, hpending, hstored, hsame⟩ := stored_of_remembered hremembered
    refine ⟨fun out d₂ h₂ => ?_, exec_rememberPending hpending hstored hsame⟩
    have hspec := h₂.of_wp (rememberPending_of_stored hpending hstored)
    cases out with
    | done a => exact hspec.1
    | raised e => exact hspec
    | cut => exact hspec
  · rintro record d pending hloads ⟨existing, hmem, hid, hdifferent⟩ out d' h
    have hpending := loads_iff.mp hloads
    have hdistinct := nodup_of_journalOf hpending
    have hstored : storedRecord pending record.volumeId = some existing := by
      cases hfind : storedRecord pending record.volumeId with
      | none => exact absurd (beq_iff_eq.mpr hid) (List.find?_eq_none.mp hfind existing hmem)
      | some found =>
        have hfound := beq_iff_eq.mp (List.find?_some (p := fun r : Record => r.volumeId == record.volumeId) hfind)
        rw [eq_of_nodup hdistinct (List.mem_of_find?_eq_some hfind) hmem (hfound.trans hid.symm)]
    have hspec := h.of_wp (rememberPending_of_stored hpending hstored)
    cases out with
    | done a => exact absurd hspec.2 hdifferent
    | raised e => exact ⟨hspec, nofun⟩
    | cut => exact ⟨hspec, nofun⟩
  · intro records d out d' h hout
    have hspec := h.of_wp (commitPending_spec records d)
    cases out with
    | done changed => exact absurd rfl (hout changed)
    | raised e => exact hspec
    | cut => exact hspec

end OciHpc.Resize
