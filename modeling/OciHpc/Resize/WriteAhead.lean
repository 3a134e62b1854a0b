import OciHpc.Resize.FinalizePending
import OciHpc.Resize.OwnedOnly

/-!
# The journal is written ahead

What the journal holds after any row of removals, retries and finalizations, each of which may raise or be cut off.

* `Run`, `Runs` : runs of the three functions with the calls they make, and the files along them;
* `Run.Recognizes`, `Run.Begins`, `Run.Notes`, `Run.Observes` : what a run makes of a volume and its instance;
* `WrittenAhead` : what is promised of the journal;
* `journal_is_written_ahead` : the promise, in every state that is reached;
* `journal_may_be_behind` : the two ways to a volume that the journal does not have.
-/

namespace OciHpc.Resize
open Prog Files

/-! ## Runs -/

/-- A run of one of the three functions: its arguments, how it ends and the calls it makes. -/
inductive Run
  | removal (request : Request) (turns : Nat) (poolId id privateIp : String) (out : Outcome CallError (Option Record))
      (events : List (Event resizeSig CallError))
  | retry (request : Request) (turns : Nat) (resumePoolMembers : Bool) (out : Outcome CallError (List Record))
      (events : List (Event resizeSig CallError))
  | finalize (request : Request) (readyDeletions : List Record) (pool : PoolState) (out : Outcome CallError Nat)
      (events : List (Event resizeSig CallError))

/-- The call begins to detach or to terminate the instance. -/
def beginsRemoval (id : String) : ResizeCall → Bool
  | .detachInstance _ other | .terminateInstance other _ => other == id
  | _ => false

/-- The answer shows that the volume is not there, or is terminated. -/
def showsAbsent (volumeId : String) : (o : ResizeCall) → Except CallError o.Ans → Bool
  | .getVolume other, .error (.service 404 _) => other == volumeId
  | .getVolume other, .ok volume => other == volumeId && volume.lifecycleState == "TERMINATED"
  | .deleteVolume other, .error (.service 404 _) => other == volumeId
  | _, _ => false

namespace Run

def events : Run → List (Event resizeSig CallError)
  | removal _ _ _ _ _ _ events | retry _ _ _ _ events | finalize _ _ _ _ events => events

def Traced : Run → Prop
  | removal request turns poolId id privateIp out events =>
      Trace (removeInstancePoolMember request turns poolId id privateIp) out events
  | retry request turns resumePoolMembers out events => Trace (retryPending request turns resumePoolMembers) out events
  | finalize request readyDeletions pool out events => Trace (finalizePending request readyDeletions pool) out events

/-- A removal that has found the volume to be managed, and not created at launch. -/
def Recognizes (id volumeId : String) : Run → Prop
  | removal request _ _ other _ _ events => other = id ∧ ∃ managed first rest, events = first ++ rest ∧
      Trace (getExclusiveManagedLocalBlockVolumeAttachment request id) (.done (some managed)) first ∧
        managed.isVolumeCreatedDuringLaunch ≠ some true ∧ managed.volumeId = volumeId
  | _ => False

/-- A removal that has written the record of the volume, or found it written. -/
def Notes (volumeId : String) : Run → Prop
  | removal request _ poolId id privateIp _ events => ∃ managed record first noted rest, events = first ++ noted ++ rest ∧
      Trace (getExclusiveManagedLocalBlockVolumeAttachment request id) (.done managed) first ∧
        Trace (recordPendingVolume request poolId id privateIp (some volumeId)) (.done (some record)) noted
  | _ => False

def Begins (id : String) (run : Run) : Prop := ∃ event ∈ run.events, beginsRemoval id event.1 = true

def Observes (volumeId : String) (run : Run) : Prop := ∃ event ∈ run.events, showsAbsent volumeId event.1 event.2 = true

def IsRemoval : Run → Prop
  | removal .. => True
  | _ => False

end Run

/-- The run can go so from these files to those, whatever OCI, DNS and Terraform answer. -/
def Ran (d : PendingDisk) (run : Run) (d' : PendingDisk) : Prop := run.Traced ∧ Follows onDisk d run.events d'

/-- Runs one after the other, in as many processes. Between them the other files may change. -/
inductive Runs (d : PendingDisk) : List Run → PendingDisk → Prop
  | start : Runs d [] d
  | run {runs : List Run} {run : Run} {d₁ d₂ : PendingDisk} (h : Runs d runs d₁) (hrun : Ran d₁ run d₂) :
      Runs d (runs ++ [run]) d₂
  | elsewhere {runs : List Run} {d₁ d₂ : PendingDisk} (h : Runs d runs d₁) (hsame : d₂ journalFile = d₁ journalFile) :
      Runs d runs d₂

/-! ## What is promised -/

/-- The record of a volume is in the journal, with its instance. -/
def Journaled (d : PendingDisk) (id volumeId : String) : Prop :=
  ∃ pending record, journalOf d = some pending ∧ record ∈ pending ∧ record.volumeId = volumeId ∧ record.instanceId = id

def StillPending (d : PendingDisk) (record : Record) : Prop :=
  ∃ pending kept, journalOf d = some pending ∧ kept ∈ pending ∧ kept.Same record

/-- A run that finalizes the record: it is ready, and the journal was as it is here when the DNS records had been deleted
and the Terraform state updated. -/
def Run.Finalizes (d : PendingDisk) (record : Record) : Run → Prop
  | .finalize request readyDeletions pool _ events => (∃ ready ∈ readyDeletions, record.Same ready) ∧
      ∃ pending size load dns rest, events = load ++ dns ++ ⟨.updateTFState size, .ok ()⟩ :: rest ∧
        Trace (onFiles loadPending) (.done pending) load ∧ checkFinalize request pending readyDeletions pool = .ok size ∧
          Trace (finalizeDns request readyDeletions pool) (.done ()) dns ∧
            Follows onDisk d (load ++ dns ++ [⟨.updateTFState size, .ok ()⟩]) d
  | _ => False

/-- The record was returned by a retry that no removal follows. -/
def ReturnedLast (runs : List Run) (record : Record) : Prop :=
  ∃ before request turns resumePoolMembers returned events after,
    runs = before ++ .retry request turns resumePoolMembers (.done returned) events :: after ∧ record ∈ returned ∧
      ∀ other ∈ after, ¬ other.IsRemoval

/-- What is ready was returned by the retry before. -/
def ReadyAreReturned (runs : List Run) : Prop :=
  ∀ before request readyDeletions pool out events after,
    runs = before ++ .finalize request readyDeletions pool out events :: after →
      ∀ record ∈ readyDeletions, ReturnedLast before record

/-- What is promised of the journal in the state `d` after the runs. -/
structure WrittenAhead (runs : List Run) (d : PendingDisk) : Prop where
  /-- A volume whose instance the removal that recognized it has begun to remove, or whose record it has written, is in the
  journal, unless it was seen to be absent in a later run. -/
  recorded : ReadyAreReturned runs → ∀ before run after id volumeId, runs = before ++ run :: after →
    run.Recognizes id volumeId → run.Begins id ∨ run.Notes volumeId →
      Journaled d id volumeId ∨ ∃ later ∈ after, later.Observes volumeId
  /-- A record leaves the journal only in a run that finalizes it. -/
  left : ∀ run d', Ran d run d' → ∀ pending record, journalOf d = some pending → record ∈ pending →
    StillPending d' record ∨ run.Finalizes d record

/-! ## Equal records -/

theorem str?_numberForm (value : Json) : (Json.normal Json.numberLeaf value).str? = value.str? := by
  cases value with
  | float repr =>
    rw [Json.normal, Json.numberLeaf]
    cases Json.asInt? (.float repr) <;> rfl
  | _ => rfl

theorem Record.Same.text {a b : Record} (h : a.Same b) (key : String) : a.text key = b.text key := by
  have hfields : Json.sortFields (Json.normalFields Json.numberLeaf a.fields) =
      Json.sortFields (Json.normalFields Json.numberLeaf b.fields) := by
    rw [Record.Same, Json.SameValue, Record.json, Record.json, Json.normal, Json.normal] at h
    exact Json.obj.inj h
  have hfield := congrArg (fun fields => Dict.get? fields key) hfields
  simp only [Json.get?_sortFields, Json.get?_normalFields] at hfield
  have hstr : ∀ record : Record, (((Dict.get? record.fields key).map (Json.normal Json.numberLeaf)).getD .null).str? =
      (Dict.getD record.fields key .null).str? := by
    intro record
    rw [Dict.getD]
    cases Dict.get? record.fields key with
    | none => rfl
    | some value => exact str?_numberForm value
  rw [Record.text, Record.text, ← hstr a, hfield, hstr b]

/-! ## What stays in the journal -/

section
variable {d d' : PendingDisk} {pending : List Record} {record : Record}

theorem stillPending_of_mem (hpending : journalOf d = some pending) (hmem : record ∈ pending) : StillPending d record :=
  ⟨pending, record, hpending, hmem, Json.SameValue.refl _⟩

theorem stillPending_of_sameNamed (h : SameNamed d d') (hpending : journalOf d = some pending) (hmem : record ∈ pending) :
    StillPending d' record :=
  stillPending_of_mem ((journalOf_of_sameNamed h).trans hpending) hmem

theorem stillPending_of_written {records : List Record} (h : Written d records d')
    (hdistinct : (records.map (·.volumeId)).Nodup) (hmem : record ∈ records) : StillPending d' record :=
  ⟨_, record.written, journalOf_of_written h hdistinct, List.mem_map_of_mem hmem, record.same_written⟩

/-- The journal is the old one, or a record was remembered. -/
def Grown (d d' : PendingDisk) : Prop := SameNamed d d' ∨ ∃ record, Remembered d record d'

theorem Grown.stillPending (h : Grown d d') (hpending : journalOf d = some pending) (hmem : record ∈ pending) :
    StillPending d' record := by
  obtain hsame | ⟨added, found, hfound, ⟨existing, -, -, rfl⟩ | ⟨hnew, hwritten⟩⟩ := h
  · exact stillPending_of_sameNamed hsame hpending hmem
  · exact stillPending_of_mem hpending hmem
  · obtain rfl := Option.some.inj (hpending.symm.trans hfound)
    have hdistinct := nodup_append_of_new (nodup_of_journalOf hpending) hnew
    exact stillPending_of_written hwritten hdistinct (List.mem_append_left _ hmem)

theorem StillPending.journaled {id volumeId : String} (h : StillPending d record) (hvolume : record.volumeId = volumeId)
    (hid : record.instanceId = id) : Journaled d id volumeId := by
  obtain ⟨pending, kept, hpending, hmem, hsame⟩ := h
  exact ⟨pending, kept, hpending, hmem, (hsame.text _).trans hvolume, (hsame.text _).trans hid⟩

end

/-! ## The parts of a removal -/

section
variable (request : Request) (turns : Nat) (poolId id privateIp : String)

def explicitlyDeleted (managed : Option VolumeAttachment) : Option String :=
  if managed.any fun attachment => attachment.isVolumeCreatedDuringLaunch == some true then none
  else managed.map (·.volumeId)

/-- What a removal does once the record is in the journal. -/
def removeRecorded (managed : Option VolumeAttachment) (pendingRecord : Option Record) :
    Prog resizeSig CallError (Option Record) :=
  (detachInstanceFromPoolIfNeeded turns request.compartmentId poolId id).bind fun _ =>
    (terminateInstanceAndDeleteLaunchVolumes request turns id
      (some (managed.any fun attachment => attachment.isVolumeCreatedDuringLaunch == some true))).bind fun _ =>
        match pendingRecord with
        | none => .ret none
        | some record => (deleteManagedLocalBlockVolume record.volumeId turns false).bind fun _ => .ret (some record)

theorem removeInstancePoolMember_eq : removeInstancePoolMember request turns poolId id privateIp =
    (getExclusiveManagedLocalBlockVolumeAttachment request id).bind fun managed =>
      (recordPendingVolume request poolId id privateIp (explicitlyDeleted managed)).bind
        (removeRecorded request turns poolId id managed) := rfl

theorem explicitlyDeleted_some {managed : VolumeAttachment} (h : managed.isVolumeCreatedDuringLaunch ≠ some true) :
    explicitlyDeleted (some managed) = some managed.volumeId := by
  have hlaunch : (managed.isVolumeCreatedDuringLaunch == some true) = false := beq_eq_false_iff_ne.mpr h
  rw [explicitlyDeleted, Option.any_some, hlaunch, if_neg Bool.false_ne_true, Option.map_some]

theorem TerminatesOnly.noFile {allowed : String → Bool → Prop} {o : ResizeCall} (h : TerminatesOnly allowed o) :
    NoFile o := by
  cases o <;> first | exact h.elim | trivial

theorem RemovalCall.noFile {o : ResizeCall} (h : RemovalCall o) : NoFile o := by
  cases o <;> first | exact h.elim | trivial

theorem calls_getExclusiveManaged_noFile : (getExclusiveManagedLocalBlockVolumeAttachment request id).Calls NoFile :=
  (@calls_getExclusiveManaged (fun _ _ => False) request id).mono fun _ => TerminatesOnly.noFile

theorem calls_removeRecorded (managed : Option VolumeAttachment) (pendingRecord : Option Record) :
    (removeRecorded request turns poolId id managed pendingRecord).Calls NoFile := by
  have hdetach := (calls_detachInstanceFromPoolIfNeeded turns request.compartmentId poolId id).mono
    fun _ => RemovalCall.noFile
  refine hdetach.bind fun _ => Calls.bind ?_ fun _ => ?_
  · exact (@calls_terminateInstanceAndDeleteLaunchVolumes (fun _ _ => True) request turns id (fun _ => trivial) _).mono
      fun _ => TerminatesOnly.noFile
  · split
    · trivial
    · exact (calls_deleteManagedLocalBlockVolume trivial trivial turns false).bind fun _ => calls_ret ..

def BuildCall : ResizeCall → Prop
  | .getInstance _ | .getInstancePool _ | .getVolume _ => True
  | _ => False

theorem calls_buildPendingRecord (volumeId : String) :
    (buildPendingRecord request poolId id privateIp volumeId).Calls BuildCall := by
  refine Calls.bind (calls_perform trivial) fun found => ?_
  split
  · trivial
  · split
    · trivial
    · refine Calls.bind (calls_perform trivial) fun pool => ?_
      split
      · trivial
      · refine Calls.bind (calls_perform trivial) fun volume => ?_
        split
        · trivial
        · split <;> trivial

/-- What is built is a record of the volume and the instance. -/
theorem wp_buildPendingRecord_fields (volumeId : String) :
    wp anyAnswer (buildPendingRecord request poolId id privateIp volumeId)
      ⟨fun record _ => record.volumeId = volumeId ∧ record.instanceId = id, fun _ _ => True, fun _ => True⟩ () := by
  refine wp_perform_seq trivial (fun found w₁ _ => ?_) fun _ _ _ => trivial
  split
  · trivial
  · split
    · trivial
    · refine wp_perform_seq trivial (fun pool w₂ _ => ?_) fun _ _ _ => trivial
      split
      · trivial
      · refine wp_perform_seq trivial (fun volume w₃ _ => ?_) fun _ _ _ => trivial
        split
        · trivial
        · rename_i record hrecord
          split
          · trivial
          · have hfields := fields_of_validateRecord hrecord
            refine ⟨volumeId_of_newFields hfields, ?_⟩
            rw [Record.instanceId, Record.text, hfields]
            rfl

end

/-! ## What a removal leaves -/

section
variable {request : Request} {turns : Nat} {poolId id privateIp volumeId : String} {d d' : PendingDisk}

theorem eq_of_noFile {α : Type} {p : Prog resizeSig CallError α} {out : Outcome CallError α}
    {events : List (Event resizeSig CallError)} (h : Trace p out events) (hp : p.Calls NoFile)
    (hd : Follows onDisk d events d') : d' = d := by
  have hkept := (h.exec hd).of_wp (keeps_of_noFile hp d d rfl)
  cases out <;> exact hkept

theorem BuildCall.noFile {o : ResizeCall} (h : BuildCall o) : NoFile o := by
  cases o <;> first | exact h.elim | trivial

theorem keeps_to_grown {α : Type} {p : Prog resizeSig CallError α} (hp : p.Calls NoFile) {d₁ : PendingDisk}
    (h : Grown d d₁) : wp onDisk p ⟨fun _ => Grown d, fun _ => Grown d, Grown d⟩ d₁ :=
  wp_mono (keeps_of_noFile hp d₁ d₁ rfl) (fun _ _ hd => hd ▸ h) (fun _ _ hd => hd ▸ h) fun _ hd => hd ▸ h

theorem recordPendingVolume_spec (explicitlyDeleted : Option String) (d : PendingDisk) :
    wp onDisk (recordPendingVolume request poolId id privateIp explicitlyDeleted)
      ⟨fun _ => Grown d, fun _ => Grown d, Grown d⟩ d := by
  have hsame : Grown d d := .inl (SameNamed.refl d)
  cases explicitlyDeleted with
  | none => exact hsame
  | some volumeId =>
    have hbuild := (calls_buildPendingRecord request poolId id privateIp volumeId).mono fun _ => BuildCall.noFile
    refine wp_seq (R := fun _ d₁ => d₁ = d)
      (wp_mono (keeps_of_noFile hbuild d d rfl) (fun _ _ h => h) (fun _ _ h => h ▸ hsame) fun _ h => h ▸ hsame)
      fun record d₁ hd₁ => ?_
    subst hd₁
    refine wp_seq (R := fun _ => Grown d₁) ?_ fun _ _ h => h
    rw [wp_onFiles]
    refine wp_mono (rememberPending_spec record d₁) ?_ ?_ ?_
    · intro _ d₂ h
      exact .inr ⟨record, h⟩
    · intro _ d₂ h
      exact h.imp_right fun h => ⟨record, h⟩
    · intro d₂ h
      exact h.imp_right fun h => ⟨record, h⟩

/-- **A removal leaves the old journal or adds a record.** -/
theorem removeInstancePoolMember_spec (d : PendingDisk) :
    wp onDisk (removeInstancePoolMember request turns poolId id privateIp)
      ⟨fun _ => Grown d, fun _ => Grown d, Grown d⟩ d := by
  have hsame : Grown d d := .inl (SameNamed.refl d)
  rw [removeInstancePoolMember_eq]
  refine wp_seq (R := fun _ d₁ => d₁ = d) ?_ fun managed d₁ hd₁ => ?_
  · exact wp_mono (keeps_of_noFile (calls_getExclusiveManaged_noFile request id) d d rfl) (fun _ _ h => h)
      (fun _ _ h => h ▸ hsame) fun _ h => h ▸ hsame
  · subst hd₁
    refine wp_seq (recordPendingVolume_spec (explicitlyDeleted managed) d₁) fun pendingRecord d₂ hd₂ => ?_
    exact keeps_to_grown (calls_removeRecorded request turns poolId id managed pendingRecord) hd₂

/-- The volume that is recorded is in the journal, and what follows leaves it there. -/
theorem journaled_of_recorded {managed : Option VolumeAttachment} {out : Outcome CallError (Option Record)}
    {pendingRecord : Option Record} {first noted later : List (Event resizeSig CallError)}
    (hfirst : Trace (getExclusiveManagedLocalBlockVolumeAttachment request id) (.done managed) first)
    (hnoted : Trace (recordPendingVolume request poolId id privateIp (some volumeId)) (.done pendingRecord) noted)
    (hlater : Trace (removeRecorded request turns poolId id managed pendingRecord) out later)
    (hd : Follows onDisk d (first ++ (noted ++ later)) d') : Journaled d' id volumeId := by
  obtain ⟨d₁, hd₁, hd⟩ := follows_append.mp hd
  obtain ⟨d₃, hd₃, hd'⟩ := follows_append.mp hd
  obtain rfl := eq_of_noFile hfirst (calls_getExclusiveManaged_noFile request id) hd₁
  obtain rfl := eq_of_noFile hlater (calls_removeRecorded request turns poolId id managed pendingRecord) hd'
  obtain ⟨record, built, rest, hbuilt, hrest, rfl⟩ | ⟨e, -, hout⟩ | ⟨-, hout⟩ := trace_bind.mp hnoted
  · obtain ⟨_, remembered, last, hremembered, hret, rfl⟩ | ⟨e, -, hout⟩ | ⟨-, hout⟩ := trace_bind.mp hrest
    · obtain ⟨-, rfl⟩ := trace_ret.mp hret
      rw [List.append_nil] at hd₃
      obtain ⟨d₂, hd₂, hremember⟩ := follows_append.mp hd₃
      have hcalls := (calls_buildPendingRecord request poolId id privateIp volumeId).mono fun _ => BuildCall.noFile
      obtain rfl := eq_of_noFile hbuilt hcalls hd₂
      have hspec : Remembered d₂ record d' :=
        (hremembered.exec hremember).of_wp ((wp_onFiles _ _ _).mpr (rememberPending_spec record d₂))
      obtain ⟨pending, existing, hpending, hstored, hsame⟩ := stored_of_remembered hspec
      have hfields : record.volumeId = volumeId ∧ record.instanceId = id :=
        (hbuilt.exec (follows_anyAnswer built)).of_wp (wp_buildPendingRecord_fields request poolId id privateIp volumeId)
      exact ⟨pending, existing, hpending, List.mem_of_find?_eq_some hstored, (hsame.text _).trans hfields.1,
        (hsame.text _).trans hfields.2⟩
    · cases hout
    · cases hout
  · cases hout
  · cases hout

/-- **Where the removal has begun, the record was written.** -/
theorem recorded_of_begins {managed : VolumeAttachment} {out : Outcome CallError (Option Record)}
    {first rest : List (Event resizeSig CallError)}
    (hfirst : Trace (getExclusiveManagedLocalBlockVolumeAttachment request id) (.done (some managed)) first)
    (hrest : Trace ((recordPendingVolume request poolId id privateIp (some volumeId)).bind
      (removeRecorded request turns poolId id (some managed))) out rest)
    (hbegins : ∃ event ∈ first ++ rest, beginsRemoval id event.1 = true) :
    ∃ pendingRecord noted later, rest = noted ++ later ∧
      Trace (recordPendingVolume request poolId id privateIp (some volumeId)) (.done pendingRecord) noted ∧
        Trace (removeRecorded request turns poolId id (some managed) pendingRecord) out later := by
  have hquiet : (recordPendingVolume request poolId id privateIp (some volumeId)).Calls
      fun o => beginsRemoval id o = false := by
    have hbuild : (buildPendingRecord request poolId id privateIp volumeId).Calls fun o => beginsRemoval id o = false :=
      (calls_buildPendingRecord request poolId id privateIp volumeId).mono fun o ho => by
        cases o <;> first | exact ho.elim | rfl
    exact hbuild.bind fun record => (calls_onFiles (fun _ => rfl) (rememberPending record)).bind fun _ => calls_ret ..
  have hlook : (getExclusiveManagedLocalBlockVolumeAttachment request id).Calls fun o => beginsRemoval id o = false :=
    (@calls_getExclusiveManaged (fun _ _ => False) request id).mono fun o ho => by
      cases o <;> first | exact ho.elim | rfl
  obtain ⟨event, hmem, hbegins⟩ := hbegins
  have hmem : event ∈ rest := by
    rcases List.mem_append.mp hmem with hmem | hmem
    · exact absurd (hfirst.calls hlook event hmem) (by simp [hbegins])
    · exact hmem
  obtain ⟨pendingRecord, noted, later, hnoted, hlater, rfl⟩ | ⟨e, hnoted, -⟩ | ⟨hnoted, -⟩ := trace_bind.mp hrest
  · exact ⟨pendingRecord, noted, later, rfl, hnoted, hlater⟩
  · exact absurd (hnoted.calls hquiet event hmem) (by simp [hbegins])
  · exact absurd (hnoted.calls hquiet event hmem) (by simp [hbegins])

end

/-! ## What a retry has seen -/

section
variable {request : Request} {turns : Nat}

/-- One of the calls so far has shown that the volume is not there. -/
def SeenAbsent (volumeId : String) (w : Seen) : Prop := ∃ event ∈ w.2, showsAbsent volumeId event.1 event.2 = true

/-- The postcondition of a program that returns once the volume is not there. -/
def untilAbsent {α : Type} (volumeId : String) : Post Seen CallError α :=
  ⟨fun _ => SeenAbsent volumeId, fun _ _ => True, fun _ => True⟩

theorem SeenAbsent.mono {volumeId : String} {w w' : Seen} (h : SeenAbsent volumeId w) (hlog : w.2 <+: w'.2) :
    SeenAbsent volumeId w' := by
  obtain ⟨event, hmem, habsent⟩ := h
  exact ⟨event, hlog.subset hmem, habsent⟩

theorem seenAbsent_of_step {volumeId : String} {w w' : Seen} {o : ResizeCall} {answer : Except CallError o.Ans}
    (hstep : seen w o answer w') (habsent : showsAbsent volumeId o answer = true) : SeenAbsent volumeId w' :=
  ⟨_, mem_of_step hstep, habsent⟩

theorem wp_deleteTurn_absent {id : String} {deleteRequested : Bool} {next : Bool → Prog resizeSig CallError Unit}
    (hnext : ∀ requested w, wp seen (next requested) (untilAbsent id) w) (w : Seen) :
    wp seen (deleteTurn id deleteRequested next) (untilAbsent id) w := by
  refine wp_perform_attempt_seq trivial fun answer w₁ hget => ?_
  split
  · exact seenAbsent_of_step hget (beq_self_eq_true id)
  · trivial
  · split
    · rename_i hterminated
      apply seenAbsent_of_step hget
      show (id == id && _ == "TERMINATED") = true
      rw [hterminated, beq_self_eq_true, beq_self_eq_true, Bool.and_self]
    · split
      · exact hnext true w₁
      · refine wp_perform_attempt_seq trivial fun answer w₂ hdelete => ?_
        split
        · exact hnext true w₂
        · exact seenAbsent_of_step hdelete (beq_self_eq_true id)
        · exact hnext false w₂
        · trivial

/-- The deletion of a volume returns once the volume is not there. -/
theorem wp_deleteManaged_absent (id : String) (turns : Nat) (deleteRequested : Bool) (w : Seen) :
    wp seen (deleteManagedLocalBlockVolume id turns deleteRequested) (untilAbsent id) w := by
  induction turns generalizing deleteRequested w with
  | zero =>
    rw [deleteManagedLocalBlockVolume]
    refine wp_deleteTurn_absent (fun _ _ => ?_) w
    exact trivial
  | succ turns ih => exact wp_deleteTurn_absent ih w

theorem wp_deletePendingVolume_absent (record : Record) (w : Seen) :
    wp seen (deletePendingVolume request turns record) (untilAbsent record.volumeId) w := by
  refine wp_perform_attempt_seq trivial fun answer w₁ hget => ?_
  split
  · exact seenAbsent_of_step hget (beq_self_eq_true record.volumeId)
  · trivial
  · split
    · trivial
    · exact wp_deleteManaged_absent record.volumeId turns false w₁

/-- The turn of a record adds it to what is ready once its volume is not there. -/
theorem wp_retryRecord_absent (resumePoolMembers : Bool) (readyDeletions : List Record) (record : Record) (w : Seen) :
    wp seen (retryRecord request turns resumePoolMembers readyDeletions record)
      ⟨fun ready w' => ready = readyDeletions ++ [record] ∧ SeenAbsent record.volumeId w',
        fun _ _ => True, fun _ => True⟩ w := by
  unfold retryRecord
  split
  · trivial
  · refine wp_seq (wp_true seen _ w) fun _ w₁ _ => ?_
    refine wp_seq (wp_deletePendingVolume_absent record w₁) fun _ w₂ habsent => ?_
    exact ⟨rfl, habsent⟩

theorem wp_retryPending_absent (resumePoolMembers : Bool) (w : Seen) :
    wp seen (retryPending request turns resumePoolMembers)
      ⟨fun ready w' => ∀ record ∈ ready, SeenAbsent record.volumeId w', fun _ _ => True, fun _ => True⟩ w := by
  refine wp_seq (wp_true seen _ w) fun pendingDeletions w₁ _ => ?_
  refine wp_forEach (fun _ ready w' => ∀ record ∈ ready, SeenAbsent record.volumeId w') (fun _ _ h => h) ?_ ?_
  · intro record _ ready w₂ hready
    refine wp_mono (wp_logged_trace (wp_retryRecord_absent resumePoolMembers ready record w₂)) ?_ (fun _ _ _ => trivial)
      fun _ _ => trivial
    intro ready' w₃ ⟨⟨hready', habsent⟩, events, hlog, _⟩ other hother
    rw [hready'] at hother
    rcases List.mem_append.mp hother with hother | hother
    · exact (hready other hother).mono ⟨events, hlog.symm⟩
    · rw [List.mem_singleton.mp hother]
      exact habsent
  · exact fun _ hnone => absurd hnone List.not_mem_nil

/-- **What a retry returns was seen to be absent.** -/
theorem observed_of_returned {resumePoolMembers : Bool} {returned : List Record} {record : Record}
    {events : List (Event resizeSig CallError)}
    (h : Trace (retryPending request turns resumePoolMembers) (.done returned) events) (hmem : record ∈ returned) :
    ∃ event ∈ events, showsAbsent record.volumeId event.1 event.2 = true := by
  have hspec := h.of_wp (follows_anyAnswer events) (wp_retryPending_absent resumePoolMembers ((), []))
  exact hspec record hmem

end

/-! ## What finalizing leaves -/

section
variable {request : Request} {readyDeletions : List Record} {pool : PoolState} {d d' : PendingDisk}
  {events : List (Event resizeSig CallError)} {pending : List Record} {record : Record}

/-- The load only looks. -/
theorem follows_load {out : Outcome CallError (List Record)} (h : Trace (onFiles loadPending) out events)
    (hd : Follows onDisk d events d') : d' = d ∧ ∀ found, out = .done found → journalOf d = some found := by
  have hspec := (h.exec hd).of_wp ((wp_onFiles _ _ _).mpr (loadPending_spec d))
  cases out with
  | done found =>
    refine ⟨hspec.1, fun other hother => ?_⟩
    cases hother
    exact hspec.2
  | raised e => exact ⟨hspec, fun _ hother => by cases hother⟩
  | cut => exact ⟨hspec, fun _ hother => by cases hother⟩

/-- A record that is not ready stays, where the others are written. -/
theorem stillPending_or_ready (hwritten : Written d (remaining pending readyDeletions) d')
    (hpending : journalOf d = some pending) (hmem : record ∈ pending)
    (hready : ∀ ready ∈ readyDeletions, IsPending request pending ready) :
    StillPending d' record ∨ ∃ ready ∈ readyDeletions, record.Same ready := by
  have hdistinct := nodup_of_journalOf hpending
  by_cases hid : record.volumeId ∈ readyDeletions.map (·.volumeId)
  · obtain ⟨ready, hin, hsame⟩ := List.mem_map.mp hid
    obtain ⟨-, stored, hstored, heq⟩ := hready ready hin
    have hvolume := beq_iff_eq.mp (List.find?_some (p := fun r : Record => r.volumeId == ready.volumeId) hstored)
    have hrecord : stored = record :=
      eq_of_nodup hdistinct (List.mem_of_find?_eq_some hstored) hmem (hvolume.trans hsame)
    exact .inr ⟨ready, hin, hrecord ▸ heq⟩
  · have hstays : record ∈ remaining pending readyDeletions := List.mem_filter.mpr ⟨hmem, by simpa using hid⟩
    exact .inl (stillPending_of_written hwritten (nodup_remaining hdistinct readyDeletions) hstays)

/-- **A record leaves in a run that finalizes it.** -/
theorem stillPending_or_finalizes {out : Outcome CallError Nat}
    (h : Trace (finalizePending request readyDeletions pool) out events) (hd : Follows onDisk d events d')
    (hpending : journalOf d = some pending) (hmem : record ∈ pending) :
    StillPending d' record ∨ (Run.finalize request readyDeletions pool out events).Finalizes d record := by
  have hkept : StillPending d record := stillPending_of_mem hpending hmem
  unfold finalizePending at h
  split at h
  · obtain ⟨-, rfl⟩ := trace_ret.mp h
    cases hd
    exact .inl hkept
  · obtain ⟨found, load, rest, hload, hbody, rfl⟩ | ⟨e, hload, -⟩ | ⟨hload, -⟩ := trace_bind.mp h
    · obtain ⟨d₁, hd₁, hafter⟩ := follows_append.mp hd
      obtain ⟨rfl, hfound⟩ := follows_load hload hd₁
      obtain rfl := Option.some.inj (hpending.symm.trans (hfound found rfl))
      split at hbody
      · obtain ⟨-, rfl⟩ := trace_throw.mp hbody
        cases hafter
        exact .inl hkept
      · rename_i size hchecked
        have hcalls : (finalizeDns request readyDeletions pool).Calls NoFile :=
          calls_finalizeDns (fun _ _ => trivial) (fun _ _ => trivial) request readyDeletions pool
        obtain ⟨_, dns, last, hdns, hupdating, rfl⟩ | ⟨e, hdns, -⟩ | ⟨hdns, -⟩ := trace_bind.mp hbody
        · obtain ⟨d₂, hd₂, hupdated⟩ := follows_append.mp hafter
          obtain rfl := eq_of_noFile hdns hcalls hd₂
          obtain ⟨_, written, rfl, hwriting⟩ | ⟨e, -, rfl⟩ | ⟨-, rfl⟩ := trace_perform_bind.mp hupdating
          · cases hupdated with
            | @cons _ _ _ _ d₃ _ hupdate hwrites =>
              have hd₃ : d₃ = d₂ := hupdate
              subst hd₃
              have hspec : wp onDisk ((onFiles (writePending (remaining pending readyDeletions))).bind
                  fun _ => .ret readyDeletions.length)
                  ⟨fun _ d' => SameNamed d₃ d' ∨ Written d₃ (remaining pending readyDeletions) d',
                    fun _ d' => SameNamed d₃ d' ∨ Written d₃ (remaining pending readyDeletions) d',
                    fun d' => SameNamed d₃ d' ∨ Written d₃ (remaining pending readyDeletions) d'⟩ d₃ := by
                refine wp_seq (R := fun _ => Written d₃ (remaining pending readyDeletions)) ?_ fun _ _ h => .inr h
                rw [wp_onFiles]
                exact writePending_spec _ d₃
              have hleft : SameNamed d₃ d' ∨ Written d₃ (remaining pending readyDeletions) d' := by
                have hwrite := (hwriting.exec hwrites).of_wp hspec
                cases out <;> exact hwrite
              rcases hleft with hsame | hwritten
              · exact .inl (stillPending_of_sameNamed hsame hpending hmem)
              · have hready := (checkFinalize_eq_ok.mp hchecked).1
                refine (stillPending_or_ready hwritten hpending hmem hready).imp_right fun hin => ⟨hin, ?_⟩
                refine ⟨pending, size, load, dns, written, (List.append_assoc ..).symm, hload, hchecked, hdns, ?_⟩
                exact follows_append.mpr ⟨d₃, follows_append.mpr ⟨d₃, hd₁, hd₂⟩, .cons hupdate .nil⟩
          · cases hupdated with
            | @cons _ _ _ _ d₃ _ hupdate hwrites =>
              obtain rfl : d₃ = d₂ := hupdate
              cases hwrites
              exact .inl hkept
          · cases hupdated
            exact .inl hkept
        · obtain rfl := eq_of_noFile hdns hcalls hafter
          exact .inl hkept
        · obtain rfl := eq_of_noFile hdns hcalls hafter
          exact .inl hkept
    · obtain ⟨rfl, -⟩ := follows_load hload hd
      exact .inl hkept
    · obtain ⟨rfl, -⟩ := follows_load hload hd
      exact .inl hkept

end

/-! ## All runs -/

section
variable {d d' : PendingDisk} {runs : List Run}

/-- A removal that was begun, or whose record was written, has left the record in the journal. -/
theorem journaled_of_ran {run : Run} {id volumeId : String} (h : Ran d run d') (hrecognizes : run.Recognizes id volumeId)
    (hrecorded : run.Begins id ∨ run.Notes volumeId) : Journaled d' id volumeId := by
  cases run with
  | removal request turns poolId other privateIp out events =>
    obtain ⟨rfl, managed, first, rest, rfl, hfirst, hcreated, rfl⟩ := hrecognizes
    obtain ⟨htraced, hd⟩ := h
    have hrest : Trace ((recordPendingVolume request poolId other privateIp (explicitlyDeleted (some managed))).bind
        (removeRecorded request turns poolId other (some managed))) out rest := hfirst.rest htraced
    rw [explicitlyDeleted_some hcreated] at hrest
    have hnoted : ∃ pendingRecord noted later, rest = noted ++ later ∧
        Trace (recordPendingVolume request poolId other privateIp (some managed.volumeId)) (.done pendingRecord) noted ∧
          Trace (removeRecorded request turns poolId other (some managed) pendingRecord) out later := by
      rcases hrecorded with hbegins | ⟨found, record, first', noted, later, hevents, hfirst', hnoted⟩
      · exact recorded_of_begins hfirst hrest hbegins
      · rw [List.append_assoc] at hevents
        obtain ⟨-, rfl⟩ := hfirst.same_done hfirst' hevents
        obtain rfl := List.append_cancel_left hevents
        exact ⟨some record, noted, later, rfl, hnoted, hnoted.rest hrest⟩
    obtain ⟨pendingRecord, noted, later, rfl, hnoted, hlater⟩ := hnoted
    exact journaled_of_recorded hfirst hnoted hlater hd
  | retry | finalize => exact hrecognizes.elim

/-- **A record leaves only in a run that finalizes it.** -/
theorem left_of_ran {run : Run} (h : Ran d run d') {pending : List Record} {record : Record}
    (hpending : journalOf d = some pending) (hmem : record ∈ pending) :
    StillPending d' record ∨ run.Finalizes d record := by
  obtain ⟨htraced, hd⟩ := h
  cases run with
  | removal request turns poolId id privateIp out events =>
    have hspec := (htraced.exec hd).of_wp (removeInstancePoolMember_spec d)
    have hgrown : Grown d d' := by cases out <;> exact hspec
    exact .inl (hgrown.stillPending hpending hmem)
  | retry request turns resumePoolMembers out events =>
    have hspec := (htraced.exec hd).of_wp (keeps_retryPending request turns resumePoolMembers d d rfl)
    have hsame : d' = d := by cases out <;> exact hspec
    exact .inl (stillPending_of_mem (hsame ▸ hpending) hmem)
  | finalize request readyDeletions pool out events => exact stillPending_or_finalizes htraced hd hpending hmem

theorem Journaled.congr {id volumeId : String} (h : Journaled d id volumeId) (hsame : d' journalFile = d journalFile) :
    Journaled d' id volumeId := by
  obtain ⟨pending, record, hpending, hrecord⟩ := h
  exact ⟨pending, record, (journalOf_congr hsame).trans hpending, hrecord⟩

theorem Runs.traced (h : Runs d runs d') : ∀ run ∈ runs, run.Traced := by
  induction h with
  | start => exact fun _ hnone => absurd hnone List.not_mem_nil
  | run _ hrun ih =>
    intro run hmem
    rcases List.mem_append.mp hmem with hmem | hmem
    · exact ih run hmem
    · rw [List.mem_singleton.mp hmem]
      exact hrun.1
  | elsewhere _ _ ih => exact ih

theorem ReadyAreReturned.before {run : Run} (h : ReadyAreReturned (runs ++ [run])) : ReadyAreReturned runs := by
  intro before request readyDeletions pool out events after hruns
  refine h before request readyDeletions pool out events (after ++ [run]) ?_
  rw [hruns, List.append_assoc, List.cons_append]

/-- What a retry returned after a removal was seen to be absent after it. -/
theorem observed_of_returnedLast (htraced : ∀ run ∈ runs, run.Traced) {before after : List Run} {run : Run} {record : Record}
    (hruns : runs = before ++ run :: after) (hremoval : run.IsRemoval) (h : ReturnedLast runs record) :
    ∃ later ∈ after, later.Observes record.volumeId := by
  obtain ⟨earlier, request, turns, resumePoolMembers, returned, events, rest, hsplit, hmem, hquiet⟩ := h
  have hretry : Trace (retryPending request turns resumePoolMembers) (.done returned) events :=
    htraced (.retry request turns resumePoolMembers (.done returned) events)
      (by rw [hsplit]; exact List.mem_append_right _ List.mem_cons_self)
  have hobserves : (Run.retry request turns resumePoolMembers (.done returned) events).Observes record.volumeId :=
    observed_of_returned hretry hmem
  have hsame : before ++ run :: after = earlier ++ .retry request turns resumePoolMembers (.done returned) events :: rest :=
    hruns.symm.trans hsplit
  obtain ⟨middle, hearlier, hafter⟩ | ⟨middle, hbefore, hrest⟩ := List.append_eq_append_iff.mp hsame
  · cases middle with
    | nil =>
      obtain ⟨rfl, -⟩ := List.cons_eq_cons.mp hafter
      exact hremoval.elim
    | cons other middle =>
      obtain ⟨-, rfl⟩ := List.cons_eq_cons.mp hafter
      exact ⟨_, List.mem_append_right _ List.mem_cons_self, hobserves⟩
  · cases middle with
    | nil =>
      obtain ⟨rfl, -⟩ := List.cons_eq_cons.mp hrest
      exact hremoval.elim
    | cons other middle =>
      obtain ⟨-, rfl⟩ := List.cons_eq_cons.mp hrest
      exact absurd hremoval (hquiet run (List.mem_append_right _ List.mem_cons_self))

theorem Run.Recognizes.isRemoval {run : Run} {id volumeId : String} (h : run.Recognizes id volumeId) : run.IsRemoval := by
  cases run with
  | removal => trivial
  | retry | finalize => exact h.elim

/-- **Once it is recorded, a volume is in the journal** or was seen to be absent. -/
theorem recorded_of_runs (h : Runs d runs d') (hready : ReadyAreReturned runs) {before after : List Run} {run : Run}
    {id volumeId : String} (hruns : runs = before ++ run :: after) (hrecognizes : run.Recognizes id volumeId)
    (hrecorded : run.Begins id ∨ run.Notes volumeId) :
    Journaled d' id volumeId ∨ ∃ later ∈ after, later.Observes volumeId := by
  induction h generalizing after with
  | start => exact absurd hruns (by simp)
  | @run runs last d₁ d₂ h hlast ih =>
    obtain rfl | ⟨front, other, rfl⟩ := List.eq_nil_or_concat after
    · obtain ⟨rfl, hsame⟩ := List.append_inj' hruns rfl
      obtain rfl := List.singleton_inj.mp hsame
      exact .inl (journaled_of_ran hlast hrecognizes hrecorded)
    · rw [List.concat_eq_append, ← List.cons_append, ← List.append_assoc] at hruns
      obtain ⟨hfront, hsame⟩ := List.append_inj' hruns rfl
      obtain rfl := List.singleton_inj.mp hsame
      obtain ⟨pending, record, hpending, hmem, hvolume, hid⟩ | ⟨later, hlater, hobserves⟩ := ih hready.before hfront
      · obtain hkept | hfinalizes := left_of_ran hlast hpending hmem
        · exact .inl (hkept.journaled hvolume hid)
        · refine .inr ?_
          cases last with
          | removal | retry => exact hfinalizes.elim
          | finalize request readyDeletions pool out events =>
            obtain ⟨⟨ready, hin, hsame⟩, -⟩ := hfinalizes
            have hreturned := hready runs request readyDeletions pool out events [] rfl ready hin
            obtain ⟨later, hlater, hobserves⟩ := observed_of_returnedLast h.traced hfront hrecognizes.isRemoval hreturned
            have hsameVolume : ready.volumeId = volumeId := (hsame.text "volume_id").symm.trans hvolume
            exact ⟨later, by simp [hlater], hsameVolume ▸ hobserves⟩
      · exact .inr ⟨later, by simp [hlater], hobserves⟩
  | elsewhere _ hsame ih => exact (ih hready hruns).imp_left fun hjournaled => hjournaled.congr hsame

/-- **The journal is written ahead.** Wherever the runs before have ended, whatever raised: the volume of a removal that
has begun is in the journal, and a record leaves it only where it is finalized. -/
theorem journal_is_written_ahead (h : Runs d runs d') : WrittenAhead runs d' where
  recorded hready _ _ _ _ _ hruns hrecognizes hrecorded := recorded_of_runs h hready hruns hrecognizes hrecorded
  left _ _ hran _ _ hpending hmem := left_of_ran hran hpending hmem

end

/-! ## Where the journal is behind -/

/-- Whatever is finalized, and whichever run begins: the record of a volume that a removal recognized is in the journal once
its instance is being removed, unless the volume was seen to be absent. -/
def AlwaysAhead (runs : List Run) (d : PendingDisk) : Prop :=
  ∀ before run after id volumeId, runs = before ++ run :: after → run.Recognizes id volumeId →
    (∃ other ∈ run :: after, other.Begins id) →
      Journaled d id volumeId ∨ ∃ other ∈ run :: after, other.Observes volumeId

/-- The node of the cluster `hpc`, with a scratch volume. -/
def scratchInstance : Instance :=
  { nodeInstance "RUNNING" with
    freeformTags := [("parent_cluster", "hpc"), (tagEnabled, "true"), (tagSize, "50"), (tagVpus, "10"),
      (tagMount, "/scratch")] }

def scratchVolumeAttachment : VolumeAttachment where
  device := some localBlockVolumeDevice
  lifecycleState := "ATTACHED"
  attachmentType := some "iscsi"
  instanceId := "i"
  displayName := some "hpc-local-scratch-attachment"
  isVolumeCreatedDuringLaunch := some false
  volumeId := "v"
  ipv4 := some "169.254.2.2"
  port := some 3260
  iqn := some "iqn.2015-12.com.oracleiaas:v"

/-- OCI has the node in its pool with these attachments and terminates no instance. The file system may be full. -/
def scratchOutside (attachments : List VolumeAttachment) (full : Bool) (d : PendingDisk) :
    (o : ResizeCall) → Except CallError o.Ans × PendingDisk
  | .file (.exists path) => (.ok (d path).isSome, d)
  | .file (.read path) => (shown (d path), d)
  | .file .mkstemp =>
      if full || (d (.temp 0)).isSome then (.error (.os false "No space left on device"), d)
      else (.ok (.temp 0), Function.update d (.temp 0) (some none))
  | .file (.write path content) => (.ok (), Function.update d path (some content))
  | .file (.touch _ _) => (.ok (), d)
  | .file (.replace source target) =>
      match d source with
      | some content => (.ok (), Function.update (Function.update d target (some content)) source none)
      | none => (.error (.os false "No such file or directory"), d)
  | .file (.unlink path) => (.ok (d path).isSome, Function.update d path none)
  | .getInstance _ => (.ok scratchInstance, d)
  | .listVolumeAttachments .. => (.ok attachments, d)
  | .poll .. => (.ok ⟨attachments, fun _ => .ok nodeVolume.toVolume⟩, d)
  | .getInstancePool _ => (.ok ⟨"p", "c", 2⟩, d)
  | .getVolume _ => (.ok nodeVolume, d)
  | .listInstancePoolInstances .. => (.ok ["i"], d)
  | .detachInstance .. => (.ok (), d)
  | .updateTFState _ => (.ok (), d)
  | _ => (.error (.service 500 "InternalServerError"), d)

theorem scratchOutside_answers (attachments : List VolumeAttachment) (full : Bool) (d : PendingDisk) (o : ResizeCall) :
    onDisk d o (scratchOutside attachments full d o).1 (scratchOutside attachments full d o).2 := by
  cases o with
  | file o =>
    cases o with
    | «exists» path => exact ⟨rfl, rfl⟩
    | read path =>
      show step d (.read path) (shown (d path)) d
      cases hfile : d path with
      | none => exact rfl
      | some content => exact ⟨hfile, rfl⟩
    | mkstemp =>
      unfold scratchOutside
      dsimp only
      split
      · exact rfl
      · rename_i hfree
        refine ⟨?_, 0, none, rfl, rfl⟩
        simpa using (not_or.mp (by simpa using hfree : ¬ (full = true ∨ (d (.temp 0)).isSome = true))).2
    | write path content => exact rfl
    | touch operation path => exact rfl
    | sameOwner path => exact rfl
    | replace source target =>
      unfold scratchOutside
      dsimp only
      cases hsource : d source with
      | none => exact rfl
      | some content => exact ⟨content, hsource, rfl⟩
    | unlink path => exact ⟨rfl, rfl⟩
  | _ => exact rfl

/-- OCI has neither the node nor its volume. -/
def goneOutside (d : PendingDisk) : (o : ResizeCall) → Except CallError o.Ans × PendingDisk
  | .getInstance _ => (.error (.service 404 "NotFound"), d)
  | .getVolume _ => (.error (.service 404 "NotFound"), d)
  | o => scratchOutside [] false d o

theorem goneOutside_answers (d : PendingDisk) (o : ResizeCall) : onDisk d o (goneOutside d o).1 (goneOutside d o).2 := by
  cases o with
  | getInstance | getVolume => exact rfl
  | _ => exact scratchOutside_answers [] false d _

def scratchRemoval : Prog resizeSig CallError (Option Record) := removeInstancePoolMember nodeRequest 0 "p" "i" "10.0.0.2"

def scratchRetry : Prog resizeSig CallError (List Record) := retryPending nodeRequest 0 false

/-- A finalization, once the node has left the pool. -/
def scratchFinalize (readyDeletions : List Record) : Prog resizeSig CallError Nat :=
  finalizePending nodeRequest readyDeletions ⟨some 1, some "p", none, none⟩

section
variable (attachments : List VolumeAttachment) (full : Bool) (readyDeletions : List Record) (d : PendingDisk)

def scratchRemovalRun : Run :=
  .removal nodeRequest 0 "p" "i" "10.0.0.2" (.ofExcept (scratchRemoval.run (scratchOutside attachments full) d).1)
    (scratchRemoval.runEvents (scratchOutside attachments full) d)

def afterRemoval : PendingDisk := (scratchRemoval.run (scratchOutside attachments full) d).2

theorem ran_removal : Ran d (scratchRemovalRun attachments full d) (afterRemoval attachments full d) :=
  ⟨@Trace.of_run resizeSig CallError _ PendingDisk (scratchOutside attachments full) scratchRemoval d,
    Follows.of_run (scratchOutside_answers attachments full) scratchRemoval d⟩

def scratchRetryRun : Run :=
  .retry nodeRequest 0 false (.ofExcept (scratchRetry.run goneOutside d).1) (scratchRetry.runEvents goneOutside d)

def afterRetry : PendingDisk := (scratchRetry.run goneOutside d).2

theorem ran_retry : Ran d (scratchRetryRun d) (afterRetry d) :=
  ⟨@Trace.of_run resizeSig CallError _ PendingDisk goneOutside scratchRetry d,
    Follows.of_run goneOutside_answers scratchRetry d⟩

def scratchFinalizeRun : Run :=
  .finalize nodeRequest readyDeletions ⟨some 1, some "p", none, none⟩
    (.ofExcept ((scratchFinalize readyDeletions).run goneOutside d).1)
    ((scratchFinalize readyDeletions).runEvents goneOutside d)

def afterFinalize : PendingDisk := ((scratchFinalize readyDeletions).run goneOutside d).2

theorem ran_finalize : Ran d (scratchFinalizeRun readyDeletions d) (afterFinalize readyDeletions d) :=
  ⟨@Trace.of_run resizeSig CallError _ PendingDisk goneOutside (scratchFinalize readyDeletions) d,
    Follows.of_run goneOutside_answers (scratchFinalize readyDeletions) d⟩

theorem recognizes_scratch : (scratchRemovalRun [scratchVolumeAttachment] full d).Recognizes "i" "v" := by
  have hmanaged : ((getExclusiveManagedLocalBlockVolumeAttachment nodeRequest "i").run
      (scratchOutside [scratchVolumeAttachment] full) d).1 = .ok (some scratchVolumeAttachment) := by rfl
  have htrace := @Trace.of_run resizeSig CallError _ PendingDisk (scratchOutside [scratchVolumeAttachment] full)
    (getExclusiveManagedLocalBlockVolumeAttachment nodeRequest "i") d
  rw [hmanaged] at htrace
  have hevents := Prog.runEvents_bind (f := fun managed =>
    (recordPendingVolume nodeRequest "p" "i" "10.0.0.2" (explicitlyDeleted managed)).bind
      (removeRecorded nodeRequest 0 "p" "i" managed)) hmanaged
  exact ⟨rfl, scratchVolumeAttachment, _, _, hevents, htrace, by decide, rfl⟩

theorem not_journaled (h : (d journalFile).isSome = false) (id volumeId : String) : ¬ Journaled d id volumeId := by
  intro ⟨pending, record, hpending, hmem, _⟩
  rw [journalOf, Option.isSome_eq_false_iff.mp h |> Option.isNone_iff_eq_none.mp] at hpending
  cases hpending
  exact List.not_mem_nil hmem

end

def noFiles : PendingDisk := fun _ => none

/-- The journal, once the removal of the node has begun. -/
def begunDisk : PendingDisk := afterRemoval [scratchVolumeAttachment] false noFiles

/-- The record is finalized, though no retry has returned it. -/
def earlyRuns : List Run :=
  [scratchRemovalRun [scratchVolumeAttachment] false noFiles, scratchFinalizeRun [nodeRecord] begunDisk]

/-- The journal cannot be written, and by the next removal the volume is no longer attached. -/
def shiftedRuns : List Run :=
  [scratchRemovalRun [scratchVolumeAttachment] true noFiles,
    scratchRemovalRun [] true (afterRemoval [scratchVolumeAttachment] true noFiles)]

/-- A recognized volume whose instance is being removed, with no journal left and nothing seen of the volume. -/
theorem not_alwaysAhead {runs rest : List Run} {first : Run} {d : PendingDisk} (hruns : runs = first :: rest)
    (hrecognizes : first.Recognizes "i" "v")
    (hbegins : runs.any (fun run => run.events.any fun event => beginsRemoval "i" event.1) = true)
    (habsent : runs.all (fun run => run.events.all fun event => !showsAbsent "v" event.1 event.2) = true)
    (hnone : (d journalFile).isSome = false) : ¬ AlwaysAhead runs d := by
  intro hahead
  obtain ⟨run, hrun, hbegins⟩ := List.any_eq_true.mp hbegins
  obtain ⟨event, hevent, hbegins⟩ := List.any_eq_true.mp hbegins
  obtain hjournaled | ⟨other, hother, seen, hseen, hshows⟩ :=
    hahead [] first rest "i" "v" hruns hrecognizes ⟨run, hruns ▸ hrun, event, hevent, hbegins⟩
  · exact not_journaled d hnone "i" "v" hjournaled
  · have hall := List.all_eq_true.mp (List.all_eq_true.mp habsent other (hruns ▸ hother)) seen hseen
    rw [hshows] at hall
    cases hall

/-- **The journal may be behind** where a record is finalized that no retry has returned, and where the volume is no longer
attached when a later removal begins. -/
theorem journal_may_be_behind :
    (∃ d, Runs noFiles earlyRuns d ∧ ¬ AlwaysAhead earlyRuns d) ∧
      ∃ d, Runs noFiles shiftedRuns d ∧ ReadyAreReturned shiftedRuns ∧ ¬ AlwaysAhead shiftedRuns d := by
  constructor
  · refine ⟨afterFinalize [nodeRecord] begunDisk, .run (.run .start (ran_removal _ _ _)) (ran_finalize _ _), ?_⟩
    exact not_alwaysAhead rfl (recognizes_scratch _ _) (by decide +kernel) (by decide +kernel) (by decide +kernel)
  · refine ⟨_, .run (.run .start (ran_removal _ _ _)) (ran_removal _ _ _), ?_, ?_⟩
    · intro before request readyDeletions pool out events after hruns
      have hmem : Run.finalize request readyDeletions pool out events ∈ shiftedRuns := by
        rw [hruns]
        exact List.mem_append_right _ List.mem_cons_self
      simp [shiftedRuns, scratchRemovalRun] at hmem
    · exact not_alwaysAhead rfl (recognizes_scratch _ _) (by decide +kernel) (by decide +kernel) (by decide +kernel)

/-- What the retry returns once the node and its volume are gone. -/
def goneRecords : List Record := ((scratchRetry.run goneOutside begunDisk).1.toOption).getD []

/-- A removal that raises, a retry and a finalization of what it returns. -/
def finishedRuns : List Run :=
  [scratchRemovalRun [scratchVolumeAttachment] false noFiles, scratchRetryRun begunDisk,
    scratchFinalizeRun goneRecords (afterRetry begunDisk)]

theorem readyAreReturned_finished : ReadyAreReturned finishedRuns := by
  intro before request readyDeletions pool out events after hruns record hmem
  have hreturned : (scratchRetry.run goneOutside begunDisk).1 = .ok goneRecords := by rfl
  rcases before with _ | ⟨first, _ | ⟨second, _ | ⟨third, before⟩⟩⟩
  · cases (List.cons_eq_cons.mp hruns).1
  · cases (List.cons_eq_cons.mp (List.cons_eq_cons.mp hruns).2).1
  · obtain ⟨hfirst, hrest⟩ := List.cons_eq_cons.mp hruns
    obtain ⟨hsecond, hlast⟩ := List.cons_eq_cons.mp hrest
    obtain ⟨hfinalize, -⟩ := List.cons_eq_cons.mp hlast
    cases hfinalize
    rw [← hfirst, ← hsecond]
    refine ⟨[scratchRemovalRun [scratchVolumeAttachment] false noFiles], nodeRequest, 0, false, goneRecords,
      scratchRetry.runEvents goneOutside begunDisk, [], ?_, hmem, fun _ hnone => absurd hnone List.not_mem_nil⟩
    rw [scratchRetryRun, hreturned]
    rfl
  · simp [finishedRuns] at hruns

theorem journal_is_written_ahead_finished :
    ReadyAreReturned finishedRuns ∧ (scratchRemovalRun [scratchVolumeAttachment] false noFiles).Recognizes "i" "v" ∧
      goneRecords.length = 1 ∧ ((afterFinalize goneRecords (afterRetry begunDisk)) journalFile).isSome = false ∧
        WrittenAhead finishedRuns (afterFinalize goneRecords (afterRetry begunDisk)) :=
  ⟨readyAreReturned_finished, recognizes_scratch _ _, by decide +kernel, by decide +kernel,
    journal_is_written_ahead (.run (.run (.run .start (ran_removal _ _ _)) (ran_retry _)) (ran_finalize _ _))⟩

end OciHpc.Resize
