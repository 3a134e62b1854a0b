import OciHpc.Base.Interleave
import OciHpc.ClusterCli.Cleanup

/-!
# The cleanup journal under concurrent cleanups

Any number of CLI processes append to the journal and clean it up. A cleanup takes a snapshot of the
journal, deletes the resources of one entry after the other, and commits what became of each.

* `machine` : the atomic steps of the processes;
* `Carried` : what a step may do to the journal;
* `Inv` : all versions of one entry agree on its resources, those that are gone apart;
* `carried_of_step`, `appended_kept`, `raised_unchanged` : the three properties of the journal;
* `cleanupJournal_safe` : all of them, in every run.
-/

namespace OciHpc.ClusterCli.CleanupJournal

open Interleave

/-- The registry file, the `oci` commands run so far with their outcomes, and the identifiers drawn. -/
structure World where
  file : RegistryFile
  commands : List (OciCommand × ProcessOutcome)
  cleanupIds : List String

/-- A process between commands, with what the last of its steps raised, or in a cleanup: its snapshot, the
entries still to do and the results so far. -/
inductive Pc
  | idle (raised : Option CliError)
  | cleaning (config : Dict) (snapshot todo : List Dict) (results : Results)

inductive Act
  | record (user : String) (entry : Dict) (errors : List String) (cleanupId recordedAt : String) (io : UpdateIo)
  | prepare (uuids : List String) (io : UpdateIo)
  | turn (answers : OciCommand → ProcessOutcome) (attemptedAt : String)
  | commit (io : UpdateIo)

/-- An outside of `oci` commands with fixed answers, that keeps a record. -/
def answering (answers : OciCommand → ProcessOutcome) (commands : List (OciCommand × ProcessOutcome))
    (command : OciCommand) : Except CliError ProcessOutcome × List (OciCommand × ProcessOutcome) :=
  (.ok (answers command), commands ++ [(command, answers command)])

/-- What `cleanup_notification_resources` records for an entry. -/
def turnResult (entry : Dict) (attemptedAt : String) (errors : List String) (remaining : Dict) :
    Option Dict :=
  if errors = [] then none
  else some (Dict.set (Dict.set (Dict.set remaining "cleanup_id" (Dict.getD entry "cleanup_id" .null))
    "errors" (.arr (errors.map .str))) "last_attempted_at" (.str attemptedAt))

/-- The identifiers an update draws are new. -/
def drawn (uuids : List String) (w : World) : Bool :=
  uuids.all (fun id => id ≠ "" && !w.cleanupIds.contains id) && uuids.Nodup

def step (w : World) : Pc → Act → Option (World × Pc)
  | .idle _, .record user entry errors cleanupId recordedAt io =>
      if nothingToClean entry then some (w, .idle none)
      else if !drawn [cleanupId] w then none
      else
        let r := updateNotificationRegistry
          (recordPendingCleanup (cleanupEntry user entry errors cleanupId recordedAt)) io w.file
        some ({ w with file := r.2, cleanupIds := cleanupId :: w.cleanupIds },
          .idle (match r.1 with | .ok _ => none | .error e => some e))
  | .idle _, .prepare uuids io =>
      if !drawn uuids w || uuids.length < (pendingOf w.file).length then none
      else
        let r := updateNotificationRegistry (preparePendingCleanup uuids) io w.file
        let pc := match r.1 with
          | .error e => Pc.idle (some e)
          | .ok (_, []) => .idle none
          | .ok (config, snapshot) => .cleaning config snapshot snapshot []
        some ({ w with file := r.2, cleanupIds := uuids ++ w.cleanupIds }, pc)
  | .cleaning config snapshot (entry :: todo) results, .turn answers attemptedAt =>
      let r := (deleteNotificationResources config entry).run (answering answers) w.commands
      let pc := match r.1, cleanupIdOf entry with
        | .ok (errors, remaining), some id =>
            Pc.cleaning config snapshot todo (results ++ [(id, turnResult entry attemptedAt errors remaining)])
        | .error e, _ => .idle (some e)
        | _, none => .idle (some (.other "KeyError: 'cleanup_id'"))
      some ({ w with commands := r.2 }, pc)
  | .cleaning _ _ [] results, .commit io =>
      let r := updateNotificationRegistry (commitPendingCleanupResults results) io w.file
      some ({ w with file := r.2 }, .idle (match r.1 with | .ok _ => none | .error e => some e))
  | _, _ => none

def machine : Machine World Pc Act := ⟨step⟩

abbrev State (ι : Type) := Config ι World Pc

/-! ## The journal -/

/-- Some command so far deleted the resource or showed it absent. -/
def goneIn (commands : List (OciCommand × ProcessOutcome)) (type : ResourceType) (id : String) : Prop :=
  ∃ c ∈ commands, showsGone type id c.1 c.2

abbrev World.gone (w : World) : ResourceType → String → Prop := goneIn w.commands

/-- What an entry of the journal identifies; an entry that is no object identifies nothing. -/
def identifierIn (entry : Json) (type : ResourceType) : Option Json :=
  entry.obj?.bind fun fields => identifierOf fields type

/-- The journal `new` carries on `old`: an entry disappears or loses an identifier only if its resource is
gone, the others stay in their order, and entries are appended. -/
inductive Carried (gone : ResourceType → String → Prop) : List Json → List Json → Prop
  | appended (new : List Json) : Carried gone [] new
  | keep {entry entry' : Json} {old new : List Json} :
      (∀ type value, identifierIn entry type = some value →
        identifierIn entry' type = some value ∨ GoneValue gone type value) →
      Carried gone old new → Carried gone (entry :: old) (entry' :: new)
  | drop {entry : Json} {old new : List Json} :
      (∀ type value, identifierIn entry type = some value → GoneValue gone type value) →
      Carried gone old new → Carried gone (entry :: old) new

theorem Carried.refl (gone : ResourceType → String → Prop) (journal : List Json) :
    Carried gone journal journal := by
  induction journal with
  | nil => exact .appended []
  | cons entry rest ih => exact .keep (fun _ _ h => .inl h) ih

theorem Carried.append (gone : ResourceType → String → Prop) (journal new : List Json) :
    Carried gone journal (journal ++ new) := by
  induction journal with
  | nil => exact .appended new
  | cons entry rest ih => exact .keep (fun _ _ h => .inl h) ih

theorem Carried.mono {gone gone' : ResourceType → String → Prop} (h : ∀ t id, gone t id → gone' t id)
    {old new : List Json} (hc : Carried gone old new) : Carried gone' old new := by
  induction hc with
  | appended new => exact .appended new
  | keep hk _ ih => exact .keep (fun t v hv => (hk t v hv).imp_right (GoneValue.mono h)) ih
  | drop hd _ ih => exact .drop (fun t v hv => (hd t v hv).mono h) ih

theorem Carried.trans {gone : ResourceType → String → Prop} {a b c : List Json} (hab : Carried gone a b)
    (hbc : Carried gone b c) : Carried gone a c := by
  induction hab generalizing c with
  | appended new => exact .appended c
  | keep hk hrest ih =>
      cases hbc with
      | keep hk' hrest' =>
          refine .keep (fun t v hv => ?_) (ih hrest')
          exact (hk t v hv).elim (fun h => hk' t v h) .inr
      | drop hd' hrest' =>
          exact .drop (fun t v hv => (hk t v hv).elim (fun h => hd' t v h) fun h => h) (ih hrest')
  | drop hd hrest ih => exact .drop hd (ih hbc)

/-! ## The invariant -/

def Pc.snapshot : Pc → List Dict
  | .cleaning _ snapshot _ _ => snapshot
  | .idle _ => []

def Pc.active : Pc → Bool
  | .cleaning .. => true
  | .idle _ => false

def Pc.todo : Pc → List Dict
  | .cleaning _ _ todo _ => todo
  | .idle _ => []

def Pc.results : Pc → Results
  | .cleaning _ _ _ results => results
  | .idle _ => []

/-- `entry` is in the journal or in some snapshot, under the identifier `id`. -/
inductive Version {ι : Type} (c : State ι) (id : String) (entry : Dict) : Prop
  | journal (h : .obj entry ∈ pendingOf c.shared.file) (hid : cleanupIdOf entry = some id)
  | snapshot (i : ι) (h : entry ∈ (c.proc i).snapshot) (hid : cleanupIdOf entry = some id)

def ResultFor (gone : ResourceType → String → Prop) (entry : Dict) (id : String) : Option Dict → Prop
  | none => Agree gone entry []
  | some remaining => Agree gone entry remaining ∧ cleanupIdOf remaining = some id

theorem ResultFor.mono {gone gone' : ResourceType → String → Prop} (h : ∀ t id, gone t id → gone' t id)
    {entry : Dict} {id : String} {result : Option Dict} (hr : ResultFor gone entry id result) :
    ResultFor gone' entry id result := by
  cases result with
  | none => exact Agree.mono h hr
  | some remaining => exact ⟨hr.1.mono h, hr.2⟩

structure Inv {ι : Type} (c : State ι) : Prop where
  /-- Identifiers in use were drawn. -/
  known : ∀ entry, .obj entry ∈ pendingOf c.shared.file → ∀ id, cleanupIdOf entry = some id →
    id ∈ c.shared.cleanupIds
  /-- While a cleanup is under way the journal is well identified. -/
  journal : ∀ i, (c.proc i).active = true →
    ∃ entries, pendingOf c.shared.file = entries.map .obj ∧ WellIdentified entries
  named : ∀ i, ∀ entry ∈ (c.proc i).snapshot, ∃ id, cleanupIdOf entry = some id ∧ id ∈ c.shared.cleanupIds
  /-- All versions of an entry agree. -/
  agree : ∀ i, ∀ entry ∈ (c.proc i).snapshot, ∀ id, cleanupIdOf entry = some id → ∀ other, Version c id other →
    Agree c.shared.gone entry other
  todo : ∀ i, (c.proc i).todo ⊆ (c.proc i).snapshot
  results : ∀ i id result, (id, result) ∈ (c.proc i).results →
    ∃ entry ∈ (c.proc i).snapshot, cleanupIdOf entry = some id ∧ ResultFor c.shared.gone entry id result

/-- No cleanup is under way, and the identifiers in the journal count as drawn. -/
structure Quiet {ι : Type} (c : State ι) : Prop where
  idle : ∀ i, ∃ raised, c.proc i = .idle raised
  known : ∀ entry, .obj entry ∈ pendingOf c.shared.file → ∀ id, cleanupIdOf entry = some id →
    id ∈ c.shared.cleanupIds

theorem Quiet.inv {ι : Type} {c : State ι} (h : Quiet c) : Inv c := by
  have hsnap : ∀ i, (c.proc i).snapshot = [] ∧ (c.proc i).active = false ∧ (c.proc i).todo = [] ∧
      (c.proc i).results = [] := fun i => by
    obtain ⟨raised, hi⟩ := h.idle i
    simp [hi, Pc.snapshot, Pc.active, Pc.todo, Pc.results]
  exact ⟨h.known, fun i => by simp [hsnap], fun i => by simp [hsnap], fun i => by simp [hsnap],
    fun i => by simp [hsnap], fun i => by simp [hsnap]⟩

/-! ## Updates of the file -/

/-- A step that writes the journal: every entry it leaves under a drawn identifier is a version of the entry
that was there, and every process is as before or between commands. -/
theorem Inv.of_file {ι : Type} {c c' : State ι} (hi : Inv c)
    (hcommands : c'.shared.commands = c.shared.commands)
    (hids : c.shared.cleanupIds ⊆ c'.shared.cleanupIds)
    (hknown : ∀ entry, .obj entry ∈ pendingOf c'.shared.file → ∀ id, cleanupIdOf entry = some id →
      id ∈ c'.shared.cleanupIds)
    (hjournal : (∃ i, (c.proc i).active = true) →
      ∃ entries, pendingOf c'.shared.file = entries.map .obj ∧ WellIdentified entries)
    (hold : ∀ i, ∀ s ∈ (c.proc i).snapshot, ∀ id, cleanupIdOf s = some id →
      ∀ entry', .obj entry' ∈ pendingOf c'.shared.file → cleanupIdOf entry' = some id →
        ∃ entry, .obj entry ∈ pendingOf c.shared.file ∧ cleanupIdOf entry = some id ∧
          Agree c.shared.gone entry entry')
    (hproc : ∀ j, c'.proc j = c.proc j ∨ ∃ raised, c'.proc j = .idle raised) : Inv c' := by
  have hgone : c'.shared.gone = c.shared.gone := by
    funext t id
    simp only [World.gone, hcommands]
  have hsnap : ∀ j, ∀ s ∈ (c'.proc j).snapshot, c'.proc j = c.proc j := fun j s hs => by
    rcases hproc j with h | ⟨raised, h⟩
    · exact h
    · rw [h] at hs
      cases hs
  refine ⟨hknown, fun j hj => ?_, fun j s hs => ?_, fun j s hs id hid other hv => ?_, fun j s hs => ?_,
    fun j id result hr => ?_⟩
  · rcases hproc j with h | ⟨raised, h⟩ <;> rw [h] at hj
    · exact hjournal ⟨j, hj⟩
    · cases hj
  · obtain ⟨id, hid, hmem⟩ := hi.named j s (hsnap j s hs ▸ hs)
    exact ⟨id, hid, hids hmem⟩
  · rw [hgone]
    have hs' : s ∈ (c.proc j).snapshot := hsnap j s hs ▸ hs
    cases hv with
    | journal hmem hid' =>
        obtain ⟨entry, hentry, hide, hagree⟩ := hold j s hs' id hid other hmem hid'
        exact (hi.agree j s hs' id hid entry (.journal hentry hide)).trans hagree
    | snapshot k hmem hid' => exact hi.agree j s hs' id hid other (.snapshot k (hsnap k other hmem ▸ hmem) hid')
  · rcases hproc j with h | ⟨raised, h⟩ <;> rw [h] at hs ⊢
    · exact hi.todo j hs
    · cases hs
  · rcases hproc j with h | ⟨raised, h⟩ <;> rw [h] at hr ⊢
    · rw [hgone]
      exact hi.results j id result hr
    · cases hr

variable {ι : Type} [DecidableEq ι]

/-- The process of an update is between commands afterwards, the others are as they were. -/
theorem proc_update_idle (proc : ι → Pc) (i : ι) (raised : Option CliError) (j : ι) :
    Function.update proc i (.idle raised) j = proc j ∨
      ∃ raised', Function.update proc i (.idle raised) j = .idle raised' := by
  by_cases hj : j = i
  · exact .inr ⟨raised, by simp [hj]⟩
  · exact .inl (by simp [hj])

/-- A process returns from an update that leaves the file. -/
theorem Inv.of_raise {c : State ι} (hi : Inv c) (i : ι) (raised : Option CliError) {cleanupIds : List String}
    (hids : c.shared.cleanupIds ⊆ cleanupIds) :
    Inv ⟨{ c.shared with cleanupIds }, Function.update c.proc i (.idle raised)⟩ := by
  refine hi.of_file rfl hids (fun entry he id hid => hids (hi.known entry he id hid)) ?_ ?_
    (proc_update_idle c.proc i raised)
  · rintro ⟨j, hj⟩
    exact hi.journal j hj
  · exact fun j s hs id hid entry he hide => ⟨entry, he, hide, Agree.refl _ _⟩

theorem wellIdentified_append {entries : List Dict} {added : Dict} {id : String} (h : WellIdentified entries)
    (hid : cleanupIdOf added = some id) (hne : id ≠ "") (hnew : ∀ e ∈ entries, cleanupIdOf e ≠ some id) :
    WellIdentified (entries ++ [added]) := by
  refine ⟨?_, fun e he => ?_⟩
  · rw [List.map_append, List.nodup_append]
    refine ⟨h.nodup, by simp, fun a ha b hb => ?_⟩
    obtain ⟨e, he, rfl⟩ := List.mem_map.mp ha
    rw [List.map_singleton, List.mem_singleton] at hb
    rw [hb, hid]
    exact hnew e he
  · rcases List.mem_append.mp he with he | he
    · exact h.named e he
    · rw [List.mem_singleton.mp he]
      exact ⟨id, hid, hne⟩

theorem inv_record {c : State ι} (hi : Inv c) (i : ι) {added : Dict} {id : String} {file : RegistryFile}
    (hid : cleanupIdOf added = some id) (hne : id ≠ "") (hnew : id ∉ c.shared.cleanupIds)
    (hfile : pendingOf file = pendingOf c.shared.file ++ [.obj added]) (raised : Option CliError) :
    Inv ⟨{ c.shared with file, cleanupIds := id :: c.shared.cleanupIds },
      Function.update c.proc i (.idle raised)⟩ := by
  have hmem : ∀ {entry}, .obj entry ∈ pendingOf file → .obj entry ∈ pendingOf c.shared.file ∨ entry = added := by
    intro entry he
    rw [hfile] at he
    simpa using he
  refine hi.of_file rfl (List.subset_cons_self ..) (fun entry he id' hid' => ?_) ?_ ?_
    (proc_update_idle c.proc i raised)
  · rcases hmem he with he | rfl
    · exact List.mem_cons_of_mem _ (hi.known entry he id' hid')
    · cases hid.symm.trans hid'
      exact List.mem_cons_self
  · rintro ⟨j, hj⟩
    obtain ⟨entries, hentries, hwell⟩ := hi.journal j hj
    refine ⟨entries ++ [added], by rw [hfile, hentries]; simp, wellIdentified_append hwell hid hne ?_⟩
    intro e he hide
    exact hnew (hi.known e (by rw [hentries]; exact List.mem_map_of_mem he) id hide)
  · intro j s hs id' hid' entry he hide
    rcases hmem he with he | rfl
    · exact ⟨entry, he, hide, Agree.refl _ _⟩
    · cases hid.symm.trans hide
      obtain ⟨id'', hs', hknown⟩ := hi.named j s hs
      cases hid'.symm.trans hs'
      exact absurd hknown hnew

theorem inv_prepare {c : State ι} (hi : Inv c) (i : ι) {uuids : List String} {snapshot : List Dict}
    {file : RegistryFile} (hlen : (pendingOf c.shared.file).length ≤ uuids.length)
    (hdrawn : drawn uuids c.shared = true) (hid : identify (pendingOf c.shared.file) uuids [] = .ok snapshot)
    (hfile : pendingOf file = snapshot.map .obj) :
    WellIdentified snapshot ∧
      Inv ⟨{ c.shared with file, cleanupIds := uuids ++ c.shared.cleanupIds },
        Function.update c.proc i (.idle none)⟩ := by
  simp only [drawn, Bool.and_eq_true, List.all_eq_true, decide_eq_true_eq, Bool.not_eq_true',
    List.contains_eq_mem, decide_eq_false_iff_not] at hdrawn
  obtain ⟨hnew, hnodup⟩ := hdrawn
  have hfresh : FreshIds uuids [] (pendingOf c.shared.file) :=
    { enough := hlen
      nodup := hnodup
      nonempty := fun hm => (hnew "" hm).1 rfl
      unused := by simp
      notPending := fun id hm entry he hide => (hnew id hm).2 (hi.known entry he id hide) }
  obtain ⟨hwell, hall⟩ := identify_ids hfresh hid
  have hmem : ∀ {entry}, .obj entry ∈ pendingOf file → entry ∈ snapshot := by
    intro entry he
    rw [hfile] at he
    simpa using he
  refine ⟨hwell, hi.of_file rfl (List.subset_append_right ..) (fun entry he id hide => ?_) ?_ ?_
    (proc_update_idle c.proc i none)⟩
  · rcases (hall entry (hmem he) id hide).2 with hm | hm
    · exact List.mem_append_left _ hm
    · exact List.mem_append_right _ (hi.known entry hm id hide)
  · exact fun _ => ⟨snapshot, hfile, hwell⟩
  · intro j s hs id hids entry he hide
    obtain ⟨id', hs', hknown⟩ := hi.named j s hs
    cases hids.symm.trans hs'
    rcases (hall entry (hmem he) id hide).2 with hm | hm
    · exact absurd hknown (hnew id hm).2
    · exact ⟨entry, hm, hide, Agree.refl _ _⟩

omit [DecidableEq ι] in
theorem inv_start {c c' : State ι} (hi : Inv c) (i : ι) {snapshot : List Dict} {config : Dict}
    (hshared : c'.shared = c.shared) (hself : c'.proc i = .cleaning config snapshot snapshot [])
    (hother : ∀ j, j ≠ i → c'.proc j = c.proc j) (hfile : pendingOf c.shared.file = snapshot.map .obj)
    (hwell : WellIdentified snapshot) : Inv c' := by
  have hmem : ∀ {entry}, .obj entry ∈ pendingOf c.shared.file ↔ entry ∈ snapshot := by
    intro entry
    rw [hfile]
    simp
  -- every version is one of those before: the new snapshot is the journal
  have hversion : ∀ {id other}, Version c' id other → Version c id other := by
    intro id other hv
    cases hv with
    | journal h hid => exact .journal (hshared ▸ h) hid
    | snapshot j h hid =>
        by_cases hj : j = i
        · subst hj
          rw [hself] at h
          exact .journal (hmem.mpr h) hid
        · rw [hother j hj] at h
          exact .snapshot j h hid
  refine ⟨?_, fun j _ => ?_, fun j s hs => ?_, fun j s hs id hid other hv => ?_, fun j s hs => ?_,
    fun j id result hr => ?_⟩
  · rw [hshared]
    exact hi.known
  · rw [hshared]
    exact ⟨snapshot, hfile, hwell⟩
  · rw [hshared]
    by_cases hj : j = i
    · subst hj
      rw [hself] at hs
      obtain ⟨id, hid, _⟩ := hwell.named s hs
      exact ⟨id, hid, hi.known s (hmem.mpr hs) id hid⟩
    · rw [hother j hj] at hs
      exact hi.named j s hs
  · rw [hshared]
    by_cases hj : j = i
    · subst hj
      rw [hself] at hs
      cases hversion hv with
      | journal h hid' =>
          rw [hwell.eq_of_id hs (hmem.mp h) (hid.trans hid'.symm)]
          exact Agree.refl _ _
      | snapshot k h hid' =>
          exact (hi.agree k other h id hid' s (.journal (hmem.mpr hs) hid)).symm
    · rw [hother j hj] at hs
      exact hi.agree j s hs id hid other (hversion hv)
  · by_cases hj : j = i
    · subst hj
      rw [hself] at hs ⊢
      exact hs
    · rw [hother j hj] at hs ⊢
      exact hi.todo j hs
  · by_cases hj : j = i
    · subst hj
      rw [hself] at hr
      cases hr
    · rw [hother j hj] at hr ⊢
      rw [hshared]
      exact hi.results j id result hr

/-! ## Deleting and committing -/

/-- The outside of `answering` as a relation. -/
abbrev Answering (answers : OciCommand → ProcessOutcome) :
    Handler ociSig CliError (List (OciCommand × ProcessOutcome)) := fun commands command r commands' =>
  (r, commands') = answering answers commands command

theorem absence_goneIn (answers : OciCommand → ProcessOutcome) : Absence (Answering answers) goneIn where
  keeps := by
    rintro commands command r commands' type id h ⟨c, hc, hs⟩
    cases h
    exact ⟨c, List.mem_append_left _ hc, hs⟩
  shows := by
    intro commands command outcome commands' type id h hs
    cases h
    exact ⟨(command, answers command), by simp, hs⟩

theorem run_deleteNotificationResources (answers : OciCommand → ProcessOutcome) (config entry : Dict)
    (commands : List (OciCommand × ProcessOutcome)) :
    let r := (deleteNotificationResources config entry).run (answering answers) commands
    (∀ type id, goneIn commands type id → goneIn r.2 type id) ∧
      ∀ errors remaining, r.1 = .ok (errors, remaining) →
        Agree (goneIn r.2) entry remaining ∧ (errors = [] → Agree (goneIn r.2) entry []) := by
  have hA := absence_goneIn answers
  have hexec : Exec (Answering answers) (deleteNotificationResources config entry) commands
      (.ofExcept ((deleteNotificationResources config entry).run (answering answers) commands).1)
      ((deleteNotificationResources config entry).run (answering answers) commands).2 :=
    Exec.of_run (fun _ _ => rfl) _ _
  have hspec := hexec.of_wp (Prog.wp_and_keeps (hA.keeps_gone commands _) (fun _ _ h => h)
    (deleteNotificationResources_spec hA config entry commands))
  generalize (deleteNotificationResources config entry).run (answering answers) commands = r at hspec
  obtain ⟨res, commands'⟩ := r
  cases res with
  | ok acc =>
      obtain ⟨⟨hagree, hnone⟩, hkeep⟩ := hspec
      refine ⟨hkeep, fun errors remaining h => ?_⟩
      cases h
      exact ⟨hagree, hnone⟩
  | error e => exact ⟨hspec.2, nofun⟩

theorem resultFor_turnResult {gone : ResourceType → String → Prop} {entry remaining : Dict} {id : String}
    {errors : List String} (attemptedAt : String) (hid : cleanupIdOf entry = some id)
    (hagree : Agree gone entry remaining) (hnone : errors = [] → Agree gone entry []) :
    ResultFor gone entry id (turnResult entry attemptedAt errors remaining) := by
  unfold turnResult
  split
  · rename_i h
    exact hnone h
  · refine ⟨hagree.trans (Agree.of_identifiers fun type => ?_), ?_⟩
    · rw [identifierOf_set_ne _ _ (by cases type <;> decide), identifierOf_set_ne _ _ (by cases type <;> decide),
        identifierOf_set_ne _ _ (by cases type <;> decide)]
    · rw [cleanupIdOf, Dict.get?_set_ne _ _ (by decide), Dict.get?_set_ne _ _ (by decide), Dict.get?_set_self,
        getD_cleanupId hid]
      rfl

omit [DecidableEq ι] in
/-- The turn of an entry: more is gone, and the entry has its result. -/
theorem inv_turn {c c' : State ι} (hi : Inv c) (i : ι) {commands : List (OciCommand × ProcessOutcome)}
    (hshared : c'.shared = { c.shared with commands })
    (hgone : ∀ type id, c.shared.gone type id → goneIn commands type id)
    (hother : ∀ j, j ≠ i → c'.proc j = c.proc j)
    (hsnap : (c'.proc i).snapshot = (c.proc i).snapshot ∨ ∃ raised, c'.proc i = .idle raised)
    (hactive : (c'.proc i).active = true → (c.proc i).active = true)
    (htodo : (c'.proc i).todo ⊆ (c.proc i).todo)
    (hresults : ∀ id result, (id, result) ∈ (c'.proc i).results → (id, result) ∈ (c.proc i).results ∨
      ∃ entry ∈ (c.proc i).todo, cleanupIdOf entry = some id ∧ ResultFor (goneIn commands) entry id result) :
    Inv c' := by
  have hg : c'.shared.gone = goneIn commands := by rw [hshared]
  have hsub : ∀ j, ∀ s ∈ (c'.proc j).snapshot, s ∈ (c.proc j).snapshot := fun j s hs => by
    by_cases hj : j = i
    · subst hj
      rcases hsnap with h | ⟨raised, h⟩ <;> rw [h] at hs
      · exact hs
      · cases hs
    · rw [hother j hj] at hs
      exact hs
  have hfile : pendingOf c'.shared.file = pendingOf c.shared.file := by rw [hshared]
  have hversion : ∀ {id other}, Version c' id other → Version c id other := by
    intro id other hv
    cases hv with
    | journal h hid => exact .journal (hfile ▸ h) hid
    | snapshot j h hid => exact .snapshot j (hsub j other h) hid
  refine ⟨?_, fun j hj => ?_, fun j s hs => ?_, fun j s hs id hid other hv => ?_, fun j s hs => ?_,
    fun j id result hr => ?_⟩
  · rw [hshared]
    exact hi.known
  · rw [hfile]
    by_cases hji : j = i
    · subst hji
      exact hi.journal j (hactive hj)
    · exact hi.journal j (hother j hji ▸ hj)
  · rw [hshared]
    exact hi.named j s (hsub j s hs)
  · rw [hg]
    exact (hi.agree j s (hsub j s hs) id hid other (hversion hv)).mono hgone
  · by_cases hj : j = i
    · subst hj
      rcases hsnap with h | ⟨raised, h⟩
      · rw [h]
        exact hi.todo j (htodo hs)
      · rw [h] at hs
        cases hs
    · rw [hother j hj] at hs ⊢
      exact hi.todo j hs
  · rw [hg]
    by_cases hj : j = i
    · subst hj
      rcases hsnap with h | ⟨raised, h⟩
      · rw [h]
        rcases hresults id result hr with hold | ⟨entry, he, hid, hres⟩
        · obtain ⟨entry, he, hid, hres⟩ := hi.results j id result hold
          exact ⟨entry, he, hid, hres.mono hgone⟩
        · exact ⟨entry, hi.todo j he, hid, hres⟩
      · rw [h] at hr
        cases hr
    · rw [hother j hj] at hr ⊢
      obtain ⟨entry, he, hid, hres⟩ := hi.results j id result hr
      exact ⟨entry, he, hid, hres.mono hgone⟩

omit [DecidableEq ι] in
theorem commitEntry_cases {c : State ι} (hi : Inv c) {i : ι} {entry : Dict}
    (he : .obj entry ∈ pendingOf c.shared.file) :
    commitEntry (c.proc i).results entry = some entry ∨
      (∃ id remaining, cleanupIdOf entry = some id ∧ cleanupIdOf remaining = some id ∧
        commitEntry (c.proc i).results entry = some remaining ∧ Agree c.shared.gone entry remaining) ∨
      commitEntry (c.proc i).results entry = none ∧ Agree c.shared.gone entry [] := by
  cases hid : cleanupIdOf entry with
  | none => exact .inl (by simp [commitEntry, hid])
  | some id =>
      cases hl : (c.proc i).results.lookup id with
      | none => exact .inl (by simp [commitEntry, hid, hl])
      | some result =>
          have hcommit : commitEntry (c.proc i).results entry = result := by simp [commitEntry, hid, hl]
          have hmem : (id, result) ∈ (c.proc i).results := by
            obtain ⟨l₁, l₂, h, _⟩ := List.lookup_eq_some_iff.mp hl
            rw [h]
            simp
          obtain ⟨s, hs, hsid, hres⟩ := hi.results i id result hmem
          have hagree : Agree c.shared.gone entry s := (hi.agree i s hs id hsid entry (.journal he hid)).symm
          cases result with
          | none => exact .inr (.inr ⟨hcommit, hagree.trans hres⟩)
          | some remaining => exact .inr (.inl ⟨id, remaining, rfl, hres.2, hcommit, hagree.trans hres.1⟩)

theorem identifierIn_of_agree {gone : ResourceType → String → Prop} {a b : Dict} (h : Agree gone a b)
    (type : ResourceType) (value : Json) (hv : identifierIn (.obj a) type = some value) :
    identifierIn (.obj b) type = some value ∨ GoneValue gone type value := by
  by_cases hg : GoneValue gone type value
  · exact .inr hg
  · exact .inl ((h type value hg).mp hv)

omit [DecidableEq ι] in
theorem carried_commit {c : State ι} (hi : Inv c) (i : ι) {entries : List Dict}
    (hsub : ∀ entry ∈ entries, .obj entry ∈ pendingOf c.shared.file) :
    Carried c.shared.gone (entries.map .obj)
      ((entries.filterMap (commitEntry (c.proc i).results)).map .obj) := by
  induction entries with
  | nil => exact .appended []
  | cons entry rest ih =>
      have hrest := ih fun e he => hsub e (List.mem_cons_of_mem _ he)
      rw [List.filterMap_cons]
      rcases commitEntry_cases hi (i := i) (hsub entry List.mem_cons_self) with
        h | ⟨id, remaining, _, _, h, hagree⟩ | ⟨h, hagree⟩ <;> rw [h]
      · exact .keep (fun _ _ hv => .inl hv) hrest
      · exact .keep (identifierIn_of_agree hagree) hrest
      · refine .drop (fun type value hv => ?_) hrest
        exact (identifierIn_of_agree hagree type value hv).resolve_left nofun

theorem inv_commit {c : State ι} (hi : Inv c) (i : ι) {entries : List Dict} {file : RegistryFile}
    (hentries : pendingOf c.shared.file = entries.map .obj) (hwell : WellIdentified entries)
    (hfile : pendingOf file = (entries.filterMap (commitEntry (c.proc i).results)).map .obj)
    (raised : Option CliError) :
    Inv ⟨{ c.shared with file }, Function.update c.proc i (.idle raised)⟩ := by
  -- an entry left by the commit replaces one with its identifier
  have hfrom : ∀ entry', .obj entry' ∈ pendingOf file → ∃ entry, .obj entry ∈ pendingOf c.shared.file ∧
      cleanupIdOf entry' = cleanupIdOf entry ∧ Agree c.shared.gone entry entry' := by
    intro entry' he'
    rw [hfile] at he'
    obtain ⟨e, he, heq⟩ := List.mem_map.mp he'
    cases heq
    obtain ⟨entry, hmem, hcommit⟩ := List.mem_filterMap.mp he
    have hentry : .obj entry ∈ pendingOf c.shared.file := by
      rw [hentries]
      exact List.mem_map_of_mem hmem
    refine ⟨entry, hentry, ?_⟩
    rcases commitEntry_cases hi (i := i) hentry with h | ⟨id, remaining, hid, hid', h, hagree⟩ | ⟨h, _⟩ <;>
      cases hcommit.symm.trans h
    · exact ⟨rfl, Agree.refl _ _⟩
    · exact ⟨hid'.trans hid.symm, hagree⟩
  refine hi.of_file rfl (List.Subset.refl _) (fun entry' he' id hid => ?_) (fun _ => ⟨_, hfile, ?_⟩) ?_
    (proc_update_idle c.proc i raised)
  · obtain ⟨entry, he, hids, _⟩ := hfrom entry' he'
    exact hi.known entry he id (hids ▸ hid)
  · refine hwell.filterMap fun e he e' hcommit => ?_
    have hentry : .obj e ∈ pendingOf c.shared.file := by
      rw [hentries]
      exact List.mem_map_of_mem he
    rcases commitEntry_cases hi (i := i) hentry with h | ⟨id, remaining, hid, hid', h, _⟩ | ⟨h, _⟩ <;>
      cases hcommit.symm.trans h
    · rfl
    · exact hid'.trans hid.symm
  · intro j s hs id hids entry' he' hide
    obtain ⟨entry, he, hids', hagree⟩ := hfrom entry' he'
    exact ⟨entry, he, hids' ▸ hide, hagree⟩

theorem carried_identify {gone : ResourceType → String → Prop} {pending : List Json} {snapshot : List Dict}
    (h : List.Forall₂ (fun e entry => ∃ old, e = .obj old ∧
      ∀ type, identifierOf entry type = identifierOf old type) pending snapshot) :
    Carried gone pending (snapshot.map .obj) := by
  induction h with
  | nil => exact .appended []
  | cons he _ ih =>
      obtain ⟨old, rfl, hids⟩ := he
      exact .keep (fun type value hv => .inl ((hids type).trans hv)) ih

/-- **What a step does**: it keeps the invariant, carries the journal on, and leaves the file when it raises;
what is gone stays gone. -/
theorem step_spec {c : State ι} (hi : Inv c) {i : ι} {a : Act} {w : World} {pc : Pc}
    (h : step c.shared (c.proc i) a = some (w, pc)) :
    Inv ⟨w, Function.update c.proc i pc⟩ ∧
      Carried c.shared.gone (pendingOf c.shared.file) (pendingOf w.file) ∧
      (∀ e, pc = .idle (some e) → w.file = c.shared.file) ∧
      ∀ type id, c.shared.gone type id → w.gone type id := by
  cases hp : c.proc i <;> cases a <;> rw [hp] at h <;> simp only [step, reduceCtorEq] at h
  case idle.record raised user entry errors id now io =>
    split at h
    · cases h
      exact ⟨hi.of_raise i none (List.Subset.refl _), Carried.refl _ _, nofun, fun _ _ h => h⟩
    · split at h
      · cases h
      · rename_i hdrawn
        have hid : cleanupIdOf (cleanupEntry user entry errors id now) = some id := rfl
        rcases record_cases (cleanupEntry user entry errors id now) io c.shared.file with ⟨e, hr⟩ | ⟨hr, hfile⟩
        · rw [hr] at h
          cases h
          exact ⟨hi.of_raise i _ (List.subset_cons_self ..), Carried.refl _ _, fun _ _ => rfl, fun _ _ h => h⟩
        · rw [hr] at h
          cases h
          have hnew : id ≠ "" ∧ id ∉ c.shared.cleanupIds := by simpa [drawn] using hdrawn
          refine ⟨inv_record hi i hid hnew.1 hnew.2 hfile none, ?_, nofun, fun _ _ h => h⟩
          rw [hfile]
          exact Carried.append ..
  case idle.prepare raised uuids io =>
    split at h
    · cases h
    · rename_i hok
      simp only [Bool.or_eq_true, Bool.not_eq_true', decide_eq_true_eq, not_or, Bool.not_eq_false,
        Nat.not_lt] at hok
      obtain ⟨hdrawn, hlen⟩ := hok
      rcases prepare_cases uuids io c.shared.file with ⟨e, hr⟩ | ⟨config, snapshot, hr, hid, hfile⟩
      · rw [hr] at h
        cases h
        exact ⟨hi.of_raise i _ (List.subset_append_right ..), Carried.refl _ _, fun _ _ => rfl, fun _ _ h => h⟩
      · obtain ⟨hwell, hinv⟩ := inv_prepare hi i hlen hdrawn hid hfile
        rw [hr] at h
        have hcarried : Carried c.shared.gone (pendingOf c.shared.file)
            (pendingOf (updateNotificationRegistry (preparePendingCleanup uuids) io c.shared.file).2) := by
          rw [hfile]
          exact carried_identify (identify_identifiers hid)
        cases snapshot with
        | nil =>
            cases h
            exact ⟨hinv, hcarried, nofun, fun _ _ h => h⟩
        | cons entry rest =>
            cases h
            refine ⟨inv_start hinv i rfl (Function.update_self ..) (fun j hj => by simp [hj]) hfile hwell,
              hcarried, nofun, fun _ _ h => h⟩
  case cleaning.turn config snapshot todo results answers now =>
    cases todo with
    | nil => cases h
    | cons entry todo =>
        obtain ⟨hgone, hspec⟩ := run_deleteNotificationResources answers config entry c.shared.commands
        dsimp only at h
        generalize (deleteNotificationResources config entry).run (answering answers) c.shared.commands = r
          at h hgone hspec
        obtain ⟨res, commands⟩ := r
        have hraise : ∀ e, Inv (⟨{ c.shared with commands }, Function.update c.proc i (.idle e)⟩ : State ι) :=
          fun e => inv_turn hi i rfl hgone (fun j hj => by simp [hj]) (.inr ⟨e, by simp⟩) (by simp [Pc.active])
            (by simp [Pc.todo]) (by simp [Pc.results])
        refine ⟨?_, ?_, ?_, ?_⟩
        · split at h <;> cases h
          · rename_i errors remaining id hres hid
            cases hres
            obtain ⟨hagree, hnone⟩ := hspec errors remaining rfl
            refine inv_turn hi i rfl hgone (fun j hj => by simp [hj]) (.inl (by simp [hp, Pc.snapshot]))
              (by simp [hp, Pc.active]) (by simp [hp, Pc.todo]) fun id' result hm => ?_
            simp only [Function.update_self, Pc.results, List.mem_append, List.mem_singleton] at hm
            rcases hm with hm | hm
            · exact .inl (by rw [hp]; exact hm)
            · cases hm
              refine .inr ⟨entry, by simp [hp, Pc.todo], hid, ?_⟩
              exact resultFor_turnResult now hid hagree hnone
          · exact hraise _
          · exact hraise _
        · split at h <;> cases h <;> exact Carried.refl _ _
        · split at h <;> cases h <;> exact fun _ _ => rfl
        · split at h <;> cases h <;> exact hgone
  case cleaning.commit config snapshot todo results io =>
    cases todo with
    | cons entry todo => cases h
    | nil =>
        dsimp only at h
        obtain ⟨entries, hentries, hwell⟩ := hi.journal i (by rw [hp]; rfl)
        rcases commit_cases results io c.shared.file with ⟨e, hr⟩ | ⟨hr, matched, hcommit⟩
        · rw [hr] at h
          cases h
          exact ⟨hi.of_raise i _ (List.Subset.refl _), Carried.refl _ _, fun _ _ => rfl, fun _ _ h => h⟩
        · rw [hr] at h
          cases h
          rw [hentries] at hcommit
          have hfile := commitEntries_of_wellIdentified hwell hcommit
          have hresults : results = (c.proc i).results := by rw [hp]; rfl
          refine ⟨inv_commit hi i hentries hwell (hresults ▸ hfile) none, ?_, nofun, fun _ _ h => h⟩
          rw [hfile, hentries, hresults]
          refine carried_commit hi i fun entry he => ?_
          rw [hentries]
          exact List.mem_map_of_mem he

/-! ## Runs -/

theorem Inv.of_reach {G : Machine.Guard ι World Pc Act} {c₀ c : State ι} (hi : Inv c₀)
    (h : machine.Reach G c₀ c) : Inv c :=
  Machine.Reach.invariant Inv hi (fun _ _ _ _ _ hi _ hstep => (step_spec hi hstep).1) h

/-- The journal of a later state carries on that of an earlier one. -/
theorem carried_of_reach {G : Machine.Guard ι World Pc Act} {c₀ c : State ι} (hi : Inv c₀)
    (h : machine.Reach G c₀ c) :
    (∀ type id, c₀.shared.gone type id → c.shared.gone type id) ∧
      Carried c.shared.gone (pendingOf c₀.shared.file) (pendingOf c.shared.file) := by
  induction h with
  | refl => exact ⟨fun _ _ => id, Carried.refl _ _⟩
  | tail i a hreach _ hm ih =>
      obtain ⟨w, pc, hstep, rfl⟩ := Machine.move_eq_some.mp hm
      obtain ⟨_, hcarried, _, hgone⟩ := step_spec (hi.of_reach hreach) hstep
      exact ⟨fun t id h => hgone t id (ih.1 t id h), (ih.2.mono hgone).trans (hcarried.mono hgone)⟩

/-- Process `k` takes no step but the turns of the cleanup it is in. -/
def Uncommitted (k : ι) : Machine.Guard ι World Pc Act := fun _ i a =>
  i = k → ∃ answers attemptedAt, a = .turn answers attemptedAt

/-- The snapshot of a cleanup is what it was at its start, or the cleanup has ended. -/
theorem snapshot_of_uncommitted {c₀ c : State ι} {k : ι} (h : machine.Reach (Uncommitted k) c₀ c) :
    (c.proc k).snapshot ⊆ (c₀.proc k).snapshot := by
  induction h with
  | refl => exact List.Subset.refl _
  | @tail c c' i a hreach hg hm ih =>
      obtain ⟨w, pc, hstep, rfl⟩ := Machine.move_eq_some.mp hm
      by_cases hk : i = k
      · subst hk
        obtain ⟨answers, attemptedAt, rfl⟩ := hg rfl
        simp only [Function.update_self]
        refine List.Subset.trans ?_ ih
        cases hp : c.proc i with
        | idle raised =>
            rw [hp] at hstep
            cases hstep
        | cleaning config snapshot todo results =>
            rw [hp] at hstep
            cases todo with
            | nil => cases hstep
            | cons entry todo =>
                simp only [machine, step] at hstep
                split at hstep <;> cases hstep <;> simp [Pc.snapshot]
      · simpa [Function.update_of_ne (Ne.symm hk)] using ih

/-- A commit leaves an entry that is not in its snapshot. -/
theorem mem_of_commit {c c' : State ι} (hi : Inv c) {k : ι} {io : UpdateIo} {entry : Dict} {id : String}
    (hm : machine.move c k (.commit io) = some c') (he : .obj entry ∈ pendingOf c.shared.file)
    (hid : cleanupIdOf entry = some id) (hnew : ∀ s ∈ (c.proc k).snapshot, cleanupIdOf s ≠ some id) :
    .obj entry ∈ pendingOf c'.shared.file := by
  obtain ⟨w, pc, hstep, rfl⟩ := Machine.move_eq_some.mp hm
  have hkept : commitEntry (c.proc k).results entry = some entry := by
    cases hl : (c.proc k).results.lookup id with
    | none => simp [commitEntry, hid, hl]
    | some result =>
        obtain ⟨l₁, l₂, hresults, _⟩ := List.lookup_eq_some_iff.mp hl
        obtain ⟨s, hs, hsid, _⟩ := hi.results k id result (by rw [hresults]; simp)
        exact absurd hsid (hnew s hs)
  cases hp : c.proc k with
  | idle raised =>
      rw [hp] at hstep
      cases hstep
  | cleaning config snapshot todo results =>
      obtain ⟨entries, hentries, hwell⟩ := hi.journal k (by rw [hp]; rfl)
      rw [hp] at hstep hkept
      cases todo with
      | cons e todo => cases hstep
      | nil =>
          simp only [machine, step] at hstep
          rcases commit_cases results io c.shared.file with ⟨e, hr⟩ | ⟨hr, matched, hcommit⟩
          · rw [hr] at hstep
            cases hstep
            exact he
          · cases hstep
            rw [hentries] at hcommit he
            rw [commitEntries_of_wellIdentified hwell hcommit]
            obtain ⟨e, hmem, heq⟩ := List.mem_map.mp he
            cases heq
            exact List.mem_map_of_mem (List.mem_filterMap.mpr ⟨entry, hmem, hkept⟩)

theorem snapshot_update_idle (proc : ι → Pc) (i : ι) (raised : Option CliError) (k : ι) :
    (Function.update proc i (.idle raised) k).snapshot ⊆ (proc k).snapshot := by
  rcases proc_update_idle proc i raised k with h | ⟨raised', h⟩ <;> rw [h]
  · exact List.Subset.refl _
  · exact List.nil_subset _

/-- An entry is recorded under a new identifier, or nothing is. -/
theorem record_step {c : State ι} {i : ι} {c' : State ι} {user : String} {entry : Dict} {errors : List String}
    {id now : String} {io : UpdateIo} (hm : machine.move c i (.record user entry errors id now io) = some c')
    (hsome : nothingToClean entry = false) :
    id ∉ c.shared.cleanupIds ∧ (∀ k, (c'.proc k).snapshot ⊆ (c.proc k).snapshot) ∧
      (c'.proc i = .idle none →
        .obj (cleanupEntry user entry errors id now) ∈ pendingOf c'.shared.file) := by
  obtain ⟨w, pc, hstep, rfl⟩ := Machine.move_eq_some.mp hm
  cases hp : c.proc i with
  | cleaning config snapshot todo results =>
      rw [hp] at hstep
      cases todo <;> cases hstep
  | idle raised =>
      rw [hp] at hstep
      simp only [machine, step, hsome, Bool.false_eq_true, ↓reduceIte] at hstep
      split at hstep
      · cases hstep
      · rename_i hdrawn
        have hnew : id ≠ "" ∧ id ∉ c.shared.cleanupIds := by simpa [drawn] using hdrawn
        refine ⟨hnew.2, fun k => ?_, fun hnone => ?_⟩
        · cases hstep
          exact snapshot_update_idle c.proc i _ k
        · rcases record_cases (cleanupEntry user entry errors id now) io c.shared.file with
            ⟨e, hr⟩ | ⟨hr, hfile⟩
          · rw [hr] at hstep
            cases hstep
            simp at hnone
          · cases hstep
            rw [hfile]
            simp

/-- An entry recorded while a cleanup is under way outlives its commit. -/
theorem appended_kept {c c₁ c₂ c₃ : State ι} (hi : Inv c) {i k : ι} {user : String} {entry : Dict}
    {errors : List String} {id now : String} {io io' : UpdateIo}
    (hm : machine.move c i (.record user entry errors id now io) = some c₁)
    (hsome : nothingToClean entry = false) (h : machine.Reach (Uncommitted k) c₁ c₂)
    (hc : machine.move c₂ k (.commit io') = some c₃) {d : Dict} (hd : .obj d ∈ pendingOf c₂.shared.file)
    (hid : cleanupIdOf d = some id) : .obj d ∈ pendingOf c₃.shared.file := by
  obtain ⟨hnew, hsnap, _⟩ := record_step hm hsome
  have hi₁ : Inv c₁ := hi.of_reach (G := Machine.anyStep) (Machine.Reach.refl.tail _ _ trivial hm)
  refine mem_of_commit (hi₁.of_reach h) hc hd hid fun s hs hsid => ?_
  obtain ⟨id', hid', hknown⟩ := hi.named k s (hsnap k (snapshot_of_uncommitted h hs))
  cases hsid.symm.trans hid'
  exact hnew hknown

/-- **The cleanup journal.** In every run a step makes an entry disappear or lose an identifier only when its
resource is gone; a step that raises leaves the registry; and an entry recorded while a cleanup is under way is
there, and outlives the cleanup's commit. -/
theorem cleanupJournal_safe {c₀ c c' : State ι} (hq : Quiet c₀) (h : machine.Reach Machine.anyStep c₀ c)
    {i : ι} {a : Act} (hm : machine.move c i a = some c') :
    Carried c.shared.gone (pendingOf c.shared.file) (pendingOf c'.shared.file) ∧
    (∀ e, c'.proc i = .idle (some e) → c'.shared.file = c.shared.file) ∧
    ∀ user entry errors id now io, a = .record user entry errors id now io → nothingToClean entry = false →
      c'.proc i = .idle none →
      .obj (cleanupEntry user entry errors id now) ∈ pendingOf c'.shared.file ∧
      ∀ k, (c.proc k).active = true → ∀ c₂, machine.Reach (Uncommitted k) c' c₂ →
        ∀ io' c₃, machine.move c₂ k (.commit io') = some c₃ → ∀ d, .obj d ∈ pendingOf c₂.shared.file →
          cleanupIdOf d = some id → .obj d ∈ pendingOf c₃.shared.file := by
  have hi : Inv c := hq.inv.of_reach h
  refine ⟨?_, fun e he => ?_, ?_⟩
  · obtain ⟨w, pc, hstep, rfl⟩ := Machine.move_eq_some.mp hm
    exact (step_spec hi hstep).2.1
  · obtain ⟨w, pc, hstep, rfl⟩ := Machine.move_eq_some.mp hm
    exact (step_spec hi hstep).2.2.1 e (by simpa using he)
  · rintro user entry errors id now io rfl hsome hnone
    exact ⟨(record_step hm hsome).2.2 hnone, fun k _ c₂ hreach io' c₃ hc d hd hid =>
      appended_kept hi hm hsome hreach hc hd hid⟩

/-! ## A cleanup and an append -/

def topicEntry (id topicId : String) : Dict := [("cleanup_id", .str id), ("topic_id", .str topicId)]

/-- A journal of one Topic, and two processes between commands. -/
def oneTopicState : State (Fin 2) where
  shared :=
    { file := .json (.obj [("config", .obj [("region", .str "eu-frankfurt-1"),
        ("compartment_id", .str "ocid1.compartment.oc1..a"), ("cluster_name", .str "hpc"),
        ("cluster_scope_id", .str "hpc-1"), ("deployment_id", .str "0123456789abcdef0123456789abcdef"),
        ("pending_cleanup", .arr [.obj (topicEntry "c1" "ocid1.onstopic.oc1..t1")])])])
      commands := []
      cleanupIds := ["c1"] }
  proc _ := .idle none

theorem oneTopicState_quiet : Quiet oneTopicState where
  idle _ := ⟨none, rfl⟩
  known entry he id hid := by
    rw [show pendingOf oneTopicState.shared.file =
      [.obj (topicEntry "c1" "ocid1.onstopic.oc1..t1")] by decide, List.mem_singleton] at he
    cases he
    rw [show cleanupIdOf (topicEntry "c1" "ocid1.onstopic.oc1..t1") = some "c1" by decide] at hid
    cases hid
    exact List.mem_singleton_self _

/-- While one process cleans up its Topic another records one; the commit leaves the second. -/
theorem cleanupJournal_safe_append : ∃ c c' : State (Fin 2),
    ((pendingOf c.shared.file).length = 2 ∧ (pendingOf c'.shared.file).length = 1) ∧
      Carried c.shared.gone (pendingOf c.shared.file) (pendingOf c'.shared.file) := by
  obtain ⟨c, hc, hp⟩ := Machine.Reach.exists_of_run (M := machine) (G := Machine.anyStep)
    oneTopicState
    [(0, .prepare ["c2"] .completes),
      (1, .record "bob" [("topic_id", .str "ocid1.onstopic.oc1..t2")] ["timed out"] "c3" "now" .completes),
      (0, .turn (fun _ => .success .blank) "now")]
    (fun c => (pendingOf c.shared.file).length == 2 && (machine.move c 0 (.commit .completes)).any fun c' =>
      (pendingOf c'.shared.file).length == 1) (by decide)
  simp only [Bool.and_eq_true, beq_iff_eq] at hp
  obtain ⟨hlen, hp⟩ := hp
  obtain ⟨c', hm, hlen'⟩ := (Option.any_eq_true _ _).mp hp
  exact ⟨c, c', ⟨hlen, by simpa using hlen'⟩, (cleanupJournal_safe oneTopicState_quiet hc hm).1⟩

end OciHpc.ClusterCli.CleanupJournal
