import Mathlib.Logic.Relation
import OciHpc.ClusterCli.CleanupJournal
import OciHpc.ClusterCli.UserDelete

/-!
# The order of `cluster user delete`

Registry writes succeed; the synchronization, LDAP and `oci` end in any way, and other commands, on other users,
change the registry in between.

* `Unexpected` : what may raise something other than a `NotificationError`;
* `deleteWorld` : the registry file, the `oci` commands so far, and what was synchronized, deleted and recorded;
* `Orderly` : nothing is deleted early, a failure restores the entry, and what is left is in the journal;
* `Kept` : what the registry still says of the user and the configuration;
* `orderly_iff` : the command is orderly exactly when the registry is `Deletable`;
* `config_without_auth` : a configuration without `auth` leaves the resources behind.
-/

namespace OciHpc.ClusterCli.UserDeleteOrder
open CleanupJournal (goneIn identifierIn)

/-! ## The world -/

/-- `synced` : the registry without the user was synchronized, and the user's routing is as it was then;
`ldapDeleted` : the server said that the user's entry is deleted; `recorded` : what went to the cleanup journal. -/
structure World where
  file : RegistryFile
  commands : List (OciCommand × ProcessOutcome)
  early : List OciCommand
  synced : Bool
  ldapDeleted : Bool
  recorded : List Dict

abbrev World.gone (w : World) : ResourceType → String → Prop := goneIn w.commands

def start (file : RegistryFile) : World := ⟨file, [], [], false, false, []⟩

def entryOf (user : String) (file : RegistryFile) : Option Json := (usersOf file).bind fun users => users user

/-- The users map can be read, and has no entry of the user. -/
def unrouted (user : String) (file : RegistryFile) : Bool := (usersOf file).any fun users => (users user).isNone

def OciRequest.isDelete : OciRequest → Bool
  | .delete .. => true
  | _ => false

/-- The route is removed, the removal is synchronized, and the LDAP entry is deleted. -/
def World.ready (user : String) (w : World) : Bool := unrouted user w.file && w.synced && w.ldapDeleted

def World.started (user : String) (w : World) (command : OciCommand) : World :=
  { w with early := w.early ++ if OciRequest.isDelete command.request && !w.ready user then [command] else [] }

def World.answered (user : String) (w : World) (command : OciCommand) (outcome : ProcessOutcome) : World :=
  { w.started user command with commands := w.commands ++ [(command, outcome)] }

/-- An update of the registry by another command: any, but none of this user's routing. -/
inductive OtherUpdate (user : String) (file : RegistryFile) : RegistryFile → Prop
  | store {other : String} {entry : Dict} {stamp : Stamp} {io : UpdateIo} (hother : other ≠ user) :
      OtherUpdate user file (updateNotificationRegistry (storeUserRouting other entry stamp) io file).2
  | remove {other : String} {stamp : Stamp} {io : UpdateIo} (hother : other ≠ user) :
      OtherUpdate user file (updateNotificationRegistry (removeUserRouting other stamp) io file).2
  | restore {other : String} {entry : Dict} {stamp : Stamp} {io : UpdateIo} (hother : other ≠ user) :
      OtherUpdate user file (updateNotificationRegistry (restoreUserRouting other entry stamp) io file).2
  | clearSync {marker : Json} {io : UpdateIo} :
      OtherUpdate user file (updateNotificationRegistry (clearPendingBackupSync marker) io file).2
  | recordSync {stamp : Stamp} {error : String} {io : UpdateIo} :
      OtherUpdate user file (updateNotificationRegistry (recordPendingBackupSync stamp error) io file).2
  | recordCleanup {added : Dict} {io : UpdateIo} :
      OtherUpdate user file (updateNotificationRegistry (recordPendingCleanup added) io file).2
  | prepareCleanup {uuids : List String} {io : UpdateIo} :
      OtherUpdate user file (updateNotificationRegistry (preparePendingCleanup uuids) io file).2
  | commitCleanup {results : Results} {io : UpdateIo} :
      OtherUpdate user file (updateNotificationRegistry (commitPendingCleanupResults results) io file).2

abbrev Others (user : String) : RegistryFile → RegistryFile → Prop := Relation.ReflTransGen (OtherUpdate user)

/-- What may raise something other than a `NotificationError`: the synchronization; and the reading of what an `oci`
command prints, where that cannot be decoded or is nested too deeply, or an argument of it has a lone surrogate. -/
structure Unexpected where
  sync : Bool
  oci : Bool
  deriving DecidableEq, Repr

/-- The effect of a call to the registry. A synchronization may clear the marker, and raises a `NotificationError`,
or anything when that is to be expected. -/
def registryEffect (user : String) (unexpected : Unexpected) (w : World) :
    (call : RegistryCall) → Except CliError call.Ans → World → Prop
  | .loadNotificationRegistry, r, w' => r = loadNotificationRegistry w.file ∧ w' = w
  | .storeUserRouting other entry, r, w' => ∃ stamp,
      let update := updateNotificationRegistry (storeUserRouting other entry stamp) .completes w.file
      r = update.1 ∧ w' = { w with file := update.2, synced := false }
  | .removeUserRouting other, r, w' => ∃ stamp,
      let update := updateNotificationRegistry (removeUserRouting other stamp) .completes w.file
      r = update.1 ∧ w' = { w with file := update.2, synced := false }
  | .restoreUserRouting other entry, r, w' => ∃ stamp,
      let update := updateNotificationRegistry (restoreUserRouting other entry stamp) .completes w.file
      r = update.1 ∧ w' = { w with file := update.2, synced := false }
  | .recordPendingCleanup other entry errors, r, w' => ∃ cleanupId recordedAt,
      let added := cleanupEntry other entry errors cleanupId recordedAt
      let update := updateNotificationRegistry (recordPendingCleanup added) .completes w.file
      r = update.1 ∧
        w' = { w with file := update.2, recorded := w.recorded ++ if update.1.isOk then [added] else [] }
  | .syncBackupRegistry _, r, w' => ∃ file,
      (file = w.file ∨
        ∃ marker, file = (updateNotificationRegistry (clearPendingBackupSync marker) .completes w.file).2) ∧
      match r with
      | .ok _ => w' = { w with file, synced := unrouted user w.file }
      | .error e => (e.isNotification = true ∨ unexpected.sync = true) ∧ w' = { w with file }
  | .recordPendingBackupSync error, r, w' => ∃ stamp,
      let update := updateNotificationRegistry (recordPendingBackupSync stamp error) .completes w.file
      r = update.1 ∧ w' = { w with file := update.2 }

def effect (user : String) (unexpected : Unexpected) (w : World) :
    (call : CliCall) → Except CliError call.Ans → World → Prop
  | .oci command, .ok outcome, w' => command.startable = true ∧ w' = w.answered user command outcome
  | .oci command, .error e, w' => e.isNotification = false ∧
      (command.startable = false ∧ w' = w ∨ unexpected.oci = true ∧ w' = w.started user command)
  | .registry call, r, w' => ∃ file, Others user w.file file ∧ registryEffect user unexpected { w with file } call r w'
  | .ldap (.delete dn), .ok reply, w' => w' = { w with ldapDeleted := dn == userDn user && reply.ok }
  | .ldap _, _, w' | .host _, _, w' => w' = w

def deleteWorld (user : String) (unexpected : Unexpected) : Handler cliSig CliError World := fun w call r w' =>
  effect user unexpected w call r w'

/-! ## The promise -/

/-- What the command promises, of an execution that began with `file`. -/
structure Orderly (user : String) (file : RegistryFile) (out : Outcome CliError Unit) (w : World) : Prop where
  order : w.early = []
  restored : ∀ e, out = .raised e → w.ldapDeleted = false → entryOf user w.file = entryOf user file
  journal : out ≠ .cut → w.ldapDeleted = true → ∀ type value,
    (∃ entry ∈ w.recorded, identifierOf entry type = some value) ↔
      (entryOf user file).bind (identifierIn · type) = some value ∧ ¬ GoneValue w.gone type value
  pending : out ≠ .cut → ∀ entry ∈ w.recorded, .obj entry ∈ pendingOf w.file

/-- No entry is removed: there is none, or a check stops the command. -/
def Untouched (user : String) (registry : Registry) : Prop :=
  ∀ entry, Dict.getNotNone registry.users user = some entry →
    managedByTerraform (some entry) ≠ .ok false ∨ (∃ e, validatedNotificationConfig registry = .error e) ∨
      ∃ e, routingFields entry = .error e

/-- What an entry identifies can be deleted, or recorded. -/
structure Disposable (unexpected : Unexpected) (registry : Registry) (fields : Dict) : Prop where
  expected : unexpected.oci = false
  config : PassableFields registry.config
  identifiers : PassableIdentifiers fields
  journal : ∃ pending, pendingCleanup registry = .arr pending

/-- A removed entry can be restored, and identifies nothing or what is `Disposable`. -/
structure Removable (unexpected : Unexpected) (registry : Registry) (entry : Json) (fields : Dict) : Prop where
  isObject : entry = .obj fields
  disposable : (∀ type, identifierOf fields type = none) ∨ Disposable unexpected registry fields

/-- **When the command keeps its promise.** -/
def Deletable (user : String) (unexpected : Unexpected) (registry : Registry) : Prop :=
  Untouched user registry ∨ unexpected.sync = false ∧
    ∃ entry fields, Dict.getNotNone registry.users user = some entry ∧ Removable unexpected registry entry fields

/-! ## What the registry still says -/

/-- The registries agree on the configuration, the journal and the marker apart; the journal is a list in both, or
in neither. -/
structure Alike (r r' : Registry) : Prop where
  config : ∀ key, key ≠ "pending_cleanup" → key ≠ "pending_backup_sync" →
    Dict.get? r'.config key = Dict.get? r.config key
  journal : (∃ pending, pendingCleanup r' = .arr pending) ↔ ∃ pending, pendingCleanup r = .arr pending

theorem Alike.of_config {r r' : Registry} (h : r'.config = r.config) : Alike r r' :=
  ⟨fun _ _ _ => by rw [h], by rw [pendingCleanup, h, pendingCleanup]⟩

theorem Alike.trans {a b c : Registry} (hab : Alike a b) (hbc : Alike b c) : Alike a c :=
  ⟨fun key hj hm => (hbc.config key hj hm).trans (hab.config key hj hm), hbc.journal.trans hab.journal⟩

theorem alike_mark (r : Registry) (users : Dict) (stamp : Stamp) (detail : String) :
    Alike r (markBackupSyncPending { r with users } stamp detail) where
  config := fun key _ hm => Dict.get?_set_ne _ _ hm
  journal := by simp [pendingCleanup, markBackupSyncPending, Dict.getD, Dict.get?_set_ne]

theorem alike_setJournal {r : Registry} {pending : List Json} (h : pendingCleanup r = .arr pending)
    (pending' : List Json) : Alike r { r with config := Dict.set r.config "pending_cleanup" (.arr pending') } where
  config := fun key hj _ => Dict.get?_set_ne _ _ hj
  journal := by simp [pendingCleanup_set, h]

/-- A mutator leaves the user's entry, and the configuration as far as it matters. -/
def Leaves {α : Type} (user : String) (mutator : Mutator α) : Prop :=
  ∀ r result r', mutator r = .ok (result, r') → Alike r r' ∧ Dict.get? r'.users user = Dict.get? r.users user

theorem leaves_store {user other : String} (h : other ≠ user) (entry : Dict) (stamp : Stamp) :
    Leaves user (storeUserRouting other entry stamp) := by
  intro r result r' hm
  unfold storeUserRouting at hm
  split at hm <;> cases hm
  exact ⟨alike_mark .., Dict.get?_set_ne _ _ h.symm⟩

theorem leaves_remove {user other : String} (h : other ≠ user) (stamp : Stamp) :
    Leaves user (removeUserRouting other stamp) := by
  intro r result r' hm
  unfold removeUserRouting at hm
  split at hm
  · cases hm
    exact ⟨.of_config rfl, rfl⟩
  · split at hm
    · cases hm
    · split at hm <;> cases hm
      exact ⟨alike_mark .., Dict.get?_pop_ne _ h.symm⟩

theorem leaves_restore {user other : String} (h : other ≠ user) (entry : Dict) (stamp : Stamp) :
    Leaves user (restoreUserRouting other entry stamp) := by
  intro r result r' hm
  unfold restoreUserRouting at hm
  split at hm <;> cases hm
  exact ⟨alike_mark .., Dict.get?_set_ne _ _ h.symm⟩

theorem leaves_clearSync (user : String) (marker : Json) : Leaves user (clearPendingBackupSync marker) := by
  intro r result r' hm
  unfold clearPendingBackupSync at hm
  split at hm <;> cases hm
  · refine ⟨⟨fun key _ hkey => Dict.get?_pop_ne _ hkey, ?_⟩, rfl⟩
    simp [pendingCleanup, Dict.getD, Dict.get?_pop_ne]
  · exact ⟨.of_config rfl, rfl⟩

theorem leaves_recordSync (user : String) (stamp : Stamp) (error : String) :
    Leaves user (recordPendingBackupSync stamp error) := by
  intro r result r' hm
  cases hm
  exact ⟨alike_mark .., rfl⟩

theorem leaves_recordCleanup (user : String) (added : Dict) : Leaves user (recordPendingCleanup added) := by
  intro r result r' hm
  unfold recordPendingCleanup at hm
  split at hm <;> cases hm
  rename_i hpending
  exact ⟨alike_setJournal hpending _, rfl⟩

theorem leaves_prepareCleanup (user : String) (uuids : List String) : Leaves user (preparePendingCleanup uuids) := by
  intro r result r' hm
  unfold preparePendingCleanup at hm
  split at hm
  · cases hm
  · split at hm
    · rename_i hpending
      split at hm <;> cases hm
      refine ⟨?_, rfl⟩
      split
      · exact alike_setJournal hpending _
      · exact .of_config rfl
    · cases hm

theorem leaves_commitCleanup (user : String) (results : Results) :
    Leaves user (commitPendingCleanupResults results) := by
  intro r result r' hm
  unfold commitPendingCleanupResults at hm
  split at hm
  · rename_i hpending
    split at hm
    · cases hm
    · split at hm
      · cases hm
      · split at hm <;> cases hm
        · exact ⟨alike_setJournal hpending _, rfl⟩
        · refine ⟨⟨fun key hkey _ => Dict.get?_pop_ne _ hkey, ?_⟩, rfl⟩
          simp [pendingCleanup_pop, hpending]
  · cases hm

/-- The file can be read, agrees with `r₀`, and has this entry of the user. -/
def Kept (user : String) (r₀ : Registry) (entry : Option Json) (file : RegistryFile) : Prop :=
  ∃ r, loadNotificationRegistry file = .ok r ∧ Alike r₀ r ∧ Dict.get? r.users user = entry

section
variable {user : String} {r₀ : Registry} {entry : Option Json} {file file' : RegistryFile}

theorem Kept.start (h : loadNotificationRegistry file = .ok r₀) : Kept user r₀ (Dict.get? r₀.users user) file :=
  ⟨r₀, h, .of_config rfl, rfl⟩

theorem Kept.entryOf (h : Kept user r₀ entry file) : entryOf user file = entry := by
  obtain ⟨r, hl, _, he⟩ := h
  rw [UserDeleteOrder.entryOf, usersOf_of_load hl]
  exact he

theorem Kept.unrouted (h : Kept user r₀ entry file) : unrouted user file = entry.isNone := by
  obtain ⟨r, hl, _, rfl⟩ := h
  rw [UserDeleteOrder.unrouted, usersOf_of_load hl]
  rfl

theorem Kept.update {α : Type} {mutator : Mutator α} (h : Kept user r₀ entry file) (hm : Leaves user mutator)
    (io : UpdateIo) : Kept user r₀ entry (updateNotificationRegistry mutator io file).2 := by
  rcases updateNotificationRegistry_cases mutator io file with ⟨e, he⟩ | ⟨r, result, r', hl, hr, hu⟩
  · rw [he]
    exact h
  · obtain ⟨r₁, hl₁, hlike, hentry⟩ := h
    cases hl.symm.trans hl₁
    obtain ⟨hlike', hsame⟩ := hm r result r' hr
    rw [hu]
    exact ⟨r', loadNotificationRegistry_toJson r', hlike.trans hlike', hsame.trans hentry⟩

theorem OtherUpdate.kept (h : OtherUpdate user file file') (hk : Kept user r₀ entry file) :
    Kept user r₀ entry file' := by
  cases h with
  | store hother => exact hk.update (leaves_store hother _ _) _
  | remove hother => exact hk.update (leaves_remove hother _) _
  | restore hother => exact hk.update (leaves_restore hother _ _) _
  | clearSync => exact hk.update (leaves_clearSync _ _) _
  | recordSync => exact hk.update (leaves_recordSync _ _ _) _
  | recordCleanup => exact hk.update (leaves_recordCleanup _ _) _
  | prepareCleanup => exact hk.update (leaves_prepareCleanup _ _) _
  | commitCleanup => exact hk.update (leaves_commitCleanup _ _) _

/-- **Other commands leave what matters to this one.** -/
theorem Others.kept (h : Others user file file') (hk : Kept user r₀ entry file) : Kept user r₀ entry file' := by
  induction h with
  | refl => exact hk
  | tail _ hstep ih => exact hstep.kept ih

theorem update_unreadable {α : Type} {e : CliError} (he : loadNotificationRegistry file = .error e)
    (mutator : Mutator α) (io : UpdateIo) : (updateNotificationRegistry mutator io file).2 = file := by
  rcases updateNotificationRegistry_cases mutator io file with ⟨e', he'⟩ | ⟨r, _, _, hl, _⟩
  · rw [he']
  · rw [he] at hl
    cases hl

theorem Others.unreadable {e : CliError} (h : Others user file file')
    (he : loadNotificationRegistry file = .error e) : file' = file := by
  induction h with
  | refl => rfl
  | tail _ hstep ih =>
      subst ih
      cases hstep <;> exact update_unreadable he _ _

end

/-! ## The calls to the registry -/

/-- The command has changed nothing but the registry. -/
structure Before (user : String) (r₀ : Registry) (entry : Option Json) (w : World) : Prop where
  kept : Kept user r₀ entry w.file
  commands : w.commands = []
  early : w.early = []
  recorded : w.recorded = []
  live : w.ldapDeleted = false

section
variable {user : String} {unexpected : Unexpected} {r₀ : Registry} {entry : Option Json} {w : World}

theorem Before.change (h : Before user r₀ entry w) {entry' : Option Json} {file : RegistryFile}
    (hk : Kept user r₀ entry' file) (synced : Bool) : Before user r₀ entry' { w with file, synced } :=
  ⟨hk, h.commands, h.early, h.recorded, h.live⟩

/-- Until LDAP is changed, the command is orderly if the entry is what it was. -/
theorem Before.orderly (h : Before user r₀ entry w) {file : RegistryFile} (hentry : entryOf user file = entry)
    (out : Outcome CliError Unit) : Orderly user file out w where
  order := h.early
  restored := fun _ _ _ => by rw [h.kept.entryOf, hentry]
  journal := fun _ hdeleted => by rw [h.live] at hdeleted; cases hdeleted
  pending := fun _ entry hmem => by rw [h.recorded] at hmem; cases hmem

theorem wp_registry (call : RegistryCall) {Q : Post World CliError call.Ans} (hcut : Q.cut w)
    (hok : ∀ file a w', Others user w.file file →
      registryEffect user unexpected { w with file } call (.ok a) w' → Q.ret a w')
    (herr : ∀ file e w', Others user w.file file →
      registryEffect user unexpected { w with file } call (.error e) w' → Q.exc e w') :
    (registryCall call).wp (deleteWorld user unexpected) Q w := by
  refine (Prog.wp_perform (S := cliSig) (.registry call) Q w).mpr ⟨hcut, fun a w' h => ?_, fun e w' h => ?_⟩
  · obtain ⟨file, hothers, heffect⟩ := h
    exact hok file a w' hothers heffect
  · obtain ⟨file, hothers, heffect⟩ := h
    exact herr file e w' hothers heffect

theorem load_spec (h : Before user r₀ entry w) :
    (registryCall .loadNotificationRegistry).wp (deleteWorld user unexpected)
      ⟨fun r w' => Before user r₀ entry w' ∧ Alike r₀ r ∧ Dict.get? r.users user = entry,
        fun _ _ => False, fun w' => w'.early = []⟩ w := by
  refine wp_registry _ h.early (fun file r w' hothers heffect => ?_) fun file e w' hothers heffect => ?_
  · obtain ⟨r', hl, hlike, hentry⟩ := hothers.kept h.kept
    obtain ⟨hr, rfl⟩ := heffect
    cases hr.trans hl
    exact ⟨h.change ⟨_, hl, hlike, hentry⟩ _, hlike, hentry⟩
  · obtain ⟨r', hl, -⟩ := hothers.kept h.kept
    obtain ⟨hr, rfl⟩ := heffect
    cases hr.trans hl

theorem update_completes {α : Type} {mutator : Mutator α} {file : RegistryFile} {r r' : Registry} {result : α}
    (hl : loadNotificationRegistry file = .ok r) (hm : mutator r = .ok (result, r')) :
    updateNotificationRegistry mutator .completes file = (.ok result, .json r'.toJson) := by
  simp only [updateNotificationRegistry, hl, hm]

theorem restore_spec (h : Before user r₀ none w) (fields : Dict) :
    (registryCall (.restoreUserRouting user fields)).wp (deleteWorld user unexpected)
      ⟨fun _ w' => Before user r₀ (some (.obj fields)) w', fun _ _ => False, fun w' => w'.early = []⟩ w := by
  have hrun : ∀ file stamp, Others user w.file file → ∃ r' : Registry, Kept user r₀ (some (.obj fields)) (.json r'.toJson) ∧
      updateNotificationRegistry (restoreUserRouting user fields stamp) .completes file =
        (.ok (), .json r'.toJson) := by
    intro file stamp hothers
    obtain ⟨r, hl, hlike, hentry⟩ := hothers.kept h.kept
    refine ⟨_, ?_, update_completes hl (by simp only [restoreUserRouting, hentry]; rfl)⟩
    exact ⟨_, loadNotificationRegistry_toJson _, hlike.trans (alike_mark ..), Dict.get?_set_self ..⟩
  refine wp_registry _ h.early (fun file r w' hothers heffect => ?_) fun file e w' hothers heffect => ?_
  · obtain ⟨stamp, -, rfl⟩ := heffect
    obtain ⟨r', hkept, hu⟩ := hrun file stamp hothers
    rw [hu]
    exact h.change hkept false
  · obtain ⟨stamp, hr, -⟩ := heffect
    obtain ⟨r', -, hu⟩ := hrun file stamp hothers
    rw [hu] at hr
    cases hr

theorem recordSync_spec (h : Before user r₀ entry w) (error : String) :
    (registryCall (.recordPendingBackupSync error)).wp (deleteWorld user unexpected)
      ⟨fun _ w' => Before user r₀ entry w', fun _ _ => False, fun w' => w'.early = []⟩ w := by
  refine wp_registry _ h.early (fun file r w' hothers heffect => ?_) fun file e w' hothers heffect => ?_
  · obtain ⟨stamp, -, rfl⟩ := heffect
    exact h.change ((hothers.kept h.kept).update (leaves_recordSync user stamp error) _) _
  · obtain ⟨r, hl, -⟩ := hothers.kept h.kept
    obtain ⟨stamp, hr, -⟩ := heffect
    rw [@update_completes _ _ _ _ _ () hl rfl] at hr
    cases hr

theorem sync_spec (hsync : unexpected.sync = false) (h : Before user r₀ entry w) (registry : Registry) :
    (registryCall (.syncBackupRegistry registry)).wp (deleteWorld user unexpected)
      ⟨fun _ w' => Before user r₀ entry w' ∧ w'.synced = entry.isNone,
        fun e w' => Before user r₀ entry w' ∧ e.isNotification = true, fun w' => w'.early = []⟩ w := by
  have hfile : ∀ file file', Others user w.file file → (file' = file ∨ ∃ marker,
      file' = (updateNotificationRegistry (clearPendingBackupSync marker) .completes file).2) →
      Kept user r₀ entry file' := by
    rintro file file' hothers (rfl | ⟨marker, rfl⟩)
    · exact hothers.kept h.kept
    · exact (hothers.kept h.kept).update (leaves_clearSync user marker) _
  refine wp_registry _ h.early (fun file r w' hothers heffect => ?_) fun file e w' hothers heffect => ?_
  · obtain ⟨file', hcases, rfl⟩ := heffect
    exact ⟨h.change (hfile file file' hothers hcases) _, (hothers.kept h.kept).unrouted⟩
  · obtain ⟨file', hcases, hraise, rfl⟩ := heffect
    exact ⟨h.change (hfile file file' hothers hcases) _, hraise.resolve_right (by simp [hsync])⟩

theorem syncBackup_spec (hsync : unexpected.sync = false) (h : Before user r₀ entry w) :
    syncBackup.wp (deleteWorld user unexpected)
      ⟨fun _ w' => Before user r₀ entry w' ∧ w'.synced = entry.isNone,
        fun e w' => Before user r₀ entry w' ∧ e.isNotification = true, fun w' => w'.early = []⟩ w := by
  refine Prog.wp_seq (Prog.wp_mono (load_spec h) (fun _ _ hr => hr) (fun _ _ hf => hf.elim) fun _ hc => hc) ?_
  rintro current w' ⟨h', -⟩
  exact sync_spec hsync h' current

theorem issueOf_spec {p : Cli Unit} {R C : World → Prop}
    (h : p.wp (deleteWorld user unexpected) ⟨fun _ w' => R w', fun e w' => R w' ∧ e.isNotification = true, C⟩ w) :
    (issueOf p).wp (deleteWorld user unexpected) ⟨fun _ w' => R w', fun _ _ => False, C⟩ w := by
  refine wp_exceptNotification (E := fun e w' => R w' ∧ e.isNotification = true) ?_ (fun e w' he _ => he.1)
    fun e w' he hother => ?_
  · exact Prog.wp_seq h fun _ w' hw' => hw'
  · rw [he.2] at hother
    cases hother

/-- **A removal is undone**: the entry is back, whatever the synchronization does. -/
theorem undoRemoval_spec (hsync : unexpected.sync = false) (h : Before user r₀ none w) (fields : Dict) :
    (undoRemoval user (some fields)).wp (deleteWorld user unexpected)
      ⟨fun _ w' => Before user r₀ (some (.obj fields)) w', fun _ _ => False, fun w' => w'.early = []⟩ w := by
  refine Prog.wp_seq (issueOf_spec (Prog.wp_mono (restore_spec h fields) (fun _ _ hr => hr)
    (fun _ _ hf => hf.elim) fun _ hc => hc)) fun restore w₁ h₁ => ?_
  refine Prog.wp_seq (issueOf_spec (Prog.wp_mono (syncBackup_spec hsync h₁) (fun _ _ hr => hr.1)
    (fun _ _ hf => hf) fun _ hc => hc)) fun sync w₂ h₂ => ?_
  cases sync with
  | none => exact h₂
  | some error =>
      refine Prog.wp_seq (issueOf_spec (Prog.wp_mono (recordSync_spec h₂ error.message) (fun _ _ hr => hr)
        (fun _ _ hf => hf.elim) fun _ hc => hc)) fun record w₃ h₃ => ?_
      exact h₃

end

/-! ## The stages -/

theorem wp_orClick {α : Type} {H : Handler cliSig CliError World} {text : String} {p : Cli α} {R : α → World → Prop}
    {E C : World → Prop} {w : World} (h : p.wp H ⟨R, fun _ w' => E w', C⟩ w) :
    (orClick text p).wp H ⟨R, fun _ w' => E w', C⟩ w :=
  wp_exceptNotification h (fun _ _ he _ => he) fun _ _ he _ => he

theorem isBlankField_congr {config config' : Dict} {field : String}
    (h : Dict.get? config' field = Dict.get? config field) : isBlankField config' field = isBlankField config field := by
  rw [isBlankField, isBlankField, Dict.getD, Dict.getD, h]

/-- The checks of the configuration do not look at the journal and the marker. -/
theorem Alike.validated_error {r r' : Registry} (h : Alike r r') {e : CliError}
    (he : validatedNotificationConfig r = .error e) : ∃ e', validatedNotificationConfig r' = .error e' := by
  have hget : ∀ key default, key ≠ "pending_cleanup" → key ≠ "pending_backup_sync" →
      Dict.getD r'.config key default = Dict.getD r.config key default := fun key default hj hm => by
    rw [Dict.getD, Dict.getD, h.config key hj hm]
  have hblank : requiredConfigFields.filter (isBlankField r'.config) =
      requiredConfigFields.filter (isBlankField r.config) := by
    refine List.filter_congr fun field hfield => isBlankField_congr (h.config field ?_ ?_) <;>
      rintro rfl <;> revert hfield <;> decide
  unfold validatedNotificationConfig at he ⊢
  dsimp only at he ⊢
  rw [hblank, hget "deployment_id" _ (by decide) (by decide), hget "auth" _ (by decide) (by decide)]
  split at he
  · split at he
    · rename_i hid
      exact ⟨e, by rw [if_pos hid]; exact he⟩
    · rename_i hid
      split at he
      · rename_i hauth
        exact ⟨e, by rw [if_neg hid, if_pos hauth]; exact he⟩
      · cases he
  · exact ⟨e, he⟩

theorem Alike.passableFields {r r' : Registry} (h : Alike r r') (hc : PassableFields r.config) :
    PassableFields r'.config := by
  refine ⟨?_, ?_, ?_⟩
  · rw [h.config "auth" (by decide) (by decide)]
    exact hc.auth
  · rw [h.config "region" (by decide) (by decide)]
    exact hc.region
  · rw [h.config "compartment_id" (by decide) (by decide)]
    exact hc.compartment

theorem not_terraform {entry : Json} {fields : Dict} (h : managedByTerraform (some entry) = .ok false)
    (hfields : routingFields entry = .ok fields) : Dict.get? fields "managed_by" ≠ some (.str "terraform") := by
  unfold routingFields at hfields
  split at hfields
  · cases hfields
    simpa [managedByTerraform] using h
  · split at hfields
    · cases hfields
    · split at hfields <;> cases hfields <;> exact nofun

section
variable {user : String} {unexpected : Unexpected} {r₀ : Registry} {entry : Json} {w : World}

theorem remove_spec (h : Before user r₀ (some entry) w) (hentry : entry.isNotNone = true)
    (hplain : managedByTerraform (some entry) = .ok false) :
    (registryCall (.removeUserRouting user)).wp (deleteWorld user unexpected)
      ⟨fun removed w' => Before user r₀ none w' ∧ (∃ r, Alike r₀ r ∧ r.config = removed.1) ∧
          ∃ fields, routingFields entry = .ok fields ∧ removed.2 = some fields,
        fun _ w' => Before user r₀ (some entry) w' ∧ ∃ e, routingFields entry = .error e,
        fun w' => w'.early = []⟩ w := by
  have hrun : ∀ file stamp, Others user w.file file →
      (∃ e, routingFields entry = .error e ∧ Kept user r₀ (some entry) file ∧
        updateNotificationRegistry (removeUserRouting user stamp) .completes file = (.error e, file)) ∨
      ∃ (r r' : Registry) (fields : Dict), routingFields entry = .ok fields ∧ Alike r₀ r ∧ Kept user r₀ none (.json r'.toJson) ∧
        updateNotificationRegistry (removeUserRouting user stamp) .completes file =
          (.ok (r.config, some fields), .json r'.toJson) := by
    intro file stamp hothers
    have hkept := hothers.kept h.kept
    obtain ⟨r, hl, hlike, huser⟩ := hkept
    have hnotNone : Dict.getNotNone r.users user = some entry := Dict.getNotNone_eq_some.mpr ⟨huser, hentry⟩
    cases hfields : routingFields entry with
    | error e =>
        refine .inl ⟨e, rfl, hothers.kept h.kept, ?_⟩
        simp only [updateNotificationRegistry, hl, removeUserRouting, hnotNone, hfields]
    | ok fields =>
        have hremove : removeUserRouting user stamp r = .ok ((r.config, some fields),
            markBackupSyncPending { r with users := Dict.pop r.users user } stamp
              ("notification routing for '" ++ user ++ "' was removed")) := by
          simp only [removeUserRouting, hnotNone, hfields, not_terraform hplain hfields, if_false]
        refine .inr ⟨r, _, fields, rfl, hlike, ?_, update_completes hl hremove⟩
        exact ⟨_, loadNotificationRegistry_toJson _, hlike.trans (alike_mark ..), Dict.get?_pop_self ..⟩
  refine wp_registry _ h.early (fun file removed w' hothers heffect => ?_) fun file e w' hothers heffect => ?_
  · obtain ⟨stamp, hr, rfl⟩ := heffect
    rcases hrun file stamp hothers with ⟨e, -, -, hu⟩ | ⟨r, r', fields, hfields, hlike, hkept, hu⟩
    · rw [hu] at hr
      cases hr
    · rw [hu] at hr ⊢
      cases hr
      exact ⟨h.change hkept false, ⟨r, hlike, rfl⟩, fields, hfields, rfl⟩
  · obtain ⟨stamp, hr, rfl⟩ := heffect
    rcases hrun file stamp hothers with ⟨e', he', hkept, hu⟩ | ⟨r, r', fields, -, -, -, hu⟩
    · rw [hu]
      exact ⟨h.change hkept false, e', he'⟩
    · rw [hu] at hr
      cases hr

/-- A check stops the removal. -/
theorem removeAndSync_untouched (h : Before user r₀ (some entry) w) (hentry : entry.isNotNone = true)
    (hplain : managedByTerraform (some entry) = .ok false) {registry : Registry} (hlike : Alike r₀ registry)
    (hstop : (∃ e, validatedNotificationConfig r₀ = .error e) ∨ ∃ e, routingFields entry = .error e) :
    (removeAndSync user registry).wp (deleteWorld user unexpected)
      ⟨fun _ _ => False, fun _ w' => Before user r₀ (some entry) w', fun w' => w'.early = []⟩ w := by
  refine Prog.wp_seq (R := fun _ _ => False) (wp_orClick (Prog.wp_ofExcept_seq (fun config hconfig => ?_)
    fun _ _ => h)) fun _ _ hf => hf.elim
  rcases hstop with ⟨e, he⟩ | ⟨e, he⟩
  · obtain ⟨e', he'⟩ := hlike.validated_error he
    cases hconfig.symm.trans he'
  · refine Prog.wp_mono (remove_spec h hentry hplain) ?_ (fun _ _ hr => hr.1) fun _ hc => hc
    rintro removed w' ⟨-, -, fields, hfields, -⟩
    cases he.symm.trans hfields

/-- **The route is removed and synchronized, or the entry is back.** -/
theorem removeAndSync_spec (hsync : unexpected.sync = false) {fields : Dict} (h : Before user r₀ (some (.obj fields)) w)
    (hplain : managedByTerraform (some (.obj fields)) = .ok false) (registry : Registry) :
    (removeAndSync user registry).wp (deleteWorld user unexpected)
      ⟨fun removed w' => Before user r₀ none w' ∧ w'.synced = true ∧ (∃ r, Alike r₀ r ∧ r.config = removed.1) ∧
          removed.2 = some fields,
        fun _ w' => Before user r₀ (some (.obj fields)) w', fun w' => w'.early = []⟩ w := by
  refine Prog.wp_seq (wp_orClick (Prog.wp_ofExcept_seq (fun _ _ => Prog.wp_mono (remove_spec h rfl hplain)
    (fun _ _ hr => hr) (fun _ _ he => he.1) fun _ hc => hc) fun _ _ => h)) ?_
  rintro ⟨config, removed⟩ w₁ ⟨h₁, hconfig, fields', hfields, hremoved⟩
  cases hfields
  subst hremoved
  refine Prog.wp_seq (R := fun _ w' => Before user r₀ none w' ∧ w'.synced = true) ?_
    fun _ w₂ h₂ => ⟨h₂.1, h₂.2, hconfig, rfl⟩
  refine wp_exceptNotification (syncBackup_spec hsync h₁) (fun error w₂ h₂ _ => ?_) fun error w₂ h₂ hother => ?_
  · exact Prog.wp_seq (Prog.wp_mono (undoRemoval_spec hsync h₂.1 fields) (fun _ _ hr => hr) (fun _ _ hf => hf.elim)
      fun _ hc => hc) fun _ w₃ h₃ => h₃
  · rw [h₂.2] at hother
    cases hother

theorem deleteLdapUser_spec (hlive : w.ldapDeleted = false) :
    (deleteLdapUser user).wp (deleteWorld user unexpected)
      ⟨fun _ w' => w' = { w with ldapDeleted := true }, fun _ w' => w' = w, fun w' => w' = w⟩ w := by
  refine Prog.wp_perform_seq (S := cliSig) (o := .ldap .connect) rfl (fun _ w₁ h₁ => ?_) fun _ w₁ h₁ => h₁
  obtain rfl : w₁ = w := h₁
  refine Prog.wp_perform_seq (S := cliSig) (o := .ldap (.delete (userDn user))) rfl (fun reply w₂ h₂ => ?_)
    fun _ w₂ h₂ => h₂
  obtain rfl : w₂ = { w₁ with ldapDeleted := userDn user == userDn user && reply.ok } := h₂
  rw [ensureLdapSuccess, Prog.wp_ofExcept]
  cases hreply : reply.ok with
  | true => simp
  | false =>
      have hsame : { w₁ with ldapDeleted := userDn user == userDn user && false } = w₁ := by
        rw [Bool.and_false, ← hlive]
      simpa only [Bool.false_eq_true, if_false] using hsame

/-- **LDAP is changed, or the entry is back.** -/
theorem deleteLdap_spec (hsync : unexpected.sync = false) {fields : Dict} (h : Before user r₀ none w) :
    (deleteLdap user (some fields)).wp (deleteWorld user unexpected)
      ⟨fun _ w' => w' = { w with ldapDeleted := true }, fun _ w' => Before user r₀ (some (.obj fields)) w',
        fun w' => w'.early = []⟩ w := by
  rw [deleteLdap, Prog.wp_tryCatch]
  refine Prog.wp_mono (deleteLdapUser_spec h.live) (fun _ _ hr => hr) ?_ fun w' hc => hc ▸ h.early
  rintro error w' rfl
  refine Prog.wp_seq (R := fun _ w' => Before user r₀ (some (.obj fields)) w') ?_ fun _ _ h' => h'
  exact Prog.wp_seq (Prog.wp_mono (undoRemoval_spec hsync h fields) (fun _ _ hr => hr) (fun _ _ hf => hf.elim)
    fun _ hc => hc) fun _ _ h' => h'

theorem deleteLdap_unrouted (hlive : w.ldapDeleted = false) :
    (deleteLdap user none).wp (deleteWorld user unexpected)
      ⟨fun _ w' => w' = { w with ldapDeleted := true }, fun _ w' => w' = w, fun w' => w' = w⟩ w := by
  rw [deleteLdap, Prog.wp_tryCatch]
  refine Prog.wp_mono (deleteLdapUser_spec hlive) (fun _ _ hr => hr) ?_ fun _ hc => hc
  rintro error w' rfl
  rfl

end

/-! ## The deletion -/

/-- Everything is removed but the resources. -/
structure Deleting (user : String) (r₀ : Registry) (w : World) : Prop where
  kept : Kept user r₀ none w.file
  early : w.early = []
  recorded : w.recorded = []
  synced : w.synced = true
  deleted : w.ldapDeleted = true

section
variable {user : String} {unexpected : Unexpected} {r₀ : Registry} {fields : Dict} {w : World}

theorem Deleting.started (h : Deleting user r₀ w) (command : OciCommand) :
    Deleting user r₀ (w.started user command) where
  kept := h.kept
  early := by simp [World.started, World.ready, h.early, h.kept.unrouted, h.synced, h.deleted]
  recorded := h.recorded
  synced := h.synced
  deleted := h.deleted

theorem Deleting.answered (h : Deleting user r₀ w) (command : OciCommand) (outcome : ProcessOutcome) :
    Deleting user r₀ (w.answered user command outcome) :=
  let ⟨kept, early, recorded, synced, deleted⟩ := h.started command
  ⟨kept, early, recorded, synced, deleted⟩

theorem keeps_deleting {α : Type} (p : Prog ociSig CliError α) :
    p.Keeps (ociOutside (deleteWorld user unexpected)) (Deleting user r₀) := by
  refine Prog.keeps_of_calls (Prog.calls_true p) fun w command r w' _ hw hr => ?_
  cases r with
  | ok outcome =>
      obtain ⟨-, rfl⟩ : _ ∧ w' = w.answered user command outcome := hr
      exact hw.answered command outcome
  | error e =>
      obtain ⟨-, ⟨-, rfl⟩ | ⟨-, rfl⟩⟩ := hr
      · exact hw
      · exact hw.started command

/-- A process that is started, and prints what can be read, raises nothing. -/
theorem keepsUnless_false (user : String) (hexpected : unexpected.oci = false) :
    KeepsUnless (fun w command r w' => command.startable = true ∧ ociOutside (deleteWorld user unexpected) w command r w')
      (fun _ => True) fun _ _ => False := by
  rintro w command r w' - ⟨hstart, hr⟩
  cases r with
  | ok outcome => trivial
  | error e =>
      obtain ⟨-, ⟨hno, -⟩ | ⟨hraise, -⟩⟩ := hr
      · exact nomatch hstart.symm.trans hno
      · exact nomatch hexpected.symm.trans hraise

theorem exactAbsence (user : String) (unexpected : Unexpected) :
    ExactAbsence (ociOutside (deleteWorld user unexpected)) World.gone where
  raises := by
    rintro w command e w' ⟨-, ⟨-, rfl⟩ | ⟨-, rfl⟩⟩ <;> rfl
  answers := by
    intro w command outcome w' type id hr
    obtain ⟨-, rfl⟩ : _ ∧ w' = w.answered user command outcome := hr
    simp [World.gone, goneIn, World.answered, World.started, or_and_right, exists_or]

theorem absence (user : String) (unexpected : Unexpected) :
    Absence (ociOutside (deleteWorld user unexpected)) World.gone where
  keeps := by
    intro w command r w' type id hr hgone
    cases r with
    | error e =>
        rw [(exactAbsence user unexpected).raises w command e w' hr]
        exact hgone
    | ok outcome =>
        exact ((exactAbsence user unexpected).answers w command outcome w' type id hr).mpr (.inl hgone)
  shows := fun w command outcome w' type id hr hs =>
    ((exactAbsence user unexpected).answers w command outcome w' type id hr).mpr (.inr hs)

/-- The command is orderly when the journal has what is left. -/
theorem Deleting.orderly (h : Deleting user r₀ w) {file : RegistryFile} (hentry : entryOf user file = some (.obj fields))
    (hleft : ∀ type value, ¬ (identifierOf fields type = some value ∧ ¬ GoneValue w.gone type value))
    (out : Outcome CliError Unit) : Orderly user file out w where
  order := h.early
  restored := fun _ _ hlive => by rw [h.deleted] at hlive; cases hlive
  journal := fun _ _ type value => by simp [h.recorded, hentry, identifierIn, hleft]
  pending := fun _ entry hmem => by rw [h.recorded] at hmem; cases hmem

theorem recordCleanup_spec (h : Deleting user r₀ w) (hlist : ∃ pending, pendingCleanup r₀ = .arr pending)
    {file : RegistryFile} (hentry : entryOf user file = some (.obj fields)) {remaining : Dict}
    (hleft : LeftOf w.gone fields remaining) (errors : List String) :
    (recordCleanup user remaining errors).wp (deleteWorld user unexpected)
      ⟨fun _ w' => ∀ out, Orderly user file out w', fun _ _ => False, fun w' => w'.early = []⟩ w := by
  unfold recordCleanup
  split
  · rename_i hnothing
    refine fun out => h.orderly hentry (fun type value hv => ?_) out
    have hnone : identifierOf remaining type = none := by
      cases type <;> simp_all [nothingToClean]
    rw [← hleft, hnone] at hv
    cases hv
  · have hrun : ∀ file added, Others user w.file file → ∃ r', Kept user r₀ none file ∧
        Json.obj added ∈ pendingOf r' ∧
        updateNotificationRegistry (recordPendingCleanup added) .completes file = (.ok (), r') := by
      intro file added hothers
      obtain ⟨r, hl, hlike, huser⟩ := hothers.kept h.kept
      obtain ⟨pending, hpending⟩ := hlike.journal.mpr hlist
      have hrecord : recordPendingCleanup added r = .ok ((), { r with
          config := Dict.set r.config "pending_cleanup" (.arr (pending ++ [.obj added])) }) := by
        simp only [recordPendingCleanup, hpending]
      refine ⟨_, ⟨r, hl, hlike, huser⟩, ?_, update_completes hl hrecord⟩
      rw [pendingOf_toJson (pendingCleanup_set ..)]
      simp
    refine wp_registry _ h.early (fun now r w' hothers heffect out => ?_) fun now e w' hothers heffect => ?_
    · obtain ⟨cleanupId, recordedAt, -, rfl⟩ := heffect
      obtain ⟨r', -, hmem, hu⟩ := hrun now (cleanupEntry user remaining errors cleanupId recordedAt) hothers
      rw [hu]
      refine ⟨h.early, fun _ _ hlive => ?_, fun _ _ type value => ?_, fun _ entry hentry => ?_⟩
      · rw [show w.ldapDeleted = true from h.deleted] at hlive
        cases hlive
      · simpa [h.recorded, Except.isOk, Except.toBool, identifierOf_cleanupEntry, hentry, identifierIn]
          using hleft type value
      · simp only [h.recorded, Except.isOk, Except.toBool, if_true, List.nil_append, List.mem_singleton] at hentry
        rw [hentry]
        exact hmem
    · obtain ⟨cleanupId, recordedAt, hr, -⟩ := heffect
      obtain ⟨r', -, -, hu⟩ := hrun now (cleanupEntry user remaining errors cleanupId recordedAt) hothers
      rw [hu] at hr
      cases hr

theorem deleteNotificationResources_nothing (config : Dict) (h : ∀ type, identifierOf fields type = none) :
    deleteNotificationResources config fields = .ret ([], fields) := by
  simp only [deleteNotificationResources, deleteIdentifier, h, Prog.bind]

/-- **What is not deleted and not found absent is recorded, and nothing else.** -/
theorem deleteResources_spec (h : Deleting user r₀ w) (hcommands : w.commands = []) {config : Dict}
    (hconfig : ∃ r, Alike r₀ r ∧ r.config = config) {file : RegistryFile}
    (hentry : entryOf user file = some (.obj fields))
    (hdisposable : (∀ type, identifierOf fields type = none) ∨ Disposable unexpected r₀ fields) :
    (deleteResources user config fields).wp (deleteWorld user unexpected)
      ⟨fun _ w' => ∀ out, Orderly user file out w', fun _ w' => ∀ out, Orderly user file out w',
        fun w' => w'.early = []⟩ w := by
  refine Prog.wp_seq (R := fun _ w' => ∀ out, Orderly user file out w') ?_ fun errors w' h' => ?_
  · rcases hdisposable with hnothing | ⟨hexpected, hfields, hstring, hlist⟩
    · rw [deleteOrRecord, deleteNotificationResources_nothing config hnothing]
      exact fun out => h.orderly hentry (fun type value hv => by simp [hnothing] at hv) out
    · obtain ⟨r, hlike, rfl⟩ := hconfig
      have hnone : ∀ type id, ¬ w.gone type id := fun type id hgone => by
        obtain ⟨c, hc, -⟩ := hgone
        rw [hcommands] at hc
        cases hc
      have hdelete := Prog.wp_and (Prog.wp_and
        (deleteNotificationResources_exact (exactAbsence user unexpected) r.config fields w hnone)
        (deleteNotificationResources_spec (absence user unexpected) r.config fields w))
        (Prog.wp_of_calls (calls_deleteNotificationResources_startable (hlike.passableFields hfields) hstring)
          (deleteNotificationResources_raises (keepsUnless_false user hexpected)
            (hlike.passableFields hfields).commandFields hstring.strings (w := w) trivial))
      refine Prog.wp_seq ((wp_oci _ _ w).mpr (Prog.wp_mono (Prog.wp_and_keeps (keeps_deleting _) h hdelete)
        (fun _ _ hr => hr) (fun _ _ he => he.1.2.elim) fun _ hc => hc.2.early)) ?_
      rintro ⟨errors, remaining⟩ w₁ ⟨⟨⟨hleft, -, hall⟩, -⟩, h₁⟩
      dsimp only
      split
      · rename_i herrors
        refine fun out => h₁.orderly hentry (fun type value hv => ?_) out
        have hno := (hall herrors type value hv.2).mp hv.1
        cases hno
      · refine wp_exceptNotification (E := fun _ _ => False) ?_ (fun _ _ hf _ => hf.elim) fun _ _ hf _ => hf.elim
        exact Prog.wp_seq (Prog.wp_mono (recordCleanup_spec h₁ hlist hentry hleft errors) (fun _ _ hr => hr)
          (fun _ _ hf => hf) fun _ hc => hc) fun _ w₂ h₂ => h₂
  · split <;> exact h'

end

/-! ## The command -/

section
variable {user : String} {unexpected : Unexpected} {r₀ : Registry} {file : RegistryFile}

theorem entryOf_of_load (h : loadNotificationRegistry file = .ok r₀) : entryOf user file = Dict.get? r₀.users user :=
  (Kept.start h).entryOf

theorem read_spec (hl : loadNotificationRegistry file = .ok r₀) :
    (orClick "" (registryCall .loadNotificationRegistry)).wp (deleteWorld user unexpected)
      ⟨fun r w' => Before user r₀ (Dict.get? r₀.users user) w' ∧ Alike r₀ r ∧
          Dict.getNotNone r.users user = Dict.getNotNone r₀.users user,
        fun _ _ => False, fun w' => w'.early = []⟩ (start file) := by
  refine wp_orClick (E := fun _ => False) (Prog.wp_mono (load_spec ⟨Kept.start hl, rfl, rfl, rfl, rfl⟩) ?_
    (fun _ _ hf => hf) fun _ hc => hc)
  rintro r w' ⟨h, hlike, hentry⟩
  exact ⟨h, hlike, by rw [Dict.getNotNone, Dict.getNotNone, hentry]⟩

theorem read_unreadable {e : CliError} (he : loadNotificationRegistry file = .error e) :
    (orClick "" (registryCall .loadNotificationRegistry)).wp (deleteWorld user unexpected)
      ⟨fun _ _ => False, fun _ w' => w' = start file, fun w' => w'.early = []⟩ (start file) := by
  refine wp_orClick (wp_registry _ rfl (fun now r w' hothers heffect => ?_) fun now e' w' hothers heffect => ?_)
  · obtain ⟨hr, -⟩ := heffect
    rw [hothers.unreadable he] at hr
    cases hr.trans he
  · obtain ⟨-, rfl⟩ := heffect
    have hnow : now = file := hothers.unreadable he
    rw [hnow]
    rfl

/-- A user without an entry: only LDAP is changed. -/
theorem Before.orderly_unrouted {entry : Option Json} {w : World} (h : Before user r₀ entry w)
    (hentry : entryOf user file = entry) (hnone : entry.filter Json.isNotNone = none) (out : Outcome CliError Unit) :
    Orderly user file out { w with ldapDeleted := true } where
  order := h.early
  restored := fun _ _ hlive => by cases hlive
  journal := fun _ _ type value => by
    have hno : entry.bind (identifierIn · type) = none := by
      cases entry with
      | none => rfl
      | some e => cases e <;> simp_all [Json.isNotNone, identifierIn, Json.obj?]
    simp [h.recorded, hentry, hno]
  pending := fun _ entry hmem => by rw [show w.recorded = [] from h.recorded] at hmem; cases hmem

theorem delete_spec (h : user = "opc" ∨ ∀ registry, loadNotificationRegistry file = .ok registry →
      Deletable user unexpected registry) :
    (delete user).wp (deleteWorld user unexpected)
      ⟨fun _ w' => ∀ out, Orderly user file out w', fun _ w' => ∀ out, Orderly user file out w',
        fun w' => w'.early = []⟩ (start file) := by
  have hstart : ∀ out, Orderly user file out (start file) := fun out =>
    ⟨rfl, fun _ _ _ => rfl, fun _ hdeleted => (Bool.false_ne_true hdeleted).elim, fun _ _ hmem => nomatch hmem⟩
  unfold delete
  split
  · exact hstart
  · rename_i hopc
    cases hl : loadNotificationRegistry file with
    | error e =>
        exact Prog.wp_seq (Prog.wp_mono (read_unreadable hl) (fun _ _ hf => hf)
          (fun _ w' hw => by rw [hw]; exact hstart) fun _ hc => hc) fun _ _ hf => hf.elim
    | ok r₀ =>
        have hdeletable := h.resolve_left hopc r₀ hl
        refine Prog.wp_seq (Prog.wp_mono (read_spec hl) (fun _ _ hr => hr) (fun _ _ hf => hf.elim) fun _ hc => hc) ?_
        rintro registry w ⟨hw, hlike, hrouting⟩
        dsimp only
        rw [hrouting]
        have horderly : ∀ w', Before user r₀ (Dict.get? r₀.users user) w' → ∀ out, Orderly user file out w' :=
          fun w' hw' => hw'.orderly (entryOf_of_load hl)
        cases hentry : Dict.getNotNone r₀.users user with
        | none =>
            refine Prog.wp_ofExcept_seq (fun managed hmanaged => ?_) fun e he => horderly w hw
            cases hmanaged
            -- nothing is removed
            rw [if_neg Bool.false_ne_true, Prog.bind]
            refine Prog.wp_seq (Prog.wp_mono (deleteLdap_unrouted hw.live) (fun _ _ hr => hr) ?_ ?_) ?_
            · rintro _ w' rfl
              exact horderly w' hw
            · rintro w' rfl
              exact hw.early
            · rintro _ w' rfl
              exact hw.orderly_unrouted (entryOf_of_load hl) hentry
        | some entry =>
            obtain ⟨hget, hnotNone⟩ := Dict.getNotNone_eq_some.mp hentry
            rw [hget] at hw horderly
            refine Prog.wp_ofExcept_seq (fun managed hmanaged => ?_) fun e he => horderly w hw
            cases managed with
            | true => exact horderly w hw
            | false =>
                rcases hdeletable with huntouched | ⟨hsync, entry', fields, hentry', hremovable⟩
                · have hstop := (huntouched entry hentry).resolve_left fun hne => hne hmanaged
                  exact Prog.wp_seq (Prog.wp_mono (removeAndSync_untouched hw hnotNone hmanaged hlike hstop)
                    (fun _ _ hf => hf) (fun _ w' hw' => horderly w' hw') fun _ hc => hc) fun _ _ hf => hf.elim
                · cases hentry.symm.trans hentry'
                  obtain rfl := hremovable.isObject
                  refine Prog.wp_seq (Prog.wp_mono (removeAndSync_spec hsync hw hmanaged registry) (fun _ _ hr => hr)
                    (fun _ w' hw' => horderly w' hw') fun _ hc => hc) ?_
                  rintro ⟨config, removed⟩ w₁ ⟨h₁, hsynced, hconfig, hremoved⟩
                  cases hremoved
                  refine Prog.wp_seq (Prog.wp_mono (deleteLdap_spec hsync h₁) (fun _ _ hr => hr)
                    (fun _ w' hw' => horderly w' hw') fun _ hc => hc) ?_
                  rintro _ w₂ rfl
                  have hdeleting : Deleting user r₀ { w₁ with ldapDeleted := true } :=
                    ⟨h₁.kept, h₁.early, h₁.recorded, hsynced, rfl⟩
                  exact deleteResources_spec hdeleting h₁.commands hconfig ((entryOf_of_load hl).trans hget)
                    hremovable.disposable

end

/-! ## A refusing cloud -/

/-- A refusal that may mean that the resource is absent. -/
def refusal : ProcessOutcome := .failed 1 "404"

theorem argument_raises {value : Option Json} {e : CliError} (h : argument value = .error e) :
    e.isNotification = false := by
  unfold argument at h
  split at h <;> cases h <;> rfl

theorem ociCommand_raises {config : Dict} {request : Except CliError OciRequest} {e : CliError}
    (hrequest : ∀ e, request = .error e → e.isNotification = false) (h : ociCommand config request = .error e) :
    e.isNotification = false := by
  cases hauth : argument (Dict.get? config "auth") with
  | error e' =>
      simp only [ociCommand, hauth, Except.error.injEq] at h
      exact h ▸ argument_raises hauth
  | ok auth =>
      cases hregion : argument (Dict.get? config "region") with
      | error e' =>
          simp only [ociCommand, hauth, hregion, Except.error.injEq] at h
          exact h ▸ argument_raises hregion
      | ok region =>
          cases request with
          | error e' =>
              simp only [ociCommand, hauth, hregion, Except.error.injEq] at h
              exact h ▸ hrequest e' rfl
          | ok r => simp [ociCommand, hauth, hregion] at h

section
variable {W : Type} {H : Handler ociSig CliError W} {unreadable : Bool}

/-- Every command that can be started is refused, or prints what cannot be read. -/
def Refuses (H : Handler ociSig CliError W) (unreadable : Bool) : Prop :=
  ∀ w command r w', H w command r w' → match r with
    | .ok outcome => outcome = refusal ∧ command.startable = true ∧ unreadable = false
    | .error e => e.isNotification = false

/-- A command that was refused was started, and its refusal was read. -/
theorem runOci_refused (hH : Refuses H unreadable) {config : Dict} {request : Except CliError OciRequest}
    (hrequest : ∀ e, request = .error e → e.isNotification = false) (w : W) :
    (runOci config request).wp H ⟨fun _ _ => False, fun e _ => e.isNotification = true →
      deleteErrorMayMeanAbsent e = true ∧ unreadable = false ∧
        ∃ command, ociCommand config request = .ok command ∧ command.startable = true, fun _ => True⟩ w := by
  rw [wp_runOci]
  split
  · rename_i e he
    exact fun hn => absurd hn (by simp [ociCommand_raises hrequest he])
  · rename_i command hcommand
    refine ⟨trivial, fun outcome w' hr => ?_, fun e w' hr hn => ?_⟩
    · obtain ⟨rfl, hstart, hread⟩ := hH w command _ w' hr
      exact fun _ => ⟨by decide +kernel, hread, command, hcommand, hstart⟩
    · exact nomatch hn.symm.trans (hH w command _ w' hr)

/-- A deletion that is refused goes on to look for the resource. -/
theorem deleteResource_refused (hH : Refuses H unreadable) (config : Dict) (type : ResourceType) (id : String) (w : W) :
    (deleteResource config type id).wp H
      ⟨fun _ _ => unreadable = false ∧ PassableFields config ∧ passable id = true, fun _ _ => True, fun _ => True⟩ w := by
  refine Prog.wp_seq_attempt (runOci_refused hH (fun _ he => by cases he) w) (fun _ _ hf => hf.elim) fun error w₁ h₁ => ?_
  dsimp only
  cases hn : error.isNotification with
  | false => trivial
  | true =>
      obtain ⟨habsent, hread, command, hcommand, hstart⟩ := h₁ hn
      obtain ⟨hauth, hregion, hrequest⟩ := ociCommand_eq_ok.mp hcommand
      obtain ⟨hpassAuth, hpassRegion, htexts⟩ := startable_iff.mp hstart
      have hid : passable id = true := htexts id (by rw [← Except.ok.inj hrequest]; exact List.mem_singleton_self id)
      simp only [habsent, Bool.not_true, Bool.false_eq_true, if_false]
      have hlist : ∀ e, listRequest config type none = .error e → e.isNotification = false := by
        intro e he
        unfold listRequest at he
        split at he <;> cases he
        rename_i he
        exact argument_raises he
      refine Prog.wp_seq_attempt (R := fun _ _ => False) (E := fun e _ => e.isNotification = true → PassableFields config)
        (Prog.wp_seq (Prog.wp_mono (runOci_refused hH hlist w₁) (fun _ _ hf => hf) ?_ fun _ hc => hc)
          fun _ _ hf => hf.elim) (fun _ _ hf => hf.elim) fun e w₂ h₂ => ?_
      · intro e w₂ h₂ hn'
        obtain ⟨-, -, command', hcommand', hstart'⟩ := h₂ hn'
        have htexts' := (startable_iff.mp hstart').2.2
        obtain ⟨compartmentId, hcompartment, hrequest'⟩ := listRequest_eq_ok (ociCommand_eq_ok.mp hcommand').2.2
        refine ⟨⟨_, hauth, hpassAuth⟩, ⟨_, hregion, hpassRegion⟩, compartmentId, argument_eq_ok.mp hcompartment, ?_⟩
        exact htexts' compartmentId (by rw [hrequest']; exact List.mem_cons_self)
      · dsimp only
        cases hn' : e.isNotification with
        | false => trivial
        | true => exact ⟨hread, h₂ hn', hid⟩

theorem deleteIdentifier_refused (hH : Refuses H unreadable) (config entry : Dict) (type : ResourceType)
    (acc : List String × Dict) (w : W) :
    (deleteIdentifier config entry type acc).wp H
      ⟨fun _ _ => ∀ value, identifierOf entry type = some value →
          unreadable = false ∧ PassableFields config ∧ ∃ id, value = .str id ∧ passable id = true,
        fun _ _ => True, fun _ => True⟩ w := by
  unfold deleteIdentifier
  split
  · rename_i hnone
    exact fun value hvalue => nomatch hnone.symm.trans hvalue
  · rename_i identifier hid
    refine Prog.wp_ofExcept_seq (fun resourceId harg => ?_) fun _ _ => trivial
    refine Prog.wp_seq (deleteResource_refused hH config type resourceId w) fun detail w' h => ?_
    obtain ⟨hread, hconfig, hpass⟩ := h
    have hall : ∀ value, identifierOf entry type = some value →
        unreadable = false ∧ PassableFields config ∧ ∃ id, value = .str id ∧ passable id = true := by
      intro value hvalue
      cases hid.symm.trans hvalue
      exact ⟨hread, hconfig, resourceId, Option.some.inj (argument_eq_ok.mp harg), hpass⟩
    cases detail <;> exact hall

/-- **When a deletion that is always refused returns.** -/
theorem deleteNotificationResources_refused (hH : Refuses H unreadable) (config entry : Dict) (w : W) :
    (deleteNotificationResources config entry).wp H
      ⟨fun _ _ => (∀ type, identifierOf entry type = none) ∨
          unreadable = false ∧ PassableFields config ∧ PassableIdentifiers entry,
        fun _ _ => True, fun _ => True⟩ w := by
  refine Prog.wp_seq (deleteIdentifier_refused hH config entry .subscription ([], entry) w) fun acc w₁ hsub => ?_
  refine Prog.wp_mono (deleteIdentifier_refused hH config entry .topic acc w₁) (fun _ _ htopic => ?_)
    (fun _ _ h => h) fun _ h => h
  have hall : ∀ type value, identifierOf entry type = some value →
      unreadable = false ∧ PassableFields config ∧ ∃ id, value = .str id ∧ passable id = true := by
    intro type
    cases type with
    | topic => exact htopic
    | subscription => exact hsub
  by_cases hnone : ∀ type, identifierOf entry type = none
  · exact .inl hnone
  · obtain ⟨type, htype⟩ := not_forall.mp hnone
    obtain ⟨value, hvalue⟩ := Option.ne_none_iff_exists'.mp htype
    obtain ⟨hread, hconfig, -⟩ := hall type value hvalue
    exact .inr ⟨hread, hconfig, fun type value hv => (hall type value hv).2.2⟩

end

/-! ## Runs that break the promise -/

/-- The answer to a command: a refusal, or what cannot be read. -/
def refuse (user : String) (unreadable : Bool) (w : World) (command : OciCommand) :
    Except CliError ProcessOutcome × World :=
  if command.startable = false then (.error (.other "ValueError: embedded null byte"), w)
  else if unreadable then (.error (.other "UnicodeDecodeError"), w.started user command)
  else (.ok refusal, w.answered user command refusal)

/-- Nothing comes in between, LDAP deletes what it is asked to, every `oci` command is refused, perhaps unreadably,
and every synchronization ends with `sync`. -/
def refusing (user : String) (sync : Except CliError Unit) (unreadable : Bool) (w : World) :
    (call : CliCall) → Except CliError call.Ans × World
  | .oci command => refuse user unreadable w command
  | .ldap (.delete dn) => (.ok ⟨true, 0, ""⟩, { w with ldapDeleted := dn == userDn user && true })
  | .ldap (.add ..) => (.ok ⟨false, 1, ""⟩, w)
  | .ldap .connect => (.ok (), w)
  | .ldap (.groupIdExists _) => (.ok false, w)
  | .host _ => (.error (.other ""), w)
  | .registry .loadNotificationRegistry => (loadNotificationRegistry w.file, w)
  | .registry (.storeUserRouting other entry) =>
      let update := updateNotificationRegistry (storeUserRouting other entry ⟨"", ""⟩) .completes w.file
      (update.1, { w with file := update.2, synced := false })
  | .registry (.removeUserRouting other) =>
      let update := updateNotificationRegistry (removeUserRouting other ⟨"", ""⟩) .completes w.file
      (update.1, { w with file := update.2, synced := false })
  | .registry (.restoreUserRouting other entry) =>
      let update := updateNotificationRegistry (restoreUserRouting other entry ⟨"", ""⟩) .completes w.file
      (update.1, { w with file := update.2, synced := false })
  | .registry (.recordPendingCleanup other entry errors) =>
      let added := cleanupEntry other entry errors "" ""
      let update := updateNotificationRegistry (recordPendingCleanup added) .completes w.file
      (update.1, { w with
        file := update.2
        recorded := w.recorded ++ if update.1.isOk then [added] else [] })
  | .registry (.syncBackupRegistry _) =>
      (sync, match sync with
        | .ok _ => { w with synced := unrouted user w.file }
        | .error _ => w)
  | .registry (.recordPendingBackupSync error) =>
      let update := updateNotificationRegistry (recordPendingBackupSync ⟨"", ""⟩ error) .completes w.file
      (update.1, { w with file := update.2 })

def refusingWorld (user : String) (sync : Except CliError Unit) (unreadable : Bool) : Handler cliSig CliError World :=
  fun w call r w' => (r, w') = refusing user sync unreadable w call

section
variable {user : String} {unexpected : Unexpected} {sync : Except CliError Unit}

def Allows (unexpected : Unexpected) (sync : Except CliError Unit) : Prop :=
  ∀ e, sync = .error e → e.isNotification = true ∨ unexpected.sync = true

theorem deleteWorld_refusing (hsync : Allows unexpected sync) (w : World) (call : CliCall) :
    deleteWorld user unexpected w call (refusing user sync unexpected.oci w call).1
      (refusing user sync unexpected.oci w call).2 := by
  cases call with
  | oci command =>
      show effect user unexpected w (.oci command) (refuse user unexpected.oci w command).1
        (refuse user unexpected.oci w command).2
      unfold refuse
      split
      · exact ⟨rfl, .inl ⟨‹_›, rfl⟩⟩
      · split
        · exact ⟨rfl, .inr ⟨‹_›, rfl⟩⟩
        · exact ⟨by simpa using ‹¬ command.startable = false›, rfl⟩
  | ldap call => cases call <;> rfl
  | host call => rfl
  | registry call =>
      refine ⟨w.file, .refl, ?_⟩
      cases call with
      | loadNotificationRegistry => exact ⟨rfl, rfl⟩
      | recordPendingCleanup other entry errors => exact ⟨"", "", rfl, rfl⟩
      | syncBackupRegistry registry =>
          refine ⟨w.file, .inl rfl, ?_⟩
          cases sync with
          | ok _ => rfl
          | error e => exact ⟨hsync e rfl, rfl⟩
      | _ => exact ⟨⟨"", ""⟩, rfl, rfl⟩

theorem less_refusing (hsync : Allows unexpected sync) (w : World) (call : CliCall) (r : Except CliError call.Ans)
    (w' : World) (h : refusingWorld user sync unexpected.oci w call r w') : deleteWorld user unexpected w call r w' := by
  have hallowed := @deleteWorld_refusing user unexpected sync hsync w call
  rw [← h] at hallowed
  exact hallowed

theorem refuses_refusing {unreadable : Bool} : Refuses (ociOutside (refusingWorld user sync unreadable)) unreadable := by
  intro w command r w' hr
  have hanswer : (r, w') = refuse user unreadable w command := hr
  unfold refuse at hanswer
  split at hanswer
  · cases hanswer
    rfl
  · split at hanswer <;> cases hanswer
    · rfl
    · exact ⟨rfl, by simpa using ‹¬ command.startable = false›, by simpa using ‹¬ unreadable = true›⟩

/-- What holds at the end of that run. -/
theorem exists_refused {α : Type} (hsync : Allows unexpected sync)
    {p : Cli α} {Q : Post World CliError α} {w : World} (h : p.wp (refusingWorld user sync unexpected.oci) Q w) :
    ∃ out w', out ≠ .cut ∧ Exec (deleteWorld user unexpected) p w out w' ∧ Q.holds out w' := by
  have hallowed := Exec.of_run (H := deleteWorld user unexpected) (deleteWorld_refusing hsync) p w
  have hrefused := Exec.of_run (H := refusingWorld user sync unexpected.oci) (fun _ _ => rfl) p w
  refine ⟨_, _, ?_, hallowed, hrefused.of_wp h⟩
  cases (p.run (refusing user sync unexpected.oci) w).1 <;> exact nofun

end

section
variable {user : String} {unexpected : Unexpected} {r₀ : Registry} {file : RegistryFile} {entry : Json} {fields : Dict}

structure Removes (user : String) (r₀ : Registry) (entry : Json) (fields : Dict) : Prop where
  named : user ≠ "opc"
  routed : Dict.getNotNone r₀.users user = some entry
  plain : managedByTerraform (some entry) = .ok false
  valid : ∀ e, validatedNotificationConfig r₀ ≠ .error e
  parsed : routingFields entry = .ok fields

theorem removes_of_not_untouched (hnamed : user ≠ "opc") (h : ¬ Untouched user r₀) :
    ∃ entry fields, Removes user r₀ entry fields := by
  simp only [Untouched, not_forall, not_or, not_exists, not_not] at h
  obtain ⟨entry, hentry, hplain, hvalid, hfields⟩ := h
  cases hrouting : routingFields entry with
  | error e => exact absurd hrouting (hfields e)
  | ok fields => exact ⟨entry, fields, hnamed, hentry, hplain, hvalid, hrouting⟩

def afterRemoval (user : String) (removed : Dict × Option Dict) : Cli Unit :=
  (deleteLdap user removed.2).bind fun _ =>
    match removed.2 with
    | some entry => deleteResources user removed.1 entry
    | none => .ret ()

theorem Alike.symm {r r' : Registry} (h : Alike r r') : Alike r' r :=
  ⟨fun key hj hm => (h.config key hj hm).symm, h.journal.symm⟩

/-- The command up to the synchronization, of an outside that does less. -/
theorem delete_removes {H : Handler cliSig CliError World} (hr : Removes user r₀ entry fields)
    (hl : loadNotificationRegistry file = .ok r₀)
    (hless : ∀ w call r w', H w call r w' → deleteWorld user unexpected w call r w') {Q : Post World CliError Unit}
    (hcut : ∀ w, Q.cut w)
    (h : ∀ w config, Before user r₀ none w → (∃ r, Alike r₀ r ∧ r.config = config) →
      (exceptNotification syncBackup fun error =>
        (undoRemoval user (some fields)).bind fun issues =>
          .throw (.click ("Backup controller synchronization failed; LDAP user and OCI resources were not deleted: " ++
            error.message) "restore issues" issues.all)).wp H
        ⟨fun _ w' => (afterRemoval user (config, some fields)).wp H Q w', Q.exc, Q.cut⟩ w) :
    (delete user).wp H Q (start file) := by
  obtain ⟨hget, hnotNone⟩ := Dict.getNotNone_eq_some.mp hr.routed
  rw [delete, if_neg hr.named]
  refine Prog.wp_seq (Prog.wp_mono (Prog.wp_of_less hless (read_spec hl)) (fun _ _ h => h) (fun _ _ hf => hf.elim)
    fun w _ => hcut w) ?_
  rintro registry w ⟨hw, hlike, hrouting⟩
  rw [hget] at hw
  dsimp only
  rw [hrouting, hr.routed, hr.plain]
  show Prog.wp H ((removeAndSync user registry).bind (afterRemoval user)) Q w
  rw [Prog.wp_bind, removeAndSync]
  refine Prog.wp_seq (R := fun removed w' => Before user r₀ none w' ∧ (∃ r, Alike r₀ r ∧ r.config = removed.1) ∧
    removed.2 = some fields) ?_ ?_
  · refine Prog.wp_mono (wp_orClick (E := fun _ => False) (C := fun _ => True) (Prog.wp_ofExcept_seq (fun _ _ => ?_)
      fun e he => ?_)) (fun _ _ h => h) (fun _ _ hf => hf.elim) fun w' _ => hcut w'
    · refine Prog.wp_mono (Prog.wp_of_less hless (remove_spec hw hnotNone hr.plain)) ?_ ?_ fun _ _ => trivial
      · rintro removed w' ⟨h', hconfig, fields', hfields, hremoved⟩
        cases hr.parsed.symm.trans hfields
        exact ⟨h', hconfig, hremoved⟩
      · rintro e w' ⟨-, e', he'⟩
        cases hr.parsed.symm.trans he'
    · obtain ⟨e', he'⟩ := hlike.symm.validated_error he
      exact hr.valid e' he'
  · rintro ⟨config, removed⟩ w' ⟨h', hconfig, hremoved⟩
    cases hremoved
    rw [Prog.wp_bind]
    exact h w' config h' hconfig

theorem syncBackup_refused {sync : Except CliError Unit} {unreadable : Bool} {w : World} (h : Before user r₀ none w) :
    syncBackup.wp (refusingWorld user sync unreadable)
      ⟨fun _ w' => (∃ a, sync = .ok a) ∧ Before user r₀ none w' ∧ w'.synced = true,
        fun e w' => sync = .error e ∧ Before user r₀ none w', fun _ => True⟩ w := by
  have hload := Prog.wp_of_less (@less_refusing user ⟨true, unreadable⟩ sync fun _ _ => .inr rfl) (load_spec h)
  refine Prog.wp_seq (Prog.wp_mono hload (fun _ _ hr => hr) (fun _ _ hf => hf.elim) fun _ _ => trivial) ?_
  rintro current w₁ ⟨h₁, -⟩
  refine (Prog.wp_perform (S := cliSig) (.registry (.syncBackupRegistry current)) _ w₁).mpr
    ⟨trivial, fun a w₂ h₂ => ?_, fun e w₂ h₂ => ?_⟩
  · cases hsync : sync with
    | ok b =>
        simp only [refusingWorld, refusing, hsync, Prod.mk.injEq] at h₂
        obtain ⟨-, rfl⟩ := h₂
        exact ⟨⟨b, rfl⟩, h₁.change h₁.kept _, h₁.kept.unrouted⟩
    | error e => simp [refusingWorld, refusing, hsync] at h₂
  · cases hsync : sync with
    | ok b => simp [refusingWorld, refusing, hsync] at h₂
    | error e' =>
        simp only [refusingWorld, refusing, hsync, Prod.mk.injEq, Except.error.injEq] at h₂
        obtain ⟨rfl, rfl⟩ := h₂
        exact ⟨rfl, h₁⟩

/-- **A removal that fails to synchronize**: the entry comes back as an object, or not at all. -/
theorem delete_unsynced (hr : Removes user r₀ entry fields) (hl : loadNotificationRegistry file = .ok r₀)
    (e : CliError) (unreadable : Bool) :
    (delete user).wp (refusingWorld user (.error e) unreadable)
      ⟨fun _ _ => False, fun _ w' => w'.ldapDeleted = false ∧
        entryOf user w'.file = if e.isNotification then some (.obj fields) else none, fun _ => True⟩ (start file) := by
  have hless : ∀ w call r w', refusingWorld user (.error e) unreadable w call r w' →
      deleteWorld user ⟨true, unreadable⟩ w call r w' := @less_refusing user ⟨true, unreadable⟩ _ fun _ _ => .inr rfl
  refine delete_removes hr hl hless (fun _ => trivial) fun w config hw _ => ?_
  refine wp_exceptNotification (E := fun e' w' => e' = e ∧ Before user r₀ none w')
    (Prog.wp_mono (syncBackup_refused hw) ?_ ?_ fun _ h => h) ?_ ?_
  · rintro _ w' ⟨⟨a, ha⟩, -⟩
    cases ha
  · rintro e' w' ⟨he, h'⟩
    cases he
    exact ⟨rfl, h'⟩
  · rintro e' w' ⟨rfl, h'⟩ hn
    have hless' : ∀ w call r w', refusingWorld user (.error e') unreadable w call r w' →
        deleteWorld user ⟨false, unreadable⟩ w call r w' :=
      @less_refusing user ⟨false, unreadable⟩ _ fun _ he => .inl (Except.error.inj he ▸ hn)
    refine Prog.wp_seq (Prog.wp_mono (Prog.wp_of_less hless' (undoRemoval_spec rfl h' fields)) (fun _ _ hr => hr)
      (fun _ _ hf => hf.elim) fun _ _ => trivial) fun issues w'' h'' => ?_
    exact ⟨h''.live, by rw [h''.kept.entryOf, hn, if_pos rfl]⟩
  · rintro e' w' ⟨rfl, h'⟩ hother
    exact ⟨h'.live, by rw [h'.kept.entryOf, hother, if_neg Bool.false_ne_true]⟩

/-- What was recorded, of a run that deleted nothing. -/
structure Refused (unexpected : Unexpected) (r₀ : Registry) (fields : Dict) (w : World) : Prop where
  deleted : w.ldapDeleted = true
  nothing : ∀ type id, ¬ w.gone type id
  recorded : w.recorded ≠ [] → (∀ type, identifierOf fields type = none) ∨ Disposable unexpected r₀ fields

theorem keeps_nothing {α : Type} {unreadable : Bool} (p : Prog ociSig CliError α) :
    p.Keeps (ociOutside (refusingWorld user (.ok ()) unreadable)) fun w => ∀ type id, ¬ w.gone type id := by
  refine Prog.keeps_of_calls (Prog.calls_true p) fun w command r w' _ hw hr type id hgone => ?_
  have hanswer : (r, w') = refuse user unreadable w command := hr
  unfold refuse at hanswer
  split at hanswer
  · cases hanswer
    exact hw type id hgone
  · split at hanswer <;> cases hanswer
    · exact hw type id hgone
    · obtain ⟨c, hc, hshows⟩ := hgone
      rcases List.mem_append.mp hc with hc | hc
      · exact hw type id ⟨c, hc, hshows⟩
      · rw [List.mem_singleton.mp hc] at hshows
        simp [showsGone, refusal] at hshows

/-- The journal is a list, if something could be recorded. -/
theorem recordCleanup_refused {w : World} (h : Deleting user r₀ w) (hnothing : ∀ type id, ¬ w.gone type id)
    (hdeleted : (∀ type, identifierOf fields type = none) ∨
      unexpected.oci = false ∧ PassableFields r₀.config ∧ PassableIdentifiers fields)
    (remaining : Dict) (errors : List String) :
    (recordCleanup user remaining errors).wp (refusingWorld user (.ok ()) unexpected.oci)
      ⟨fun _ w' => Refused unexpected r₀ fields w', fun _ w' => Refused unexpected r₀ fields w', fun _ => True⟩ w := by
  have hnone : Refused unexpected r₀ fields w := ⟨h.deleted, hnothing, fun hr => absurd h.recorded hr⟩
  unfold recordCleanup
  split
  · exact hnone
  · have hrecord : ∀ r w', refusingWorld user (.ok ()) unexpected.oci w (.registry (.recordPendingCleanup user remaining errors)) r w' →
        Refused unexpected r₀ fields w' := by
      intro r w' hr
      obtain ⟨-, rfl⟩ := Prod.mk.inj hr
      refine ⟨h.deleted, hnothing, fun hrecorded => ?_⟩
      rcases updateNotificationRegistry_cases
        (recordPendingCleanup (cleanupEntry user remaining errors "" "")) .completes w.file with
        ⟨e, he⟩ | ⟨r', result, updated, hl', hm, -⟩
      · simp [he, h.recorded, Except.isOk, Except.toBool] at hrecorded
      · obtain ⟨r'', hl'', hlike, -⟩ := h.kept
        cases hl'.symm.trans hl''
        have hlist : ∃ pending, pendingCleanup r' = .arr pending := by
          unfold recordPendingCleanup at hm
          split at hm
          · rename_i pending hpending
            exact ⟨pending, hpending⟩
          · cases hm
        exact hdeleted.imp_right fun hd => ⟨hd.1, hd.2.1, hd.2.2, hlike.journal.mp hlist⟩
    exact (Prog.wp_perform (S := cliSig) (.registry (.recordPendingCleanup user remaining errors)) _ w).mpr
      ⟨trivial, fun _ w' hr => hrecord _ w' hr, fun _ w' hr => hrecord _ w' hr⟩

/-- **A deletion that is refused**, the route and the LDAP entry being gone. -/
theorem delete_refused (hr : Removes user r₀ entry fields) (hl : loadNotificationRegistry file = .ok r₀) :
    (delete user).wp (refusingWorld user (.ok ()) unexpected.oci)
      ⟨fun _ w' => Refused unexpected r₀ fields w', fun _ w' => Refused unexpected r₀ fields w', fun _ => True⟩ (start file) := by
  have hless : ∀ w call r w', refusingWorld user (.ok ()) unexpected.oci w call r w' → deleteWorld user unexpected w call r w' :=
    less_refusing nofun
  refine delete_removes hr hl hless (fun _ => trivial) fun w config hw hconfig => ?_
  refine wp_exceptNotification (E := fun _ _ => False) (Prog.wp_mono (syncBackup_refused hw) ?_ ?_ fun _ h => h)
    (fun _ _ hf _ => hf.elim) fun _ _ hf _ => hf.elim
  · rintro _ w₁ ⟨-, h₁, hsynced⟩
    refine Prog.wp_seq (R := fun _ w' => w' = { w₁ with ldapDeleted := true }) ?_ ?_
    · rw [deleteLdap, Prog.wp_tryCatch, deleteLdapUser]
      refine Prog.wp_perform_seq (S := cliSig) (o := .ldap .connect) trivial (fun _ w₂ h₂ => ?_) fun _ _ h₂ => ?_
      · obtain ⟨-, rfl⟩ := Prod.mk.inj h₂
        refine Prog.wp_perform_seq (S := cliSig) (o := .ldap (.delete (userDn user))) trivial (fun reply w₃ h₃ => ?_)
          fun _ _ h₃ => ?_
        · obtain ⟨hreply, rfl⟩ := Prod.mk.inj h₃
          cases hreply
          simp [ensureLdapSuccess, LdapReply.ok]
        · cases (Prod.mk.inj h₃).1
      · cases (Prod.mk.inj h₂).1
    · rintro _ w₂ rfl
      have hdeleting : Deleting user r₀ { w₁ with ldapDeleted := true } :=
        ⟨h₁.kept, h₁.early, h₁.recorded, hsynced, rfl⟩
      have hnothing : ∀ type id, ¬ World.gone { w₁ with ldapDeleted := true } type id := by
        rintro type id ⟨c, hc, -⟩
        rw [show ({ w₁ with ldapDeleted := true } : World).commands = [] from h₁.commands] at hc
        cases hc
      have hlessOci : ∀ w command r w', ociOutside (refusingWorld user (.ok ()) unexpected.oci) w command r w' →
          ociOutside (deleteWorld user unexpected) w command r w' := fun w command r w' => hless w (.oci command) r w'
      have hkeep := Prog.wp_and
        (Prog.wp_of_less hlessOci (keeps_deleting (deleteNotificationResources config fields) _ hdeleting))
        (keeps_nothing (deleteNotificationResources config fields) _ hnothing)
      have hdelete := Prog.wp_and (deleteNotificationResources_refused (H := ociOutside (refusingWorld user (.ok ()) unexpected.oci))
        refuses_refusing config fields { w₁ with ldapDeleted := true }) hkeep
      refine Prog.wp_seq (R := fun _ w' => Refused unexpected r₀ fields w') ?_ fun errors w₃ h₃ => by split <;> exact h₃
      refine Prog.wp_seq ((wp_oci _ _ _).mpr (Prog.wp_mono hdelete (fun _ _ h => h) ?_ fun _ _ => trivial)) ?_
      · rintro _ w₃ ⟨-, h₃, hnothing₃⟩
        exact ⟨h₃.deleted, hnothing₃, fun hrecorded => absurd h₃.recorded hrecorded⟩
      · rintro ⟨errors, remaining⟩ w₃ ⟨hfields, h₃, hnothing₃⟩
        obtain ⟨r, hlike, rfl⟩ := hconfig
        have hfields₀ := hfields.imp_right fun hc => And.intro hc.1 (And.intro (hlike.symm.passableFields hc.2.1) hc.2.2)
        dsimp only
        split
        · exact ⟨h₃.deleted, hnothing₃, fun hrecorded => absurd h₃.recorded hrecorded⟩
        · refine wp_exceptNotification (E := fun _ w' => Refused unexpected r₀ fields w') ?_ (fun _ _ h _ => h) fun _ _ h _ => h
          exact Prog.wp_seq (recordCleanup_refused h₃ hnothing₃ hfields₀ remaining errors) fun _ _ h => h
  · rintro e w' ⟨he, -⟩
    cases he

end

/-! ## The result -/

section
variable {user : String} {unexpected : Unexpected} {r₀ : Registry} {file : RegistryFile} {fields : Dict}

theorem orderly_cut {w : World} (h : w.early = []) : Orderly user file .cut w :=
  ⟨h, nofun, fun hcut => absurd rfl hcut, fun hcut => absurd rfl hcut⟩

/-- What was neither deleted nor recorded. -/
theorem Refused.disposable {out : Outcome CliError Unit} {w : World} (h : Refused unexpected r₀ fields w) (hout : out ≠ .cut)
    (hentry : entryOf user file = some (.obj fields)) (horderly : Orderly user file out w) :
    (∀ type, identifierOf fields type = none) ∨ Disposable unexpected r₀ fields := by
  by_cases hrecorded : w.recorded = []
  · refine .inl fun type => ?_
    by_contra hsome
    obtain ⟨value, hvalue⟩ := Option.ne_none_iff_exists'.mp hsome
    have hleft : ¬ GoneValue w.gone type value := by
      rintro ⟨id, -, hgone⟩
      exact h.nothing type id hgone
    obtain ⟨e, he, -⟩ := (horderly.journal hout h.deleted type value).mpr ⟨by rw [hentry]; exact hvalue, hleft⟩
    rw [hrecorded] at he
    cases he
  · exact h.recorded hrecorded

end

/-- **`cluster user delete` is orderly exactly when the registry is deletable**: the route goes before LDAP and LDAP
before the resources, a failure restores the entry, and what is left of the resources is in the journal. -/
theorem orderly_iff (user : String) (unexpected : Unexpected) (file : RegistryFile) :
    (∀ out w, Exec (deleteWorld user unexpected) (delete user) (start file) out w → Orderly user file out w) ↔
      user = "opc" ∨ ∀ registry, loadNotificationRegistry file = .ok registry →
        Deletable user unexpected registry := by
  constructor
  · intro h
    by_cases hopc : user = "opc"
    · exact .inl hopc
    refine .inr fun r₀ hl => ?_
    by_cases huntouched : Untouched user r₀
    · exact .inl huntouched
    obtain ⟨entry, fields, hr⟩ := removes_of_not_untouched hopc huntouched
    have hentry : entryOf user file = some entry :=
      (entryOf_of_load hl).trans (Dict.getNotNone_eq_some.mp hr.routed).1
    -- a removal that is not synchronized must be undone
    have hrestored : ∀ e : CliError, Allows unexpected (.error e) →
        some entry = if e.isNotification then some (.obj fields) else none := by
      intro e hallowed
      obtain ⟨out, w, hout, hexec, hholds⟩ := exists_refused hallowed (delete_unsynced hr hl e unexpected.oci)
      cases out with
      | done a => exact hholds.elim
      | cut => exact absurd rfl hout
      | raised e' =>
          obtain ⟨hlive, hw⟩ := hholds
          rw [← hentry, ← hw]
          exact ((h _ w hexec).restored e' rfl hlive).symm
    have hexpected : unexpected.sync = false := by
      by_contra hne
      have hsome := hrestored (.other "") fun _ _ => .inr (by simpa using hne)
      cases hsome
    have hobject : entry = .obj fields :=
      Option.some.inj (hrestored (.notification "") fun e he => .inl (Except.error.inj he ▸ rfl))
    subst hobject
    obtain ⟨out, w, hout, hexec, hholds⟩ :=
      @exists_refused user unexpected (.ok ()) _ nofun _ _ _ (delete_refused hr hl)
    have hrefused : Refused unexpected r₀ fields w := by
      cases out with
      | done a => exact hholds
      | raised e => exact hholds
      | cut => exact absurd rfl hout
    exact .inr ⟨hexpected, _, fields, hr.routed, rfl, hrefused.disposable hout hentry (h out w hexec)⟩
  · intro h out w hexec
    have hholds := hexec.of_wp (delete_spec h)
    cases out with
    | done a => exact hholds _
    | raised e => exact hholds _
    | cut => exact orderly_cut hholds

def aliceFields : Dict :=
  [("email", .str "alice@example.com"), ("topic_id", .str "ocid1.onstopic.t"),
    ("subscription_id", .str "ocid1.onssubscription.s"), ("managed_by", .str "cluster-cli")]

/-- A configuration that passes the checks, and has no `auth`. -/
def plainRegistry : Registry where
  config := [("region", .str "eu-frankfurt-1"), ("compartment_id", .str "ocid1.compartment.oc1..c"),
    ("cluster_name", .str "hpc"), ("cluster_scope_id", .str "s1"),
    ("deployment_id", .str "0123456789abcdef0123456789abcdef")]
  users := [("alice", .obj aliceFields)]
  rest := []
  restPlain := restPlain_nil

/-- **Without `auth` in the configuration the resources are left behind**, and the journal does not know. -/
theorem config_without_auth : ∃ out w,
    Exec (deleteWorld "alice" ⟨false, false⟩) (delete "alice") (start (.json plainRegistry.toJson)) out w ∧
      ¬ Orderly "alice" (.json plainRegistry.toJson) out w := by
  have hl := loadNotificationRegistry_toJson plainRegistry
  have hvalid : ∀ e, validatedNotificationConfig plainRegistry ≠ .error e := by
    intro e he
    have hok : (validatedNotificationConfig plainRegistry).isOk = true := by decide +kernel
    rw [he] at hok
    cases hok
  have hr : Removes "alice" plainRegistry (.obj aliceFields) aliceFields :=
    ⟨by decide, rfl, rfl, hvalid, rfl⟩
  obtain ⟨out, w, hout, hexec, hholds⟩ := @exists_refused "alice" ⟨false, false⟩ (.ok ()) _ nofun _ _ _ (delete_refused hr hl)
  refine ⟨out, w, hexec, fun horderly => ?_⟩
  have hrefused : Refused ⟨false, false⟩ plainRegistry aliceFields w := by
    cases out with
    | done a => exact hholds
    | raised e => exact hholds
    | cut => exact absurd rfl hout
  rcases hrefused.disposable hout (entryOf_of_load hl) horderly with hnone | hdisposable
  · have htopic := hnone .topic
    revert htopic
    decide +kernel
  · obtain ⟨s, hs, -⟩ := hdisposable.config.auth
    cases hs

end OciHpc.ClusterCli.UserDeleteOrder
