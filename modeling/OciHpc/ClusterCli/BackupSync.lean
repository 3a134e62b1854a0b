import Mathlib.Data.Fintype.Basic
import OciHpc.Base.Interleave
import OciHpc.ClusterCli.Routing

/-!
# Synchronizing the backup controller's registry

Every CLI process changes the users map of the primary registry under the registry lock, and sets a
marker with it. A sync, under the sync lock, loads the registry, sends its users map to a helper on the
backup and clears the marker it loaded. The helper of a sync whose ssh timed out may still be running.

* `encodeBackupSnapshot`, `applySnapshot` : what is sent, and what the helper does with it;
* `machine` : the atomic steps of the processes, and of helpers that outlived their sync;
* `consistent_of_harmlessLate` : while late snapshots do no harm, an absent marker means an equal backup;
* `late_snapshot_diverges` : a late snapshot applied after a newer one was confirmed is never noticed.
-/

namespace OciHpc.ClusterCli.BackupSync

open Interleave

/-! ## The snapshot -/

structure Snapshot where
  clusterScopeId : String
  users : Dict
  deriving DecidableEq

def Snapshot.payload (s : Snapshot) : Json :=
  .obj [("version", .int 1), ("cluster_scope_id", .str s.clusterScopeId), ("users", .obj s.users)]

/-- `len(base64.urlsafe_b64encode(...))` of the payload. -/
def Snapshot.encodedLength (s : Snapshot) : Nat := 4 * ((s.payload.dumpsLength + 2) / 3)

def requiredRoutingFields : List String := ["email", "topic_id", "subscription_id", "managed_by"]

/-- The check of one entry of the users map that `_decode_backup_snapshot` and the helper both make. -/
def isRouting : Json → Bool
  | .obj entry => requiredRoutingFields.all fun field => (Dict.getD entry field .null).nonemptyStr
  | _ => false

/-- The checks of `_decode_backup_snapshot` on the payload `json.loads` gives back. -/
def decodeBackupSnapshot (s : Snapshot) : Except CliError Snapshot :=
  if s.encodedLength > 1024 * 1024 ∨ s.clusterScopeId = "" then
    .error (.notification "Invalid backup registry synchronization payload")
  else
    match s.users.find? fun e => !isRouting e.2 with
    | none => .ok s
    | some (username, .obj _) =>
        .error (.notification ("Invalid notification routing for user '" ++ username ++ "'"))
    | some _ => .error (.notification "Invalid user in backup registry snapshot")

def encodeBackupSnapshot (registry : Registry) : Except CliError Snapshot :=
  match validatedNotificationConfig registry with
  | .error e => .error e
  | .ok config =>
      match Dict.get? config "cluster_scope_id" with
      | some (.str scope) => decodeBackupSnapshot ⟨scope, registry.users⟩
      | _ => .error (.notification "Invalid backup registry synchronization payload")

/-- The helper on the backup: `none` when it fails and leaves the file. -/
def applySnapshot (s : Snapshot) : RegistryFile → Option RegistryFile
  | .json (.obj registry) =>
      match Dict.getD registry "config" (.obj []) with
      | .obj config =>
          if Dict.get? config "cluster_scope_id" = some (.str s.clusterScopeId) ∧
              s.users.all (fun e => isRouting e.2) = true then
            some (.json (.obj (Dict.set registry "users" (.obj s.users))))
          else none
      | _ => none
  | _ => none

/-! ## Processes -/

/-- The two registries, the sync lock, the snapshots of the helpers that outlived their sync, and the
generations drawn so far. -/
structure World where
  primary : RegistryFile
  backup : RegistryFile
  syncLock : Bool
  late : List Snapshot
  generations : List String
  deriving DecidableEq

/-- The helper of a sync: not done, done with its snapshot applied, or failed. -/
inductive Helper
  | running | applied | failed
  deriving DecidableEq, Repr

/-- Where a CLI process stands; `argument` is the registry it captured for its next sync. -/
inductive SyncPc
  | idle (argument : Option Registry)
  | locked (argument : Option Registry)
  | loading
  | loaded (registry : Registry)
  | started (snapshot : Snapshot) (pendingSync : Option Json) (helper : Helper)
  | returned (pendingSync : Option Json)
  deriving DecidableEq

inductive Act
  | loadNotificationRegistry
  | routing (call : Routing) (stamp : Stamp) (io : UpdateIo)
  | takeSyncLock (withArgument : Bool)
  | lookForRegistry
  | loadLatest
  | encode
  | helperEnds (success : Bool)
  | sshReturns
  | sshRaises
  | clearPendingSync (io : UpdateIo)
  | lateHelperApplies (n : Nat)
  deriving DecidableEq

/-- The sync raises or returns: its lock is released. -/
def World.unlocked (w : World) (late : List Snapshot) : World := { w with syncLock := false, late }

def pendingSyncOf (registry : Registry) : Option Json :=
  Dict.getNotNone registry.config "pending_backup_sync"

def syncStep (w : World) : SyncPc → Act → Option (World × SyncPc)
  | .idle argument, .loadNotificationRegistry =>
      match loadNotificationRegistry w.primary with
      | .ok registry => some (w, .idle (some registry))
      | .error _ => some (w, .idle argument)
  | .idle argument, .routing call stamp io =>
      -- `uuid.uuid4()` draws a new generation
      if stamp.generation ∈ w.generations then none
      else some ({ w with primary := call.run stamp io w.primary
                          generations := stamp.generation :: w.generations }, .idle argument)
  | .idle argument, .takeSyncLock withArgument =>
      if w.syncLock then none
      else some ({ w with syncLock := true }, .locked (if withArgument then argument else none))
  | .locked argument, .lookForRegistry =>
      match w.primary.exists, argument with
      | false, some registry => some (w, .loaded registry)
      | _, _ => some (w, .loading)
  | .loading, .loadLatest =>
      match loadNotificationRegistry w.primary with
      | .ok registry => some (w, .loaded registry)
      | .error _ => some (w.unlocked w.late, .idle none)
  | .loaded registry, .encode =>
      match encodeBackupSnapshot registry with
      | .ok snapshot => some (w, .started snapshot (pendingSyncOf registry) .running)
      | .error _ => some (w.unlocked w.late, .idle none)
  | .started snapshot pendingSync .running, .helperEnds success =>
      match success, applySnapshot snapshot w.backup with
      | true, some backup => some ({ w with backup }, .started snapshot pendingSync .applied)
      | true, none => none
      | false, _ => some (w, .started snapshot pendingSync .failed)
  | .started _ pendingSync .applied, .sshReturns => some (w, .returned pendingSync)
  | .started snapshot _ helper, .sshRaises =>
      -- a timeout or a lost connection says nothing about a helper still running
      some (w.unlocked (if helper = .running then snapshot :: w.late else w.late), .idle none)
  | .returned none, .clearPendingSync _ => some (w.unlocked w.late, .idle none)
  | .returned (some marker), .clearPendingSync io =>
      let primary := (updateNotificationRegistry (clearPendingBackupSync marker) io w.primary).2
      some ({ w with primary, syncLock := false }, .idle none)
  | _, _ => none

def step (w : World) (pc : SyncPc) : Act → Option (World × SyncPc)
  | .lateHelperApplies n =>
      (w.late[n]?).map fun s =>
        ({ w with backup := (applySnapshot s w.backup).getD w.backup, late := w.late.eraseIdx n }, pc)
  | a => syncStep w pc a

def machine : Machine World SyncPc Act := ⟨step⟩

abbrev State (ι : Type) := Config ι World SyncPc

def SyncPc.holds : SyncPc → Bool
  | .idle _ => false
  | _ => true

/-- A registry the process captured and has not replaced. -/
def SyncPc.argument : SyncPc → Option Registry
  | .idle argument | .locked argument => argument
  | _ => none

/-- The users map and the marker of the registry the sync loaded. -/
def SyncPc.sent : SyncPc → Option (Dict × Option Json)
  | .loaded registry => some (registry.users, pendingSyncOf registry)
  | .started snapshot pendingSync _ => some (snapshot.users, pendingSync)
  | _ => none

/-- The marker of a sync whose snapshot is on the backup. -/
def SyncPc.confirmed : SyncPc → Option (Option Json)
  | .started _ pendingSync .applied | .returned pendingSync => some pendingSync
  | _ => none

/-- The backup's users map is the primary's. -/
def InSync (w : World) : Prop := usersOf w.backup = usersOf w.primary

/-- **With no sync under way and no marker, the backup's users map is the primary's.** -/
def Consistent (w : World) : Prop := w.syncLock = false → markerOf w.primary = none → InSync w

/-- Nothing is going on, the backup is in sync if there is no marker, and the marker's generation counts
as drawn. -/
structure Quiet {ι : Type} (c : State ι) : Prop where
  idle : ∀ i, c.proc i = .idle none
  unlocked : c.shared.syncLock = false
  noneLate : c.shared.late = []
  fresh : ∀ m g, markerOf c.shared.primary = some m → generationOf m = some (.str g) → g ∈ c.shared.generations
  consistent : Consistent c.shared

/-- A late snapshot that the backup accepts is the primary's users map, or finds a marker that no sync
with its own snapshot on the backup is about to clear. -/
def HarmlessLate {ι : Type} : Machine.Guard ι World SyncPc Act := fun c _ a =>
  ∀ n s, a = .lateHelperApplies n → c.shared.late[n]? = some s → applySnapshot s c.shared.backup ≠ none →
    usersOf c.shared.primary = some (Dict.get? s.users) ∨
      ∃ m, markerOf c.shared.primary = some m ∧ ∀ j, (c.proc j).confirmed ≠ some (some m)

/-! ## What the parts do -/

theorem usersOf_applySnapshot {s : Snapshot} {file file' : RegistryFile}
    (h : applySnapshot s file = some file') : usersOf file' = some (Dict.get? s.users) := by
  unfold applySnapshot at h
  split at h
  · rename_i registry
    split at h
    · rename_i config hconfig
      split at h
      · cases h
        have hload : loadNotificationRegistry (.json (.obj (Dict.set registry "users" (.obj s.users)))) =
            normalizeNotificationRegistry (.obj (Dict.set registry "users" (.obj s.users))) := rfl
        have hc : Dict.getD (Dict.set registry "users" (.obj s.users)) "config" (.obj []) = .obj config := by
          rw [← hconfig, Dict.getD, Dict.get?_set_ne _ _ (by decide)]
          rfl
        have hu : Dict.getD (Dict.set registry "users" (.obj s.users)) "users" (.obj []) = .obj s.users := by
          rw [Dict.getD, Dict.get?_set_self]
          rfl
        simp only [normalizeNotificationRegistry, hc, hu] at hload
        exact usersOf_of_load hload
      · cases h
    · cases h
  · cases h

theorem encodeBackupSnapshot_users {registry : Registry} {s : Snapshot}
    (h : encodeBackupSnapshot registry = .ok s) : s.users = registry.users := by
  unfold encodeBackupSnapshot at h
  split at h
  · cases h
  · split at h
    · unfold decodeBackupSnapshot at h
      split at h
      · cases h
      · split at h <;> cases h
        rfl
    · cases h

theorem encodeBackupSnapshot_empty (s : Snapshot) :
    encodeBackupSnapshot emptyNotificationRegistry ≠ .ok s := by
  have h : (validatedNotificationConfig emptyNotificationRegistry).toOption = none := by decide
  intro hs
  unfold encodeBackupSnapshot at hs
  split at hs
  · cases hs
  · rename_i config hconfig
    rw [hconfig] at h
    cases h

/-! ## The invariant -/

/-- The marker a sync will clear once its snapshot is on the backup. -/
def SyncPc.pendingSync : SyncPc → Option (Option Json)
  | .loaded registry => some (pendingSyncOf registry)
  | .started _ pendingSync _ | .returned pendingSync => some pendingSync
  | _ => none

theorem SyncPc.pendingSync_of_sent {pc : SyncPc} {users : Dict} {pendingSync : Option Json}
    (h : pc.sent = some (users, pendingSync)) : pc.pendingSync = some pendingSync := by
  cases pc <;> simp_all [SyncPc.sent, SyncPc.pendingSync]

theorem SyncPc.pendingSync_of_confirmed {pc : SyncPc} {pendingSync : Option Json}
    (h : pc.confirmed = some pendingSync) : pc.pendingSync = some pendingSync := by
  unfold SyncPc.confirmed at h
  split at h <;> simp_all [SyncPc.pendingSync]

/-- A sync under way with the users map `users` and the marker `pendingSync`: if the marker still stands
so does the users map, and nobody else clears a marker. -/
def Tracks (w : World) (users : Dict) (pendingSync : Option Json) : Prop :=
  (markerOf w.primary = pendingSync → usersOf w.primary = some (Dict.get? users)) ∧
    (markerOf w.primary = none → pendingSync = none)

structure ProcInv (w : World) (pc : SyncPc) : Prop where
  held : pc.holds = true → w.syncLock = true
  fresh : ∀ m g, pc.pendingSync = some (some m) → generationOf m = some (.str g) → g ∈ w.generations
  argument : ∀ registry, pc.argument = some registry → w.primary.exists = false →
    registry = emptyNotificationRegistry
  tracks : ∀ users pendingSync, pc.sent = some (users, pendingSync) →
    pc = .loaded emptyNotificationRegistry ∨ Tracks w users pendingSync
  confirmed : ∀ pendingSync, pc.confirmed = some pendingSync → markerOf w.primary = pendingSync → InSync w

structure WorldInv (w : World) : Prop where
  fresh : ∀ m g, markerOf w.primary = some m → generationOf m = some (.str g) → g ∈ w.generations
  unmarked : markerOf w.primary = none → InSync w

structure Inv {ι : Type} (c : State ι) : Prop where
  world : WorldInv c.shared
  each : ∀ i, ProcInv c.shared (c.proc i)
  sole : ∀ i j, (c.proc i).holds = true → (c.proc j).holds = true → i = j

theorem procInv_idle {w : World} {argument : Option Registry}
    (h : ∀ registry, argument = some registry → w.primary.exists = false →
      registry = emptyNotificationRegistry) : ProcInv w (.idle argument) := by
  refine ⟨?_, ?_, h, ?_, ?_⟩ <;> simp [SyncPc.holds, SyncPc.pendingSync, SyncPc.sent, SyncPc.confirmed]

theorem procInv_idle_none (w : World) : ProcInv w (.idle none) :=
  procInv_idle fun _ h => by cases h

theorem Quiet.inv {ι : Type} {c : State ι} (h : Quiet c) : Inv c := by
  refine ⟨⟨h.fresh, h.consistent h.unlocked⟩, fun i => ?_, fun i j hi => ?_⟩
  · rw [h.idle i]
    exact procInv_idle_none _
  · simp [h.idle i, SyncPc.holds] at hi

theorem backupSyncMarker_ne {m : Json} {stamp : Stamp} {detail : String} {generations : List String}
    (hfresh : ∀ g, generationOf m = some (.str g) → g ∈ generations)
    (hnew : stamp.generation ∉ generations) : m ≠ backupSyncMarker stamp detail := by
  rintro rfl
  exact hnew (hfresh _ (generationOf_backupSyncMarker stamp detail))

/-- A new marker leaves a process as it was: what it sent or had confirmed is for an older one. -/
theorem ProcInv.of_marked {w : World} {pc : SyncPc} (h : ProcInv w pc) {primary : RegistryFile}
    {stamp : Stamp} {detail : String} (hex : primary.exists = true)
    (hmark : markerOf primary = some (backupSyncMarker stamp detail))
    (hnew : stamp.generation ∉ w.generations) :
    ProcInv { w with primary, generations := stamp.generation :: w.generations } pc := by
  have hold : ∀ pendingSync, pc.pendingSync = some pendingSync →
      some (backupSyncMarker stamp detail) ≠ pendingSync := by
    rintro _ hp rfl
    exact backupSyncMarker_ne (fun g => h.fresh _ g hp) hnew rfl
  refine ⟨h.held, ?_, ?_, ?_, ?_⟩
  · exact fun m g hm hg => List.mem_cons_of_mem _ (h.fresh m g hm hg)
  · exact fun registry _ habsent => absurd hex (by simp [habsent])
  · refine fun users pendingSync hs => .inr ⟨fun hm => ?_, fun hm => ?_⟩
    · exact absurd (hmark.symm.trans hm) (hold pendingSync (SyncPc.pendingSync_of_sent hs))
    · cases hmark.symm.trans hm
  · intro pendingSync hc hm
    exact absurd (hmark.symm.trans hm) (hold pendingSync (SyncPc.pendingSync_of_confirmed hc))

/-- A rewrite that keeps the users map and the marker leaves a process as it was. -/
theorem ProcInv.of_rewritten {w : World} {pc : SyncPc} (h : ProcInv w pc) {primary : RegistryFile}
    {generations : List String} (hex : primary.exists = true ∨ primary = w.primary)
    (husers : usersOf primary = usersOf w.primary) (hmark : markerOf primary = markerOf w.primary)
    (hsub : w.generations ⊆ generations) : ProcInv { w with primary, generations } pc := by
  refine ⟨h.held, ?_, ?_, ?_, ?_⟩
  · exact fun m g hm hg => hsub (h.fresh m g hm hg)
  · intro registry hr habsent
    rcases hex with hex | rfl
    · exact absurd hex (by simp [habsent])
    · exact h.argument registry hr habsent
  · intro users pendingSync hs
    simpa only [Tracks, hmark, husers] using h.tracks users pendingSync hs
  · intro pendingSync hc hm
    exact (h.confirmed pendingSync hc (hmark ▸ hm)).trans husers.symm

theorem inv_routing {ι : Type} {c : State ι} (hi : Inv c) (call : Routing) (stamp : Stamp) (io : UpdateIo)
    (hnew : stamp.generation ∉ c.shared.generations) :
    Inv (⟨{ c.shared with primary := call.run stamp io c.shared.primary
                          generations := stamp.generation :: c.shared.generations }, c.proc⟩ : State ι) := by
  obtain ⟨⟨fresh, unmarked⟩, each, sole⟩ := hi
  have hsub : c.shared.generations ⊆ stamp.generation :: c.shared.generations := List.subset_cons_self ..
  rcases call.run_cases stamp io c.shared.primary with hsame | ⟨hex, husers, hmark⟩ | ⟨hex, detail, hmark⟩
  · rw [hsame]
    refine ⟨⟨fun m g hm hg => hsub (fresh m g hm hg), unmarked⟩, fun i => ?_, sole⟩
    exact (each i).of_rewritten (.inr rfl) rfl rfl hsub
  · refine ⟨⟨fun m g hm hg => hsub (fresh m g (hmark ▸ hm) hg), fun hm => ?_⟩, fun i => ?_, sole⟩
    · exact (unmarked (hmark ▸ hm)).trans husers.symm
    · exact (each i).of_rewritten (.inl hex) husers hmark hsub
  · refine ⟨⟨fun m g hm hg => ?_, fun hm => ?_⟩, fun i => (each i).of_marked hex hmark hnew, sole⟩
    · cases hmark.symm.trans hm
      cases (generationOf_backupSyncMarker stamp detail).symm.trans hg
      exact List.mem_cons_self
    · cases hmark.symm.trans hm

/-- A helper that outlived its sync applies its snapshot. -/
theorem inv_late {ι : Type} {c : State ι} (hi : Inv c) {n : Nat} {s : Snapshot} {backup : RegistryFile}
    (hs : c.shared.late[n]? = some s) (ha : applySnapshot s c.shared.backup = some backup) (j : ι)
    (hg : HarmlessLate c j (.lateHelperApplies n)) :
    Inv (⟨{ c.shared with backup, late := c.shared.late.eraseIdx n }, c.proc⟩ : State ι) := by
  obtain ⟨⟨fresh, unmarked⟩, each, sole⟩ := hi
  have husers := usersOf_applySnapshot ha
  have hguard := hg n s rfl hs (by simp [ha])
  refine ⟨⟨fresh, fun hm => ?_⟩, fun i => ?_, sole⟩
  · rcases hguard with hsame | ⟨m, hmark, _⟩
    · exact husers.trans hsame.symm
    · cases hmark.symm.trans hm
  · obtain ⟨held, fresh, argument, tracks, _⟩ := each i
    refine ⟨held, fresh, argument, tracks, fun pendingSync hc hm => ?_⟩
    rcases hguard with hsame | ⟨m, hmark, hnone⟩
    · exact husers.trans hsame.symm
    · exact absurd (hc.trans (congrArg some (hm.symm.trans hmark))) (hnone i)

variable {ι : Type} [DecidableEq ι]

/-- A step of the process that holds the sync lock: all others are idle. -/
theorem inv_holder {c : State ι} (hi : Inv c) {i : ι} (hold : (c.proc i).holds = true) {w : World}
    {pc : SyncPc} (hw : WorldInv w) (hpc : ProcInv w pc)
    (hex : w.primary.exists = false → c.shared.primary.exists = false) :
    Inv ⟨w, Function.update c.proc i pc⟩ := by
  have hothers : ∀ j, j ≠ i → (c.proc j).holds = false := fun j hj => by
    by_contra hh
    exact hj (hi.sole j i (by simpa using hh) hold)
  refine ⟨hw, fun j => ?_, fun j k hj hk => ?_⟩
  · by_cases hj : j = i
    · simpa [hj] using hpc
    · simp only [Function.update_of_ne hj]
      have hidle := hothers j hj
      have harg := (hi.each j).argument
      generalize c.proc j = pj at hidle harg
      cases pj with
      | idle argument => exact procInv_idle fun registry hr habsent => harg registry hr (hex habsent)
      | _ => cases hidle
  · by_cases hji : j = i <;> by_cases hki : k = i
    · rw [hji, hki]
    · simp [Function.update_of_ne hki, hothers k hki] at hk
    · simp [Function.update_of_ne hji, hothers j hji] at hj
    · simp [Function.update_of_ne hki, hothers k hki] at hk

theorem WorldInv.of_same {w w' : World} (h : WorldInv w) (hp : w'.primary = w.primary)
    (hb : w'.backup = w.backup) (hg : w'.generations = w.generations) : WorldInv w' := by
  obtain ⟨p, b, l, t, g⟩ := w
  obtain ⟨p', b', l', t', g'⟩ := w'
  subst hp hb hg
  exact ⟨h.fresh, h.unmarked⟩

theorem inv_release {c : State ι} (hi : Inv c) {i : ι} (hold : (c.proc i).holds = true)
    (late : List Snapshot) :
    Inv ⟨c.shared.unlocked late, Function.update c.proc i (.idle none)⟩ :=
  inv_holder hi hold (hi.world.of_same rfl rfl rfl) (procInv_idle_none _) id

/-- An idle process captures the registry or takes the lock. -/
theorem inv_idle_own {c : State ι} (hi : Inv c) {i : ι} {lock : Bool} {pc : SyncPc}
    (hlock : c.shared.syncLock = true → lock = true)
    (hpc : ProcInv { c.shared with syncLock := lock } pc)
    (hfree : pc.holds = true → c.shared.syncLock = false) :
    Inv ⟨{ c.shared with syncLock := lock }, Function.update c.proc i pc⟩ := by
  have hothers : pc.holds = true → ∀ j, (c.proc j).holds = false := fun hh j => by
    by_contra hj
    rw [(hi.each j).held (by simpa using hj)] at hfree
    cases hfree hh
  refine ⟨hi.world.of_same rfl rfl rfl, fun j => ?_, fun j k hj hk => ?_⟩
  · by_cases hj : j = i
    · simpa [hj] using hpc
    · simp only [Function.update_of_ne hj]
      obtain ⟨held, fresh, argument, tracks, confirmed⟩ := hi.each j
      exact ⟨fun hh => hlock (held hh), fresh, argument, tracks, confirmed⟩
  · by_cases hji : j = i <;> by_cases hki : k = i
    · rw [hji, hki]
    · subst hji
      simp only [Function.update_self, Function.update_of_ne hki] at hj hk
      simp [hothers hj k] at hk
    · subst hki
      simp only [Function.update_self, Function.update_of_ne hji] at hj hk
      simp [hothers hk j] at hj
    · simp only [Function.update_of_ne hji, Function.update_of_ne hki] at hj hk
      exact hi.sole j k hj hk

theorem inv_idle_step {c : State ι} (hi : Inv c) {i : ι} {argument : Option Registry}
    (hp : c.proc i = .idle argument) {a : Act} {w : World} {pc : SyncPc}
    (h : syncStep c.shared (.idle argument) a = some (w, pc)) :
    Inv ⟨w, Function.update c.proc i pc⟩ := by
  have harg : ∀ registry, argument = some registry → c.shared.primary.exists = false →
      registry = emptyNotificationRegistry :=
    (hp ▸ hi.each i : ProcInv c.shared (.idle argument)).argument
  cases a <;> simp only [syncStep, reduceCtorEq] at h
  case loadNotificationRegistry =>
    split at h <;> rename_i hload <;> cases h
    · refine inv_idle_own hi id (procInv_idle fun registry hr habsent => ?_) (fun hh => by cases hh)
      cases hr
      cases hprimary : c.shared.primary <;> simp_all [RegistryFile.exists, loadNotificationRegistry]
    · exact inv_idle_own hi id (procInv_idle harg) (fun hh => by cases hh)
  case routing call stamp io =>
    split at h
    · cases h
    · rename_i hnew
      cases h
      rw [← hp, Function.update_eq_self]
      exact inv_routing hi call stamp io hnew
  case takeSyncLock withArgument =>
    split at h
    · cases h
    · rename_i hlock
      cases h
      refine inv_idle_own hi (fun _ => rfl) ⟨fun _ => rfl, ?_, ?_, ?_, ?_⟩ (fun _ => by simpa using hlock)
      · exact fun m g hm => by cases hm
      · intro registry hr habsent
        cases withArgument with
        | true => exact harg registry hr habsent
        | false => cases hr
      · exact fun users pendingSync hs => by cases hs
      · exact fun pendingSync hc => by cases hc

theorem inv_sync_step {c : State ι} (hi : Inv c) {i : ι} (hold : (c.proc i).holds = true) {a : Act}
    {w : World} {pc : SyncPc} (h : syncStep c.shared (c.proc i) a = some (w, pc)) :
    Inv ⟨w, Function.update c.proc i pc⟩ := by
  have hpi := hi.each i
  have hrelease := inv_release hi hold
  have hlock := hpi.held hold
  cases hp : c.proc i <;> cases a <;> rw [hp] at h hpi <;> simp only [syncStep, reduceCtorEq] at h
  case idle.loadNotificationRegistry | idle.routing | idle.takeSyncLock =>
    simp [hp, SyncPc.holds] at hold
  case locked.lookForRegistry argument =>
    split at h <;> rename_i hex <;> cases h
    · -- the caller's registry, captured while there was none
      cases hpi.argument _ rfl hex
      refine inv_holder hi hold hi.world ⟨fun _ => hlock, ?_, ?_, ?_, ?_⟩ id
      · exact fun m g hm => by cases hm
      · exact fun registry hr => by cases hr
      · exact fun users pendingSync _ => .inl rfl
      · exact fun pendingSync hc => by cases hc
    · refine inv_holder hi hold hi.world ⟨fun _ => hlock, ?_, ?_, ?_, ?_⟩ id
      · exact fun m g hm => by cases hm
      · exact fun registry hr => by cases hr
      · exact fun users pendingSync hs => by cases hs
      · exact fun pendingSync hc => by cases hc
  case loading.loadLatest =>
    split at h <;> rename_i hload <;> cases h
    · have hmark := markerOf_of_load hload
      refine inv_holder hi hold hi.world ⟨fun _ => hlock, ?_, ?_, ?_, ?_⟩ id
      · exact fun m g hm hg => hi.world.fresh m g (hmark.trans (Option.some.inj hm)) hg
      · exact fun registry hr => by cases hr
      · intro users pendingSync hs
        cases hs
        exact .inr ⟨fun _ => usersOf_of_load hload, fun hm => hmark.symm.trans hm⟩
      · exact fun pendingSync hc => by cases hc
    · exact hrelease _
  case loaded.encode registry =>
    split at h <;> rename_i henc <;> cases h
    · have husers := encodeBackupSnapshot_users henc
      refine inv_holder hi hold hi.world ⟨fun _ => hlock, ?_, ?_, ?_, ?_⟩ id
      · exact fun m g hm hg => hpi.fresh m g hm hg
      · exact fun registry hr => by cases hr
      · intro users pendingSync hs
        cases hs
        rcases hpi.tracks _ _ rfl with hempty | htracks
        · cases hempty
          exact absurd henc (encodeBackupSnapshot_empty _)
        · exact .inr (husers ▸ htracks)
      · exact fun pendingSync hc => by cases hc
    · exact hrelease _
  case started.helperEnds snapshot pendingSync helper success =>
    have htracks : Tracks c.shared snapshot.users pendingSync :=
      (hpi.tracks _ _ rfl).resolve_left (by simp)
    cases helper with
    | applied | failed => cases h
    | running =>
        dsimp only at h
        split at h <;> cases h
        · rename_i backup happly
          have husers := usersOf_applySnapshot happly
          have hsync : markerOf c.shared.primary = pendingSync → InSync { c.shared with backup } :=
            fun hm => husers.trans (htracks.1 hm).symm
          refine inv_holder hi hold ⟨hi.world.fresh, fun hm => ?_⟩ ⟨fun _ => hlock, ?_, ?_, ?_, ?_⟩ id
          · exact hsync (hm.trans (htracks.2 hm).symm)
          · exact fun m g hm hg => hpi.fresh m g hm hg
          · exact fun registry hr => by cases hr
          · intro users pendingSync hs
            cases hs
            exact .inr htracks
          · intro p hc hm
            cases hc
            exact hsync hm
        · refine inv_holder hi hold hi.world ⟨fun _ => hlock, ?_, ?_, ?_, ?_⟩ id
          · exact fun m g hm hg => hpi.fresh m g hm hg
          · exact fun registry hr => by cases hr
          · intro users pendingSync hs
            cases hs
            exact .inr htracks
          · exact fun pendingSync hc => by cases hc
  case started.sshReturns snapshot pendingSync helper =>
    cases helper with
    | running | failed => cases h
    | applied =>
        cases h
        refine inv_holder hi hold hi.world ⟨fun _ => hlock, ?_, ?_, ?_, ?_⟩ id
        · exact fun m g hm hg => hpi.fresh m g hm hg
        · exact fun registry hr => by cases hr
        · exact fun users pendingSync hs => by cases hs
        · intro p hc hm
          cases hc
          exact hpi.confirmed _ rfl hm
  case started.sshRaises snapshot pendingSync helper =>
    cases h
    exact hrelease _
  case returned.clearPendingSync pendingSync io =>
    cases pendingSync with
    | none =>
        cases h
        exact hrelease _
    | some marker =>
        cases h
        rcases clearPendingBackupSync_cases marker io c.shared.primary with hsame | ⟨hex, husers, hmark⟩
        · rw [hsame]
          exact hrelease _
        · refine inv_holder hi hold ⟨fun m g hm hg => ?_, fun hm => ?_⟩ (procInv_idle_none _)
            (fun habsent => absurd hex (by simp [habsent]))
          · rcases hmark with hmark | ⟨_, hmark⟩
            · exact hi.world.fresh m g (hmark.symm.trans hm) hg
            · cases hmark.symm.trans hm
          · have hsync : InSync c.shared := by
              rcases hmark with hmark | ⟨hmark | hmark, _⟩
              · exact hi.world.unmarked (hmark.symm.trans hm)
              · exact hpi.confirmed _ rfl hmark
              · exact hi.world.unmarked hmark
            exact Eq.trans hsync husers.symm

theorem inv_step {c : State ι} {i : ι} {a : Act} {w : World} {pc : SyncPc} (hi : Inv c)
    (hg : HarmlessLate c i a) (h : step c.shared (c.proc i) a = some (w, pc)) :
    Inv ⟨w, Function.update c.proc i pc⟩ := by
  unfold step at h
  split at h
  · rename_i n
    obtain ⟨s, hs, he⟩ := Option.map_eq_some_iff.mp h
    cases he
    rw [Function.update_eq_self]
    cases ha : applySnapshot s c.shared.backup with
    | some backup => exact inv_late hi hs ha i hg
    | none =>
        refine ⟨hi.world.of_same rfl rfl rfl, fun j => ?_, hi.sole⟩
        obtain ⟨held, fresh, argument, tracks, confirmed⟩ := hi.each j
        exact ⟨held, fresh, argument, tracks, confirmed⟩
  · cases hp : c.proc i with
    | idle argument => exact inv_idle_step hi hp (hp ▸ h)
    | _ => exact inv_sync_step hi (by rw [hp]; rfl) h

/-- **While late snapshots do no harm, an absent marker means the backup is in sync.** -/
theorem consistent_of_harmlessLate {c₀ c : State ι} (hq : Quiet c₀)
    (h : machine.Reach HarmlessLate c₀ c) : Consistent c.shared := by
  have hinv : Inv c := Machine.Reach.invariant Inv hq.inv
    (fun c i a s l hi hg hstep => inv_step hi hg hstep) h
  exact fun _ hm => hinv.world.unmarked hm

/-! ## A late snapshot -/

/-- A registry of one cluster, with no user routing. -/
def clusterRegistry : Registry where
  config := [("enabled", .bool true), ("region", .str "eu-frankfurt-1"),
    ("compartment_id", .str "ocid1.compartment.oc1..a"), ("cluster_name", .str "hpc"),
    ("cluster_scope_id", .str "hpc-1"), ("auth", .str "instance_principal"),
    ("deployment_id", .str "0123456789abcdef0123456789abcdef")]
  users := []
  rest := []
  restPlain := restPlain_nil

def aliceRouting : Dict :=
  [("email", .str "alice@example.com"), ("topic_id", .str "ocid1.onstopic.oc1..t"),
    ("subscription_id", .str "ocid1.onssubscription.oc1..s"), ("managed_by", .str "cluster-cli")]

/-- Both controllers hold the same registry and nothing is going on. -/
def inSyncState : State (Fin 2) :=
  ⟨⟨.json clusterRegistry.toJson, .json clusterRegistry.toJson, false, [], []⟩, fun _ => .idle none⟩

theorem inSyncState_quiet : Quiet inSyncState where
  idle _ := rfl
  unlocked := rfl
  noneLate := rfl
  fresh m g hm _ := by
    rw [show markerOf inSyncState.shared.primary = none by decide] at hm
    cases hm
  consistent _ _ := rfl

/-- `HarmlessLate`, with the users maps compared field by field. -/
def harmlessLate (c : State (Fin 2)) : Act → Bool
  | .lateHelperApplies n =>
      (c.shared.late[n]?).all fun s =>
        ((loadNotificationRegistry c.shared.primary).toOption.any fun r => r.users == s.users) ||
          ((markerOf c.shared.primary).any fun m => decide (∀ j, (c.proc j).confirmed ≠ some (some m)))
  | _ => true

theorem harmlessLate_spec {c : State (Fin 2)} {i : Fin 2} {a : Act} (h : harmlessLate c a = true) :
    HarmlessLate c i a := by
  rintro n s rfl hs _
  simp only [harmlessLate, hs, Option.all_some, Bool.or_eq_true] at h
  rcases h with h | h
  · obtain ⟨registry, hload, hu⟩ := (Option.any_eq_true _ _).mp h
    left
    rw [usersOf, hload, ← eq_of_beq hu]
    rfl
  · obtain ⟨m, hm, hnone⟩ := (Option.any_eq_true _ _).mp h
    exact .inr ⟨m, hm, by simpa using hnone⟩

/-- The steps of a sync of process `i` up to the start of its helper. -/
def startSync (i : Fin 2) : List (Fin 2 × Act) :=
  [(i, .takeSyncLock false), (i, .lookForRegistry), (i, .loadLatest), (i, .encode)]

def storeAlice : Act := .routing (.store "alice" aliceRouting) ⟨"g1", "2026-01-01T00:00:00+00:00"⟩ .completes

def removeAlice : Act := .routing (.remove "alice") ⟨"g2", "2026-01-01T00:01:00+00:00"⟩ .completes

/-- The first sync times out, its helper applies the snapshot later, and a second sync clears the marker. -/
theorem consistent_of_harmlessLate_timeout :
    ∃ c : State (Fin 2), (c.shared.backup ≠ .json clusterRegistry.toJson ∧
      markerOf c.shared.primary = none) ∧ Consistent c.shared := by
  obtain ⟨c, hc, hp⟩ := Machine.Reach.exists_of_run (M := machine)
    (G := fun c _ a => harmlessLate c a = true) inSyncState
    ((0, storeAlice) :: startSync 0 ++ [(0, .sshRaises), (1, .lateHelperApplies 0)] ++ startSync 1 ++
      [(1, .helperEnds true), (1, .sshReturns), (1, .clearPendingSync .completes)])
    (fun c => c.shared.backup ≠ .json clusterRegistry.toJson ∧ markerOf c.shared.primary = none)
    (by decide +kernel)
  exact ⟨c, by simpa using hp,
    consistent_of_harmlessLate inSyncState_quiet (hc.mono fun _ _ _ h => harmlessLate_spec h)⟩

/-- **A late snapshot applied after a newer one was confirmed is never noticed**: the removed routing is
back on the backup, and no marker says so. -/
theorem late_snapshot_diverges :
    ¬ ∀ c₀ : State (Fin 2), Quiet c₀ →
      ∀ c, machine.Reach Machine.anyStep c₀ c → Consistent c.shared := by
  intro hclaim
  obtain ⟨c, hc, hbad⟩ := Machine.Reach.exists_of_run (M := machine) (G := Machine.anyStep)
    inSyncState
    ((0, storeAlice) :: startSync 0 ++ (0, .sshRaises) :: (1, removeAlice) :: startSync 1 ++
      [(1, .helperEnds true), (1, .sshReturns), (1, .clearPendingSync .completes),
        (0, .lateHelperApplies 0)])
    (fun c => !c.shared.syncLock && (markerOf c.shared.primary == none &&
      ((usersOf c.shared.backup).any fun u => (u "alice").isSome) &&
        ((usersOf c.shared.primary).any fun u => (u "alice").isNone)))
    (by decide +kernel)
  simp only [Bool.and_eq_true, Bool.not_eq_true', beq_iff_eq] at hbad
  obtain ⟨hlock, ⟨hm, hb⟩, hp⟩ := hbad
  obtain ⟨u, hu, hsome⟩ := (Option.any_eq_true _ _).mp hb
  obtain ⟨v, hv, hnone⟩ := (Option.any_eq_true _ _).mp hp
  have hsync := hclaim inSyncState inSyncState_quiet c hc hlock hm
  rw [InSync, hu, hv] at hsync
  cases hsync
  simp [Option.isNone_iff_eq_none.mp hnone] at hsome

end OciHpc.ClusterCli.BackupSync
