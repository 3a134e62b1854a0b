import OciHpc.ClusterCli.Registry

/-!
# User routing and the backup marker

* `storeUserRouting`, `removeUserRouting`, `restoreUserRouting`, `clearPendingBackupSync` : the registry
  updates that change the users map or `pending_backup_sync`;
* `Routing.run_cases` : a change of the users map comes with a new marker.
-/

namespace OciHpc.ClusterCli

/-- What `_mark_backup_sync_pending` draws: a new uuid and the time. -/
structure Stamp where
  generation : String
  recordedAt : String
  deriving DecidableEq, Repr

def backupSyncMarker (stamp : Stamp) (detail : String) : Json :=
  .obj [("generation", .str stamp.generation), ("recorded_at", .str stamp.recordedAt), ("error", .str detail)]

def markBackupSyncPending (registry : Registry) (stamp : Stamp) (detail : String) : Registry :=
  { registry with config := Dict.set registry.config "pending_backup_sync" (backupSyncMarker stamp detail) }

def storeUserRouting (user : String) (entry : Dict) (stamp : Stamp) : Mutator Unit := fun registry =>
  match Dict.getNotNone registry.users user with
  | some _ => .error (.notification ("Notification routing already exists for user '" ++ user ++ "'"))
  | none =>
      .ok ((), markBackupSyncPending { registry with users := Dict.set registry.users user (.obj entry) }
        stamp ("notification routing for '" ++ user ++ "' was added"))

/-- `entry.get(...)` of a true entry and `dict(entry)` of any entry. -/
def routingFields : Json → Except CliError Dict
  | .obj fields => .ok fields
  | entry =>
      if entry.truthy then .error (.other "AttributeError: object has no attribute 'get'")
      else match entry with
        | .str _ | .arr _ => .ok []
        | _ => .error (.other "TypeError: object is not iterable")

def removeUserRouting (user : String) (stamp : Stamp) : Mutator (Dict × Option Dict) := fun registry =>
  match Dict.getNotNone registry.users user with
  | none => .ok ((registry.config, none), registry)
  | some entry =>
      match routingFields entry with
      | .error e => .error e
      | .ok fields =>
          if Dict.get? fields "managed_by" = some (.str "terraform") then
            .error (.notification ("User '" ++ user ++
              "' is managed by Terraform and cannot be deleted by cluster"))
          else
            .ok ((registry.config, some fields),
              markBackupSyncPending { registry with users := Dict.pop registry.users user } stamp
                ("notification routing for '" ++ user ++ "' was removed"))

def restoreUserRouting (user : String) (entry : Dict) (stamp : Stamp) : Mutator Unit := fun registry =>
  match Dict.get? registry.users user with
  | some _ =>
      .error (.notification ("Cannot restore notification routing for '" ++ user ++
        "': entry already exists"))
  | none =>
      .ok ((), markBackupSyncPending { registry with users := Dict.set registry.users user (.obj entry) }
        stamp ("notification routing for '" ++ user ++ "' was restored"))

def clearPendingBackupSync (expectedMarker : Json) : Mutator Unit := fun registry =>
  if Dict.get? registry.config "pending_backup_sync" = some expectedMarker then
    .ok ((), { registry with config := Dict.pop registry.config "pending_backup_sync" })
  else .ok ((), registry)

def recordPendingBackupSync (stamp : Stamp) (detail : String) : Mutator Unit := fun registry =>
  .ok ((), markBackupSyncPending registry stamp detail)

/-- A call of one of the three routing functions. -/
inductive Routing
  | store (user : String) (entry : Dict)
  | remove (user : String)
  | restore (user : String) (entry : Option Dict)
  deriving DecidableEq

def Routing.run (stamp : Stamp) (io : UpdateIo) (file : RegistryFile) : Routing → RegistryFile
  | .store user entry => (updateNotificationRegistry (storeUserRouting user entry stamp) io file).2
  | .remove user => (updateNotificationRegistry (removeUserRouting user stamp) io file).2
  | .restore _ none => file
  | .restore user (some entry) =>
      (updateNotificationRegistry (restoreUserRouting user entry stamp) io file).2

/-! ## The users map and the marker of a file -/

def usersOf (file : RegistryFile) : Option (String → Option Json) :=
  (loadNotificationRegistry file).toOption.map fun registry => Dict.get? registry.users

/-- `config.get('pending_backup_sync')`, `none` for `None`. -/
def markerOf (file : RegistryFile) : Option Json :=
  (loadNotificationRegistry file).toOption.bind fun registry =>
    Dict.getNotNone registry.config "pending_backup_sync"

def generationOf : Json → Option Json
  | .obj marker => Dict.get? marker "generation"
  | _ => none

theorem usersOf_of_load {file : RegistryFile} {registry : Registry}
    (h : loadNotificationRegistry file = .ok registry) : usersOf file = some (Dict.get? registry.users) := by
  simp [usersOf, h, Except.toOption]

theorem markerOf_of_load {file : RegistryFile} {registry : Registry}
    (h : loadNotificationRegistry file = .ok registry) :
    markerOf file = Dict.getNotNone registry.config "pending_backup_sync" := by
  simp [markerOf, h, Except.toOption]

@[simp] theorem usersOf_toJson (registry : Registry) :
    usersOf (.json registry.toJson) = some (Dict.get? registry.users) :=
  usersOf_of_load (loadNotificationRegistry_toJson registry)

@[simp] theorem markerOf_toJson (registry : Registry) :
    markerOf (.json registry.toJson) = Dict.getNotNone registry.config "pending_backup_sync" :=
  markerOf_of_load (loadNotificationRegistry_toJson registry)

@[simp] theorem generationOf_backupSyncMarker (stamp : Stamp) (detail : String) :
    generationOf (backupSyncMarker stamp detail) = some (.str stamp.generation) := rfl

theorem markerOf_markBackupSyncPending (registry : Registry) (stamp : Stamp) (detail : String) :
    markerOf (.json (markBackupSyncPending registry stamp detail).toJson) =
      some (backupSyncMarker stamp detail) := by
  rw [markerOf_toJson]
  exact Dict.getNotNone_eq_some.mpr ⟨Dict.get?_set_self .., rfl⟩

/-- An update that adds a marker whenever it changes the registry. -/
theorem update_marks {α : Type} {mutator : Mutator α} {stamp : Stamp} (io : UpdateIo) (file : RegistryFile)
    (h : ∀ registry result updated, mutator registry = .ok (result, updated) →
      updated = registry ∨ ∃ base detail, updated = markBackupSyncPending base stamp detail) :
    let file' := (updateNotificationRegistry mutator io file).2
    file' = file ∨
      (file'.exists = true ∧ usersOf file' = usersOf file ∧ markerOf file' = markerOf file) ∨
      (file'.exists = true ∧ ∃ detail, markerOf file' = some (backupSyncMarker stamp detail)) := by
  rcases updateNotificationRegistry_cases mutator io file with
    ⟨e, he⟩ | ⟨registry, result, updated, hl, hm, hu⟩
  · exact .inl (by rw [he])
  · rw [hu]
    rcases h registry result updated hm with rfl | ⟨base, detail, rfl⟩
    · refine .inr (.inl ⟨rfl, ?_, ?_⟩)
      · rw [usersOf_toJson, usersOf_of_load hl]
      · rw [markerOf_toJson, markerOf_of_load hl]
    · exact .inr (.inr ⟨rfl, detail, markerOf_markBackupSyncPending base stamp detail⟩)

/-- **A routing call that changes the users map leaves a marker of its own generation.** -/
theorem Routing.run_cases (stamp : Stamp) (io : UpdateIo) (file : RegistryFile) (call : Routing) :
    let file' := call.run stamp io file
    file' = file ∨
      (file'.exists = true ∧ usersOf file' = usersOf file ∧ markerOf file' = markerOf file) ∨
      (file'.exists = true ∧ ∃ detail, markerOf file' = some (backupSyncMarker stamp detail)) := by
  cases call with
  | store user entry =>
      refine update_marks io file fun registry result updated h => ?_
      unfold storeUserRouting at h
      split at h
      · cases h
      · cases h
        exact .inr ⟨_, _, rfl⟩
  | remove user =>
      refine update_marks io file fun registry result updated h => ?_
      unfold removeUserRouting at h
      split at h
      · cases h
        exact .inl rfl
      · split at h
        · cases h
        · split at h <;> cases h
          exact .inr ⟨_, _, rfl⟩
  | restore user entry =>
      cases entry with
      | none => exact .inl rfl
      | some entry =>
          refine update_marks io file fun registry result updated h => ?_
          unfold restoreUserRouting at h
          split at h
          · cases h
          · cases h
            exact .inr ⟨_, _, rfl⟩

/-- Clearing a marker leaves the users map, and takes the marker away or leaves it. -/
theorem clearPendingBackupSync_cases (marker : Json) (io : UpdateIo) (file : RegistryFile) :
    let file' := (updateNotificationRegistry (clearPendingBackupSync marker) io file).2
    file' = file ∨
      (file'.exists = true ∧ usersOf file' = usersOf file ∧
        (markerOf file' = markerOf file ∨ (markerOf file = some marker ∨ markerOf file = none) ∧
          markerOf file' = none)) := by
  rcases updateNotificationRegistry_cases (clearPendingBackupSync marker) io file with
    ⟨e, he⟩ | ⟨registry, result, updated, hl, hm, hu⟩
  · exact .inl (by rw [he])
  · rw [hu, usersOf_of_load hl, markerOf_of_load hl]
    unfold clearPendingBackupSync at hm
    split at hm <;> rename_i hmark <;> cases hm
    · refine .inr ⟨rfl, usersOf_toJson _, .inr ⟨?_, ?_⟩⟩
      · cases hn : marker.isNotNone with
        | true => exact .inl (Dict.getNotNone_eq_some.mpr ⟨hmark, hn⟩)
        | false => exact .inr (by simp [Dict.getNotNone, hmark, hn])
      · rw [markerOf_toJson]
        exact Dict.getNotNone_pop_self ..
    · exact .inr ⟨rfl, usersOf_toJson _, .inl (markerOf_toJson _)⟩

theorem storeUserRouting_isNotification {user : String} {entry : Dict} {stamp : Stamp} {io : UpdateIo}
    {file : RegistryFile} {e : CliError}
    (h : (updateNotificationRegistry (storeUserRouting user entry stamp) io file).1 = .error e) :
    e.isNotification = true := by
  have hnorm : ∀ j e, normalizeNotificationRegistry j = .error e → e.isNotification = true := by
    intro j e hj
    unfold normalizeNotificationRegistry at hj
    split at hj
    · split at hj <;> cases hj
      rfl
    · cases hj
      rfl
  have hload : ∀ e, loadNotificationRegistry file = .error e → e.isNotification = true := by
    intro e he
    cases file with
    | absent => cases he
    | unreadable error => cases he; rfl
    | json content => exact hnorm content e he
  unfold updateNotificationRegistry at h
  cases hl : loadNotificationRegistry file with
  | error e' =>
      have he' := hload e' hl
      cases io <;> simp only [hl, Except.error.injEq] at h <;> subst h <;> first | exact he' | rfl
  | ok registry =>
      cases hm : storeUserRouting user entry stamp registry with
      | error e' =>
          have he' : e'.isNotification = true := by
            unfold storeUserRouting at hm
            split at hm <;> cases hm
            rfl
          cases io <;> simp only [hl, hm, Except.error.injEq] at h <;> subst h <;> first | exact he' | rfl
      | ok r => cases io <;> simp only [hl, hm, Except.error.injEq, reduceCtorEq] at h <;> subst h <;> rfl

end OciHpc.ClusterCli
