import OciHpc.Base.Base64
import OciHpc.Base.Files
import OciHpc.Base.JsonRoundTrip
import OciHpc.ClusterCli.BackupSync

/-!
# The text of a backup snapshot

`BackupSync` takes a snapshot as a value. Here it is the text that goes through ssh, and the registry of the
backup is a text in a file.

* `encodeBackupSnapshot`, `decodeBackupSnapshot` : base64 of JSON, and the checks on it;
* `backupSyncHelper` : the program that runs on the backup;
* `encodeBackupSnapshot_iff` : a text is encoded where `BackupSync` encodes its snapshot;
* `backupSyncHelper_spec` : however the helper ends, the registry file is the old one or the new one;
* `snapshot_round_trip` : what is encoded is decoded and accepted, and a text that is rejected changes nothing.
-/

namespace OciHpc.ClusterCli.SnapshotText

open Base64 BackupSync JsonText Prog

/-! ## Texts -/

/-- `base64.urlsafe_b64encode(json.dumps(...).encode("utf-8")).decode("ascii")` -/
def encodePayload (payload : Json) : String :=
  String.ofList (urlsafeB64encode (dumps none payload).toUTF8.data.toList)

def payloadFields (scope : Json) (users : Dict) : Dict :=
  [("version", .int 1), ("cluster_scope_id", scope), ("users", .obj users)]

variable (floats : Floats) (surplus : Nat → Nat → Bool)

/-- `json.loads(base64.b64decode(...).decode("utf-8"))`: `none` is a `ValueError`. -/
def decodePayload (encodedPayload : String) : Option Json :=
  (b64decode surplus encodedPayload.toList).bind fun bytes => (String.fromUTF8? ⟨bytes.toArray⟩).bind (loads floats)

/-- The checks on the fields of a payload: `1.0` and `true` are equal to 1. -/
def isSnapshot (payload : Dict) : Bool :=
  (Dict.getD payload "version" .null).asInt? == some 1 && (Dict.getD payload "cluster_scope_id" .null).str?.isSome &&
    (Dict.getD payload "users" .null).obj?.isSome

def scopeOf (payload : Dict) : String := (Dict.getD payload "cluster_scope_id" .null).str?.getD ""

def usersIn (payload : Dict) : Dict := (Dict.getD payload "users" .null).obj?.getD []

def invalidPayload : CliError := .notification "Invalid backup registry synchronization payload"

def decodeBackupSnapshot (encodedPayload : String) : Except CliError Dict :=
  if encodedPayload.toList.length > 1024 * 1024 then .error invalidPayload
  else
    match decodePayload floats surplus encodedPayload with
    | some (.obj payload) =>
        if isSnapshot payload && scopeOf payload != "" then
          match (usersIn payload).find? fun e => !isRouting e.2 with
          | none => .ok payload
          | some (username, .obj _) =>
              .error (.notification ("Invalid notification routing for user '" ++ username ++ "'"))
          | some _ => .error (.notification "Invalid user in backup registry snapshot")
        else .error invalidPayload
    | _ => .error invalidPayload

def encodeBackupSnapshot (registry : Registry) : Except CliError String :=
  match validatedNotificationConfig registry with
  | .error e => .error e
  | .ok config =>
      let encodedPayload :=
        encodePayload (.obj (payloadFields (Dict.getD config "cluster_scope_id" .null) registry.users))
      match decodeBackupSnapshot floats surplus encodedPayload with
      | .error e => .error e
      | .ok _ => .ok encodedPayload

/-! ## The helper -/

/-- What the helper raises: `valueError` and `attributeError` for what it reads, and an error of the system. -/
inductive HelperError
  | valueError (message : String)
  | attributeError
  | os (error : String)
  deriving DecidableEq, Repr

inductive HelperFile
  | registry | lock
  deriving DecidableEq, Repr

abbrev Host := Files.Disk HelperFile String

abbrev HostProg := Prog (Files.sig HelperFile String) HelperError

/-- The payload, after the checks that come before the lock. -/
def checkedPayload (encodedPayload : String) : Except HelperError Dict :=
  match decodePayload floats surplus encodedPayload with
  | none => .error (.valueError "")
  | some (.obj payload) =>
      if isSnapshot payload then
        match (usersIn payload).find? fun e => !isRouting e.2 with
        | none => .ok payload
        | some (_, .obj _) => .error (.valueError "invalid notification registry routing")
        | some _ => .error (.valueError "invalid notification registry user")
      else .error (.valueError "invalid notification registry snapshot")
  | some _ => .error (.valueError "invalid notification registry snapshot")

/-- The text of the registry with the users of the payload. -/
def withUsers (payload : Dict) (content : String) : Except HelperError String :=
  match loads floats content with
  | none => .error (.valueError "")
  | some (.obj registry) =>
      match Dict.getD registry "config" (.obj []) with
      | .obj config =>
          if Dict.get? config "cluster_scope_id" = some (.str (scopeOf payload)) then
            .ok (dumps (some 2) (.obj (Dict.set registry "users" (.obj (usersIn payload)))) ++ "\n")
          else .error (.valueError "notification registry cluster scope mismatch")
      | _ => .error .attributeError
  | some _ => .error .attributeError

/-- `finally: if os.path.exists(temporary_path): os.unlink(temporary_path)`; `os.path.exists` raises nothing. -/
def removeTemporary (temporaryPath : Files.Path HelperFile) : HostProg Unit :=
  (Files.ask (.exists temporaryPath)).attempt.bind fun
    | .ok true => (Files.ask (.unlink temporaryPath)).bind fun (removed : Bool) =>
        if removed then .ret () else .throw (.os "FileNotFoundError")
    | _ => .ret ()

def replaceRegistry (temporaryPath : Files.Path HelperFile) (content : String) : HostProg Unit :=
  (Files.ask (.write temporaryPath content)).bind fun _ =>
    (Files.ask (.touch "os.fsync" temporaryPath)).bind fun _ =>
    (Files.ask (.touch "os.fchmod" temporaryPath)).bind fun _ =>
    (Files.ask (.touch "os.fchown" temporaryPath)).bind fun _ =>
    Files.ask (.replace temporaryPath (.named .registry))

/-- `backup_sync_helper_source`, with the encoded payload in front of it. -/
def backupSyncHelper (encodedPayload : String) : HostProg Unit :=
  (ofExcept (checkedPayload floats surplus encodedPayload)).bind fun payload =>
    (Files.ask (.touch "open" (.named .lock))).bind fun _ =>
    (Files.ask (.touch "fcntl.flock" (.named .lock))).bind fun _ =>
    (Files.ask (.read (.named .registry))).bind fun (content : String) =>
    (ofExcept (withUsers floats payload content)).bind fun updated =>
    (Files.ask (.touch "os.stat" (.named .registry))).bind fun _ =>
    (Files.ask .mkstemp).bind fun temporaryPath =>
    (replaceRegistry temporaryPath updated).withFinally (removeTemporary temporaryPath)

/-- The system raises its own errors only. -/
def hostStep : Handler (Files.sig HelperFile String) HelperError Host :=
  fun d call answer d' => Files.step d call answer d' ∧ ∀ e, answer = .error e → ∃ error, e = .os error

/-! ## Encoding and decoding -/

variable {floats surplus}

def decodedFields (scope : Json) (users : Dict) : Dict := Json.sortFields (Json.normalFields id (payloadFields scope users))

def decodedUsers (users : Dict) : Dict := Json.sortFields (Json.normalFields id users)

theorem fromUTF8?_toUTF8 (s : String) : String.fromUTF8? ⟨s.toUTF8.data.toList.toArray⟩ = some s := by
  rw [Array.toArray_toList]
  exact dif_pos s.isValidUTF8

/-- **What is encoded is decoded.** -/
theorem decodePayload_encodePayload {payload : Json} (h : Loaded floats payload) :
    decodePayload floats surplus (encodePayload payload) = some payload.sortKeys := by
  have hloads := loads_dumps h none (.inl rfl : ("" : String) = "" ∨ "" = "\n")
  rw [String.append_empty] at hloads
  rw [decodePayload, encodePayload, String.toList_ofList, b64decode_urlsafeB64encode, Option.bind_some, fromUTF8?_toUTF8,
    Option.bind_some, hloads]

theorem length_encodePayload {payload : Json} (h : Loaded floats payload) :
    (encodePayload payload).toList.length = 4 * ((payload.dumpsLength + 2) / 3) := by
  rw [encodePayload, String.toList_ofList, length_urlsafeB64encode, Array.length_toList, ← size_dumps h]
  rfl

theorem sortKeys_payload (scope : Json) (users : Dict) :
    (Json.obj (payloadFields scope users)).sortKeys = .obj (decodedFields scope users) := by
  rw [Json.sortKeys, Json.normal, decodedFields]

variable (scope : Json) (users : Dict)

theorem getD_version : Dict.getD (decodedFields scope users) "version" .null = .int 1 := by
  rw [decodedFields, Json.getD_sortKeys]
  rfl

theorem getD_scope : Dict.getD (decodedFields scope users) "cluster_scope_id" .null = scope.sortKeys := by
  rw [decodedFields, Json.getD_sortKeys]
  rfl

theorem getD_users : Dict.getD (decodedFields scope users) "users" .null = .obj (decodedUsers users) := by
  rw [decodedFields, Json.getD_sortKeys, decodedUsers]
  show (Json.obj users).sortKeys = _
  rw [Json.sortKeys, Json.normal]

theorem usersIn_decodedFields : usersIn (decodedFields scope users) = decodedUsers users := by
  rw [usersIn, getD_users]
  rfl

theorem isSnapshot_decodedFields : isSnapshot (decodedFields scope users) = scope.str?.isSome := by
  rw [isSnapshot, getD_version, getD_scope, getD_users, Json.str?_sortKeys]
  exact Bool.and_true _

theorem scopeOf_decodedFields : scopeOf (decodedFields scope users) = scope.str?.getD "" := by
  rw [scopeOf, getD_scope, Json.str?_sortKeys]

theorem isRouting_sortKeys (entry : Json) : isRouting entry.sortKeys = isRouting entry := by
  cases entry with
  | obj fields =>
    rw [Json.sortKeys, Json.normal]
    simp only [isRouting, Json.getD_sortKeys, Json.nonemptyStr_sortKeys]
  | null | bool | int | float | str => rfl
  | arr items =>
    rw [Json.sortKeys, Json.normal]
    rfl

/-- The users that are read have routings if and only if those encoded have. -/
theorem routings_decodedUsers : (∀ e ∈ decodedUsers users, isRouting e.2 = true) ↔ ∀ e ∈ users, isRouting e.2 = true := by
  have hmem : ∀ e, e ∈ decodedUsers users ↔ ∃ other ∈ users, (other.1, other.2.sortKeys) = e := by
    intro e
    rw [decodedUsers, (perm_sortFields _).mem_iff, Json.normalFields_eq, List.mem_map]
    rfl
  constructor
  · intro h e he
    have := h _ ((hmem _).mpr ⟨e, he, rfl⟩)
    rwa [isRouting_sortKeys] at this
  · intro h e he
    obtain ⟨other, hother, rfl⟩ := (hmem e).mp he
    rw [isRouting_sortKeys]
    exact h other hother

theorem find?_eq_none_iff {users : Dict} :
    (users.find? fun e => !isRouting e.2) = none ↔ ∀ e ∈ users, isRouting e.2 = true := by
  simp only [List.find?_eq_none, Bool.not_eq_true', Bool.not_eq_false]

variable {scope users}

theorem decodeBackupSnapshot_encoded (h : Loaded floats (.obj (payloadFields scope users))) {payload : Dict} :
    decodeBackupSnapshot floats surplus (encodePayload (.obj (payloadFields scope users))) = .ok payload ↔
      4 * (((Json.obj (payloadFields scope users)).dumpsLength + 2) / 3) ≤ 1024 * 1024 ∧
      (∃ id, scope = .str id ∧ id ≠ "") ∧ (∀ e ∈ users, isRouting e.2 = true) ∧ payload = decodedFields scope users := by
  rw [decodeBackupSnapshot, decodePayload_encodePayload h, sortKeys_payload, length_encodePayload h]
  dsimp only
  rw [isSnapshot_decodedFields, scopeOf_decodedFields, usersIn_decodedFields]
  constructor
  · intro hok
    split_ifs at hok with hlong hchecked
    split at hok
    · rename_i hnone
      have hscope : ∃ id, scope = .str id ∧ id ≠ "" := by
        cases scope with
        | str id =>
          rw [Bool.and_eq_true, bne_iff_ne] at hchecked
          exact ⟨id, rfl, hchecked.2⟩
        | null | bool | int | float | arr | obj => exact absurd hchecked (by simp [Json.str?])
      exact ⟨Nat.le_of_not_lt hlong, hscope, (routings_decodedUsers users).mp (find?_eq_none_iff.mp hnone),
        (Except.ok.inj hok).symm⟩
    · cases hok
    · cases hok
  · rintro ⟨hlength, ⟨id, rfl, hid⟩, hroutings, rfl⟩
    have hnone : ((decodedUsers users).find? fun e => !isRouting e.2) = none :=
      find?_eq_none_iff.mpr ((routings_decodedUsers users).mpr hroutings)
    rw [if_neg (Nat.not_lt.mpr hlength), hnone]
    exact if_pos (by simpa [Json.str?] using hid)

theorem encodeBackupSnapshot_value {registry : Registry} {snapshot : Snapshot} :
    BackupSync.encodeBackupSnapshot registry = .ok snapshot ↔
      ∃ config, validatedNotificationConfig registry = .ok config ∧
        Dict.get? config "cluster_scope_id" = some (.str snapshot.clusterScopeId) ∧ snapshot.users = registry.users ∧
        snapshot.encodedLength ≤ 1024 * 1024 ∧ snapshot.clusterScopeId ≠ "" ∧ ∀ e ∈ registry.users, isRouting e.2 = true := by
  have hdecode : ∀ s : Snapshot, BackupSync.decodeBackupSnapshot s = .ok snapshot ↔
      s = snapshot ∧ s.encodedLength ≤ 1024 * 1024 ∧ s.clusterScopeId ≠ "" ∧ ∀ e ∈ s.users, isRouting e.2 = true := by
    intro s
    unfold BackupSync.decodeBackupSnapshot
    constructor
    · intro hok
      split_ifs at hok with hbad
      rw [not_or, Nat.not_lt] at hbad
      split at hok
      · rename_i hnone
        exact ⟨Except.ok.inj hok, hbad.1, hbad.2, find?_eq_none_iff.mp hnone⟩
      · cases hok
      · cases hok
    · rintro ⟨rfl, hlength, hscope, hroutings⟩
      rw [if_neg (by rw [not_or, Nat.not_lt]; exact ⟨hlength, hscope⟩), find?_eq_none_iff.mpr hroutings]
  unfold BackupSync.encodeBackupSnapshot
  cases hconfig : validatedNotificationConfig registry with
  | error e => simp
  | ok config =>
    dsimp only
    split
    · rename_i scope hscope
      rw [hdecode]
      constructor
      · rintro ⟨rfl, hlength, hid, hroutings⟩
        exact ⟨config, rfl, hscope, rfl, hlength, hid, hroutings⟩
      · rintro ⟨config', hconfig', hscope', husers, hlength, hid, hroutings⟩
        obtain rfl := Except.ok.inj hconfig'
        obtain rfl : scope = snapshot.clusterScopeId := by simpa using hscope.symm.trans hscope'
        have hsnapshot : (⟨snapshot.clusterScopeId, registry.users⟩ : Snapshot) = snapshot := by rw [← husers]
        rw [hsnapshot]
        exact ⟨rfl, hlength, hid, husers ▸ hroutings⟩
    · rename_i hnone
      constructor
      · intro h
        cases h
      · rintro ⟨config', hconfig', hscope', -⟩
        obtain rfl := Except.ok.inj hconfig'
        exact absurd hscope' (hnone _)

theorem get?_validated {registry : Registry} {config : Dict} (h : validatedNotificationConfig registry = .ok config)
    {key : String} (hkey : key ≠ "auth") : Dict.get? config key = Dict.get? registry.config key := by
  unfold validatedNotificationConfig at h
  dsimp only at h
  split at h
  · split_ifs at h
    obtain rfl := Except.ok.inj h
    exact Dict.get?_set_ne _ _ hkey
  · cases h

theorem mem_of_get? {fields : Dict} {key : String} {value : Json} (h : Dict.get? fields key = some value) :
    (key, value) ∈ fields := by
  induction fields with
  | nil => cases h
  | cons e fields ih =>
    rw [Dict.get?] at h
    split_ifs at h with hkey
    · rw [← hkey, ← Option.some.inj h]
      exact List.mem_cons_self
    · exact List.mem_cons_of_mem _ (ih h)

theorem Loaded.fields {fields : Dict} (h : Loaded floats (.obj fields)) : ∀ e ∈ fields, Loaded floats e.2 := by
  cases h with
  | obj _ _ hfields => exact hfields

theorem loaded_getD {fields : Dict} (h : Loaded floats (.obj fields)) (key : String) :
    Loaded floats (Dict.getD fields key .null) := by
  rw [Dict.getD]
  cases hget : Dict.get? fields key with
  | none => exact .null
  | some value => exact Loaded.fields h _ (mem_of_get? hget)

theorem loaded_payloadFields (hscope : Loaded floats scope) (husers : Loaded floats (.obj users)) :
    Loaded floats (.obj (payloadFields scope users)) := by
  have hkeys : ["version", "cluster_scope_id", "users"].Nodup := by decide
  refine .obj _ hkeys fun e he => ?_
  simp only [payloadFields, List.mem_cons, List.not_mem_nil, or_false] at he
  obtain rfl | rfl | rfl := he
  · exact .int 1
  · exact hscope
  · exact husers

theorem loaded_encoded {registry : Registry} (h : Loaded floats registry.toJson) {config : Dict}
    (hconfig : validatedNotificationConfig registry = .ok config) :
    Loaded floats (.obj (payloadFields (Dict.getD config "cluster_scope_id" .null) registry.users)) := by
  have hfields := Loaded.fields h
  have hscope : Dict.getD config "cluster_scope_id" .null = Dict.getD registry.config "cluster_scope_id" .null := by
    rw [Dict.getD, Dict.getD, get?_validated hconfig (by decide)]
  rw [hscope]
  refine loaded_payloadFields (loaded_getD (hfields ("config", .obj registry.config) List.mem_cons_self) _) ?_
  exact hfields ("users", .obj registry.users) (List.mem_cons_of_mem _ List.mem_cons_self)

def snapshotText (snapshot : Snapshot) : String := encodePayload snapshot.payload

/-- **A text is encoded where `BackupSync` encodes its snapshot.** -/
theorem encodeBackupSnapshot_iff {registry : Registry} (h : Loaded floats registry.toJson) {text : String} :
    encodeBackupSnapshot floats surplus registry = .ok text ↔
      ∃ snapshot, BackupSync.encodeBackupSnapshot registry = .ok snapshot ∧ text = snapshotText snapshot := by
  unfold encodeBackupSnapshot
  cases hconfig : validatedNotificationConfig registry with
  | error e => simp [encodeBackupSnapshot_value, hconfig]
  | ok config =>
    have hloaded := loaded_encoded h hconfig
    have hdecoded := fun payload => @decodeBackupSnapshot_encoded floats surplus _ _ hloaded payload
    dsimp only
    constructor
    · intro hok
      split at hok
      · cases hok
      · rename_i payload hpayload
        obtain ⟨hlength, ⟨id, hscope, hid⟩, hroutings, -⟩ := (hdecoded payload).mp hpayload
        have hget : Dict.get? config "cluster_scope_id" = some (.str id) := by
          rw [Dict.getD] at hscope
          cases hfound : Dict.get? config "cluster_scope_id" with
          | none => rw [hfound] at hscope; cases hscope
          | some value => rw [hfound] at hscope; exact congrArg some hscope
        rw [hscope] at hlength hok
        exact ⟨⟨id, registry.users⟩, encodeBackupSnapshot_value.mpr ⟨config, hconfig, hget, rfl, hlength, hid, hroutings⟩,
          (Except.ok.inj hok).symm⟩
    · rintro ⟨⟨id, users⟩, hencoded, rfl⟩
      obtain ⟨config', hconfig', hget, rfl, hlength, hid, hroutings⟩ := encodeBackupSnapshot_value.mp hencoded
      obtain rfl := Except.ok.inj (hconfig.symm.trans hconfig')
      have hscope : Dict.getD config "cluster_scope_id" .null = .str id := by
        rw [Dict.getD, hget]
        rfl
      have hpayload := (hdecoded _).mpr ⟨by rw [hscope]; exact hlength, ⟨id, hscope, hid⟩, hroutings, rfl⟩
      rw [hpayload]
      exact congrArg (fun scope => Except.ok (encodePayload (.obj (payloadFields scope registry.users)))) hscope

/-! ## What the helper does -/

section
variable {α : Type} {Q : Post Host HelperError α} {w : Host}

/-- A call that changes no content. -/
theorem wp_touch {operation : String} {path : Files.Path HelperFile} {f : Unit → HostProg α} (hcut : Q.cut w)
    (herror : ∀ error, Q.exc (.os error) w) (h : wp hostStep (f ()) Q w) :
    wp hostStep ((Files.ask (.touch operation path)).bind f) Q w := by
  refine wp_perform_seq hcut (fun _ w' hstep => ?_) fun e w' hstep => ?_
  · rw [show w' = w from hstep.1]
    exact h
  · obtain ⟨error, rfl⟩ := hstep.2 e rfl
    rw [show w' = w from hstep.1]
    exact herror error

end

theorem removeTemporary_spec {base w : Host} (k : Nat) (h : Files.SameNamed base w) :
    wp hostStep (removeTemporary (.temp k)) ⟨fun _ => Files.SameNamed base,
      fun e w' => Files.SameNamed base w' ∧ ∃ error, e = .os error, Files.SameNamed base⟩ w := by
  refine wp_perform_attempt_seq h fun answer w' hstep => ?_
  cases answer with
  | error e =>
    rw [show w' = w from hstep.1]
    exact h
  | ok present =>
    rw [show w' = w from hstep.1.2]
    cases present with
    | false => exact h
    | true =>
      refine wp_perform_seq h (fun removed w'' hunlink => ?_) fun e w'' hunlink => ?_
      · rw [show w'' = _ from hunlink.1.2]
        have hsame := Files.sameNamed_update h k none
        split
        · exact hsame
        · exact ⟨hsame, _, rfl⟩
      · rw [show w'' = w from hunlink.1]
        exact ⟨h, hunlink.2 e rfl⟩

/-- Nothing is left to remove after the renaming. -/
theorem removeTemporary_gone {w : Host} {k : Nat} (h : w (.temp k) = none) :
    wp hostStep (removeTemporary (.temp k)) ⟨fun _ w' => w' = w, fun _ _ => False, fun w' => w' = w⟩ w := by
  refine wp_perform_attempt_seq rfl fun answer w' hstep => ?_
  cases answer with
  | error e => exact hstep.1
  | ok present =>
    obtain ⟨hpresent, hsame⟩ := hstep.1
    rw [h] at hpresent
    obtain rfl := hpresent
    exact hsame

theorem replaceRegistry_spec {d w : Host} (k : Nat) (content : String) (h : Files.SameNamed d w) :
    wp hostStep (replaceRegistry (.temp k) content)
      ⟨fun _ w' => Files.Replaced d .registry content w' ∧ w' (.temp k) = none,
        fun e w' => Files.SameNamed d w' ∧ ∃ error, e = .os error, Files.SameNamed d⟩ w := by
  refine wp_perform_seq h (fun _ w' hwrite => ?_) fun e w' hwrite => ?_
  · have hnamed : Files.SameNamed d w' := by
      rw [show w' = _ from hwrite.1]
      exact Files.sameNamed_update h k _
    have hwritten : w' (.temp k) = some content := by
      rw [show w' = _ from hwrite.1]
      exact Function.update_self ..
    refine wp_touch hnamed (fun error => ⟨hnamed, error, rfl⟩) ?_
    refine wp_touch hnamed (fun error => ⟨hnamed, error, rfl⟩) ?_
    refine wp_touch hnamed (fun error => ⟨hnamed, error, rfl⟩) ?_
    refine (wp_perform ..).mpr ⟨hnamed, fun _ w'' hreplace => ?_, fun e w'' hreplace => ?_⟩
    · obtain ⟨found, hfound, rfl⟩ := hreplace.1
      obtain rfl := Option.some.inj (hwritten.symm.trans hfound)
      refine ⟨fun name => ?_, Function.update_self ..⟩
      rw [Function.update_of_ne (by simp)]
      by_cases hname : name = .registry
      · rw [hname, Function.update_self, Function.update_self]
      · rw [Function.update_of_ne (by simpa using hname), Function.update_of_ne (by simpa using hname)]
        exact hnamed name
    · rw [show w'' = w' from hreplace.1]
      exact ⟨hnamed, hreplace.2 e rfl⟩
  · refine ⟨?_, hwrite.2 e rfl⟩
    obtain hsame | ⟨part, hpart⟩ := hwrite.1
    · rw [show w' = w from hsame]
      exact h
    · rw [show w' = _ from hpart]
      exact Files.sameNamed_update h k _

/-- The registry file has the users of the payload, and the other files are as they were. -/
def Applied (floats : Floats) (surplus : Nat → Nat → Bool) (encodedPayload : String) (d d' : Host) : Prop :=
  ∃ payload content updated, checkedPayload floats surplus encodedPayload = .ok payload ∧
    d (.named .registry) = some content ∧ withUsers floats payload content = .ok updated ∧
    Files.Replaced d .registry updated d'

/-- The check of the payload or of the registry that raises `e`. -/
def Rejects (floats : Floats) (surplus : Nat → Nat → Bool) (encodedPayload : String) (d : Host) (e : HelperError) : Prop :=
  checkedPayload floats surplus encodedPayload = .error e ∨
    ∃ payload content, checkedPayload floats surplus encodedPayload = .ok payload ∧
      d (.named .registry) = some content ∧ withUsers floats payload content = .error e

/-- **However the helper ends, the registry file is the old one or the new one**: the new one where it returns,
the old one where it raises, for a check or for an error of the system. -/
theorem backupSyncHelper_spec (encodedPayload : String) (d : Host) :
    wp hostStep (backupSyncHelper floats surplus encodedPayload)
      ⟨fun _ => Applied floats surplus encodedPayload d,
        fun e d' => Files.SameNamed d d' ∧ (Rejects floats surplus encodedPayload d e ∨ ∃ error, e = .os error),
        fun d' => Files.SameNamed d d' ∨ Applied floats surplus encodedPayload d d'⟩ d := by
  have hsame : Files.SameNamed d d := .refl d
  have hos : ∀ error : String, Files.SameNamed d d ∧
      (Rejects floats surplus encodedPayload d (.os error) ∨ ∃ other, HelperError.os error = .os other) :=
    fun error => ⟨hsame, .inr ⟨error, rfl⟩⟩
  refine wp_ofExcept_seq (fun payload hpayload => ?_) fun e he => ⟨hsame, .inl (.inl he)⟩
  refine wp_touch (.inl hsame) hos (wp_touch (.inl hsame) hos ?_)
  refine wp_perform_seq (.inl hsame) (fun content w hread => ?_) fun e w hread => ?_
  · obtain ⟨⟨hcontent, hw⟩, -⟩ := hread
    rw [show w = d from hw]
    refine wp_ofExcept_seq (fun updated hupdated => ?_) fun e he =>
      ⟨hsame, .inl (.inr ⟨payload, content, hpayload, hcontent, he⟩)⟩
    have happlied : ∀ d', Files.Replaced d .registry updated d' → Applied floats surplus encodedPayload d d' :=
      fun d' h => ⟨payload, content, updated, hpayload, hcontent, hupdated, h⟩
    refine wp_touch (.inl hsame) hos (wp_perform_seq (.inl hsame) (fun temp w hmkstemp => ?_) fun e w hmkstemp => ?_)
    · obtain ⟨⟨-, k, blank, rfl, rfl⟩, -⟩ := hmkstemp
      have hblank := Files.sameNamed_update hsame k (some blank)
      refine wp_seq_attempt (wp_mono (replaceRegistry_spec k updated hblank) (fun _ _ h => h) (fun _ _ h => h)
        fun _ h => .inl h) (fun _ w' h => ?_) fun e w' h => ?_
      · rw [wp_bind]
        refine wp_mono (removeTemporary_gone h.2) (fun _ w'' hw => ?_) (fun _ _ hfalse => hfalse.elim) fun w'' hw => ?_
        · exact happlied _ (hw ▸ h.1)
        · exact .inr (happlied _ (hw ▸ h.1))
      · rw [wp_bind]
        refine wp_mono (removeTemporary_spec k h.1) (fun _ w'' hw => ?_) (fun _ w'' hw => ?_) fun w'' hw => .inl hw
        · exact ⟨hw, .inr h.2⟩
        · exact ⟨hw.1, .inr hw.2⟩
    · rw [show w = d from hmkstemp.1]
      exact ⟨hsame, .inr (hmkstemp.2 e rfl)⟩
  · rw [show w = d from hread.1]
    exact ⟨hsame, .inr (hread.2 e rfl)⟩

theorem sameNamed_of_raised {encodedPayload : String} {d d' : Host} {e : HelperError}
    (h : Exec hostStep (backupSyncHelper floats surplus encodedPayload) d (.raised e) d') :
    Files.SameNamed d d' ∧ (Rejects floats surplus encodedPayload d e ∨ ∃ error, e = .os error) :=
  h.of_wp (backupSyncHelper_spec encodedPayload d)

theorem applied_of_done {encodedPayload : String} {d d' : Host}
    (h : Exec hostStep (backupSyncHelper floats surplus encodedPayload) d (.done ()) d') :
    Applied floats surplus encodedPayload d d' :=
  h.of_wp (backupSyncHelper_spec encodedPayload d)

theorem hostStep_ok {d d' : Host} {call : Files.Call HelperFile String} {answer : call.Ans}
    (h : Files.step d call (.ok answer : Except HelperError call.Ans) d') : hostStep d call (.ok answer) d' :=
  ⟨h, fun e he => by cases he⟩

/-- Where the checks pass the helper can return. -/
theorem exists_backupSyncHelper {encodedPayload content updated : String} {payload : Dict} {d : Host}
    (hpayload : checkedPayload floats surplus encodedPayload = .ok payload) (hcontent : d (.named .registry) = some content)
    (hupdated : withUsers floats payload content = .ok updated) (htemporary : d (.temp 0) = none) :
    ∃ d', Exec hostStep (backupSyncHelper floats surplus encodedPayload) d (.done ()) d' := by
  have htouch : ∀ (w : Host) operation path,
      Exec hostStep (Files.ask (.touch operation path) : HostProg Unit) w (.done ()) w :=
    fun w operation path => Exec.perform (hostStep_ok (show Files.step w (.touch operation path) (.ok ()) w from rfl))
  have hread : Exec hostStep (Files.ask (.read (.named .registry)) : HostProg String) d (.done content) d :=
    Exec.perform (hostStep_ok (show Files.step d (.read (.named .registry)) (.ok content) d from ⟨hcontent, rfl⟩))
  have hmkstemp : Exec hostStep (Files.ask .mkstemp : HostProg (Files.Path HelperFile)) d (.done (.temp 0))
      (Function.update d (.temp 0) (some updated)) :=
    Exec.perform (hostStep_ok (show Files.step d .mkstemp (.ok (.temp 0)) _ from ⟨htemporary, 0, updated, rfl, rfl⟩))
  have hwrite : ∀ w : Host, Exec hostStep (Files.ask (.write (.temp 0) updated) : HostProg Unit) w (.done ())
      (Function.update w (.temp 0) (some updated)) :=
    fun w => Exec.perform (hostStep_ok (show Files.step w (.write (.temp 0) updated) (.ok ()) _ from rfl))
  have hreplace : ∀ w : Host, w (.temp 0) = some updated →
      Exec hostStep (Files.ask (.replace (.temp 0) (.named .registry)) : HostProg Unit) w (.done ())
        (Function.update (Function.update w (.named .registry) (some updated)) (.temp 0) none) :=
    fun w hw => Exec.perform (hostStep_ok
      (show Files.step w (.replace (.temp 0) (.named .registry)) (.ok ()) _ from ⟨updated, hw, rfl⟩))
  have hgone : ∀ w : Host, w (.temp 0) = none → Exec hostStep (removeTemporary (.temp 0)) w (.done ()) w := by
    intro w hw
    have hexists : Exec hostStep (Files.ask (.exists (.temp 0)) : HostProg Bool) w (.done false) w :=
      Exec.perform (hostStep_ok (show Files.step w (.exists (.temp 0)) (.ok false) w from ⟨by rw [hw]; rfl, rfl⟩))
    exact (Exec.attempt hexists).bind .ret
  have hreplaced : Exec hostStep (replaceRegistry (.temp 0) updated) (Function.update d (.temp 0) (some updated)) (.done ()) _ :=
    (hwrite _).bind ((htouch _ _ _).bind ((htouch _ _ _).bind ((htouch _ _ _).bind
      (hreplace _ (Function.update_self ..)))))
  unfold backupSyncHelper
  rw [hpayload]
  refine ⟨Function.update (Function.update (Function.update (Function.update d (.temp 0) (some updated)) (.temp 0)
    (some updated)) (.named .registry) (some updated)) (.temp 0) none,
    (htouch d _ _).bind ((htouch d _ _).bind (hread.bind ?_))⟩
  rw [hupdated]
  exact (htouch d _ _).bind (hmkstemp.bind ((Exec.attempt hreplaced).bind ((hgone _ (Function.update_self ..)).bind .ret)))

/-! ## The round trip -/

def HasScope (registry : Dict) (id : String) : Prop :=
  ∃ config, Dict.get? registry "config" = some (.obj config) ∧ Dict.get? config "cluster_scope_id" = some (.str id)

/-- The helper accepts a text: only the system can stop it, and it can return. -/
structure Accepts (floats : Floats) (surplus : Nat → Nat → Bool) (encodedPayload : String) (d : Host) : Prop where
  notRejected : ∀ e d', Exec hostStep (backupSyncHelper floats surplus encodedPayload) d (.raised e) d' →
    ∃ error, e = .os error
  returns : d (.temp 0) = none → ∃ d', Exec hostStep (backupSyncHelper floats surplus encodedPayload) d (.done ()) d'

theorem accepts_of_checks {encodedPayload content updated : String} {payload : Dict} {d : Host}
    (hpayload : checkedPayload floats surplus encodedPayload = .ok payload) (hcontent : d (.named .registry) = some content)
    (hupdated : withUsers floats payload content = .ok updated) : Accepts floats surplus encodedPayload d where
  notRejected e d' h := by
    obtain ⟨-, (hrejected | ⟨payload', content', hpayload', hcontent', hrejected⟩) | hos⟩ := sameNamed_of_raised h
    · rw [hpayload] at hrejected
      cases hrejected
    · obtain rfl := Except.ok.inj (hpayload.symm.trans hpayload')
      obtain rfl := Option.some.inj (hcontent.symm.trans hcontent')
      rw [hupdated] at hrejected
      cases hrejected
    · exact hos
  returns := exists_backupSyncHelper hpayload hcontent hupdated

theorem checkedPayload_encoded {id : String} (h : Loaded floats (.obj (payloadFields (.str id) users)))
    (hroutings : ∀ e ∈ users, isRouting e.2 = true) :
    checkedPayload floats surplus (encodePayload (.obj (payloadFields (.str id) users))) =
      .ok (decodedFields (.str id) users) := by
  have hnone : ((decodedUsers users).find? fun e => !isRouting e.2) = none :=
    find?_eq_none_iff.mpr ((routings_decodedUsers users).mpr hroutings)
  rw [checkedPayload, decodePayload_encodePayload h, sortKeys_payload]
  dsimp only
  rw [isSnapshot_decodedFields, usersIn_decodedFields, hnone]
  rfl

theorem withUsers_encoded {id content : String} {own : Dict} (hcontent : loads floats content = some (.obj own))
    (hscope : HasScope own id) : withUsers floats (decodedFields (.str id) users) content =
      .ok (dumps (some 2) (.obj (Dict.set own "users" (.obj (decodedUsers users)))) ++ "\n") := by
  obtain ⟨config, hconfig, hid⟩ := hscope
  have hgetD : Dict.getD own "config" (.obj []) = .obj config := by
    rw [Dict.getD, hconfig]
    rfl
  rw [withUsers, hcontent]
  dsimp only
  rw [hgetD, scopeOf_decodedFields, usersIn_decodedFields]
  exact if_pos hid

theorem normalFields_set (leaf : Json → Json) (fields : Dict) (key : String) (value : Json) :
    Json.normalFields leaf (Dict.set fields key value) = Dict.set (Json.normalFields leaf fields) key (value.normal leaf) := by
  induction fields with
  | nil => rfl
  | cons e fields ih =>
    rw [Dict.set, Json.normalFields, Dict.set]
    split_ifs
    · rw [Json.normalFields]
    · rw [Json.normalFields, ih]

/-- A registry is the same with the users it is sent and with the users that are read of them. -/
theorem sortKeys_set_decodedUsers (own users : Dict) :
    (Json.obj (Dict.set own "users" (.obj (decodedUsers users)))).sortKeys =
      (Json.obj (Dict.set own "users" (.obj users))).sortKeys := by
  have husers : (Json.obj (decodedUsers users)).normal id = (Json.obj users).normal id := by
    rw [Json.normal, Json.normal, decodedUsers, Json.normalFields_sortFields, Json.sortFields_sortFields,
      Json.normalFields_sortKeys]
  rw [Json.sortKeys, Json.sortKeys, Json.normal, Json.normal, normalFields_set, normalFields_set, husers]

theorem loaded_set_decodedUsers {own : Dict} (hown : Loaded floats (.obj own)) (husers : Loaded floats (.obj users)) :
    Loaded floats (.obj (Dict.set own "users" (.obj (decodedUsers users)))) := by
  have hdecoded : Loaded floats (.obj (decodedUsers users)) := by
    have hsorted := husers.sortKeys
    rwa [Json.sortKeys, Json.normal] at hsorted
  cases hown with
  | obj _ hkeys hfields => exact .obj _ (nodup_keys_set hkeys _ _) (loaded_set hfields _ hdecoded)

theorem get?_decodedFields (scope : Json) (users : Dict) (key : String) :
    Dict.get? (decodedFields scope users) key = (Dict.get? (payloadFields scope users) key).map Json.sortKeys := by
  rw [decodedFields, Json.get?_sortFields, Json.get?_normalFields]
  rfl

/-- **The round trip of a snapshot.** What is encoded of a registry is decoded as version 1, the scope id and the users
of the registry, in the order of their keys. The helper, which may run on another version of Python, accepts the text
where the backup's registry has that scope id, and leaves that registry with these users. Whatever the text, a helper
that raises leaves the registry file as it was. -/
theorem snapshot_round_trip {registry : Registry} (hregistry : Loaded floats registry.toJson) {text : String}
    (hencode : encodeBackupSnapshot floats surplus registry = .ok text) (backupSurplus : Nat → Nat → Bool) :
    (∃ payload scopeId users, decodeBackupSnapshot floats surplus text = .ok payload ∧
      Dict.get? payload "version" = some (.int 1) ∧ Dict.get? payload "cluster_scope_id" = some (.str scopeId) ∧
      Dict.get? registry.config "cluster_scope_id" = some (.str scopeId) ∧
      Dict.get? payload "users" = some (.obj users) ∧ Json.obj users = (Json.obj registry.users).sortKeys ∧
      ∀ d content own, d (.named .registry) = some content → loads floats content = some (.obj own) → HasScope own scopeId →
        Accepts floats backupSurplus text d ∧
        ∀ d', Exec hostStep (backupSyncHelper floats backupSurplus text) d (.done ()) d' →
          ∃ updated, d' (.named .registry) = some updated ∧
            loads floats updated = some (Json.obj (Dict.set own "users" (.obj registry.users))).sortKeys) ∧
    ∀ rejected d e d', Exec hostStep (backupSyncHelper floats backupSurplus rejected) d (.raised e) d' →
      d' (.named .registry) = d (.named .registry) := by
  refine ⟨?_, fun rejected d e d' h => (sameNamed_of_raised h).1 _⟩
  obtain ⟨⟨id, users⟩, hsnapshot, rfl⟩ := (encodeBackupSnapshot_iff hregistry).mp hencode
  obtain ⟨config, hconfig, hscope, rfl, hlength, hid, hroutings⟩ := encodeBackupSnapshot_value.mp hsnapshot
  have hgetD : Dict.getD config "cluster_scope_id" .null = .str id := by
    rw [Dict.getD, hscope]
    rfl
  have hpayload : Loaded floats (.obj (payloadFields (.str id) registry.users)) := hgetD ▸ loaded_encoded hregistry hconfig
  have husers : Loaded floats (.obj registry.users) :=
    Loaded.fields hregistry ("users", .obj registry.users) (List.mem_cons_of_mem _ List.mem_cons_self)
  have htext : snapshotText ⟨id, registry.users⟩ = encodePayload (.obj (payloadFields (.str id) registry.users)) := rfl
  have hdecoded := (@decodeBackupSnapshot_encoded floats surplus _ _ hpayload _).mpr
    ⟨hlength, ⟨id, rfl, hid⟩, hroutings, rfl⟩
  rw [htext]
  refine ⟨decodedFields (.str id) registry.users, id, decodedUsers registry.users, hdecoded, ?_, ?_, ?_, ?_, ?_, ?_⟩
  · rw [get?_decodedFields]
    rfl
  · rw [get?_decodedFields]
    rfl
  · rw [← get?_validated hconfig (by decide), hscope]
  · rw [get?_decodedFields, decodedUsers]
    show some (Json.obj registry.users).sortKeys = _
    rw [Json.sortKeys, Json.normal]
  · rw [Json.sortKeys, Json.normal, decodedUsers]
  · intro d content own hcontent hown hscoped
    have hchecked := @checkedPayload_encoded floats backupSurplus _ _ hpayload hroutings
    have hupdated := @withUsers_encoded floats registry.users _ _ _ hown hscoped
    refine ⟨accepts_of_checks hchecked hcontent hupdated, fun d' h => ?_⟩
    obtain ⟨payload, content', updated, hpayload', hcontent', hupdated', hreplaced⟩ := applied_of_done h
    obtain rfl := Except.ok.inj (hchecked.symm.trans hpayload')
    obtain rfl := Option.some.inj (hcontent.symm.trans hcontent')
    obtain rfl := Except.ok.inj (hupdated.symm.trans hupdated')
    refine ⟨_, hreplaced.self, ?_⟩
    rw [loads_dumps (loaded_set_decodedUsers (loaded_of_loads hown) husers) _ (.inr rfl), sortKeys_set_decodedUsers]

/-! ## A registry with one user -/

/-- Every text of a float is its own. -/
def plainFloats : Floats := ⟨id, fun _ h => .inr ⟨h, rfl⟩⟩

def aliceRegistry : Registry := { clusterRegistry with users := [("alice", .obj aliceRouting)] }

def aliceBackup : Host
  | .named .registry => some (dumps (some 2) clusterRegistry.toJson ++ "\n")
  | _ => none

theorem loaded_clusterConfig : Loaded plainFloats (.obj clusterRegistry.config) :=
  .obj _ (by decide) (by simp [clusterRegistry, Loaded.str, Loaded.bool])

theorem loaded_registry {registry : Registry} (hconfig : Loaded floats (.obj registry.config))
    (husers : Loaded floats (.obj registry.users)) (hrest : registry.rest = []) : Loaded floats registry.toJson := by
  have hkeys : ["config", "users"].Nodup := by decide
  rw [Registry.toJson, hrest]
  refine .obj _ hkeys fun e he => ?_
  simp only [List.mem_cons, List.not_mem_nil, or_false] at he
  obtain rfl | rfl := he
  · exact hconfig
  · exact husers

theorem loaded_aliceRegistry : Loaded plainFloats aliceRegistry.toJson := by
  have hrouting : Loaded plainFloats (.obj aliceRouting) := .obj _ (by decide) (by simp [aliceRouting, Loaded.str])
  have husers : Loaded plainFloats (.obj aliceRegistry.users) := .obj _ (by decide) (by simpa [aliceRegistry] using hrouting)
  exact loaded_registry loaded_clusterConfig husers rfl

theorem encode_aliceRegistry : encodeBackupSnapshot plainFloats (fun _ _ => false) aliceRegistry =
    .ok (snapshotText ⟨"hpc-1", aliceRegistry.users⟩) :=
  (encodeBackupSnapshot_iff loaded_aliceRegistry).mpr ⟨_, by decide +kernel, rfl⟩

/-- Alice's registry is decoded, and its text is accepted by the backup. -/
theorem snapshot_round_trip_alice :
    (∃ payload users, decodeBackupSnapshot plainFloats (fun _ _ => false) (snapshotText ⟨"hpc-1", aliceRegistry.users⟩) =
        .ok payload ∧ Dict.get? payload "users" = some (.obj users) ∧
      Json.obj users = (Json.obj aliceRegistry.users).sortKeys) ∧
    ∃ d', Exec hostStep (backupSyncHelper plainFloats (fun _ _ => true) (snapshotText ⟨"hpc-1", aliceRegistry.users⟩))
      aliceBackup (.done ()) d' := by
  obtain ⟨⟨payload, scopeId, users, hdecode, -, -, hid, husers, hsorted, haccepts⟩, -⟩ :=
    snapshot_round_trip loaded_aliceRegistry encode_aliceRegistry fun _ _ => true
  have hempty : Loaded plainFloats (.obj clusterRegistry.users) := .obj _ List.nodup_nil fun e he => absurd he List.not_mem_nil
  have hbackup := loads_dumps (loaded_registry loaded_clusterConfig hempty rfl) (some 2) (.inr rfl : "\n" = "" ∨ "\n" = "\n")
  rw [Registry.toJson, Json.sortKeys, Json.normal] at hbackup
  have hscope : HasScope (Json.sortFields (Json.normalFields id
      (("config", .obj clusterRegistry.config) :: ("users", .obj clusterRegistry.users) :: clusterRegistry.rest))) scopeId := by
    refine ⟨Json.sortFields (Json.normalFields id clusterRegistry.config), ?_, ?_⟩
    · rw [Json.get?_sortFields, Json.get?_normalFields]
      rfl
    · rw [Json.get?_sortFields, Json.get?_normalFields]
      exact congrArg (Option.map _) hid
  exact ⟨⟨payload, users, hdecode, husers, hsorted⟩, (haccepts aliceBackup _ _ rfl hbackup hscope).1.returns rfl⟩

end OciHpc.ClusterCli.SnapshotText
