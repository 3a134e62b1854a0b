import OciHpc.Base.Json
import OciHpc.Base.PyStr

/-!
# The notification registry of the cluster CLI

* `Registry`, `RegistryFile` : the registry in memory, and the file it is kept in;
* `loadNotificationRegistry`, `updateNotificationRegistry` : reading the file, and an update of it under
  the registry lock;
* `updateNotificationRegistry_cases` : an update that raises leaves the file as it was.
-/

namespace OciHpc.ClusterCli

/-- An exception. `timedOut` is a `NotificationError` raised from a `subprocess.TimeoutExpired`; `click` is a
`ClickException` whose message lists `issues` under a label. -/
inductive CliError
  | notification (message : String)
  | timedOut (message : String)
  | click (summary label : String) (issues : List String)
  | other (message : String)
  deriving DecidableEq, Repr

/-- `isinstance(error, NotificationError)`. -/
def CliError.isNotification : CliError → Bool
  | .notification _ | .timedOut _ => true
  | .click .. | .other _ => false

/-- `isinstance(error, ClickException)`. -/
def CliError.isClick : CliError → Bool
  | .click .. => true
  | _ => false

/-- `str(error)`. -/
def CliError.message : CliError → String
  | .notification m | .timedOut m | .other m => m
  | .click summary label issues =>
      if issues = [] then summary else summary ++ "; " ++ label ++ ": " ++ PyStr.join "; " issues

/-- A normalized registry; `rest` are its other top-level fields. -/
structure Registry where
  config : Dict
  users : Dict
  rest : Dict
  restPlain : Dict.get? rest "config" = none ∧ Dict.get? rest "users" = none
  deriving DecidableEq

def Registry.toJson (r : Registry) : Json :=
  .obj (("config", .obj r.config) :: ("users", .obj r.users) :: r.rest)

/-- `slurm_notification_users.json`: missing, not readable as JSON, or a JSON value. -/
inductive RegistryFile
  | absent
  | unreadable (error : String)
  | json (content : Json)
  deriving DecidableEq

def notificationRegistryPath : String := "/opt/oci-hpc/conf/slurm_notification_users.json"

/-- `os.path.exists(notification_registry_path)`. -/
def RegistryFile.exists : RegistryFile → Bool
  | .absent => false
  | _ => true

theorem restPlain_nil : Dict.get? [] "config" = none ∧ Dict.get? [] "users" = none := ⟨rfl, rfl⟩

def emptyNotificationRegistry : Registry where
  config := [("enabled", .bool false), ("region", .str ""), ("compartment_id", .str ""),
    ("cluster_name", .str ""), ("cluster_scope_id", .str ""), ("auth", .str "instance_principal")]
  users := []
  rest := []
  restPlain := restPlain_nil

def normalizeNotificationRegistry : Json → Except CliError Registry
  | .obj registry =>
      match Dict.getD registry "config" (.obj []), Dict.getD registry "users" (.obj []) with
      | .obj config, .obj users =>
          .ok { config, users
                rest := Dict.pop (Dict.pop registry "config") "users"
                restPlain := ⟨by rw [Dict.get?_pop_ne _ (by decide), Dict.get?_pop_self],
                  Dict.get?_pop_self ..⟩ }
      | _, _ =>
          .error (.notification "Notification registry fields 'config' and 'users' must be JSON objects")
  | _ => .error (.notification "Notification registry must contain a JSON object")

def loadNotificationRegistry : RegistryFile → Except CliError Registry
  | .absent => .ok emptyNotificationRegistry
  | .unreadable error => .error (.notification
      ("Unable to read notification registry " ++ notificationRegistryPath ++ ": " ++ error))
  | .json content => normalizeNotificationRegistry content

/-- What the operating system does to an update: `lockError` before the registry is read, `writeError`
after the mutator and before `os.replace`. -/
inductive UpdateIo
  | completes
  | lockError (error : String)
  | writeError (error : String)
  deriving DecidableEq, Repr

/-- A mutator: what it returns and the registry it leaves, or what it raises. -/
abbrev Mutator (α : Type) := Registry → Except CliError (α × Registry)

def updateError (error : String) : CliError :=
  .notification ("Unable to update notification registry " ++ notificationRegistryPath ++ ": " ++ error)

/-- Update the runtime registry, under the registry lock. -/
def updateNotificationRegistry {α : Type} (mutator : Mutator α) (io : UpdateIo) (file : RegistryFile) :
    Except CliError α × RegistryFile :=
  match io, loadNotificationRegistry file with
  | .lockError error, _ => (.error (updateError error), file)
  | _, .error e => (.error e, file)
  | io, .ok registry =>
      match mutator registry, io with
      | .error e, _ => (.error e, file)
      | .ok _, .writeError error => (.error (updateError error), file)
      | .ok (result, updated), _ => (.ok result, .json updated.toJson)

def notificationsEnabled (registry : Registry) : Bool :=
  match Dict.getD registry.config "enabled" (.bool false) with
  | .str enabled => ["1", "true", "yes", "on"].contains (PyStr.lower (PyStr.strip enabled))
  | enabled => enabled.truthy

/-- `not str(config.get(field, '')).strip()`: only a string can be blank. -/
def isBlankField (config : Dict) (field : String) : Bool :=
  match Dict.getD config field (.str "") with
  | .str value => PyStr.strip value == ""
  | _ => false

/-- `re.fullmatch(r'[0-9a-f]{32}', s)`. -/
def isLowerHex32 (s : String) : Bool :=
  s.toList.length == 32 && s.toList.all fun c => ('0' ≤ c && c ≤ '9') || ('a' ≤ c && c ≤ 'f')

/-- The check of `str(config['deployment_id'])`: besides a string, only an integer can print so. -/
def isDeploymentId : Json → Bool
  | .str s => isLowerHex32 s
  | .int n => isLowerHex32 (toString n)
  | _ => false

/-- `str(value)`, with a list or an object abbreviated. -/
def textOf : Json → String
  | .str s => s
  | .null => "None"
  | .bool b => if b then "True" else "False"
  | .int n => toString n
  | .float repr => repr
  | .arr _ => "[...]"
  | .obj _ => "\x7b...\x7d"

def requiredConfigFields : List String :=
  ["region", "compartment_id", "cluster_name", "cluster_scope_id", "deployment_id"]

def validatedNotificationConfig (registry : Registry) : Except CliError Dict :=
  let config := registry.config
  match requiredConfigFields.filter (isBlankField config) with
  | [] =>
      if !isDeploymentId (Dict.getD config "deployment_id" .null) then
        .error (.notification "Notification registry deployment_id must be 32 lowercase hex characters")
      else
        let auth := Dict.getD config "auth" (.str "instance_principal")
        if auth ≠ .str "instance_principal" then
          .error (.notification ("Unsupported notification auth '" ++ textOf auth ++
            "'; expected instance_principal"))
        else .ok (Dict.set config "auth" auth)
  | missing =>
      .error (.notification ("Notification registry is missing required config: " ++ PyStr.join ", " missing))

/-! ## Reading back what was written -/

@[simp] theorem normalizeNotificationRegistry_toJson (r : Registry) :
    normalizeNotificationRegistry r.toJson = .ok r := by
  obtain ⟨config, users, rest, hc, hu⟩ := r
  have hpop : Dict.pop (Dict.pop (("config", .obj config) :: ("users", .obj users) :: rest) "config")
      "users" = rest := by
    calc Dict.pop (Dict.pop (("config", .obj config) :: ("users", .obj users) :: rest) "config") "users"
        = Dict.pop (Dict.pop rest "config") "users" := by simp [Dict.pop]
      _ = Dict.pop rest "users" := by rw [Dict.pop_eq_self hc]
      _ = rest := Dict.pop_eq_self hu
  simp only [normalizeNotificationRegistry, Registry.toJson, Dict.getD, Dict.get?, ↓reduceIte,
    String.reduceEq, Option.getD_some, hpop]

@[simp] theorem loadNotificationRegistry_toJson (r : Registry) :
    loadNotificationRegistry (.json r.toJson) = .ok r := normalizeNotificationRegistry_toJson r

/-- **What an update does**: it raises and leaves the file, or writes the mutator's registry. -/
theorem updateNotificationRegistry_cases {α : Type} (mutator : Mutator α) (io : UpdateIo)
    (file : RegistryFile) :
    (∃ e, updateNotificationRegistry mutator io file = (.error e, file)) ∨
    ∃ registry result updated, loadNotificationRegistry file = .ok registry ∧
      mutator registry = .ok (result, updated) ∧
      updateNotificationRegistry mutator io file = (.ok result, .json updated.toJson) := by
  unfold updateNotificationRegistry
  cases hl : loadNotificationRegistry file with
  | error e => cases io <;> exact .inl ⟨_, rfl⟩
  | ok registry =>
      cases hm : mutator registry with
      | error e => cases io <;> simp only [hm] <;> exact .inl ⟨_, rfl⟩
      | ok r =>
          cases io with
          | completes => exact .inr ⟨registry, r.1, r.2, rfl, hm, by simp only [hm]⟩
          | lockError error => exact .inl ⟨_, rfl⟩
          | writeError error => exact .inl ⟨updateError error, by simp only [hm]⟩

end OciHpc.ClusterCli
