import OciHpc.Slurm.TopicAgreement

/-!
# The registry seed

`slurm_notification_registry_seed.py`: Terraform's bootstrap data is merged into the runtime registry.

* `cleanupScopeHistory`, `mergeConfig` : the pair of cluster name and scope a merge replaces is recorded in
  `cleanup_scopes`;
* `mergeRegistry`, `disableRegistry` : the two commands, a read and a write of the registry under its lock;
* `WellFormed` : no file, or a registry as the two programs and the cluster CLI leave it;
* `mergeConfig_spec`, `mergeRegistry_spec`, `seedStep_spec` : what one merge and one command keep.
-/

namespace OciHpc.Slurm
open OciHpc.ClusterCli (RegistryFile UpdateIo)

/-- A `ValueError` or an `OSError`, by its text. -/
abbrev SeedError := String

/-! ## Scopes and their history -/

/-- A validated cleanup scope; `none` for a legacy empty configuration. -/
def notificationScope (config : Dict) : Except SeedError (Option Scope) :=
  match Dict.getD config "cluster_name" .null, Dict.getD config "cluster_scope_id" .null with
  | .null, .null => .ok none
  | .str clusterName, clusterScopeId =>
    if clusterName = "" then .error "notification registry cluster_name is invalid"
    else match clusterScopeId with
      | .str clusterScopeId =>
        if clusterScopeId = "" then .error "notification registry cluster_scope_id is invalid"
        else .ok (some { clusterName, clusterScopeId })
      | _ => .error "notification registry cluster_scope_id is invalid"
  | _, _ => .error "notification registry cluster_name is invalid"

/-- The loop over `cleanup_scopes`, with the scopes found so far. -/
def historyLoop : List Scope → List Json → Except SeedError (List Scope)
  | result, [] => .ok result
  | result, .obj entry :: rest => do
    match ← notificationScope entry with
    | none => throw "notification registry has an empty cleanup scope"
    | some scope => historyLoop (addScope result scope) rest
  | _, _ :: _ => .error "notification registry has an invalid cleanup scope"

def cleanupScopeHistory (config : Dict) : Except SeedError (List Scope) :=
  match Dict.getD config "cleanup_scopes" (.arr []) with
  | .arr history => historyLoop [] history
  | _ => .error "notification registry cleanup_scopes must be a list"

def Scope.toJson (scope : Scope) : Json :=
  .obj [("cluster_name", .str scope.clusterName), ("cluster_scope_id", .str scope.clusterScopeId)]

/-! ## The two commands -/

/-- The bootstrap data, as `main` has checked it: the user has a name. -/
structure Bootstrap where
  config : Dict
  username : String
  email : Json
  topicId : Json
  subscriptionId : Json
  username_ne : username ≠ ""

def Bootstrap.entry (bootstrap : Bootstrap) : Json :=
  .obj [("email", bootstrap.email), ("topic_id", bootstrap.topicId), ("subscription_id", bootstrap.subscriptionId),
    ("managed_by", .str "terraform")]

/-- The registry of a file; `default` where there is no file or it holds no object. -/
def loadJson (file : RegistryFile) (default : Dict) : Except SeedError Dict :=
  match file with
  | .absent => .ok default
  | .unreadable error => .error error
  | .json (.obj value) => .ok value
  | .json _ => .ok default

def emptyRegistry : Dict := [("config", .obj []), ("users", .obj [])]

/-- A field of the registry, `{}` where it is no object. -/
def objectField (registry : Dict) (field : String) : Dict :=
  match Dict.get? registry field with
  | some (.obj fields) => fields
  | _ => []

def recordScope (history : List Scope) (previousScope nextScope : Option Scope) : List Scope :=
  match previousScope with
  | some scope => if some scope = nextScope then history else addScope history scope
  | none => history

def setHistory (config : Dict) (history : List Scope) : Dict :=
  if history.isEmpty then Dict.pop config "cleanup_scopes"
  else Dict.set config "cleanup_scopes" (.arr (history.map Scope.toJson))

/-- The registry's configuration after a merge of the bootstrap configuration. -/
def mergeConfig (config bootstrap : Dict) : Except SeedError Dict := do
  let previousDeploymentId := Dict.getD config "deployment_id" .null
  raiseIf (previousDeploymentId ≠ .null ∧ previousDeploymentId ≠ Dict.getD bootstrap "deployment_id" .null)
    "notification registry belongs to another deployment"
  let history ← cleanupScopeHistory config
  let previousScope ← notificationScope config
  let nextScope ← notificationScope bootstrap
  return setHistory (Dict.update config bootstrap) (recordScope history previousScope nextScope)

def lockedUpdate (change : Dict → Except SeedError Dict) (io : UpdateIo) (file : RegistryFile) :
    Except SeedError Unit × RegistryFile :=
  match io, loadJson file emptyRegistry with
  | .lockError error, _ => (.error error, file)
  | _, .error error => (.error error, file)
  | io, .ok registry =>
    match change registry, io with
    | .error error, _ => (.error error, file)
    | .ok _, .writeError error => (.error error, file)
    | .ok registry, _ => (.ok (), .json (.obj registry))

def mergeRegistry (bootstrap : Bootstrap) : UpdateIo → RegistryFile → Except SeedError Unit × RegistryFile :=
  lockedUpdate fun registry => do
    let config ← mergeConfig (objectField registry "config") bootstrap.config
    let users := Dict.set (objectField registry "users") bootstrap.username bootstrap.entry
    return Dict.set (Dict.set registry "config" (.obj config)) "users" (.obj users)

def disableRegistry : UpdateIo → RegistryFile → Except SeedError Unit × RegistryFile :=
  lockedUpdate fun registry =>
    let config := Dict.set (objectField registry "config") "enabled" (.bool false)
    .ok (Dict.set (Dict.set registry "config" (.obj config)) "users" (.obj (objectField registry "users")))

theorem lockedUpdate_cases (change : Dict → Except SeedError Dict) (io : UpdateIo) (file : RegistryFile) :
    (∃ error, lockedUpdate change io file = (.error error, file)) ∨
    ∃ registry updated, loadJson file emptyRegistry = .ok registry ∧ change registry = .ok updated ∧
      lockedUpdate change io file = (.ok (), .json (.obj updated)) := by
  unfold lockedUpdate
  cases hload : loadJson file emptyRegistry with
  | error e => cases io <;> exact .inl ⟨_, rfl⟩
  | ok registry =>
    cases hchange : change registry with
    | error e => cases io <;> simp only [hchange] <;> exact .inl ⟨_, rfl⟩
    | ok updated =>
      cases io with
      | completes => exact .inr ⟨registry, updated, rfl, hchange, by simp only [hchange]⟩
      | lockError error => exact .inl ⟨error, rfl⟩
      | writeError error => exact .inl ⟨error, by simp only [hchange]⟩

/-! ## Runs -/

inductive SeedCall
  | merge (bootstrap : Bootstrap) (io : UpdateIo)
  | disable (io : UpdateIo)

def seedStep : SeedCall → RegistryFile → Except SeedError Unit × RegistryFile
  | .merge bootstrap io => mergeRegistry bootstrap io
  | .disable io => disableRegistry io

def runSeed (file : RegistryFile) (calls : List SeedCall) : RegistryFile :=
  calls.foldl (fun file call => (seedStep call file).2) file

def configOf : RegistryFile → Dict
  | .json (.obj registry) => objectField registry "config"
  | _ => []

def usersOf : RegistryFile → Dict
  | .json (.obj registry) => objectField registry "users"
  | _ => []

def scopeOf : Json → Option Scope
  | .obj fields =>
    match Dict.get? fields "cluster_name", Dict.get? fields "cluster_scope_id" with
    | some (.str clusterName), some (.str clusterScopeId) =>
      if clusterName = "" ∨ clusterScopeId = "" then none else some { clusterName, clusterScopeId }
    | _, _ => none
  | _ => none

def currentScope (config : Dict) : Option Scope := scopeOf (.obj config)

/-- The pairs of `cleanup_scopes`. -/
def recordedScopes (config : Dict) : List Scope :=
  match Dict.getD config "cleanup_scopes" (.arr []) with
  | .arr items => items.filterMap scopeOf
  | _ => []

def Known (config : Dict) (scope : Scope) : Prop :=
  currentScope config = some scope ∨ scope ∈ recordedScopes config

/-! ## Well-formed registries -/

def Deployment.Has (d : Deployment) (scope : Scope) : Prop :=
  scope.clusterName ≠ "" ∧ scope.clusterScopeId = d.scopeId scope.clusterName

/-- A user's entry, or one of the cleanup journal, which need not have a Topic. -/
def WellFormedEntry (required : Bool) : Json → Prop
  | .obj fields => Dict.get? fields "managed_by" = some (.str "cluster-cli") →
      (∃ id, Dict.get? fields "topic_id" = some (.str id) ∧ PyStr.startsWith id topicOcidPrefix = true ∧
        id ≠ topicOcidPrefix ∧ id.toList.any PyStr.isSpace = false) ∨
      (required = false ∧ (Dict.getD fields "topic_id" .null = .null ∨ Dict.getD fields "topic_id" .null = .str ""))
  | _ => False

/-- A configuration of the deployment: without a pair before the first merge. -/
structure WellFormedConfig (d : Deployment) (config : Dict) : Prop where
  deployment : Dict.getD config "deployment_id" .null = .null ∨
    Dict.getD config "deployment_id" .null = .str d.deploymentId
  current : (Dict.getD config "cluster_name" .null = .null ∧ Dict.getD config "cluster_scope_id" .null = .null) ∨
    ∃ scope, currentScope config = some scope ∧ d.Has scope
  history : ∃ items, Dict.getD config "cleanup_scopes" (.arr []) = .arr items ∧
    ∀ item ∈ items, ∃ scope, scopeOf item = some scope ∧ d.Has scope
  pending : ∃ items, Dict.getD config "pending_cleanup" (.arr []) = .arr items ∧
    ∀ item ∈ items, WellFormedEntry false item

structure WellFormedRegistry (d : Deployment) (registry : Dict) : Prop where
  config : ∃ config, Dict.get? registry "config" = some (.obj config) ∧ WellFormedConfig d config
  users : ∃ users, Dict.get? registry "users" = some (.obj users) ∧
    ∀ e ∈ users, e.1 ≠ "" ∧ WellFormedEntry true e.2

/-- No file, or a well-formed registry. -/
def WellFormed (d : Deployment) : RegistryFile → Prop
  | .absent => True
  | .json (.obj registry) => WellFormedRegistry d registry
  | _ => False

/-- A bootstrap configuration of the deployment, with a scope of it; the cleanup journal is not Terraform's. -/
structure Bootstrap.IsOf (bootstrap : Bootstrap) (d : Deployment) : Prop where
  deployment : Dict.get? bootstrap.config "deployment_id" = some (.str d.deploymentId)
  scope : ∃ scope, currentScope bootstrap.config = some scope ∧ d.Has scope
  pending : Dict.get? bootstrap.config "pending_cleanup" = none

/-! ## Scopes, read and written -/

theorem mem_addScope {scopes : List Scope} {scope s : Scope} : s ∈ addScope scopes scope ↔ s ∈ scopes ∨ s = scope := by
  unfold addScope
  split
  case isTrue hmem =>
    constructor
    · exact .inl
    · rintro (hin | rfl)
      · exact hin
      · exact hmem
  case isFalse => rw [List.mem_append, List.mem_singleton]

theorem nodup_addScope {scopes : List Scope} (scope : Scope) (h : scopes.Nodup) : (addScope scopes scope).Nodup := by
  unfold addScope
  split
  · exact h
  case isFalse hnew => exact List.nodup_append.mpr ⟨h, List.nodup_singleton _, by
      intro a ha b hb hab
      rw [List.mem_singleton.mp hb] at hab
      exact hnew (hab ▸ ha)⟩

theorem mem_foldl_addScope {scopes more : List Scope} {s : Scope} :
    s ∈ more.foldl addScope scopes ↔ s ∈ scopes ∨ s ∈ more := by
  induction more generalizing scopes with
  | nil => simp
  | cons first rest ih => rw [List.foldl_cons, ih, mem_addScope, List.mem_cons, or_assoc]

theorem nodup_foldl_addScope {scopes : List Scope} (more : List Scope) (h : scopes.Nodup) :
    (more.foldl addScope scopes).Nodup := by
  induction more generalizing scopes with
  | nil => exact h
  | cons first rest ih => exact ih (nodup_addScope first h)

theorem scopeOf_eq_some {fields : Dict} {scope : Scope} (h : scopeOf (.obj fields) = some scope) :
    Dict.get? fields "cluster_name" = some (.str scope.clusterName) ∧
      Dict.get? fields "cluster_scope_id" = some (.str scope.clusterScopeId) ∧
      scope.clusterName ≠ "" ∧ scope.clusterScopeId ≠ "" := by
  unfold scopeOf at h
  dsimp only at h
  split at h
  case h_1 clusterName clusterScopeId hname hscope =>
    split at h
    · cases h
    case isFalse hne =>
      cases h
      exact ⟨hname, hscope, fun h => hne (.inl h), fun h => hne (.inr h)⟩
  case h_2 => cases h

theorem scopeOf_of_fields {fields : Dict} {scope : Scope}
    (hname : Dict.get? fields "cluster_name" = some (.str scope.clusterName))
    (hscope : Dict.get? fields "cluster_scope_id" = some (.str scope.clusterScopeId))
    (hname_ne : scope.clusterName ≠ "") (hscope_ne : scope.clusterScopeId ≠ "") :
    scopeOf (.obj fields) = some scope := by
  unfold scopeOf
  dsimp only
  rw [hname, hscope]
  dsimp only
  rw [if_neg (not_or.mpr ⟨hname_ne, hscope_ne⟩)]

theorem notificationScope_of_scopeOf {fields : Dict} {scope : Scope} (h : scopeOf (.obj fields) = some scope) :
    notificationScope fields = .ok (some scope) := by
  obtain ⟨hname, hscope, hname_ne, hscope_ne⟩ := scopeOf_eq_some h
  unfold notificationScope Dict.getD
  rw [hname, hscope]
  dsimp only [Option.getD_some]
  rw [if_neg hname_ne, if_neg hscope_ne]

theorem scopePair_of_scopeOf {fields : Dict} {scope : Scope} (h : scopeOf (.obj fields) = some scope)
    (context : String) : scopePair (.obj fields) context = .ok scope := by
  obtain ⟨hname, hscope, hname_ne, hscope_ne⟩ := scopeOf_eq_some h
  exact scopePair_of_fields hname hscope hname_ne hscope_ne

theorem obj_of_scopeOf {item : Json} {scope : Scope} (h : scopeOf item = some scope) :
    ∃ fields, item = .obj fields := by
  cases item with
  | obj fields => exact ⟨fields, rfl⟩
  | _ => cases h

section
variable {d : Deployment}

theorem Deployment.Has.eq_scope {scope : Scope} (h : d.Has scope) : scope = d.scope scope.clusterName := by
  obtain ⟨clusterName, clusterScopeId⟩ := scope
  exact congrArg (Scope.mk clusterName) h.2

theorem Deployment.Has.identity_eq {scope : Scope} (h : d.Has scope) (context : String) :
    scopeDeploymentIdentity scope context = .ok d.identity := by
  rw [h.eq_scope]
  exact d.scopeDeploymentIdentity_scope _ _

theorem scopeOf_toJson {scope : Scope} (h : d.Has scope) : scopeOf scope.toJson = some scope :=
  scopeOf_of_fields rfl rfl h.1 (h.2 ▸ d.scopeId_ne _)

theorem filterMap_toJson {scopes : List Scope} (h : ∀ scope ∈ scopes, d.Has scope) :
    (scopes.map Scope.toJson).filterMap scopeOf = scopes := by
  induction scopes with
  | nil => rfl
  | cons scope rest ih =>
    rw [List.map_cons, List.filterMap_cons_some (scopeOf_toJson (h scope List.mem_cons_self)),
      ih fun s hs => h s (List.mem_cons_of_mem _ hs)]

theorem historyLoop_eq {items : List Json} (h : ∀ item ∈ items, ∃ scope, scopeOf item = some scope ∧ d.Has scope)
    (result : List Scope) : historyLoop result items = .ok ((items.filterMap scopeOf).foldl addScope result) := by
  induction items generalizing result with
  | nil => rfl
  | cons item rest ih =>
    obtain ⟨scope, hscope, -⟩ := h item List.mem_cons_self
    obtain ⟨fields, rfl⟩ := obj_of_scopeOf hscope
    rw [historyLoop, notificationScope_of_scopeOf hscope, List.filterMap_cons_some hscope]
    exact ih (fun item hitem => h item (List.mem_cons_of_mem _ hitem)) (addScope result scope)

theorem addHistory_eq {items : List Json} (h : ∀ item ∈ items, ∃ scope, scopeOf item = some scope ∧ d.Has scope)
    (scopes : List Scope) (index : Nat) :
    addHistory d.identity scopes index items = .ok ((items.filterMap scopeOf).foldl addScope scopes) := by
  induction items generalizing scopes index with
  | nil => rfl
  | cons item rest ih =>
    obtain ⟨scope, hscope, hhas⟩ := h item List.mem_cons_self
    obtain ⟨fields, rfl⟩ := obj_of_scopeOf hscope
    rw [addHistory, scopePair_of_scopeOf hscope, ok_bind, hhas.identity_eq, ok_bind, raiseIf,
      if_neg (not_not_intro rfl), ok_bind, List.filterMap_cons_some hscope]
    exact ih (fun item hitem => h item (List.mem_cons_of_mem _ hitem)) (addScope scopes scope) (index + 1)

/-! ## One merge -/

theorem get?_setHistory (config : Dict) (history : List Scope) {key : String} (hkey : key ≠ "cleanup_scopes") :
    Dict.get? (setHistory config history) key = Dict.get? config key := by
  unfold setHistory
  split
  · exact Dict.get?_pop_ne _ hkey
  · exact Dict.get?_set_ne _ _ hkey

theorem getD_setHistory (config : Dict) (history : List Scope) :
    Dict.getD (setHistory config history) "cleanup_scopes" (.arr []) = .arr (history.map Scope.toJson) := by
  unfold setHistory Dict.getD
  split
  case isTrue hempty =>
    rw [Dict.get?_pop_self, List.isEmpty_iff.mp hempty]
    rfl
  · rw [Dict.get?_set_self]
    rfl

theorem recordedScopes_setHistory (config : Dict) {history : List Scope} (h : ∀ scope ∈ history, d.Has scope) :
    recordedScopes (setHistory config history) = history := by
  unfold recordedScopes
  rw [getD_setHistory]
  exact filterMap_toJson h

theorem currentScope_congr {config config' : Dict}
    (hname : Dict.get? config "cluster_name" = Dict.get? config' "cluster_name")
    (hscope : Dict.get? config "cluster_scope_id" = Dict.get? config' "cluster_scope_id") :
    currentScope config = currentScope config' := by
  unfold currentScope scopeOf
  dsimp only
  rw [hname, hscope]

theorem currentScope_update {config bootstrap : Dict} {scope : Scope} (h : currentScope bootstrap = some scope) :
    currentScope (Dict.update config bootstrap) = some scope := by
  obtain ⟨hname, hscope, hname_ne, hscope_ne⟩ := scopeOf_eq_some h
  refine scopeOf_of_fields ?_ ?_ hname_ne hscope_ne
  · rw [Dict.get?_update, hname]
    rfl
  · rw [Dict.get?_update, hscope]
    rfl

theorem recordScope_has {history : List Scope} {previousScope nextScope : Option Scope}
    (hhistory : ∀ scope ∈ history, d.Has scope) (hprevious : ∀ scope, previousScope = some scope → d.Has scope) :
    ∀ scope ∈ recordScope history previousScope nextScope, d.Has scope := by
  intro scope hscope
  unfold recordScope at hscope
  split at hscope
  case h_1 previous =>
    split at hscope
    · exact hhistory scope hscope
    · rcases mem_addScope.mp hscope with hold | rfl
      · exact hhistory scope hold
      · exact hprevious scope rfl
  case h_2 => exact hhistory scope hscope

theorem subset_recordScope (history : List Scope) (previousScope nextScope : Option Scope) :
    history ⊆ recordScope history previousScope nextScope := by
  intro scope hscope
  unfold recordScope
  split
  · split
    · exact hscope
    · exact mem_addScope.mpr (.inl hscope)
  · exact hscope

/-- The pair that is replaced is recorded, unless it stays. -/
theorem mem_recordScope {history : List Scope} {previous : Scope} {nextScope : Option Scope}
    (h : some previous ≠ nextScope) : previous ∈ recordScope history (some previous) nextScope := by
  unfold recordScope
  dsimp only
  rw [if_neg h]
  exact mem_addScope.mpr (.inr rfl)

theorem nodup_recordScope {history : List Scope} (previousScope nextScope : Option Scope) (h : history.Nodup) :
    (recordScope history previousScope nextScope).Nodup := by
  unfold recordScope
  split
  · split
    · exact h
    · exact nodup_addScope _ h
  · exact h

theorem WellFormedConfig.cleanupScopeHistory_eq {config : Dict} (h : WellFormedConfig d config) :
    cleanupScopeHistory config = .ok ((recordedScopes config).foldl addScope []) := by
  obtain ⟨items, hitems, hhas⟩ := h.history
  unfold cleanupScopeHistory recordedScopes
  rw [hitems]
  exact historyLoop_eq hhas []

theorem WellFormedConfig.recordedScopes_has {config : Dict} (h : WellFormedConfig d config) :
    ∀ scope ∈ recordedScopes config, d.Has scope := by
  obtain ⟨items, hitems, hhas⟩ := h.history
  intro scope hscope
  unfold recordedScopes at hscope
  rw [hitems] at hscope
  obtain ⟨item, hitem, hread⟩ := List.mem_filterMap.mp hscope
  obtain ⟨scope', hread', hhas'⟩ := hhas item hitem
  rw [hread] at hread'
  cases hread'
  exact hhas'

theorem WellFormedConfig.notificationScope_eq {config : Dict} (h : WellFormedConfig d config) :
    notificationScope config = .ok (currentScope config) ∧ ∀ scope, currentScope config = some scope → d.Has scope := by
  rcases h.current with ⟨hname, hscope⟩ | ⟨scope, hscope, hhas⟩
  · have hnone : currentScope config = none := by
      cases hcurrent : currentScope config with
      | none => rfl
      | some scope =>
        have hstr := (scopeOf_eq_some hcurrent).1
        rw [Dict.getD, hstr] at hname
        cases hname
    constructor
    · unfold notificationScope
      rw [hname, hscope, hnone]
    · intro scope hsome
      rw [hnone] at hsome
      cases hsome
  · constructor
    · rw [hscope]
      exact notificationScope_of_scopeOf hscope
    · intro scope' hscope'
      rw [hscope] at hscope'
      cases hscope'
      exact hhas

/-- The configuration is of the deployment, with a pair of it. -/
structure Seeded (d : Deployment) (config : Dict) : Prop where
  deployment : Dict.get? config "deployment_id" = some (.str d.deploymentId)
  current : ∃ scope, currentScope config = some scope ∧ d.Has scope

/-- **What a merge does to the configuration**: it goes through, no known pair is lost, nothing is recorded twice,
and what is not Terraform's stays. -/
theorem mergeConfig_spec {config : Dict} {bootstrap : Bootstrap} (hconfig : WellFormedConfig d config)
    (hbootstrap : bootstrap.IsOf d) : ∃ merged, mergeConfig config bootstrap.config = .ok merged ∧
      WellFormedConfig d merged ∧ Seeded d merged ∧ (∀ scope, Known config scope → Known merged scope) ∧
      (recordedScopes merged).Nodup ∧ ∀ key, key ≠ "cleanup_scopes" → Dict.get? bootstrap.config key = none →
        Dict.get? merged key = Dict.get? config key := by
  obtain ⟨next, hnext, hnext_has⟩ := hbootstrap.scope
  obtain ⟨hprevious, hprevious_has⟩ := hconfig.notificationScope_eq
  let history := recordScope ((recordedScopes config).foldl addScope []) (currentScope config) (some next)
  let merged := setHistory (Dict.update config bootstrap.config) history
  have hdeployment : Dict.getD bootstrap.config "deployment_id" .null = .str d.deploymentId := by
    rw [Dict.getD, hbootstrap.deployment]
    rfl
  have hmerge : mergeConfig config bootstrap.config = .ok merged := by
    unfold mergeConfig
    dsimp only
    rw [raiseIf, if_neg, ok_bind, hconfig.cleanupScopeHistory_eq, ok_bind, hprevious, ok_bind,
      notificationScope_of_scopeOf hnext]
    · rfl
    · rintro ⟨hsome, hother⟩
      rw [hdeployment] at hother
      exact hconfig.deployment.elim hsome hother
  have hhas : ∀ scope ∈ history, d.Has scope := by
    refine recordScope_has (fun scope hscope => ?_) hprevious_has
    rcases mem_foldl_addScope.mp hscope with hnil | hold
    · exact absurd hnil List.not_mem_nil
    · exact hconfig.recordedScopes_has scope hold
  have hrecorded : recordedScopes merged = history := recordedScopes_setHistory _ hhas
  have hcurrent : currentScope merged = some next := by
    rw [← @currentScope_update config _ _ hnext]
    exact currentScope_congr (get?_setHistory _ _ (by decide)) (get?_setHistory _ _ (by decide))
  have hget : ∀ key, key ≠ "cleanup_scopes" →
      Dict.get? merged key = (Dict.get? bootstrap.config key).or (Dict.get? config key) := by
    intro key hkey
    rw [get?_setHistory _ _ hkey, Dict.get?_update]
  have hid : Dict.get? merged "deployment_id" = some (.str d.deploymentId) := by
    rw [hget _ (by decide), hbootstrap.deployment]
    rfl
  have hkeys : ∀ key, key ≠ "cleanup_scopes" → Dict.get? bootstrap.config key = none →
      Dict.get? merged key = Dict.get? config key := by
    intro key hkey hnone
    rw [hget key hkey, hnone]
    rfl
  refine ⟨merged, hmerge, ⟨.inr ?_, .inr ⟨next, hcurrent, hnext_has⟩, ⟨_, getD_setHistory _ _, ?_⟩, ?_⟩,
    ⟨hid, next, hcurrent, hnext_has⟩, ?_, ?_, hkeys⟩
  · rw [Dict.getD, hid]
    rfl
  · intro item hitem
    obtain ⟨scope, hscope, rfl⟩ := List.mem_map.mp hitem
    exact ⟨scope, scopeOf_toJson (hhas scope hscope), hhas scope hscope⟩
  · rw [Dict.getD, hkeys _ (by decide) hbootstrap.pending]
    exact hconfig.pending
  · intro scope hknown
    rcases hknown with hcurrent' | hmem
    · by_cases hsame : some scope = some next
      · exact .inl (hcurrent.trans hsame.symm)
      · refine .inr ?_
        rw [hrecorded]
        change scope ∈ recordScope _ (currentScope config) _
        rw [hcurrent']
        exact mem_recordScope hsame
    · refine .inr ?_
      rw [hrecorded]
      exact subset_recordScope _ _ _ (mem_foldl_addScope.mpr (.inr hmem))
  · rw [hrecorded]
    exact nodup_recordScope _ _ (nodup_foldl_addScope _ List.nodup_nil)

/-! ## One command -/

def SeedCall.username : SeedCall → Option String
  | .merge bootstrap _ => some bootstrap.username
  | .disable _ => none

/-- The configuration keys the command may write: Terraform's, and the history. -/
def SeedCall.Sets : SeedCall → String → Prop
  | .merge bootstrap _, key => key = "cleanup_scopes" ∨ Dict.get? bootstrap.config key ≠ none
  | .disable _, key => key = "enabled"

/-- The bootstrap data of the command is of the deployment. -/
def SeedCall.IsOf (d : Deployment) : SeedCall → Prop
  | .merge bootstrap _ => bootstrap.IsOf d
  | .disable _ => True

structure StepKeeps (d : Deployment) (call : SeedCall) (file file' : RegistryFile) : Prop where
  wellFormed : WellFormed d file'
  known : ∀ scope, Known (configOf file) scope → Known (configOf file') scope
  nodup : (recordedScopes (configOf file)).Nodup → (recordedScopes (configOf file')).Nodup
  users : ∀ user, call.username ≠ some user → Dict.get? (usersOf file') user = Dict.get? (usersOf file) user
  keys : ∀ key, ¬ call.Sets key → Dict.get? (configOf file') key = Dict.get? (configOf file) key
  seeded : Seeded d (configOf file) → Seeded d (configOf file')

theorem StepKeeps.refl {call : SeedCall} {file : RegistryFile} (h : WellFormed d file) : StepKeeps d call file file :=
  ⟨h, fun _ => id, id, fun _ _ => rfl, fun _ _ => rfl, id⟩

theorem wellFormed_of_loadJson {file : RegistryFile} {registry : Dict} (hfile : WellFormed d file)
    (hload : loadJson file emptyRegistry = .ok registry) :
    objectField registry "config" = configOf file ∧ objectField registry "users" = usersOf file ∧
      WellFormedConfig d (configOf file) ∧ ∀ e ∈ usersOf file, e.1 ≠ "" ∧ WellFormedEntry true e.2 := by
  unfold loadJson at hload
  split at hload
  case h_1 =>
    cases hload
    exact ⟨rfl, rfl, ⟨.inl rfl, .inl ⟨rfl, rfl⟩, ⟨[], rfl, fun _ h => absurd h List.not_mem_nil⟩,
      ⟨[], rfl, fun _ h => absurd h List.not_mem_nil⟩⟩, fun _ h => absurd h List.not_mem_nil⟩
  case h_2 => cases hload
  case h_3 =>
    cases hload
    obtain ⟨⟨config, hget, hconfig⟩, users, husers, hentries⟩ := hfile
    have hc : objectField registry "config" = config := by
      unfold objectField
      rw [hget]
    have hu : objectField registry "users" = users := by
      unfold objectField
      rw [husers]
    refine ⟨rfl, rfl, ?_, ?_⟩
    · change WellFormedConfig d (objectField registry "config")
      rw [hc]
      exact hconfig
    · change ∀ e ∈ objectField registry "users", _
      rw [hu]
      exact hentries
  case h_4 value hne =>
    cases value with
    | obj fields => exact absurd rfl (hne fields)
    | _ => exact absurd hfile id

def written (registry config users : Dict) : RegistryFile :=
  .json (.obj (Dict.set (Dict.set registry "config" (.obj config)) "users" (.obj users)))

theorem configOf_written (registry config users : Dict) : configOf (written registry config users) = config := by
  change objectField _ "config" = config
  unfold objectField
  rw [Dict.get?_set_ne _ _ (by decide), Dict.get?_set_self]

theorem usersOf_written (registry config users : Dict) : usersOf (written registry config users) = users := by
  change objectField _ "users" = users
  unfold objectField
  rw [Dict.get?_set_self]

theorem wellFormed_written {registry config users : Dict} (hconfig : WellFormedConfig d config)
    (husers : ∀ e ∈ users, e.1 ≠ "" ∧ WellFormedEntry true e.2) : WellFormed d (written registry config users) := by
  refine ⟨⟨config, ?_, hconfig⟩, users, Dict.get?_set_self .., husers⟩
  rw [Dict.get?_set_ne _ _ (by decide), Dict.get?_set_self]

/-- Terraform's user has no Topic of the cluster CLI. -/
theorem wellFormedEntry_bootstrap (bootstrap : Bootstrap) : WellFormedEntry true bootstrap.entry := by
  intro hmanaged
  exact absurd hmanaged (by simp [Dict.get?])

/-- **What one merge does**: it raises and leaves the file, or the pair, the users and the keys are as claimed. -/
theorem mergeRegistry_spec {bootstrap : Bootstrap} {io : UpdateIo} {file : RegistryFile} (hfile : WellFormed d file)
    (hbootstrap : bootstrap.IsOf d) :
    (∃ error, mergeRegistry bootstrap io file = (.error error, file)) ∨
    ∃ file', mergeRegistry bootstrap io file = (.ok (), file') ∧ StepKeeps d (.merge bootstrap io) file file' ∧
      Seeded d (configOf file') ∧ (recordedScopes (configOf file')).Nodup := by
  unfold mergeRegistry
  rcases lockedUpdate_cases _ io file with herror | ⟨registry, updated, hload, hchange, hresult⟩
  · exact .inl herror
  · refine .inr ⟨_, hresult, ?_⟩
    obtain ⟨hc, hu, hconfig, husers⟩ := wellFormed_of_loadJson hfile hload
    obtain ⟨merged, hmerge, hwellFormed, hseeded, hknown, hnodup, hkeys⟩ := mergeConfig_spec hconfig hbootstrap
    rw [hc, hu, hmerge, ok_bind] at hchange
    cases hchange
    change StepKeeps d _ file (written registry merged (Dict.set (usersOf file) bootstrap.username bootstrap.entry)) ∧ _
    refine ⟨⟨wellFormed_written hwellFormed fun e he => ?_, ?_, ?_, ?_, ?_, ?_⟩, ?_, ?_⟩
    · rcases Dict.mem_set he with rfl | hold
      · exact ⟨bootstrap.username_ne, wellFormedEntry_bootstrap bootstrap⟩
      · exact husers e hold
    · rw [configOf_written]
      exact hknown
    · rw [configOf_written]
      exact fun _ => hnodup
    · intro user huser
      rw [usersOf_written]
      exact Dict.get?_set_ne _ _ fun h => huser (congrArg some h.symm)
    · intro key hkey
      rw [configOf_written]
      exact hkeys key (fun h => hkey (.inl h)) (by_contra fun h => hkey (.inr h))
    · rw [configOf_written]
      exact fun _ => hseeded
    · exact (configOf_written registry merged _).symm ▸ hseeded
    · exact (configOf_written registry merged _).symm ▸ hnodup

/-- What disabling does: only `enabled` changes. -/
theorem disableRegistry_spec {io : UpdateIo} {file : RegistryFile} (hfile : WellFormed d file) :
    (∃ error, disableRegistry io file = (.error error, file)) ∨
    ∃ file', disableRegistry io file = (.ok (), file') ∧ StepKeeps d (.disable io) file file' := by
  unfold disableRegistry
  rcases lockedUpdate_cases _ io file with herror | ⟨registry, updated, hload, hchange, hresult⟩
  · exact .inl herror
  · refine .inr ⟨_, hresult, ?_⟩
    obtain ⟨hc, hu, hconfig, husers⟩ := wellFormed_of_loadJson hfile hload
    rw [hc, hu] at hchange
    cases hchange
    let config := Dict.set (configOf file) "enabled" (.bool false)
    change StepKeeps d _ file (written registry config (usersOf file))
    have hget : ∀ key, key ≠ "enabled" → Dict.get? config key = Dict.get? (configOf file) key :=
      fun key hkey => Dict.get?_set_ne _ _ hkey
    have hcurrent : currentScope config = currentScope (configOf file) :=
      currentScope_congr (hget _ (by decide)) (hget _ (by decide))
    have hrecorded : recordedScopes config = recordedScopes (configOf file) := by
      unfold recordedScopes Dict.getD
      rw [hget _ (by decide)]
    refine ⟨wellFormed_written ⟨?_, ?_, ?_, ?_⟩ husers, ?_, ?_, ?_, ?_, ?_⟩
    · rw [Dict.getD, hget _ (by decide)]
      exact hconfig.deployment
    · rw [Dict.getD, Dict.getD, hget _ (by decide), hget _ (by decide), hcurrent]
      exact hconfig.current
    · rw [Dict.getD, hget _ (by decide)]
      exact hconfig.history
    · rw [Dict.getD, hget _ (by decide)]
      exact hconfig.pending
    · intro scope hknown
      unfold Known
      rw [configOf_written, hcurrent, hrecorded]
      exact hknown
    · rw [configOf_written, hrecorded]
      exact id
    · intro user _
      rw [usersOf_written]
    · intro key hkey
      rw [configOf_written]
      exact hget key hkey
    · rintro ⟨hdeployment, hscope⟩
      rw [configOf_written]
      refine ⟨?_, ?_⟩
      · rw [hget _ (by decide)]
        exact hdeployment
      · rw [hcurrent]
        exact hscope

/-- **One command**: it raises and leaves the file, or it keeps what it has to. -/
theorem seedStep_spec {call : SeedCall} {file : RegistryFile} (hfile : WellFormed d file) (hcall : call.IsOf d) :
    ((∃ error, (seedStep call file).1 = .error error) → (seedStep call file).2 = file) ∧
      StepKeeps d call file (seedStep call file).2 := by
  have hcases : (∃ error, seedStep call file = (.error error, file)) ∨
      ∃ file', seedStep call file = (.ok (), file') ∧ StepKeeps d call file file' := by
    cases call with
    | merge bootstrap io =>
      refine (mergeRegistry_spec hfile hcall).imp id ?_
      rintro ⟨file', hresult, hkeeps, -, -⟩
      exact ⟨file', hresult, hkeeps⟩
    | disable io => exact disableRegistry_spec hfile
  rcases hcases with ⟨error, hresult⟩ | ⟨file', hresult, hkeeps⟩
  · rw [hresult]
    exact ⟨fun _ => rfl, StepKeeps.refl hfile⟩
  · rw [hresult]
    exact ⟨nofun, hkeeps⟩

end

end OciHpc.Slurm
