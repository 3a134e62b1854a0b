import OciHpc.Slurm.RegistrySeed

/-!
# Scope history over runs of the registry seed

* `loadCleanupMetadata_of_seeded` : the cleanup's stricter reader accepts the registry, and returns every known pair;
* `runSeed_keeps`, `runSeed_merged` : what every run keeps, and what holds once a merge went through;
* `scopeHistory_kept` : over any sequence of merges and disablings no pair is lost.
-/

namespace OciHpc.Slurm
open OciHpc.ClusterCli (RegistryFile)

section
variable {d : Deployment}

/-! ## The reader accepts what the writer leaves -/

theorem registryTopicId_of_wellFormed {required : Bool} {entry : Json} (h : WellFormedEntry required entry)
    (context : String) (protectedIds : List String) :
    ∃ topicId, registryTopicId entry context protectedIds required = .ok topicId := by
  cases entry with
  | obj fields =>
    unfold registryTopicId
    dsimp only
    by_cases hmanaged : Dict.get? fields "managed_by" = some (.str "cluster-cli")
    · rw [if_neg (not_not_intro hmanaged)]
      rcases h hmanaged with ⟨id, hid, hstarts, hne, hspace⟩ | ⟨rfl, hnone⟩
      · have htopic : Dict.getD fields "topic_id" .null = .str id := by
          rw [Dict.getD, hid]
          rfl
        rw [htopic]
        split
        · exact ⟨none, rfl⟩
        · dsimp only
          rw [if_neg (by simp [hstarts, hne, hspace])]
          split
          · exact ⟨none, rfl⟩
          · exact ⟨some id, rfl⟩
      · rw [if_pos]
        · exact ⟨none, rfl⟩
        · simpa using hnone
    · rw [if_pos hmanaged]
      exact ⟨none, rfl⟩
  | _ => exact absurd h id

theorem userTopicIds_of_wellFormed {users : Dict} (h : ∀ e ∈ users, e.1 ≠ "" ∧ WellFormedEntry true e.2)
    (protectedIds : List String) : ∃ topicIds, userTopicIds protectedIds users = .ok topicIds := by
  induction users with
  | nil => exact ⟨[], rfl⟩
  | cons e rest ih =>
    obtain ⟨hname, hentry⟩ := h e List.mem_cons_self
    obtain ⟨topicId, htopic⟩ := registryTopicId_of_wellFormed hentry
      ("notification registry user '" ++ e.1 ++ "'") protectedIds
    obtain ⟨topicIds, hrest⟩ := ih fun e he => h e (List.mem_cons_of_mem _ he)
    refine ⟨topicId.toList ++ topicIds, ?_⟩
    rw [userTopicIds, raiseIf, if_neg hname, ok_bind, htopic, ok_bind, hrest]
    rfl

theorem pendingTopicIds_of_wellFormed {items : List Json} (h : ∀ item ∈ items, WellFormedEntry false item)
    (protectedIds : List String) (index : Nat) :
    ∃ topicIds, pendingTopicIds protectedIds index items = .ok topicIds := by
  induction items generalizing index with
  | nil => exact ⟨[], rfl⟩
  | cons item rest ih =>
    obtain ⟨topicId, htopic⟩ := registryTopicId_of_wellFormed (h item List.mem_cons_self)
      ("notification registry pending_cleanup[" ++ toString index ++ "]") protectedIds
    obtain ⟨topicIds, hrest⟩ := ih (fun item hitem => h item (List.mem_cons_of_mem _ hitem)) (index + 1)
    refine ⟨topicId.toList ++ topicIds, ?_⟩
    rw [pendingTopicIds, htopic, ok_bind, hrest]
    rfl

theorem listField_of_getD {fields : Dict} {field : String} {items : List Json}
    (h : Dict.getD fields field (.arr []) = .arr items) : listField fields field = .ok items := by
  unfold listField
  unfold Dict.getD at h
  cases hget : Dict.get? fields field with
  | none =>
    rw [hget] at h
    cases h
    rfl
  | some value =>
    rw [hget] at h
    cases h
    rfl

/-- **The reader accepts a registry with a pair of the deployment**, and returns every pair known to it. -/
theorem loadCleanupMetadata_of_seeded {file : RegistryFile} {cleanup : CleanupConfig} (hfile : WellFormed d file)
    (hseeded : Seeded d (configOf file)) (hcleanup : d.Cleans cleanup) :
    ∃ scopes topicIds, loadCleanupMetadata cleanup file = .ok (scopes, topicIds) ∧
      ∀ scope, Known (configOf file) scope → scope ∈ scopes := by
  obtain ⟨hdeployment, current, hcurrent, hhas⟩ := hseeded
  cases file with
  | absent => cases hdeployment
  | unreadable error => exact absurd hfile id
  | json content =>
    cases content with
    | obj registry =>
      obtain ⟨⟨config, hget, hconfig⟩, users, husers, hentries⟩ := hfile
      have hconfigOf : configOf (.json (.obj registry)) = config := by
        change objectField registry "config" = config
        unfold objectField
        rw [hget]
      rw [hconfigOf] at hdeployment hcurrent ⊢
      obtain ⟨items, hitems, hscopes⟩ := hconfig.history
      obtain ⟨pending, hpending, hjournal⟩ := hconfig.pending
      obtain ⟨userIds, huserIds⟩ := userTopicIds_of_wellFormed hentries cleanup.protectedTopicIds
      obtain ⟨pendingIds, hpendingIds⟩ := pendingTopicIds_of_wellFormed hjournal cleanup.protectedTopicIds 0
      let scopes := (items.filterMap scopeOf).foldl addScope (addScope [d.scope cleanup.clusterName] current)
      have hsame : d.deploymentId = cleanup.deploymentId := hcleanup.deployment_eq.symm
      refine ⟨scopes, userIds ++ pendingIds, ?_, ?_⟩
      · unfold loadCleanupMetadata
        rw [hcleanup.configScope_eq, ok_bind, d.scopeDeploymentIdentity_scope, ok_bind]
        dsimp only
        rw [hget]
        dsimp only
        rw [hdeployment]
        dsimp only
        rw [raiseIf, if_neg (by rw [d.deploymentId_hex]; exact Bool.noConfusion), ok_bind, raiseIf,
          if_neg (not_not_intro hsame), ok_bind, scopePair_of_scopeOf hcurrent, ok_bind, hhas.identity_eq, ok_bind,
          raiseIf, if_neg (not_not_intro rfl), ok_bind, listField_of_getD hitems, ok_bind, addHistory_eq hscopes, ok_bind,
          husers]
        dsimp only
        rw [huserIds, ok_bind, listField_of_getD hpending, ok_bind, hpendingIds]
        rfl
      · intro scope hknown
        refine mem_foldl_addScope.mpr ?_
        rcases hknown with hnow | hmem
        · rw [hcurrent] at hnow
          cases hnow
          exact .inl (mem_addScope.mpr (.inr rfl))
        · unfold recordedScopes at hmem
          rw [hitems] at hmem
          exact .inr hmem
    | _ => exact absurd hfile id

/-! ## Runs -/

theorem runSeed_append (file : RegistryFile) (front back : List SeedCall) :
    runSeed file (front ++ back) = runSeed (runSeed file front) back := List.foldl_append

theorem runSeed_snoc (file : RegistryFile) (calls : List SeedCall) (call : SeedCall) :
    runSeed file (calls ++ [call]) = (seedStep call (runSeed file calls)).2 := runSeed_append ..

theorem runSeed_keeps {file : RegistryFile} {calls : List SeedCall} (hfile : WellFormed d file)
    (hcalls : ∀ call ∈ calls, call.IsOf d) :
    WellFormed d (runSeed file calls) ∧
      (∀ scope, Known (configOf file) scope → Known (configOf (runSeed file calls)) scope) ∧
      ((recordedScopes (configOf file)).Nodup → (recordedScopes (configOf (runSeed file calls))).Nodup) ∧
      (Seeded d (configOf file) → Seeded d (configOf (runSeed file calls))) := by
  induction calls generalizing file with
  | nil => exact ⟨hfile, fun _ => id, id, id⟩
  | cons call rest ih =>
    have hstep := (seedStep_spec hfile (hcalls call List.mem_cons_self)).2
    obtain ⟨hwellFormed, hknown, hnodup, hseeded⟩ :=
      ih hstep.wellFormed fun call hcall => hcalls call (List.mem_cons_of_mem _ hcall)
    exact ⟨hwellFormed, fun scope h => hknown scope (hstep.known scope h), fun h => hnodup (hstep.nodup h),
      fun h => hseeded (hstep.seeded h)⟩

def Merged (start : RegistryFile) (calls : List SeedCall) : Prop :=
  ∃ front bootstrap io back, calls = front ++ .merge bootstrap io :: back ∧
    (mergeRegistry bootstrap io (runSeed start front)).1 = .ok ()

/-- The pair was current at some time of the run. -/
def EverCurrent (start : RegistryFile) (calls : List SeedCall) (scope : Scope) : Prop :=
  ∃ front back, calls = front ++ back ∧ currentScope (configOf (runSeed start front)) = some scope

structure ScopeHistoryKept (d : Deployment) (start : RegistryFile) (calls : List SeedCall) : Prop where
  known : ∀ scope, EverCurrent start calls scope → Known (configOf (runSeed start calls)) scope
  noDuplicates : (recordedScopes (configOf start)).Nodup ∨ Merged start calls →
    (recordedScopes (configOf (runSeed start calls))).Nodup
  users : ∀ front call back, calls = front ++ call :: back → ∀ user, call.username ≠ some user →
    Dict.get? (usersOf (runSeed start (front ++ [call]))) user = Dict.get? (usersOf (runSeed start front)) user
  keys : ∀ front call back, calls = front ++ call :: back → ∀ key, ¬ call.Sets key →
    Dict.get? (configOf (runSeed start (front ++ [call]))) key = Dict.get? (configOf (runSeed start front)) key
  unchanged : ∀ front call back, calls = front ++ call :: back →
    (∃ error, (seedStep call (runSeed start front)).1 = .error error) →
    runSeed start (front ++ [call]) = runSeed start front
  accepted : Merged start calls → ∀ cleanup, d.Cleans cleanup → ∃ scopes topicIds,
    loadCleanupMetadata cleanup (runSeed start calls) = .ok (scopes, topicIds) ∧
      ∀ scope, EverCurrent start calls scope → scope ∈ scopes

/-- After a merge that went through, a pair of the deployment is current and nothing is recorded twice. -/
theorem runSeed_merged {start : RegistryFile} {calls : List SeedCall} (hstart : WellFormed d start)
    (hcalls : ∀ call ∈ calls, call.IsOf d) (hmerged : Merged start calls) :
    Seeded d (configOf (runSeed start calls)) ∧ (recordedScopes (configOf (runSeed start calls))).Nodup := by
  obtain ⟨front, bootstrap, io, back, rfl, hok⟩ := hmerged
  have hfront := (runSeed_keeps hstart fun call hcall => hcalls call (List.mem_append_left _ hcall)).1
  have hbootstrap : bootstrap.IsOf d := hcalls _ (List.mem_append_right _ List.mem_cons_self)
  have hback : ∀ call ∈ back, call.IsOf d :=
    fun call hcall => hcalls call (List.mem_append_right _ (List.mem_cons_of_mem _ hcall))
  rcases @mergeRegistry_spec _ _ io _ hfront hbootstrap with ⟨error, herror⟩ | ⟨file', hresult, hkeeps, hseeded, hnodup⟩
  · rw [herror] at hok
    cases hok
  · have hrun : runSeed start (front ++ .merge bootstrap io :: back) = runSeed file' back := by
      rw [runSeed_append]
      change runSeed (mergeRegistry bootstrap io (runSeed start front)).2 back = _
      rw [hresult]
    obtain ⟨-, -, hnodup', hseeded'⟩ := runSeed_keeps hkeeps.wellFormed hback
    rw [hrun]
    exact ⟨hseeded' hseeded, hnodup' hnodup⟩

/-- **Scope history is never lost**, over any sequence of merges and disablings. -/
theorem scopeHistory_kept {start : RegistryFile} {calls : List SeedCall} (hstart : WellFormed d start)
    (hcalls : ∀ call ∈ calls, call.IsOf d) : ScopeHistoryKept d start calls := by
  have hever : ∀ scope, EverCurrent start calls scope → Known (configOf (runSeed start calls)) scope := by
    rintro scope ⟨front, back, rfl, hcurrent⟩
    have hfront := (runSeed_keeps hstart fun call hcall => hcalls call (List.mem_append_left _ hcall)).1
    rw [runSeed_append]
    exact (runSeed_keeps hfront fun call hcall => hcalls call (List.mem_append_right _ hcall)).2.1 scope (.inl hcurrent)
  have hstep : ∀ front call back, calls = front ++ call :: back →
      ((∃ error, (seedStep call (runSeed start front)).1 = .error error) →
        runSeed start (front ++ [call]) = runSeed start front) ∧
      StepKeeps d call (runSeed start front) (runSeed start (front ++ [call])) := by
    rintro front call back rfl
    have hfront := (runSeed_keeps hstart fun call hcall => hcalls call (List.mem_append_left _ hcall)).1
    rw [runSeed_snoc]
    exact seedStep_spec hfront (hcalls call (List.mem_append_right _ List.mem_cons_self))
  refine ⟨hever, ?_, fun front call back h => (hstep front call back h).2.users,
    fun front call back h => (hstep front call back h).2.keys, fun front call back h => (hstep front call back h).1, ?_⟩
  · rintro (hnodup | hmerged)
    · exact (runSeed_keeps hstart hcalls).2.2.1 hnodup
    · exact (runSeed_merged hstart hcalls hmerged).2
  · intro hmerged cleanup hcleanup
    obtain ⟨scopes, topicIds, hload, hall⟩ := loadCleanupMetadata_of_seeded (runSeed_keeps hstart hcalls).1
      (runSeed_merged hstart hcalls hmerged).1 hcleanup
    exact ⟨scopes, topicIds, hload, fun scope hscope => hall scope (hever scope hscope)⟩

end

/-- The bootstrap data of `petDeployment` while its cluster has this name. -/
def petBootstrap (clusterName clusterScopeId : String) : Bootstrap where
  config := [("enabled", .bool true), ("region", .str "us-phoenix-1"), ("compartment_id", .str "ocid1.compartment.oc1..a"),
    ("cluster_name", .str clusterName), ("cluster_scope_id", .str clusterScopeId),
    ("deployment_id", .str "00000000000000000000000000000000"), ("auth", .str "instance_principal")]
  username := "opc"
  email := .str "admin@example.com"
  topicId := .str "ocid1.onstopic.opc"
  subscriptionId := .str "ocid1.onssubscription.opc"
  username_ne := by decide

/-- The cluster is renamed, the registry disabled, and the cluster gets its first name back. -/
def petRenames : List SeedCall :=
  [.merge (petBootstrap "hpc" "hpc:pet:0123456789ab") .completes,
    .merge (petBootstrap "hpc-east" "hpc-east:pet:0123456789ab") .completes, .disable .completes,
    .merge (petBootstrap "hpc" "hpc:pet:0123456789ab") .completes]

theorem petBootstrap_isOf {clusterName clusterScopeId : String} (hname : clusterName ≠ "")
    (hscope : clusterScopeId = petDeployment.scopeId clusterName) :
    (petBootstrap clusterName clusterScopeId).IsOf petDeployment :=
  ⟨rfl, ⟨⟨clusterName, clusterScopeId⟩, scopeOf_of_fields rfl rfl hname (hscope ▸ petDeployment.scopeId_ne _), hname,
    hscope⟩, rfl⟩

theorem scopeHistory_kept_renames : ScopeHistoryKept petDeployment .absent petRenames ∧
    recordedScopes (configOf (runSeed .absent petRenames)) =
      [⟨"hpc", "hpc:pet:0123456789ab"⟩, ⟨"hpc-east", "hpc-east:pet:0123456789ab"⟩] := by
  refine ⟨scopeHistory_kept trivial fun call hcall => ?_, by decide⟩
  have hfirst : (petBootstrap "hpc" "hpc:pet:0123456789ab").IsOf petDeployment :=
    petBootstrap_isOf (by decide) (by decide)
  have hsecond : (petBootstrap "hpc-east" "hpc-east:pet:0123456789ab").IsOf petDeployment :=
    petBootstrap_isOf (by decide) (by decide)
  unfold petRenames at hcall
  simp only [List.mem_cons, List.not_mem_nil, or_false] at hcall
  rcases hcall with rfl | rfl | rfl | rfl
  · exact hfirst
  · exact hsecond
  · trivial
  · exact hfirst

end OciHpc.Slurm
