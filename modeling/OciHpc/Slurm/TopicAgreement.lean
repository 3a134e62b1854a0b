import OciHpc.ClusterCli.Provision
import OciHpc.Slurm.TopicOwnership

/-!
# The cluster CLI's Topics, as the cleanup sees them

* `Deployment`, `Deployment.scopeId` : what a deployment keeps when its cluster is renamed, and the scope of a
  cluster name, as `locals.tf` writes it;
* `topicComponent_eq`, `notificationTopicName_eq` : the two copies of the naming function agree;
* `topicCreate_of_mayCall` : what a `topic create` of the cluster CLI asks for;
* `ownedTopicIds_created` : a later cleanup of the deployment accepts the Topic, waits for it and deletes it.
-/

namespace OciHpc.Slurm
open OciHpc.ClusterCli (Registry Cli CliCall CreatesNothing createNotificationResources isLowerHex32 provisionTags
  validatedNotificationConfig)

/-! ## Deployments -/

/-- The identity of a deployment: the name of its `random_pet`, the hash of its compartment, its identifier. -/
structure Deployment where
  pet : String
  compartmentHash : String
  deploymentId : String
  pet_ne : pet ≠ ""
  pet_colonFree : ':' ∉ pet.toList
  hash_hex : isLowerHex12 compartmentHash.toList = true
  deploymentId_hex : isLowerHex32 deploymentId = true

namespace Deployment
variable (d : Deployment)

/-- `slurm_notification_cluster_scope`. -/
def scopeId (clusterName : String) : String :=
  String.ofList (clusterName.toList.take 128) ++ ":" ++ d.pet ++ ":" ++ d.compartmentHash

/-- The scope of a cluster name in this deployment. -/
def scope (clusterName : String) : Scope := ⟨clusterName, d.scopeId clusterName⟩

def identity : List Char × List Char := (d.pet.toList, d.compartmentHash.toList)

theorem colon_not_mem_hash : ':' ∉ d.compartmentHash.toList := by
  intro hmem
  have hhex := d.hash_hex
  unfold isLowerHex12 at hhex
  rw [Bool.and_eq_true, List.all_eq_true] at hhex
  exact absurd (hhex.2 ':' hmem) (by decide)

/-- The cluster name of a scope may hold colons: the pet name and the hash are split off from the end. -/
theorem rsplitTwice_scopeId (clusterName : String) :
    rsplitTwice (d.scopeId clusterName).toList =
      some (clusterName.toList.take 128, d.pet.toList, d.compartmentHash.toList) := by
  have hreverse : (d.scopeId clusterName).toList.reverse = d.compartmentHash.toList.reverse ++
      ':' :: (d.pet.toList.reverse ++ ':' :: (clusterName.toList.take 128).reverse) := by
    unfold scopeId
    simp
  have hhash : ':' ∉ d.compartmentHash.toList.reverse := by
    rw [List.mem_reverse]
    exact d.colon_not_mem_hash
  have hpet : ':' ∉ d.pet.toList.reverse := by
    rw [List.mem_reverse]
    exact d.pet_colonFree
  unfold rsplitTwice
  rw [hreverse, PyStr.partition_append hhash]
  dsimp only
  rw [PyStr.partition_append hpet]
  dsimp only
  rw [List.reverse_reverse, List.reverse_reverse, List.reverse_reverse]

theorem scopeDeploymentIdentity_scope (clusterName context : String) :
    scopeDeploymentIdentity (d.scope clusterName) context = .ok d.identity := by
  have hpet : d.pet.toList ≠ [] := fun hnil => d.pet_ne (String.toList_eq_nil_iff.mp hnil)
  unfold scopeDeploymentIdentity scope
  dsimp only
  rw [rsplitTwice_scopeId]
  dsimp only
  rw [if_neg, if_pos d.hash_hex]
  · rfl
  · rintro (hname | hnil)
    · exact hname rfl
    · exact hpet hnil

/-- A cleanup configuration of the deployment, with whatever cluster name it has by now. -/
structure Cleans (cleanup : CleanupConfig) : Prop where
  name_ne : cleanup.clusterName ≠ ""
  scope_eq : cleanup.clusterScopeId = d.scopeId cleanup.clusterName
  deployment_eq : cleanup.deploymentId = d.deploymentId

theorem scopeId_ne (clusterName : String) : d.scopeId clusterName ≠ "" := by
  intro h
  have hlist : (d.scopeId clusterName).toList = [] := by rw [h]; rfl
  unfold scopeId at hlist
  simp at hlist

end Deployment

theorem scopePair_of_fields {fields : Dict} {scope : Scope} {context : String}
    (hname : Dict.get? fields "cluster_name" = some (.str scope.clusterName))
    (hscope : Dict.get? fields "cluster_scope_id" = some (.str scope.clusterScopeId))
    (hname_ne : scope.clusterName ≠ "") (hscope_ne : scope.clusterScopeId ≠ "") :
    scopePair (.obj fields) context = .ok scope := by
  have hfirst : scopeField fields context "cluster_name" = .ok scope.clusterName := by
    unfold scopeField
    rw [hname]
    exact if_neg hname_ne
  have hsecond : scopeField fields context "cluster_scope_id" = .ok scope.clusterScopeId := by
    unfold scopeField
    rw [hscope]
    exact if_neg hscope_ne
  unfold scopePair
  dsimp only
  rw [hfirst, hsecond]
  rfl

theorem Deployment.Cleans.configScope_eq {d : Deployment} {cleanup : CleanupConfig} (h : d.Cleans cleanup) :
    configScope cleanup = .ok (d.scope cleanup.clusterName) := by
  unfold configScope
  rw [h.scope_eq]
  exact scopePair_of_fields rfl rfl h.name_ne (d.scopeId_ne _)

/-! ## The name of a Topic -/

theorem subOthers_eq (run : Bool) (s : List Char) : ClusterCli.subOthers run s = replaceOthers run s := by
  induction s generalizing run with
  | nil =>
    unfold ClusterCli.subOthers replaceOthers
    rfl
  | cons c rest ih =>
    unfold ClusterCli.subOthers replaceOthers
    rw [ih false, ih true]
    rfl

theorem topicComponent_eq (value : String) : ClusterCli.topicComponent (.str value) = topicComponent value 48 := by
  unfold ClusterCli.topicComponent topicComponent ClusterCli.textOf
  rw [subOthers_eq]
  dsimp only
  congr 2
  simp only [List.isEmpty_iff]
  rfl

/-- **The two copies of the naming function agree.** -/
theorem notificationTopicName_eq {sha256Hex : String → String} {config : Dict} {scope : Scope}
    (hname : Dict.get? config "cluster_name" = some (.str scope.clusterName))
    (hscope : Dict.get? config "cluster_scope_id" = some (.str scope.clusterScopeId)) (user : String) :
    ClusterCli.notificationTopicName sha256Hex config user = notificationTopicName sha256Hex scope user := by
  unfold ClusterCli.notificationTopicName notificationTopicName Dict.getD
  rw [hname, hscope, Option.getD_some, Option.getD_some, topicComponent_eq, topicComponent_eq]
  rfl

/-! ## What the cluster CLI creates -/

/-- Where the call creates a Topic, it has this name and these tags. -/
def CreatesTopicAs (name : String) (tags : Dict → Prop) : CliCall → Prop
  | .oci ⟨.topicCreate _ name' _ tags', _, _⟩ => name' = name ∧ tags tags'
  | _ => True

theorem createsTopicAs_of_createsNothing {name : String} {tags : Dict → Prop} (command : ClusterCli.OciCommand)
    (h : CreatesNothing command) : CreatesTopicAs name tags (.oci command) := by
  obtain ⟨request, auth, region⟩ := command
  cases request with
  | topicCreate => cases h
  | _ => trivial

theorem calls_createTopic {config : Dict} {user name : String} {tags : Dict} {Tags : Dict → Prop} (htags : Tags tags) :
    (ClusterCli.createTopic config user name tags).Calls (CreatesTopicAs name Tags) := by
  refine Prog.Calls.bind (ClusterCli.calls_oci (ClusterCli.calls_runOci_request fun command hcommand => ?_)).attempt
    fun r => ?_
  · obtain ⟨request, auth, region⟩ := command
    split at hcommand
    · cases hcommand
      exact ⟨rfl, htags⟩
    · cases hcommand
  · cases r with
    | ok => trivial
    | error e => cases e <;> trivial

theorem calls_createSubscription {config : Dict} {topicId email name : String} {tags : Dict} {Tags : Dict → Prop} :
    (ClusterCli.createSubscription config topicId email tags).Calls (CreatesTopicAs name Tags) := by
  refine Prog.Calls.bind (ClusterCli.calls_oci (ClusterCli.calls_runOci_request fun command hcommand => ?_))
    fun _ => Prog.calls_ofExcept ..
  obtain ⟨request, auth, region⟩ := command
  split at hcommand
  · cases hcommand
    trivial
  · cases hcommand

/-- The one Topic a creation asks for has the name of the user's Topic and the tags of this attempt. -/
theorem calls_createNotificationResources (sha256Hex : String → String) (config : Dict) (user email : String) :
    (createNotificationResources sha256Hex config user email).Calls
      (CreatesTopicAs (ClusterCli.notificationTopicName sha256Hex config user)
        fun tags => ∃ provisionId, tags = provisionTags config user provisionId) := by
  refine Prog.Calls.bind (@Prog.calls_perform ClusterCli.cliSig ClusterCli.CliError _ _ trivial) fun provisionId =>
    (calls_createTopic ⟨provisionId, rfl⟩).bind fun r => ?_
  cases r with
  | error e =>
    exact (ClusterCli.calls_cleanupTopicAfterUncertainCreation createsTopicAs_of_createsNothing trivial
      (fun _ _ _ => trivial) ..).bind fun _ => trivial
  | ok topicId =>
    exact ClusterCli.calls_exceptNotification (calls_createSubscription.bind fun _ => trivial) fun _ =>
      (ClusterCli.calls_deleteOrRecord createsTopicAs_of_createsNothing fun _ _ => trivial).bind fun _ => trivial

theorem topicCreate_of_mayCall {sha256Hex : String → String} {config : Dict} {user email : String}
    {compartmentId name description auth region : String} {tags : Dict}
    (h : (createNotificationResources sha256Hex config user email).MayCall
      (.oci ⟨.topicCreate compartmentId name description tags, auth, region⟩)) :
    name = ClusterCli.notificationTopicName sha256Hex config user ∧
      ∃ provisionId, tags = provisionTags config user provisionId :=
  h.of_calls (calls_createNotificationResources ..)

/-! ## The created Topic in a later listing -/

/-- A listed Topic with this name, these tags in any order, and a lifecycle state of a Topic that is not gone. -/
structure Shows (topic : Topic) (name : String) (tags : Dict) : Prop where
  name_eq : Dict.get? topic.fields "name" = some (.str name)
  tags_eq : ∃ listed, Dict.get? topic.fields "freeform-tags" = some (.obj listed) ∧
    ∀ key, Dict.get? listed key = Dict.get? tags key
  state : Dict.get? topic.fields "lifecycle-state" = some (.str "ACTIVE") ∨
    Dict.get? topic.fields "lifecycle-state" = some (.str "CREATING") ∨
    Dict.get? topic.fields "lifecycle-state" = some (.str "DELETING")

/-- The Topic is being deleted already. -/
abbrev Topic.IsDeleting (topic : Topic) : Prop := Dict.get? topic.fields "lifecycle-state" = some (.str "DELETING")

/-- A validated configuration of the cluster CLI in the deployment, at a time its cluster had this name. -/
structure Deployment.Provisions (d : Deployment) (clusterName : String) (config : Dict) : Prop where
  validated : ∃ registry, validatedNotificationConfig registry = .ok config
  name_eq : Dict.get? config "cluster_name" = some (.str clusterName)
  scope_eq : Dict.get? config "cluster_scope_id" = some (.str (d.scopeId clusterName))
  deployment_eq : Dict.get? config "deployment_id" = some (.str d.deploymentId)

/-- No field a validated configuration must have is blank. -/
theorem notBlank_of_validated {registry : Registry} {config : Dict} {field : String}
    (h : validatedNotificationConfig registry = .ok config) (hfield : field ∈ ClusterCli.requiredConfigFields) :
    ClusterCli.isBlankField config field = false := by
  unfold validatedNotificationConfig at h
  dsimp only at h
  split at h
  case h_1 hmissing =>
    have hblank := List.filter_eq_nil_iff.mp hmissing field hfield
    rw [Bool.not_eq_true] at hblank
    split at h
    · cases h
    · split at h
      · cases h
      · cases h
        have hne : field ≠ "auth" := by
          rintro rfl
          exact absurd hfield (by decide)
        rw [ClusterCli.isBlankField, Dict.getD, Dict.get?_set_ne _ _ hne]
        exact hblank
  case h_2 => cases h

theorem Deployment.Provisions.name_ne {d : Deployment} {clusterName : String} {config : Dict}
    (h : d.Provisions clusterName config) : clusterName ≠ "" := by
  obtain ⟨registry, hvalidated⟩ := h.validated
  have hblank := notBlank_of_validated hvalidated (show "cluster_name" ∈ ClusterCli.requiredConfigFields by decide)
  unfold ClusterCli.isBlankField Dict.getD at hblank
  rw [h.name_eq] at hblank
  rintro rfl
  exact absurd hblank (by decide)

section
variable {sha256Hex : String → String} {d : Deployment} {clusterName user : String} {config : Dict}
  {cleanup : CleanupConfig} {topic : Topic}

/-- The tags of the Topic name its scope, whatever the cluster is called by now. -/
theorem matchingScope_created {tags listed : Dict} {provisionId : String} (hcleanup : d.Cleans cleanup)
    (hconfig : d.Provisions clusterName config) (htags : tags = provisionTags config user provisionId)
    (hlisted : ∀ key, Dict.get? listed key = Dict.get? tags key) (scopes : List Scope) (topicId : String) :
    matchingScope cleanup d.identity scopes topicId listed = .ok (some (d.scope clusterName)) := by
  have hname : Dict.getD config "cluster_name" .null = .str clusterName := by
    rw [Dict.getD, hconfig.name_eq]
    rfl
  have hscope : Dict.getD config "cluster_scope_id" .null = .str (d.scopeId clusterName) := by
    rw [Dict.getD, hconfig.scope_eq]
    rfl
  have hdeployment : Dict.getD config "deployment_id" .null = .str d.deploymentId := by
    rw [Dict.getD, hconfig.deployment_eq]
    rfl
  have hget : ∀ key, Dict.get? listed key = Dict.get? (provisionTags config user provisionId) key := by
    intro key
    rw [hlisted, htags]
  unfold provisionTags at hget
  rw [hname, hscope, hdeployment] at hget
  have hpair : ∀ context, scopePair (.obj [("cluster_name", Dict.getD listed "cluster_name" .null),
      ("cluster_scope_id", Dict.getD listed "notification_scope" .null)]) context = .ok (d.scope clusterName) := by
    intro context
    rw [Dict.getD, hget, Dict.getD, hget]
    exact scopePair_of_fields rfl rfl hconfig.name_ne (d.scopeId_ne clusterName)
  have hdeploymentTag : Dict.get? listed "notification_deployment_id" = some (.str cleanup.deploymentId) := by
    rw [hget, hcleanup.deployment_eq]
    rfl
  have hmanaged : Dict.get? listed "managed_by" = some (.str "cluster-cli") := hget "managed_by"
  have hparent : Dict.get? listed "parent_cluster" = some (.str (d.scope clusterName).clusterName) :=
    hget "parent_cluster"
  unfold matchingScope
  rw [hdeploymentTag]
  dsimp only
  rw [if_neg (not_not_intro rfl), if_neg (not_not_intro hmanaged), hpair, hparent]
  change (raiseIf _ _ >>= fun _ => scopeDeploymentIdentity (d.scope clusterName) _ >>= _) = _
  rw [d.scopeDeploymentIdentity_scope, raiseIf, if_neg (not_not_intro rfl)]
  change (raiseIf _ _ >>= _) = _
  rw [raiseIf, if_neg (not_not_intro rfl)]
  rfl

/-- One turn of the loop on the created Topic: nothing is raised. -/
theorem classifyTopic_created {name : String} {tags : Dict} {provisionId : String} (hcleanup : d.Cleans cleanup)
    (hconfig : d.Provisions clusterName config) (huser : PyStr.strip user ≠ "")
    (hname : name = ClusterCli.notificationTopicName sha256Hex config user)
    (htags : tags = provisionTags config user provisionId) (hshows : Shows topic name tags)
    (hprotected : topic.topicId ∉ cleanup.protectedTopicIds) (scopes : List Scope) :
    classifyTopic sha256Hex cleanup d.identity scopes topic =
      .ok (if topic.IsDeleting then .deleting else .present) := by
  obtain ⟨listed, hfield, hlisted⟩ := hshows.tags_eq
  have hfreeform : freeformTags topic = .ok listed := by
    unfold freeformTags Dict.getD
    rw [hfield]
    rfl
  have huserTag : Dict.get? listed "slurm_user" = some (.str user) := by
    rw [hlisted, htags]
    rfl
  have hmatching := matchingScope_created hcleanup hconfig htags hlisted scopes topic.topicId
  have hagree := @notificationTopicName_eq sha256Hex config (d.scope clusterName) hconfig.name_eq hconfig.scope_eq user
  unfold classifyTopic
  rw [if_neg hprotected, hfreeform]
  change (matchingScope cleanup d.identity scopes topic.topicId listed >>= _) = _
  rw [hmatching]
  change checkOwnedTopic sha256Hex topic listed (d.scope clusterName) = _
  unfold checkOwnedTopic
  rw [hshows.name_eq, huserTag]
  dsimp only
  rw [if_neg huser, if_neg (not_not_intro (hname.trans hagree))]
  split
  · rfl
  case isFalse hdeleting =>
    rw [if_pos]
    rcases hshows.state with hactive | hcreating | hstate
    · exact .inl hactive
    · exact .inr hcreating
    · exact absurd hstate hdeleting

/-- The loop over two parts of a listing, one after the other. -/
theorem ownedLoop_append {identity : List Char × List Char} {scopes : List Scope} (front back : List Topic) :
    ownedLoop sha256Hex cleanup identity scopes (front ++ back) = (do
      let (deleteIds, waitIds) ← ownedLoop sha256Hex cleanup identity scopes front
      let (deleteIds', waitIds') ← ownedLoop sha256Hex cleanup identity scopes back
      return (deleteIds ++ deleteIds', waitIds ++ waitIds')) := by
  induction front with
  | nil =>
    rw [List.nil_append, ownedLoop]
    cases ownedLoop sha256Hex cleanup identity scopes back <;> rfl
  | cons first rest ih =>
    rw [List.cons_append, ownedLoop, ownedLoop, ih]
    cases classifyTopic sha256Hex cleanup identity scopes first with
    | error e => rfl
    | ok class_ =>
      cases ownedLoop sha256Hex cleanup identity scopes rest with
      | error e => rfl
      | ok front =>
        cases ownedLoop sha256Hex cleanup identity scopes back with
        | error e => rfl
        | ok back => cases class_ <;> rfl

theorem Deployment.Cleans.ownedTopicIds_eq (hcleanup : d.Cleans cleanup) (topics : List Topic) (scopes : List Scope) :
    ownedTopicIds sha256Hex cleanup topics scopes = ownedLoop sha256Hex cleanup d.identity
      (if scopes.isEmpty then [d.scope cleanup.clusterName] else scopes) topics := by
  have hidentity := d.scopeDeploymentIdentity_scope cleanup.clusterName "cleanup configuration"
  simp only [ownedTopicIds, hcleanup.configScope_eq, ok_bind, hidentity]

/-- **Creator and cleaner agree.** A Topic the cluster CLI may create is accepted by every later cleanup of the
deployment: the rest of the listing decides whether anything is raised, and the Topic is waited for and, unless it
is being deleted already, deleted. -/
theorem ownedTopicIds_created {email compartmentId name description auth region : String} {tags : Dict}
    (hconfig : d.Provisions clusterName config) (huser : PyStr.strip user ≠ "")
    (hcreate : (createNotificationResources sha256Hex config user email).MayCall
      (.oci ⟨.topicCreate compartmentId name description tags, auth, region⟩))
    (hcleanup : d.Cleans cleanup) (hshows : Shows topic name tags)
    (hprotected : topic.topicId ∉ cleanup.protectedTopicIds) (front back : List Topic) (scopes : List Scope) :
    ownedTopicIds sha256Hex cleanup (front ++ topic :: back) scopes = (do
      let (deleteIds, waitIds) ← ownedTopicIds sha256Hex cleanup front scopes
      let (deleteIds', waitIds') ← ownedTopicIds sha256Hex cleanup back scopes
      return (deleteIds ++ (if topic.IsDeleting then [] else [topic.topicId]) ++ deleteIds',
        waitIds ++ topic.topicId :: waitIds')) := by
  obtain ⟨hname, provisionId, htags⟩ := topicCreate_of_mayCall hcreate
  have hclass := fun scopes =>
    classifyTopic_created hcleanup hconfig huser hname htags hshows hprotected scopes
  rw [hcleanup.ownedTopicIds_eq, hcleanup.ownedTopicIds_eq, hcleanup.ownedTopicIds_eq, ownedLoop_append, ownedLoop,
    hclass]
  generalize (if scopes.isEmpty then [d.scope cleanup.clusterName] else scopes) = known
  cases ownedLoop sha256Hex cleanup d.identity known front with
  | error e => rfl
  | ok first =>
    cases ownedLoop sha256Hex cleanup d.identity known back with
    | error e => rfl
    | ok second =>
      by_cases hdeleting : topic.IsDeleting
      · simp only [if_pos hdeleting, ok_bind, List.append_nil]
        rfl
      · simp only [if_neg hdeleting, ok_bind, List.append_assoc]
        rfl

end

def petDeployment : Deployment where
  pet := "pet"
  compartmentHash := "0123456789ab"
  deploymentId := "00000000000000000000000000000000"
  pet_ne := by decide
  pet_colonFree := by decide
  hash_hex := by decide
  deploymentId_hex := by decide

def westConfig : Dict :=
  [("region", .str "us-phoenix-1"), ("compartment_id", .str "ocid1.compartment.oc1..a"), ("cluster_name", .str "hpc:west"),
    ("cluster_scope_id", .str "hpc:west:pet:0123456789ab"), ("deployment_id", .str "00000000000000000000000000000000"),
    ("auth", .str "instance_principal")]

/-- The cluster has been renamed since. -/
def eastCleanup : CleanupConfig where
  region := "us-phoenix-1"
  compartmentId := "ocid1.compartment.oc1..a"
  clusterName := "hpc-east"
  clusterScopeId := "hpc-east:pet:0123456789ab"
  deploymentId := "00000000000000000000000000000000"
  registryPath := "/opt/oci-hpc/conf/slurm_notification_users.json"
  protectedTopicIds := []

/-- The hash of `hpc:west:pet:0123456789ab:alice`. -/
def aliceSha256Hex (_ : String) : String := "a15e3b740c3f70c31c48b638dabcb986693bd95f6eb1efb92d7a068758a76c59"

def aliceTags : Dict := provisionTags westConfig "alice" "p1"

def aliceListed : Topic where
  topicId := "ocid1.onstopic.alice"
  fields := [("topic-id", .str "ocid1.onstopic.alice"), ("name", .str "slurm-hpc-west-alice-a15e3b740c3f"),
    ("freeform-tags", .obj aliceTags), ("lifecycle-state", .str "ACTIVE")]

theorem westConfig_provisions : petDeployment.Provisions "hpc:west" westConfig where
  validated := ⟨⟨westConfig, [], [], rfl, rfl⟩, by decide⟩
  name_eq := rfl
  scope_eq := by decide
  deployment_eq := rfl

theorem alice_mayCall : (createNotificationResources aliceSha256Hex westConfig "alice" "alice@example.com").MayCall
    (.oci ⟨.topicCreate "ocid1.compartment.oc1..a" "slurm-hpc-west-alice-a15e3b740c3f" "Slurm job notifications for alice"
      aliceTags, "instance_principal", "us-phoenix-1"⟩) := by
  intro h
  exact (h.2 (.ok "p1")).1 rfl

theorem ownedTopicIds_created_alice :
    ownedTopicIds aliceSha256Hex eastCleanup [aliceListed] [] =
      .ok (["ocid1.onstopic.alice"], ["ocid1.onstopic.alice"]) :=
  ownedTopicIds_created westConfig_provisions (by decide) alice_mayCall ⟨by decide, by decide, rfl⟩
    ⟨rfl, ⟨aliceTags, rfl, fun _ => rfl⟩, .inl rfl⟩ (by decide) [] [] []

end OciHpc.Slurm
