import Mathlib.Data.List.Sort
import OciHpc.Base.Prog
import OciHpc.Base.PyText
import OciHpc.ClusterCli.Registry

/-!
# Which Topics a deployment owns

The checks of `slurm_oci_notification_cleanup.py`, over decoded JSON.

* `scopePair`, `scopeDeploymentIdentity` : a cluster name with its scope, and the deployment they are of;
* `loadCleanupMetadata` : the scopes and Topics of the registry;
* `parseTopicList`, `ownedTopicIds`, `validateKnownTopics` : a Topic listing and the checks of its Topics;
* `Owned` : a Topic's tags name this deployment and one of its scopes; `ownedTopicIds_spec` : what the checks
  return is listed, owned and not protected.
-/

namespace OciHpc.Slurm
open OciHpc.ClusterCli (RegistryFile isLowerHex32)

structure CleanupConfig where
  region : String
  compartmentId : String
  clusterName : String
  clusterScopeId : String
  deploymentId : String
  registryPath : String
  protectedTopicIds : List String
  deriving DecidableEq, Repr

/-- A `CleanupError`, by its text. -/
abbrev CleanupError := String

/-- `if condition: raise CleanupError(message)`. -/
def raiseIf (condition : Prop) [Decidable condition] (message : String) : Except CleanupError Unit :=
  if condition then .error message else .ok ()

/-- A cluster name with the scope its Topics are tagged with. -/
structure Scope where
  clusterName : String
  clusterScopeId : String
  deriving DecidableEq, Repr

def topicOcidPrefix : String := "ocid1.onstopic."

/-! ## The name of a Topic -/

/-- `str.lower` as far as it makes characters of `[a-z0-9_-]`. -/
def lowerChar (c : Char) : List Char :=
  if c.toNat = 0x212a then ['k']
  else if c.toNat = 0x130 then ['i', Char.ofNat 0x307]
  else [c.toLower]

def isComponentChar (c : Char) : Bool :=
  ('a' ≤ c && c ≤ 'z') || ('0' ≤ c && c ≤ '9') || c == '_' || c == '-'

/-- `re.sub(r"[^a-z0-9_-]+", "-", _)`; the flag says that the last character was replaced. -/
def replaceOthers : Bool → List Char → List Char
  | _, [] => []
  | replaced, c :: rest =>
    if isComponentChar c then c :: replaceOthers false rest
    else if replaced then replaceOthers true rest
    else '-' :: replaceOthers true rest

/-- `_topic_component` of a string. -/
def topicComponent (value : String) (maximumLength : Nat) : String :=
  let component := replaceOthers false (value.toList.flatMap lowerChar)
  let edge := fun c => c == '-' || c == '_'
  let stripped := ((component.dropWhile edge).reverse.dropWhile edge).reverse
  String.ofList ((if stripped.isEmpty then "user".toList else stripped).take maximumLength)

/-- `sha256Hex` is `hashlib.sha256(_.encode("utf-8")).hexdigest()`. -/
def notificationTopicName (sha256Hex : String → String) (scope : Scope) (user : String) : String :=
  let identity := scope.clusterScopeId ++ ":" ++ user
  let suffix := String.ofList ((sha256Hex identity).toList.take 12)
  "slurm-" ++ topicComponent scope.clusterName 48 ++ "-" ++ topicComponent user 48 ++ "-" ++ suffix

/-! ## Scopes -/

/-- A field of `_scope_pair`. -/
def scopeField (fields : Dict) (context field : String) : Except CleanupError String :=
  match Dict.get? fields field with
  | some (.str value) =>
    if value = "" then .error (context ++ " field '" ++ field ++ "' is invalid") else .ok value
  | _ => .error (context ++ " field '" ++ field ++ "' is invalid")

def scopePair (value : Json) (context : String) : Except CleanupError Scope :=
  match value with
  | .obj fields => do
    let clusterName ← scopeField fields context "cluster_name"
    let clusterScopeId ← scopeField fields context "cluster_scope_id"
    return { clusterName, clusterScopeId }
  | _ => .error (context ++ " must be an object")

/-- `s.rsplit(":", 2)`, where it has three pieces. -/
def rsplitTwice (s : List Char) : Option (List Char × List Char × List Char) :=
  match PyStr.partition ':' s.reverse with
  | (last, true, rest) =>
    match PyStr.partition ':' rest with
    | (middle, true, first) => some (first.reverse, middle.reverse, last.reverse)
    | _ => none
  | _ => none

/-- `re.fullmatch(r"[0-9a-f]{12}", _)`. -/
def isLowerHex12 (s : List Char) : Bool :=
  s.length == 12 && s.all fun c => ('0' ≤ c && c ≤ '9') || ('a' ≤ c && c ≤ 'f')

/-- The pet name and the compartment hash of a scope: the deployment it is of. -/
def scopeDeploymentIdentity (scope : Scope) (context : String) : Except CleanupError (List Char × List Char) :=
  match rsplitTwice scope.clusterScopeId.toList with
  | none => .error (context ++ " has an invalid cluster_scope_id")
  | some (scopeName, randomName, compartmentHash) =>
    if scopeName ≠ scope.clusterName.toList.take 128 ∨ randomName = [] then
      .error (context ++ " does not match its cluster_name")
    else if isLowerHex12 compartmentHash then .ok (randomName, compartmentHash)
    else .error (context ++ " has an invalid compartment hash")

/-- `_scope_pair(config, "cleanup configuration")`. -/
def configScope (config : CleanupConfig) : Except CleanupError Scope :=
  scopePair (.obj [("cluster_name", .str config.clusterName), ("cluster_scope_id", .str config.clusterScopeId)])
    "cleanup configuration"

/-! ## The registry -/

/-- The Topic of a user or of a journal entry: `none` if it is none of cluster-cli's, or a protected one. -/
def registryTopicId (entry : Json) (context : String) (protectedIds : List String) (required : Bool) :
    Except CleanupError (Option String) :=
  match entry with
  | .obj fields =>
    if Dict.get? fields "managed_by" ≠ some (.str "cluster-cli") then .ok none
    else
      let topicId := Dict.getD fields "topic_id" .null
      if !required && (topicId = .null || topicId = .str "") then .ok none
      else
        match topicId with
        | .str id =>
          if !PyStr.startsWith id topicOcidPrefix || id = topicOcidPrefix || id.toList.any PyStr.isSpace then
            .error (context ++ " contains an invalid Topic OCID")
          else if id ∈ protectedIds then .ok none
          else .ok (some id)
        | _ => .error (context ++ " contains an invalid Topic OCID")
  | _ => .error (context ++ " must be an object")

/-- `scopes` with one more, unless it is there. -/
def addScope (scopes : List Scope) (scope : Scope) : List Scope :=
  if scope ∈ scopes then scopes else scopes ++ [scope]

/-- The loop over `cleanup_scopes`. -/
def addHistory (identity : List Char × List Char) : List Scope → Nat → List Json → Except CleanupError (List Scope)
  | scopes, _, [] => .ok scopes
  | scopes, index, entry :: rest => do
    let context := "notification registry cleanup_scopes[" ++ toString index ++ "]"
    let scope ← scopePair entry context
    let scopeIdentity ← scopeDeploymentIdentity scope context
    raiseIf (scopeIdentity ≠ identity) (context ++ " belongs to another deployment")
    addHistory identity (addScope scopes scope) (index + 1) rest

def userTopicIds (protectedIds : List String) : Dict → Except CleanupError (List String)
  | [] => .ok []
  | (username, entry) :: rest => do
    raiseIf (username = "") "notification registry has an invalid username"
    let topicId ← registryTopicId entry ("notification registry user '" ++ username ++ "'") protectedIds true
    let topicIds ← userTopicIds protectedIds rest
    return topicId.toList ++ topicIds

def pendingTopicIds (protectedIds : List String) : Nat → List Json → Except CleanupError (List String)
  | _, [] => .ok []
  | index, entry :: rest => do
    let context := "notification registry pending_cleanup[" ++ toString index ++ "]"
    let topicId ← registryTopicId entry context protectedIds false
    let topicIds ← pendingTopicIds protectedIds (index + 1) rest
    return topicId.toList ++ topicIds

/-- A list where one is wanted, `[]` where the field is missing. -/
def listField (fields : Dict) (field : String) : Except CleanupError (List Json) :=
  match Dict.get? fields field with
  | none => .ok []
  | some (.arr items) => .ok items
  | some _ => .error ("notification registry " ++ field ++ " must be a list")

/-- The scopes whose Topics are this deployment's, and the Topics of the registry. -/
def loadCleanupMetadata (config : CleanupConfig) (file : RegistryFile) :
    Except CleanupError (List Scope × List String) := do
  let currentScope ← configScope config
  let deploymentIdentity ← scopeDeploymentIdentity currentScope "cleanup configuration"
  match file with
  | .absent => return ([currentScope], [])
  | .unreadable _ => throw "notification registry could not be read"
  | .json (.obj registry) =>
    match Dict.get? registry "config" with
    | some (.obj registryConfig) => do
      match Dict.get? registryConfig "deployment_id" with
      | some (.str registryDeploymentId) => do
        raiseIf (isLowerHex32 registryDeploymentId = false) "notification registry deployment_id is invalid"
        raiseIf (registryDeploymentId ≠ config.deploymentId) "notification registry belongs to another deployment"
        let registryScope ← scopePair (.obj registryConfig) "notification registry config"
        let registryIdentity ← scopeDeploymentIdentity registryScope "notification registry config"
        raiseIf (registryIdentity ≠ deploymentIdentity) "notification registry config belongs to another deployment"
        let history ← listField registryConfig "cleanup_scopes"
        let scopes ← addHistory deploymentIdentity (addScope [currentScope] registryScope) 0 history
        match Dict.get? registry "users" with
        | some (.obj users) => do
          let userIds ← userTopicIds config.protectedTopicIds users
          let pending ← listField registryConfig "pending_cleanup"
          let pendingIds ← pendingTopicIds config.protectedTopicIds 0 pending
          return (scopes, userIds ++ pendingIds)
        | _ => throw "notification registry users must be an object"
      | _ => throw "notification registry deployment_id is invalid"
    | _ => throw "notification registry is malformed"
  | .json _ => throw "notification registry is malformed"

/-! ## Topic listings -/

/-- A Topic of a listing: an object with its identifier. -/
structure Topic where
  topicId : String
  fields : Dict
  deriving DecidableEq

/-- The output of `oci ons topic list`: only white space, not JSON, or a JSON value. -/
inductive ListOutput
  | blank
  | malformed
  | json (payload : Json)
  deriving DecidableEq

/-- The loop over the listed Topics, with the identifiers seen so far. -/
def parseTopics : List String → List Json → Except CleanupError (List Topic)
  | _, [] => .ok []
  | seenIds, .obj fields :: rest =>
    match Dict.get? fields "topic-id" with
    | some (.str topicId) => do
      raiseIf (PyStr.startsWith topicId topicOcidPrefix = false) "OCI CLI returned a malformed Topic OCID"
      raiseIf (topicId ∈ seenIds) "OCI CLI returned a duplicate Topic OCID"
      let topics ← parseTopics (topicId :: seenIds) rest
      return { topicId, fields } :: topics
    | _ => .error "OCI CLI returned a malformed Topic OCID"
  | _, _ :: _ => .error "OCI CLI returned a malformed Topic entry"

def parseTopicList (stdout : ListOutput) : Except CleanupError (List Topic) :=
  match stdout with
  | .blank => .error "OCI CLI returned an empty Topic list response"
  | .malformed => .error "OCI CLI returned malformed Topic list JSON"
  | .json (.obj payload) =>
    match Dict.get? payload "data" with
    | some (.arr topics) => parseTopics [] topics
    | _ => .error "OCI CLI returned malformed Topic list output"
  | .json _ => .error "OCI CLI returned malformed Topic list output"

/-- `topic.get("freeform-tags")`, `{}` for `None`. -/
def freeformTags (topic : Topic) : Except CleanupError Dict :=
  match Dict.getD topic.fields "freeform-tags" .null with
  | .null => .ok []
  | .obj tags => .ok tags
  | _ => .error "OCI CLI returned malformed Topic tags"

/-- The tags of a Topic created before `notification_deployment_id` was introduced. -/
def ownershipTags (scope : Scope) : Dict :=
  [("managed_by", .str "cluster-cli"), ("notification_scope", .str scope.clusterScopeId),
    ("cluster_name", .str scope.clusterName), ("parent_cluster", .str scope.clusterName)]

def hasOwnershipTags (tags : Dict) (scope : Scope) : Bool :=
  (ownershipTags scope).all fun e => Dict.getD tags e.1 .null = e.2

/-- The scope a Topic's tags name; `none` where they name another deployment or no scope of this one. -/
def matchingScope (config : CleanupConfig) (identity : List Char × List Char) (scopes : List Scope)
    (topicId : String) (tags : Dict) : Except CleanupError (Option Scope) :=
  match Dict.get? tags "notification_deployment_id" with
  | some deploymentId =>
    -- a deployment tag takes precedence over legacy scope matching
    if deploymentId ≠ .str config.deploymentId then .ok none
    else if Dict.get? tags "managed_by" ≠ some (.str "cluster-cli") then
      .error ("deployment-tagged Topic " ++ topicId ++ " has invalid ownership tags")
    else do
      let scope ← scopePair (.obj [("cluster_name", Dict.getD tags "cluster_name" .null),
        ("cluster_scope_id", Dict.getD tags "notification_scope" .null)]) ("deployment-tagged Topic " ++ topicId)
      raiseIf (Dict.get? tags "parent_cluster" ≠ some (.str scope.clusterName))
        ("deployment-tagged Topic " ++ topicId ++ " has invalid cluster tags")
      let scopeIdentity ← scopeDeploymentIdentity scope ("deployment-tagged Topic " ++ topicId)
      raiseIf (scopeIdentity ≠ identity)
        ("deployment-tagged Topic " ++ topicId ++ " has an incompatible notification scope")
      return some scope
  | none => .ok (scopes.find? (hasOwnershipTags tags))

/-- What one Topic of a listing is to the cleanup. -/
inductive TopicClass
  | other
  | deleting
  | present
  deriving DecidableEq, Repr

/-- The checks of a Topic with a matching scope: name, user and lifecycle state. -/
def checkOwnedTopic (sha256Hex : String → String) (topic : Topic) (tags : Dict) (scope : Scope) :
    Except CleanupError TopicClass :=
  match Dict.get? topic.fields "name" with
  | some (.str name) =>
    match Dict.get? tags "slurm_user" with
    | some (.str username) =>
      if PyStr.strip username = "" then
        .error ("owned Topic " ++ topic.topicId ++ " has no valid slurm_user tag")
      else if name ≠ notificationTopicName sha256Hex scope username then
        .error ("owned Topic " ++ topic.topicId ++ " does not match its deterministic name")
      else if Dict.get? topic.fields "lifecycle-state" = some (.str "DELETING") then .ok .deleting
      else if Dict.get? topic.fields "lifecycle-state" = some (.str "ACTIVE") ∨
          Dict.get? topic.fields "lifecycle-state" = some (.str "CREATING") then .ok .present
      else .error ("owned Topic " ++ topic.topicId ++ " has an invalid lifecycle state")
    | _ => .error ("owned Topic " ++ topic.topicId ++ " has no valid slurm_user tag")
  | _ => .error "OCI CLI returned a malformed Topic name"

/-- One turn of the loop of `_owned_topic_ids`. -/
def classifyTopic (sha256Hex : String → String) (config : CleanupConfig) (identity : List Char × List Char)
    (scopes : List Scope) (topic : Topic) : Except CleanupError TopicClass :=
  if topic.topicId ∈ config.protectedTopicIds then .ok .other
  else do
    let tags ← freeformTags topic
    match ← matchingScope config identity scopes topic.topicId tags with
    | none => return .other
    | some scope => checkOwnedTopic sha256Hex topic tags scope

/-- The loop: identifiers to delete, and identifiers to wait for. -/
def ownedLoop (sha256Hex : String → String) (config : CleanupConfig) (identity : List Char × List Char)
    (scopes : List Scope) : List Topic → Except CleanupError (List String × List String)
  | [] => .ok ([], [])
  | topic :: rest => do
    let class_ ← classifyTopic sha256Hex config identity scopes topic
    let (deleteIds, waitIds) ← ownedLoop sha256Hex config identity scopes rest
    return match class_ with
      | .other => (deleteIds, waitIds)
      | .deleting => (deleteIds, topic.topicId :: waitIds)
      | .present => (topic.topicId :: deleteIds, topic.topicId :: waitIds)

def ownedTopicIds (sha256Hex : String → String) (config : CleanupConfig) (topics : List Topic)
    (scopes : List Scope) : Except CleanupError (List String × List String) := do
  let currentScope ← configScope config
  let identity ← scopeDeploymentIdentity currentScope "cleanup configuration"
  ownedLoop sha256Hex config identity (if scopes.isEmpty then [currentScope] else scopes) topics

/-- Registered Topics that are listed, but not as owned. -/
def driftedTopicIds (knownTopicIds : List String) (topics : List Topic) (ownedIds : List String) : List String :=
  (topics.map (·.topicId)).filter fun id => id ∈ knownTopicIds ∧ id ∉ ownedIds

def validateKnownTopics (knownTopicIds : List String) (topics : List Topic) (ownedIds : List String) :
    Except CleanupError Unit :=
  match driftedTopicIds knownTopicIds topics ownedIds with
  | [] => .ok ()
  | drifted => .error ("registered cluster-cli Topic(s) failed ownership validation: " ++
      PyStr.join ", " (drifted.insertionSort (· ≤ ·)))

/-! ## What an owned Topic is -/

/-- The tags name a scope of this deployment: the deployment tag and a scope with the deployment's pet name and
compartment hash or, without a deployment tag, one of the scopes known of it. -/
def NamesScope (config : CleanupConfig) (identity : List Char × List Char) (scopes : List Scope) (tags : Dict)
    (scope : Scope) : Prop :=
  (Dict.get? tags "notification_deployment_id" = some (.str config.deploymentId) ∧
    Dict.get? tags "managed_by" = some (.str "cluster-cli") ∧
    Dict.get? tags "cluster_name" = some (.str scope.clusterName) ∧
    Dict.get? tags "notification_scope" = some (.str scope.clusterScopeId) ∧
    ∃ context, scopeDeploymentIdentity scope context = .ok identity) ∨
  (Dict.get? tags "notification_deployment_id" = none ∧ scope ∈ scopes ∧ hasOwnershipTags tags scope = true)

/-- A Topic of this deployment, by its tags. -/
def Owned (config : CleanupConfig) (identity : List Char × List Char) (scopes : List Scope) (topic : Topic) : Prop :=
  ∃ tags scope, freeformTags topic = .ok tags ∧ NamesScope config identity scopes tags scope

theorem ok_bind {α β : Type} (a : α) (f : α → Except CleanupError β) : (Except.ok a >>= f) = f a := rfl

theorem raiseIf_eq_ok {condition : Prop} [Decidable condition] {message : String} {u : Unit}
    (h : raiseIf condition message = .ok u) : ¬ condition := by
  unfold raiseIf at h
  split at h
  · cases h
  · assumption

theorem scopeField_eq_ok {fields : Dict} {context field value : String}
    (h : scopeField fields context field = .ok value) : Dict.get? fields field = some (.str value) := by
  unfold scopeField at h
  split at h
  case h_1 s hget =>
    split at h
    · cases h
    · cases h
      exact hget
  case h_2 => cases h

theorem scopePair_eq_ok {fields : Dict} {context : String} {scope : Scope}
    (h : scopePair (.obj fields) context = .ok scope) :
    Dict.get? fields "cluster_name" = some (.str scope.clusterName) ∧
      Dict.get? fields "cluster_scope_id" = some (.str scope.clusterScopeId) := by
  unfold scopePair at h
  obtain ⟨name, hname, h⟩ := bind_eq_ok h
  obtain ⟨scopeId, hscope, h⟩ := bind_eq_ok h
  cases h
  exact ⟨scopeField_eq_ok hname, scopeField_eq_ok hscope⟩

theorem getD_eq_str {fields : Dict} {field value : String} (h : Dict.getD fields field .null = .str value) :
    Dict.get? fields field = some (.str value) := by
  unfold Dict.getD at h
  cases hget : Dict.get? fields field with
  | none => rw [hget] at h; cases h
  | some v => rw [hget] at h; exact congrArg some h

/-- The scope found is one the tags name. -/
theorem namesScope_of_matchingScope {config : CleanupConfig} {identity : List Char × List Char}
    {scopes : List Scope} {topicId : String} {tags : Dict} {scope : Scope}
    (h : matchingScope config identity scopes topicId tags = .ok (some scope)) :
    NamesScope config identity scopes tags scope := by
  unfold matchingScope at h
  split at h
  case h_1 deploymentId hget =>
    split at h
    case isTrue => cases h
    case isFalse hdeployment =>
      split at h
      case isTrue => cases h
      case isFalse hmanaged =>
        obtain ⟨found, hpair, h⟩ := bind_eq_ok h
        obtain ⟨-, -, h⟩ := bind_eq_ok h
        obtain ⟨identity', hidentity, h⟩ := bind_eq_ok h
        obtain ⟨_, hsame, h⟩ := bind_eq_ok h
        cases h
        obtain ⟨hname, hscope⟩ := scopePair_eq_ok hpair
        refine .inl ⟨?_, not_not.mp hmanaged, getD_eq_str (Option.some.inj hname), getD_eq_str (Option.some.inj hscope),
          "deployment-tagged Topic " ++ topicId, ?_⟩
        · rw [hget, not_not.mp hdeployment]
        · rw [hidentity, not_not.mp (raiseIf_eq_ok hsame)]
  case h_2 hnone =>
    have hfind : scopes.find? (hasOwnershipTags tags) = some scope := Except.ok.inj h
    exact .inr ⟨hnone, List.mem_of_find?_eq_some hfind, List.find?_some hfind⟩

theorem matchingScope_ne_none {config : CleanupConfig} {identity : List Char × List Char} {scopes : List Scope}
    {topicId : String} {tags : Dict} {scope : Scope} (h : NamesScope config identity scopes tags scope) :
    matchingScope config identity scopes topicId tags ≠ .ok none := by
  intro hnone
  unfold matchingScope at hnone
  rcases h with ⟨hdeployment, hmanaged, -⟩ | ⟨hget, hmem, htags⟩
  · rw [hdeployment] at hnone
    dsimp only at hnone
    rw [if_neg (not_not_intro rfl), if_neg (not_not_intro hmanaged)] at hnone
    obtain ⟨found, -, hnone⟩ := bind_eq_ok hnone
    obtain ⟨-, -, hnone⟩ := bind_eq_ok hnone
    obtain ⟨identity', -, hnone⟩ := bind_eq_ok hnone
    obtain ⟨-, -, hnone⟩ := bind_eq_ok hnone
    cases hnone
  · rw [hget] at hnone
    have hfind : scopes.find? (hasOwnershipTags tags) = none := Except.ok.inj hnone
    rw [List.find?_eq_none] at hfind
    exact hfind scope hmem htags

section
variable {sha256Hex : String → String} {config : CleanupConfig} {identity : List Char × List Char}
  {scopes : List Scope}

/-- What the loop deletes or waits for is owned and not protected. -/
theorem classifyTopic_owned {topic : Topic} {class_ : TopicClass}
    (h : classifyTopic sha256Hex config identity scopes topic = .ok class_) (hclass : class_ ≠ .other) :
    topic.topicId ∉ config.protectedTopicIds ∧ Owned config identity scopes topic := by
  unfold classifyTopic at h
  split at h
  case isTrue => cases h; exact absurd rfl hclass
  case isFalse hprotected =>
    obtain ⟨tags, htags, h⟩ := bind_eq_ok h
    obtain ⟨found, hfound, h⟩ := bind_eq_ok h
    cases found with
    | none => cases h; exact absurd rfl hclass
    | some scope => exact ⟨hprotected, tags, scope, htags, namesScope_of_matchingScope hfound⟩

theorem checkOwnedTopic_ne_other {topic : Topic} {tags : Dict} {scope : Scope} :
    checkOwnedTopic sha256Hex topic tags scope ≠ .ok .other := by
  unfold checkOwnedTopic
  split
  · split
    · repeat' split
      all_goals exact nofun
    · exact nofun
  · exact nofun

/-- An owned Topic that is not protected is never passed over. -/
theorem classifyTopic_ne_other {topic : Topic} (hprotected : topic.topicId ∉ config.protectedTopicIds)
    (howned : Owned config identity scopes topic) :
    classifyTopic sha256Hex config identity scopes topic ≠ .ok .other := by
  intro h
  obtain ⟨tags, scope, htags, hnames⟩ := howned
  unfold classifyTopic at h
  rw [if_neg hprotected] at h
  obtain ⟨tags', htags', h⟩ := bind_eq_ok h
  obtain ⟨found, hfound, h⟩ := bind_eq_ok h
  rw [htags] at htags'
  cases htags'
  cases found with
  | none => exact matchingScope_ne_none hnames hfound
  | some scope => exact checkOwnedTopic_ne_other h

/-- **What the checks return**: identifiers of the listing in their order, those to delete among those to wait
for; these are exactly those of the owned Topics that are not protected. -/
theorem ownedLoop_spec {topics : List Topic} {deleteIds waitIds : List String}
    (h : ownedLoop sha256Hex config identity scopes topics = .ok (deleteIds, waitIds)) :
    deleteIds.Sublist waitIds ∧ waitIds.Sublist (topics.map (·.topicId)) ∧
      (∀ id ∈ waitIds, id ∉ config.protectedTopicIds ∧
        ∃ topic ∈ topics, topic.topicId = id ∧ Owned config identity scopes topic) ∧
      ∀ topic ∈ topics, topic.topicId ∉ config.protectedTopicIds → Owned config identity scopes topic →
        topic.topicId ∈ waitIds := by
  induction topics generalizing deleteIds waitIds with
  | nil =>
    cases h
    exact ⟨List.Sublist.refl _, List.Sublist.refl _, fun id hid => absurd hid List.not_mem_nil,
      fun topic htopic => absurd htopic List.not_mem_nil⟩
  | cons topic rest ih =>
    unfold ownedLoop at h
    obtain ⟨class_, hclass, h⟩ := bind_eq_ok h
    obtain ⟨⟨restDelete, restWait⟩, hrest, h⟩ := bind_eq_ok h
    obtain ⟨hsub, hlisted, howned, hall⟩ := ih hrest
    have howned' : ∀ id ∈ restWait, id ∉ config.protectedTopicIds ∧
        ∃ t ∈ topic :: rest, t.topicId = id ∧ Owned config identity scopes t := by
      intro id hid
      obtain ⟨hprotected, t, ht, hrest⟩ := howned id hid
      exact ⟨hprotected, t, List.mem_cons_of_mem topic ht, hrest⟩
    have hself : class_ ≠ .other → ∀ id ∈ topic.topicId :: restWait, id ∉ config.protectedTopicIds ∧
        ∃ t ∈ topic :: rest, t.topicId = id ∧ Owned config identity scopes t := by
      intro hne id hid
      rcases List.mem_cons.mp hid with rfl | hin
      · obtain ⟨hprotected, hown⟩ := classifyTopic_owned hclass hne
        exact ⟨hprotected, topic, List.mem_cons_self, rfl, hown⟩
      · exact howned' id hin
    have hall' : ∀ t ∈ topic :: rest, t.topicId ∉ config.protectedTopicIds → Owned config identity scopes t →
        t.topicId ∈ topic.topicId :: restWait := by
      intro t ht hprotected hown
      rcases List.mem_cons.mp ht with rfl | hin
      · exact List.mem_cons_self
      · exact List.mem_cons_of_mem _ (hall t hin hprotected hown)
    cases class_ with
    | other =>
      cases h
      refine ⟨hsub, hlisted.cons _, howned', fun t ht hprotected hown => ?_⟩
      rcases List.mem_cons.mp ht with rfl | hin
      · exact absurd hclass (classifyTopic_ne_other hprotected hown)
      · exact hall t hin hprotected hown
    | deleting =>
      cases h
      exact ⟨hsub.cons _, hlisted.cons_cons _, hself (by decide), hall'⟩
    | present =>
      cases h
      exact ⟨hsub.cons_cons _, hlisted.cons_cons _, hself (by decide), hall'⟩

end

theorem parseTopics_nodup {seenIds : List String} {items : List Json} {topics : List Topic}
    (h : parseTopics seenIds items = .ok topics) :
    (topics.map (·.topicId)).Nodup ∧ ∀ id ∈ topics.map (·.topicId), id ∉ seenIds := by
  induction items generalizing seenIds topics with
  | nil => cases h; exact ⟨List.nodup_nil, fun id hid => absurd hid List.not_mem_nil⟩
  | cons item rest ih =>
    cases item with
    | obj fields =>
      unfold parseTopics at h
      split at h
      case h_1 topicId hget =>
        obtain ⟨-, -, h⟩ := bind_eq_ok h
        obtain ⟨_, hseen, h⟩ := bind_eq_ok h
        obtain ⟨others, hothers, h⟩ := bind_eq_ok h
        cases h
        obtain ⟨hnodup, hfresh⟩ := ih hothers
        have hnew : topicId ∉ seenIds := raiseIf_eq_ok hseen
        refine ⟨List.nodup_cons.mpr ⟨fun hin => hfresh topicId hin List.mem_cons_self, hnodup⟩, ?_⟩
        intro id hid
        rcases List.mem_cons.mp hid with rfl | hin
        · exact hnew
        · exact fun hold => hfresh id hin (List.mem_cons_of_mem _ hold)
      case h_2 => cases h
    | _ => unfold parseTopics at h; cases h

theorem parseTopicList_nodup {stdout : ListOutput} {topics : List Topic} (h : parseTopicList stdout = .ok topics) :
    (topics.map (·.topicId)).Nodup := by
  unfold parseTopicList at h
  split at h
  · cases h
  · cases h
  · split at h
    · exact (parseTopics_nodup h).1
    · cases h
  · cases h

end OciHpc.Slurm
