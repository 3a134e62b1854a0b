import OciHpc.ClusterCli.Cli

/-!
# A user's Topic and Subscription

* `createNotificationResources` : both are created, and what was created is cleaned up on failure;
* `findOwnedNotificationTopic` : after an uncertain creation, the one Topic of this very attempt;
* `createNotificationResources_fields` : where it returns, the commands of a later cleanup can be started.
-/

namespace OciHpc.ClusterCli

/-! ## The name of a Topic -/

/-- `str.lower`: the two characters outside ASCII with an ASCII letter in their lower case, and the ASCII ones. -/
def lowerChar (c : Char) : List Char :=
  if c.toNat = 0x212a then ['k']
  else if c.toNat = 0x130 then ['i', Char.ofNat 0x307]
  else [c.toLower]

def isComponentChar (c : Char) : Bool :=
  ('a' ≤ c && c ≤ 'z') || ('0' ≤ c && c ≤ '9') || c == '_' || c == '-'

/-- `re.sub(r'[^a-z0-9_-]+', '-', s)`; `run` while in a run of other characters. -/
def subOthers (run : Bool) : List Char → List Char
  | [] => []
  | c :: rest =>
      if isComponentChar c then c :: subOthers false rest
      else if run then subOthers true rest else '-' :: subOthers true rest

def topicComponent (value : Json) : String :=
  let component := subOthers false ((textOf value).toList.flatMap lowerChar)
  let isEdge := fun c => c == '-' || c == '_'
  let stripped := ((component.dropWhile isEdge).reverse.dropWhile isEdge).reverse
  String.ofList ((if stripped = [] then "user".toList else stripped).take 48)

/-- `sha256Hex` is `hashlib.sha256(text.encode('utf-8')).hexdigest()`. -/
def notificationTopicName (sha256Hex : String → String) (config : Dict) (user : String) : String :=
  let identity := textOf (Dict.getD config "cluster_scope_id" .null) ++ ":" ++ user
  "slurm-" ++ topicComponent (Dict.getD config "cluster_name" .null) ++ "-" ++ topicComponent (.str user) ++ "-" ++
    String.ofList ((sha256Hex identity).toList.take 12)

/-! ## Finding a Topic again -/

def listedTopics (stdout : Stdout) : Except CliError (List Json) :=
  match stdout with
  | .blank => .ok []
  | stdout => match dataOf stdout with
    | some (.arr topics) => .ok topics
    | _ => .error (.notification "OCI CLI returned invalid topic list output during cleanup")

def listTopicsOnce (config : Dict) (topicName : String) : Cli (List Json) :=
  (oci (runOci config (listRequest config .topic (some topicName)))).bind fun stdout =>
    .ofExcept (listedTopics stdout)

/-- List, and list again up to `retries` times while there is none. -/
def listTopics (config : Dict) (topicName : String) : Nat → Cli (List Json)
  | 0 => listTopicsOnce config topicName
  | retries + 1 => (listTopicsOnce config topicName).bind fun
      | [] => listTopics config topicName retries
      | topics => .ret topics

/-- The Topic an entry of the registry refers to. -/
def referencedTopicId (invalidEntry invalidId : CliError) : Json → Except CliError (Option String)
  | .obj entry => match identifierOf entry .topic with
    | none => .ok none
    | some (.str id) => .ok (some id)
    | some _ => .error invalidId
  | _ => .error invalidEntry

def referencedIn (invalidEntry invalidId : CliError) : List Json → Except CliError (List String)
  | [] => .ok []
  | entry :: rest =>
      match referencedTopicId invalidEntry invalidId entry with
      | .error e => .error e
      | .ok id => match referencedIn invalidEntry invalidId rest with
        | .error e => .error e
        | .ok ids => .ok (id.toList ++ ids)

def invalidUserEntry : CliError := .notification "Invalid notification registry user entry"

def invalidUserTopic : CliError := .notification "Invalid Topic OCID in notification registry"

def invalidPendingTopic : CliError := .notification "Invalid Topic OCID in pending notification cleanup"

/-- The Topics that users or the cleanup journal refer to. -/
def referencedTopicIds (registry : Registry) : Except CliError (List String) :=
  match referencedIn invalidUserEntry invalidUserTopic (registry.users.map (·.2)) with
  | .error e => .error e
  | .ok userIds =>
      match pendingCleanup registry with
      | .arr pending => match referencedIn invalidPendingEntry invalidPendingTopic pending with
        | .error e => .error e
        | .ok pendingIds => .ok (userIds ++ pendingIds)
      | _ => .error pendingCleanupNotList

/-- The identifier of a listed Topic, if it is of this attempt and nothing refers to it. -/
def ownedTopicId (config : Dict) (topicName : String) (expectedTags : Dict) (referenced : List String)
    (topic : Json) : Option String :=
  match topic with
  | .obj fields =>
      if Dict.get? fields "name" ≠ some (.str topicName) then none
      else if Dict.getD fields "compartment-id" .null ≠ Dict.getD config "compartment_id" .null then none
      else if Dict.get? fields "lifecycle-state" ≠ some (.str "ACTIVE") ∧
          Dict.get? fields "lifecycle-state" ≠ some (.str "CREATING") then none
      else match Dict.get? fields "freeform-tags" with
        | some (.obj tags) =>
            if expectedTags.all fun e => Dict.getD tags e.1 .null = e.2 then
              (notificationIdentifierFromData topic .topic).filter fun id => !referenced.contains id
            else none
        | _ => none
  | _ => none

/-- Find one unregistered Topic created by this exact provisioning attempt. -/
def findOwnedNotificationTopic (config : Dict) (topicName : String) (expectedTags : Dict) : Cli String :=
  (listTopics config topicName 2).bind fun topics =>
    (registryCall .loadNotificationRegistry).bind fun registry =>
      (Prog.ofExcept (referencedTopicIds registry)).bind fun referenced =>
        match topics.filterMap (ownedTopicId config topicName expectedTags referenced) with
        | [topicId] => .ret topicId
        | matches_ => .throw (.notification
            ("Expected exactly one owned Topic for cleanup, found " ++ toString matches_.length))

/-- What is cleaned up of an attempt that has only its Topic. -/
def topicOnly (topicId email : String) : Dict :=
  [("topic_id", .str topicId), ("managed_by", .str "cluster-cli"), ("email", .str email)]

/-- Delete a Topic only when this exact create attempt can be identified. -/
def cleanupTopicAfterUncertainCreation (config : Dict) (user email topicName : String) (expectedTags : Dict) :
    Cli (List String) :=
  exceptNotification
    ((findOwnedNotificationTopic config topicName expectedTags).bind fun recoveredTopicId =>
      deleteOrRecord config user (topicOnly recoveredTopicId email))
    fun recoveryError => .ret ["could not identify created Topic for cleanup: " ++ recoveryError.message]

/-! ## Creation -/

def provisionTags (config : Dict) (user provisionId : String) : Dict :=
  [("cluster_name", Dict.getD config "cluster_name" .null), ("parent_cluster", Dict.getD config "cluster_name" .null),
    ("notification_scope", Dict.getD config "cluster_scope_id" .null),
    ("notification_deployment_id", Dict.getD config "deployment_id" .null),
    ("notification_provision_id", .str provisionId), ("slurm_user", .str user), ("managed_by", .str "cluster-cli")]

/-- `some` error where a Topic may have been created without an identifier read. -/
def createTopic (config : Dict) (user topicName : String) (tags : Dict) : Cli (Except CliError String) :=
  let request := match argument (Dict.get? config "compartment_id") with
    | .ok compartmentId =>
        .ok (.topicCreate compartmentId topicName ("Slurm job notifications for " ++ user) tags)
    | .error e => .error e
  (oci (runOci config request)).attempt.bind fun
    -- a timeout is ambiguous: the service may have created the Topic
    | .error (.timedOut message) => .ret (.error (.timedOut message))
    | .error createError => .throw createError
    | .ok topicResult => .ret (ociIdentifier topicResult .topic)

def createSubscription (config : Dict) (topicId email : String) (tags : Dict) : Cli String :=
  let request := match argument (Dict.get? config "compartment_id") with
    | .ok compartmentId => .ok (.subscriptionCreate compartmentId topicId email tags)
    | .error e => .error e
  (oci (runOci config request)).bind fun subscriptionResult =>
    .ofExcept (ociIdentifier subscriptionResult .subscription)

/-- The error raised with what went wrong in the cleanup after it. -/
def withCleanup (error : CliError) (cleanupErrors : List String) : CliError :=
  if cleanupErrors = [] then error
  else .notification (error.message ++ "; cleanup also failed: " ++ PyStr.join "; " cleanupErrors)

def createNotificationResources (sha256Hex : String → String) (config : Dict) (user email : String) : Cli Dict :=
  (host .uuid4).bind fun provisionId =>
    let tags := provisionTags config user provisionId
    let topicName := notificationTopicName sha256Hex config user
    (createTopic config user topicName tags).bind fun
      | .error topicError =>
          (cleanupTopicAfterUncertainCreation config user email topicName tags).bind fun cleanupErrors =>
            .throw (withCleanup topicError cleanupErrors)
      | .ok topicId =>
          exceptNotification
            ((createSubscription config topicId email tags).bind fun subscriptionId =>
              .ret [("email", .str email), ("topic_id", .str topicId), ("subscription_id", .str subscriptionId),
                ("managed_by", .str "cluster-cli")])
            fun error =>
              (deleteOrRecord config user (topicOnly topicId email)).bind fun cleanupErrors =>
                .throw (withCleanup error cleanupErrors)

/-! ## The calls of a creation -/

section
variable {P : CliCall → Prop}

theorem calls_listTopics (hoci : ∀ command, CreatesNothing command → P (.oci command)) (config : Dict)
    (topicName : String) (retries : Nat) : (listTopics config topicName retries).Calls P := by
  have honce : (listTopicsOnce config topicName).Calls P := by
    refine (calls_oci ((calls_runOci fun r hr => ?_).mono hoci)).bind fun _ => Prog.calls_ofExcept ..
    obtain ⟨_, -, rfl⟩ := listRequest_eq_ok hr
    rfl
  induction retries with
  | zero => exact honce
  | succ retries ih =>
      refine honce.bind fun topics => ?_
      cases topics with
      | nil => exact ih
      | cons => trivial

theorem calls_findOwnedNotificationTopic (hoci : ∀ command, CreatesNothing command → P (.oci command))
    (hload : P (.registry .loadNotificationRegistry)) (config : Dict) (topicName : String) (expectedTags : Dict) :
    (findOwnedNotificationTopic config topicName expectedTags).Calls P := by
  refine (calls_listTopics hoci config topicName 2).bind fun topics =>
    Prog.Calls.bind (@Prog.calls_perform cliSig CliError P _ hload) fun registry =>
      (Prog.calls_ofExcept _ _).bind fun referenced => ?_
  split <;> trivial

theorem calls_cleanupTopicAfterUncertainCreation
    (hoci : ∀ command, CreatesNothing command → P (.oci command))
    (hload : P (.registry .loadNotificationRegistry))
    (hrecord : ∀ user entry errors, P (.registry (.recordPendingCleanup user entry errors)))
    (config : Dict) (user email topicName : String) (expectedTags : Dict) :
    (cleanupTopicAfterUncertainCreation config user email topicName expectedTags).Calls P :=
  calls_exceptNotification ((calls_findOwnedNotificationTopic hoci hload ..).bind fun _ =>
    calls_deleteOrRecord hoci (hrecord user)) fun _ => trivial

theorem calls_createTopic (hoci : ∀ command, P (.oci command)) (config : Dict) (user topicName : String)
    (tags : Dict) : (createTopic config user topicName tags).Calls P := by
  refine Prog.Calls.bind (calls_oci ((Prog.calls_true _).mono fun c _ => hoci c)).attempt fun r => ?_
  cases r with
  | ok => trivial
  | error e => cases e <;> trivial

theorem calls_createNotificationResources (hoci : ∀ command, P (.oci command)) (huuid : P (.host .uuid4))
    (hload : P (.registry .loadNotificationRegistry))
    (hrecord : ∀ user entry errors, P (.registry (.recordPendingCleanup user entry errors)))
    (sha256Hex : String → String) (config : Dict) (user email : String) :
    (createNotificationResources sha256Hex config user email).Calls P := by
  refine Prog.Calls.bind (@Prog.calls_perform cliSig CliError P _ huuid) fun provisionId =>
    (calls_createTopic hoci ..).bind fun r => ?_
  cases r with
  | error e =>
      exact (calls_cleanupTopicAfterUncertainCreation (fun c _ => hoci c) hload hrecord ..).bind fun _ => trivial
  | ok topicId =>
      refine calls_exceptNotification (Prog.Calls.bind ?_ fun _ => trivial) fun _ =>
        (calls_deleteOrRecord (fun c _ => hoci c) (hrecord user)).bind fun _ => trivial
      exact (calls_oci ((Prog.calls_true _).mono fun c _ => hoci c)).bind fun _ => Prog.calls_ofExcept ..

end

/-! ## What a creation shows of the configuration -/

section
variable {W : Type} {H : Handler cliSig CliError W}

theorem runOci_started {H : Handler ociSig CliError W} (config : Dict) (request : Except CliError OciRequest)
    (w : W) : (runOci config request).wp H
      ⟨fun _ _ => ∃ command, ociCommand config request = .ok command, fun _ _ => True, fun _ => True⟩ w := by
  rw [wp_runOci]
  split
  · trivial
  · rename_i command hcommand
    refine ⟨trivial, fun outcome w' _ => ?_, fun _ _ _ => trivial⟩
    rw [Prog.wp_ofExcept]
    split
    · exact ⟨command, hcommand⟩
    · trivial

theorem commandFields_of_ociCommand {config : Dict} {request : String → OciRequest} {command : OciCommand}
    (h : ociCommand config (match argument (Dict.get? config "compartment_id") with
      | .ok compartmentId => .ok (request compartmentId)
      | .error e => .error e) = .ok command) : CommandFields config := by
  unfold ociCommand at h
  split at h <;> cases h
  rename_i auth region _ hauth hregion hrequest
  split at hrequest <;> cases hrequest
  rename_i compartmentId hcompartment
  exact ⟨⟨auth, argument_eq_ok.mp hauth⟩, ⟨region, argument_eq_ok.mp hregion⟩,
    ⟨compartmentId, argument_eq_ok.mp hcompartment⟩⟩

theorem createTopic_fields (config : Dict) (user topicName : String) (tags : Dict) (w : W) :
    (createTopic config user topicName tags).wp H
      ⟨fun r _ => ∀ id, r = .ok id → CommandFields config, fun _ _ => True, fun _ => True⟩ w := by
  refine Prog.wp_seq_attempt (E := fun _ _ => True) ((wp_oci _ _ w).mpr
    (Prog.wp_mono (runOci_started config _ w) (fun _ _ h => h) (fun _ _ _ => trivial) fun _ _ => trivial)) ?_ ?_
  · rintro _ _ ⟨command, hcommand⟩ _ _
    exact commandFields_of_ociCommand hcommand
  · intro e _ _
    cases e with
    | timedOut message => exact nofun
    | _ => trivial

/-- **Where the resources are created, a later cleanup can be started.** -/
theorem createNotificationResources_fields (sha256Hex : String → String) (config : Dict) (user email : String)
    (w : W) : (createNotificationResources sha256Hex config user email).wp H
      ⟨fun entry _ => CommandFields config ∧ StringIdentifiers entry, fun _ _ => True, fun _ => True⟩ w := by
  refine Prog.wp_perform_seq trivial (fun provisionId w₁ _ => ?_) fun _ _ _ => trivial
  refine Prog.wp_seq (createTopic_fields config user _ _ w₁) fun r w₂ hr => ?_
  cases r with
  | error e => exact Prog.wp_seq (Prog.wp_true H _ w₂) fun _ _ _ => trivial
  | ok topicId =>
      refine wp_exceptNotification (E := fun _ _ => True) ?_
        (fun e w₃ _ _ => Prog.wp_seq (Prog.wp_true H _ w₃) fun _ _ _ => trivial) fun _ _ _ _ => trivial
      refine Prog.wp_seq (Prog.wp_true H _ w₂) fun subscriptionId w₃ _ => ⟨hr topicId rfl, fun type value h => ?_⟩
      cases type with
      | topic => exact ⟨topicId, by simpa [ResourceType.field, Dict.get?] using (Option.filter_eq_some_iff.mp h).1.symm⟩
      | subscription => exact ⟨subscriptionId, by simpa [ResourceType.field, Dict.get?] using (Option.filter_eq_some_iff.mp h).1.symm⟩

end

end OciHpc.ClusterCli
