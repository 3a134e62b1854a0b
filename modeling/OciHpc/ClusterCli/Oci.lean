import OciHpc.Base.Prog
import OciHpc.ClusterCli.Registry

/-!
# The OCI command line and the deletion of Topics and Subscriptions

* `ociSig`, `runOci` : the `oci` processes the CLI starts, and what becomes of their outcome;
* `notificationResourceIsAbsent`, `deleteNotificationResources` : best-effort deletion of an entry's
  resources;
* `Absence` : what an outside must know about a resource that was deleted or verified absent;
* `deleteNotificationResources_spec` : an identifier is dropped only when its resource is gone.
-/

namespace OciHpc.ClusterCli

/-- `'topic'` and `'subscription'`. -/
inductive ResourceType
  | topic | subscription
  deriving DecidableEq, Repr

def ResourceType.text : ResourceType → String
  | .topic => "topic"
  | .subscription => "subscription"

/-- The field of a routing or cleanup entry with the resource's identifier. -/
def ResourceType.field : ResourceType → String
  | .topic => "topic_id"
  | .subscription => "subscription_id"

/-- The arguments of an `oci ons` command. -/
inductive OciRequest
  | topicCreate (compartmentId name description : String) (tags : Dict)
  | subscriptionCreate (compartmentId topicId endpoint : String) (tags : Dict)
  | delete (type : ResourceType) (resourceId : String)
  | list (type : ResourceType) (compartmentId : String) (name : Option String)
  deriving DecidableEq

def OciRequest.creates : OciRequest → Bool
  | .topicCreate .. | .subscriptionCreate .. => true
  | .delete .. | .list .. => false

/-- The arguments of a request that are not texts of `json.dumps`. -/
def OciRequest.texts : OciRequest → List String
  | .topicCreate compartmentId name description _ => [compartmentId, name, description]
  | .subscriptionCreate compartmentId topicId endpoint _ => [compartmentId, topicId, endpoint]
  | .delete _ resourceId => [resourceId]
  | .list _ compartmentId name => compartmentId :: name.toList

structure OciCommand where
  request : OciRequest
  auth : String
  region : String
  deriving DecidableEq

def CreatesNothing (command : OciCommand) : Prop := command.request.creates = false

/-- An argument a process can be started with: one without NUL. -/
def passable (s : String) : Bool := !s.toList.contains (Char.ofNat 0)

/-- `subprocess.run` starts a process; otherwise it raises `ValueError: embedded null byte`. -/
def OciCommand.startable (command : OciCommand) : Bool :=
  (command.auth :: command.region :: command.request.texts).all passable

/-- The output of a command: only whitespace, not JSON, or a JSON value. -/
inductive Stdout
  | blank
  | invalid
  | json (payload : Json)
  deriving DecidableEq

/-- How `subprocess.run(..., check=True, timeout=120)` ends, as far as `_run_oci` looks at it. What else it raises (a
`ValueError` for output that cannot be decoded, or for an argument with a NUL or a lone surrogate) the command raises. -/
inductive ProcessOutcome
  | success (stdout : Stdout)
  | notFound
  | failed (status : Int) (detail : String)
  | timedOut
  | osError (error : String)
  deriving DecidableEq

abbrev ociSig : Sig := ⟨OciCommand, fun _ => ProcessOutcome⟩

/-- An argument of a command line, which has to be a string; a string that is not `passable` goes to the command,
which raises. -/
def argument (value : Option Json) : Except CliError String :=
  match value with
  | some (.str s) => .ok s
  | some _ => .error (.other "TypeError: expected str, bytes or os.PathLike object")
  | none => .error (.other "KeyError")

/-- The output of a process that ended well, or the `NotificationError` raised for it. -/
def ociResult : ProcessOutcome → Except CliError Stdout
  | .success stdout => .ok stdout
  | .notFound => .error (.notification "OCI CLI executable was not found")
  | .failed status detail =>
      if detail ≠ "" then .error (.notification ("OCI CLI failed: " ++ detail))
      else .error (.notification ("OCI CLI failed with exit status " ++ toString status))
  | .timedOut => .error (.timedOut "OCI CLI timed out after 120 seconds")
  | .osError error => .error (.notification ("Unable to execute OCI CLI: " ++ error))

/-- The command `_run_oci` starts. -/
def ociCommand (config : Dict) (request : Except CliError OciRequest) : Except CliError OciCommand :=
  match argument (Dict.get? config "auth"), argument (Dict.get? config "region"), request with
  | .error e, _, _ | _, .error e, _ | _, _, .error e => .error e
  | .ok auth, .ok region, .ok request => .ok ⟨request, auth, region⟩

def runOci (config : Dict) (request : Except CliError OciRequest) : Prog ociSig CliError Stdout :=
  match ociCommand config request with
  | .error e => .throw e
  | .ok command => (Prog.perform (S := ociSig) command).bind fun outcome => .ofExcept (ociResult outcome)

/-! ## Identifiers -/

def notificationIdentifierSpec : ResourceType → String × String
  | .topic => ("topic-id", "ocid1.onstopic.")
  | .subscription => ("id", "ocid1.onssubscription.")

def notificationIdentifierFromData (data : Json) (type : ResourceType) : Option String :=
  match data with
  | .obj fields =>
      match Dict.get? fields (notificationIdentifierSpec type).1 with
      | some (.str s) => if PyStr.startsWith s (notificationIdentifierSpec type).2 then some s else none
      | _ => none
  | _ => none

/-- `json.loads(stdout).get('data')`, or `none` where that raises. -/
def dataOf : Stdout → Option Json
  | .json (.obj payload) => some (Dict.getD payload "data" .null)
  | _ => none

def ociIdentifier (stdout : Stdout) (type : ResourceType) : Except CliError String :=
  match (dataOf stdout).bind fun data => notificationIdentifierFromData data type with
  | some identifier => .ok identifier
  | none => .error (.notification ("OCI CLI did not return a valid " ++ type.text ++ " OCID"))

/-! ## Absence -/

/-- `re.search(r'(^|[^0-9])404([^0-9]|$)', detail)`, from a position with the character before it. -/
def search404 (previous : Option Char) : List Char → Bool
  | [] => false
  | c :: rest =>
      (!previous.any Char.isDigit && c == '4' && ['0', '4'].isPrefixOf rest &&
        !(rest.drop 2).head?.any Char.isDigit) || search404 (some c) rest

def deleteErrorMayMeanAbsent (error : CliError) : Bool :=
  PyStr.contains (PyStr.lower error.message) "notauthorizedornotfound" || search404 none error.message.toList

def invalidListOutput (type : ResourceType) : CliError :=
  .notification ("OCI CLI returned invalid " ++ type.text ++ " list output")

def listedIds (type : ResourceType) : List Json → Except CliError (List String)
  | [] => .ok []
  | resource :: rest =>
      match notificationIdentifierFromData resource type, listedIds type rest with
      | some id, .ok ids => .ok (id :: ids)
      | _, _ => .error (invalidListOutput type)

/-- What the listing `stdout` says about the absence of a resource. -/
def absentFromListing (type : ResourceType) (resourceId : String) (stdout : Stdout) : Except CliError Bool :=
  let resources : Except CliError (List Json) := match stdout with
    | .blank => .ok []
    | stdout => match dataOf stdout with
      | some (.arr resources) => .ok resources
      | _ => .error (invalidListOutput type)
  match resources with
  | .error e => .error e
  | .ok resources =>
      if !PyStr.startsWith resourceId (notificationIdentifierSpec type).2 then
        .error (.notification ("Invalid " ++ type.text ++ " OCID for absence verification"))
      else match listedIds type resources with
        | .error e => .error e
        | .ok ids => .ok (!ids.contains resourceId)

def listRequest (config : Dict) (type : ResourceType) (name : Option String) : Except CliError OciRequest :=
  match argument (Dict.get? config "compartment_id") with
  | .ok compartmentId => .ok (.list type compartmentId name)
  | .error e => .error e

/-- Confirm absence through an authorized compartment list operation. -/
def notificationResourceIsAbsent (config : Dict) (type : ResourceType) (resourceId : String) :
    Prog ociSig CliError Bool :=
  (runOci config (listRequest config type none)).bind fun stdout =>
    .ofExcept (absentFromListing type resourceId stdout)

/-! ## Deletion -/

/-- One of the two blocks of `_delete_notification_resources`: `none` when the resource is deleted or
absent, else the text of what went wrong. -/
def deleteResource (config : Dict) (type : ResourceType) (resourceId : String) :
    Prog ociSig CliError (Option String) :=
  (runOci config (.ok (.delete type resourceId))).attempt.bind fun
    | .ok _ => .ret none
    | .error error =>
        let detail := type.text ++ " " ++ resourceId ++ ": " ++ error.message
        if !error.isNotification then .throw error
        else if !deleteErrorMayMeanAbsent error then .ret (some detail)
        else (notificationResourceIsAbsent config type resourceId).attempt.bind fun
          | .ok absent => .ret (if absent then none else some detail)
          | .error e =>
              if !e.isNotification then .throw e
              else .ret (some (detail ++ "; absence verification failed: " ++ e.message))

/-- `entry.get(field)`, if true. -/
def identifierOf (entry : Dict) (type : ResourceType) : Option Json :=
  (Dict.get? entry type.field).filter Json.truthy

def deleteIdentifier (config entry : Dict) (type : ResourceType) (acc : List String × Dict) :
    Prog ociSig CliError (List String × Dict) :=
  match identifierOf entry type with
  | none => .ret acc
  | some identifier =>
      (Prog.ofExcept (argument (some identifier))).bind fun resourceId =>
        (deleteResource config type resourceId).bind fun
          | none => .ret (acc.1, Dict.pop acc.2 type.field)
          | some detail => .ret (acc.1 ++ [detail], acc.2)

/-- Best-effort delete. Return errors and the identifiers still needing cleanup. -/
def deleteNotificationResources (config entry : Dict) : Prog ociSig CliError (List String × Dict) :=
  (deleteIdentifier config entry .subscription ([], entry)).bind
    (deleteIdentifier config entry .topic)

/-! ## What a deletion leaves -/

/-- The answer to `command` says that the resource is deleted or absent. -/
def showsGone (type : ResourceType) (resourceId : String) (command : OciCommand) (outcome : ProcessOutcome) :
    Prop :=
  match command.request, outcome with
  | .delete t id, .success _ => t = type ∧ id = resourceId
  | .list t _ none, .success stdout => t = type ∧ absentFromListing type resourceId stdout = .ok true
  | _, _ => False

/-- `gone w` are resources that some answer so far showed to be deleted or absent. -/
structure Absence {W : Type} (H : Handler ociSig CliError W) (gone : W → ResourceType → String → Prop) :
    Prop where
  keeps : ∀ w command r w' type id, H w command r w' → gone w type id → gone w' type id
  shows : ∀ w command outcome w' type id, H w command (.ok outcome) w' →
    showsGone type id command outcome → gone w' type id

/-- A value of an entry that identifies a resource that is gone. -/
def GoneValue (gone : ResourceType → String → Prop) (type : ResourceType) (value : Json) : Prop :=
  ∃ id, value = .str id ∧ gone type id

section
variable {W : Type} {H : Handler ociSig CliError W} {gone : W → ResourceType → String → Prop}

theorem wp_runOci (config : Dict) (request : Except CliError OciRequest) (Q : Post W CliError Stdout) (w : W) :
    (runOci config request).wp H Q w ↔
      match ociCommand config request with
      | .error e => Q.exc e w
      | .ok command => Q.cut w ∧
          (∀ outcome w', H w command (.ok outcome) w' → (Prog.ofExcept (ociResult outcome)).wp H Q w') ∧
          ∀ e w', H w command (.error e) w' → Q.exc e w' := by
  unfold runOci
  split
  · rfl
  · rw [Prog.wp_bind, Prog.wp_perform]

/-- What a successful command shows, with nothing said about failures. -/
theorem runOci_shows {config : Dict} {request : Except CliError OciRequest} {w : W} {P : Stdout → W → Prop}
    (h : ∀ command stdout w', ociCommand config request = .ok command →
      H w command (.ok (.success stdout)) w' → P stdout w') :
    (runOci config request).wp H ⟨P, fun _ _ => True, fun _ => True⟩ w := by
  rw [wp_runOci]
  split
  · trivial
  · rename_i command hcommand
    refine ⟨trivial, fun outcome w' hr => ?_, fun _ _ _ => trivial⟩
    cases outcome with
    | success stdout => exact h command stdout w' hcommand hr
    | failed status detail =>
        rw [ociResult]
        split <;> trivial
    | _ => trivial

theorem argument_eq_ok {value : Option Json} {s : String} : argument value = .ok s ↔ value = some (.str s) := by
  unfold argument
  split <;> simp_all

theorem ociCommand_eq_ok {config : Dict} {request : Except CliError OciRequest} {command : OciCommand} :
    ociCommand config request = .ok command ↔
      Dict.get? config "auth" = some (.str command.auth) ∧ Dict.get? config "region" = some (.str command.region) ∧
        request = .ok command.request := by
  rw [← argument_eq_ok, ← argument_eq_ok]
  constructor
  · intro h
    unfold ociCommand at h
    split at h <;> cases h
    exact ⟨‹_›, ‹_›, rfl⟩
  · rintro ⟨hauth, hregion, rfl⟩
    simp only [ociCommand, hauth, hregion]

theorem request_of_ociCommand {config : Dict} {request : OciRequest} {command : OciCommand}
    (h : ociCommand config (.ok request) = .ok command) : command.request = request :=
  (Except.ok.inj (ociCommand_eq_ok.mp h).2.2).symm

theorem listRequest_eq_ok {config : Dict} {type : ResourceType} {name : Option String} {request : OciRequest}
    (h : listRequest config type name = .ok request) :
    ∃ compartmentId, argument (Dict.get? config "compartment_id") = .ok compartmentId ∧
      request = .list type compartmentId name := by
  unfold listRequest at h
  split at h <;> cases h
  exact ⟨_, ‹_›, rfl⟩

theorem calls_runOci_command {config : Dict} {request : Except CliError OciRequest} {P : OciCommand → Prop}
    (h : ∀ command, ociCommand config request = .ok command → P command) : (runOci config request).Calls P := by
  unfold runOci
  split
  · trivial
  · exact Prog.Calls.bind (Prog.calls_perform (S := ociSig) (h _ ‹_›)) fun _ => Prog.calls_ofExcept ..

theorem calls_runOci_request {config : Dict} {request : Except CliError OciRequest} {P : OciCommand → Prop}
    (h : ∀ command, request = .ok command.request → P command) : (runOci config request).Calls P :=
  calls_runOci_command fun command hcommand => h command (ociCommand_eq_ok.mp hcommand).2.2

theorem calls_runOci {config : Dict} {request : Except CliError OciRequest}
    (h : ∀ r, request = .ok r → r.creates = false) :
    (runOci config request).Calls CreatesNothing :=
  calls_runOci_request fun command hcommand => h command.request hcommand

theorem calls_notificationResourceIsAbsent {config : Dict} {type : ResourceType} {P : OciCommand → Prop}
    (h : ∀ command, ociCommand config (listRequest config type none) = .ok command → P command) (id : String) :
    (notificationResourceIsAbsent config type id).Calls P :=
  (calls_runOci_command h).bind fun _ => Prog.calls_ofExcept ..

theorem calls_deleteResource {config : Dict} {type : ResourceType} {id : String} {P : OciCommand → Prop}
    (hlist : ∀ command, ociCommand config (listRequest config type none) = .ok command → P command)
    (hdelete : ∀ command, ociCommand config (.ok (.delete type id)) = .ok command → P command) :
    (deleteResource config type id).Calls P := by
  refine Prog.Calls.bind (Prog.Calls.attempt (calls_runOci_command hdelete)) fun r => ?_
  cases r with
  | ok => trivial
  | error e =>
      dsimp only
      split
      · trivial
      · split
        · trivial
        · refine (calls_notificationResourceIsAbsent hlist id).attempt.bind fun r => ?_
          cases r with
          | ok => trivial
          | error e =>
              dsimp only
              split <;> trivial

/-- A command of a deletion: for an identifier of the entry, or to look for its resource. -/
def IsDeletion (config entry : Dict) (command : OciCommand) : Prop :=
  ∃ type, ociCommand config (listRequest config type none) = .ok command ∨
    ∃ id, identifierOf entry type = some (.str id) ∧ ociCommand config (.ok (.delete type id)) = .ok command

theorem calls_deleteNotificationResources_isDeletion (config entry : Dict) :
    (deleteNotificationResources config entry).Calls (IsDeletion config entry) := by
  have hone : ∀ type acc, (deleteIdentifier config entry type acc).Calls (IsDeletion config entry) := by
    intro type acc
    unfold deleteIdentifier
    split
    · trivial
    · rename_i identifier hidentifier
      cases harg : argument (some identifier) with
      | error e => exact Prog.calls_throw ..
      | ok id =>
          cases argument_eq_ok.mp harg
          refine (calls_deleteResource (fun command hlist => ⟨type, .inl hlist⟩) fun command hdelete =>
            ⟨type, .inr ⟨id, hidentifier, hdelete⟩⟩).bind fun detail => ?_
          cases detail <;> trivial
  exact (hone .subscription ([], entry)).bind (hone .topic)

/-- **A deletion creates nothing.** -/
theorem calls_deleteNotificationResources (config entry : Dict) :
    (deleteNotificationResources config entry).Calls CreatesNothing := by
  refine (calls_deleteNotificationResources_isDeletion config entry).mono ?_
  rintro command ⟨type, hlist | ⟨id, -, hdelete⟩⟩
  · obtain ⟨compartmentId, -, hrequest⟩ := listRequest_eq_ok (ociCommand_eq_ok.mp hlist).2.2
    rw [CreatesNothing, hrequest]
    rfl
  · rw [CreatesNothing, request_of_ociCommand hdelete]
    rfl

/-- A resource found absent is gone. -/
theorem notificationResourceIsAbsent_spec (hA : Absence H gone) (config : Dict) (type : ResourceType)
    (id : String) (w : W) :
    (notificationResourceIsAbsent config type id).wp H
      ⟨fun absent w' => absent = true → gone w' type id, fun _ _ => True, fun _ => True⟩ w := by
  refine Prog.wp_seq (R := fun stdout w' => absentFromListing type id stdout = .ok true → gone w' type id)
    (runOci_shows fun command stdout w' hcommand hr habsent => ?_) fun stdout w' h => ?_
  · refine hA.shows w command _ w' type id hr ?_
    cases hlist : listRequest config type none with
    | error e =>
        rw [hlist] at hcommand
        unfold ociCommand at hcommand
        split at hcommand <;> simp_all
    | ok request =>
        obtain ⟨compartmentId, -, rfl⟩ := listRequest_eq_ok hlist
        rw [hlist] at hcommand
        simp [showsGone, request_of_ociCommand hcommand, habsent]
  · rw [Prog.wp_ofExcept]
    split
    · rename_i absent habsent
      rintro rfl
      exact h habsent
    · trivial

/-- A resource that leaves no error is gone. -/
theorem deleteResource_spec (hA : Absence H gone) (config : Dict) (type : ResourceType) (id : String) (w : W) :
    (deleteResource config type id).wp H
      ⟨fun detail w' => detail = none → gone w' type id, fun _ _ => True, fun _ => True⟩ w := by
  refine Prog.wp_seq_attempt (R := fun _ w' => gone w' type id) (E := fun _ _ => True)
    (runOci_shows fun command stdout w' hcommand hr => hA.shows w command _ w' type id hr ?_)
    (fun _ w' h _ => h) fun error w' _ => ?_
  · simp [showsGone, request_of_ociCommand hcommand]
  · dsimp only
    split
    · trivial
    · split
      · exact nofun
      · refine Prog.wp_seq_attempt (notificationResourceIsAbsent_spec hA config type id w')
          (fun absent w'' h => ?_) fun e w'' _ => ?_
        · cases absent with
          | true => exact fun _ => h rfl
          | false => exact nofun
        · dsimp only
          split
          · trivial
          · exact nofun

end

/-! ## Identifiers that a deletion drops -/

/-- Two entries identify the same resources, those that are gone apart. -/
def Agree (gone : ResourceType → String → Prop) (a b : Dict) : Prop :=
  ∀ type value, ¬ GoneValue gone type value → (identifierOf a type = some value ↔ identifierOf b type = some value)

theorem Agree.refl (gone : ResourceType → String → Prop) (a : Dict) : Agree gone a a := fun _ _ _ => Iff.rfl

theorem Agree.symm {gone : ResourceType → String → Prop} {a b : Dict} (h : Agree gone a b) : Agree gone b a :=
  fun type value hv => (h type value hv).symm

theorem Agree.trans {gone : ResourceType → String → Prop} {a b c : Dict} (hab : Agree gone a b)
    (hbc : Agree gone b c) : Agree gone a c :=
  fun type value hv => (hab type value hv).trans (hbc type value hv)

theorem GoneValue.mono {gone gone' : ResourceType → String → Prop} (h : ∀ t id, gone t id → gone' t id)
    {type : ResourceType} {value : Json} (hv : GoneValue gone type value) : GoneValue gone' type value := by
  obtain ⟨id, rfl, hid⟩ := hv
  exact ⟨id, rfl, h type id hid⟩

theorem Agree.mono {gone gone' : ResourceType → String → Prop} (h : ∀ t id, gone t id → gone' t id)
    {a b : Dict} (hab : Agree gone a b) : Agree gone' a b :=
  fun type value hv => hab type value fun hg => hv (hg.mono h)

theorem Agree.of_identifiers {gone : ResourceType → String → Prop} {a b : Dict}
    (h : ∀ type, identifierOf a type = identifierOf b type) : Agree gone a b :=
  fun type value _ => by rw [h type]

theorem identifierOf_pop_ne (entry : Dict) {type type' : ResourceType} (h : type' ≠ type) :
    identifierOf (Dict.pop entry type.field) type' = identifierOf entry type' := by
  rw [identifierOf, Dict.get?_pop_ne _ (by cases type <;> cases type' <;> simp_all [ResourceType.field])]
  rfl

theorem identifierOf_pop_self (entry : Dict) (type : ResourceType) :
    identifierOf (Dict.pop entry type.field) type = none := by
  rw [identifierOf, Dict.get?_pop_self]
  rfl

/-- Dropping the identifier of a resource that is gone. -/
theorem Agree.pop {gone : ResourceType → String → Prop} {entry remaining : Dict} {type : ResourceType}
    {id : String} (h : Agree gone entry remaining) (hid : identifierOf entry type = some (.str id))
    (hgone : gone type id) : Agree gone entry (Dict.pop remaining type.field) := by
  intro t value hv
  by_cases ht : t = type
  · subst ht
    rw [identifierOf_pop_self, hid]
    exact ⟨fun hs => absurd ⟨id, (Option.some.inj hs).symm, hgone⟩ hv, nofun⟩
  · rw [identifierOf_pop_ne remaining ht]
    exact h t value hv

section
variable {W : Type} {H : Handler ociSig CliError W} {gone : W → ResourceType → String → Prop}

theorem Absence.keeps_gone {α : Type} (hA : Absence H gone) (w₀ : W) (p : Prog ociSig CliError α) :
    p.Keeps H fun w => ∀ type id, gone w₀ type id → gone w type id :=
  Prog.keeps_of_calls (Prog.calls_true p) fun w command r w' _ hw hr type id h =>
    hA.keeps w command r w' type id hr (hw type id h)

theorem deleteIdentifier_spec (hA : Absence H gone) (config entry : Dict) (type : ResourceType)
    (acc : List String × Dict) (w : W) (hacc : Agree (gone w) entry acc.2) :
    (deleteIdentifier config entry type acc).wp H
      ⟨fun acc' w' => Agree (gone w') entry acc'.2 ∧ (acc'.1 = [] → acc.1 = [] ∧
          ∀ value, identifierOf entry type = some value → GoneValue (gone w') type value),
        fun _ _ => True, fun _ => True⟩ w := by
  unfold deleteIdentifier
  split
  · exact ⟨hacc, fun h => ⟨h, fun value hv => by simp_all⟩⟩
  · rename_i identifier hid
    rw [Prog.wp_bind, Prog.wp_ofExcept]
    split
    · rename_i resourceId harg
      have hstr : identifier = .str resourceId := by
        cases identifier <;> simp_all [argument]
      subst hstr
      have hspec := Prog.wp_and_keeps (hA.keeps_gone w _) (fun _ _ h => h)
        (deleteResource_spec hA config type resourceId w)
      refine Prog.wp_seq (Prog.wp_mono hspec (fun _ _ h => h) (fun _ _ _ => trivial) fun _ _ => trivial) ?_
      rintro detail w' ⟨hgone, hkeep⟩
      cases detail with
      | none =>
          refine ⟨(hacc.mono hkeep).pop hid (hgone rfl), fun h => ⟨h, fun value hv => ?_⟩⟩
          exact ⟨resourceId, Option.some.inj (hv.symm.trans hid), hgone rfl⟩
      | some detail => exact ⟨hacc.mono hkeep, fun h => by simp at h⟩
    · trivial

/-- **An identifier is dropped only when its resource is gone**, and without errors all are. -/
theorem deleteNotificationResources_spec (hA : Absence H gone) (config entry : Dict) (w : W) :
    (deleteNotificationResources config entry).wp H
      ⟨fun acc w' => Agree (gone w') entry acc.2 ∧ (acc.1 = [] → Agree (gone w') entry []),
        fun _ _ => True, fun _ => True⟩ w := by
  refine Prog.wp_seq (deleteIdentifier_spec hA config entry .subscription ([], entry) w (Agree.refl _ _)) ?_
  rintro acc w₁ ⟨hagree, hnone⟩
  have hspec := Prog.wp_and_keeps (hA.keeps_gone w₁ _) (fun _ _ h => h)
    (deleteIdentifier_spec hA config entry .topic acc w₁ hagree)
  refine Prog.wp_mono hspec ?_ (fun _ _ _ => trivial) fun _ _ => trivial
  rintro acc' w' ⟨⟨hagree', hnone'⟩, hkeep⟩
  refine ⟨hagree', fun herr => ?_⟩
  obtain ⟨herr', htopic⟩ := hnone' herr
  obtain ⟨_, hsub⟩ := hnone herr'
  intro type value hv
  have hgone : identifierOf entry type = some value → GoneValue (gone w') type value := fun h => by
    cases type with
    | topic => exact htopic value h
    | subscription => exact (hsub value h).mono hkeep
  exact ⟨fun h => absurd (hgone h) hv, nofun⟩

end

/-! ## What a deletion raises -/

/-- The fields of the configuration that go to a command line are strings. -/
structure CommandFields (config : Dict) : Prop where
  auth : ∃ s, Dict.get? config "auth" = some (.str s)
  region : ∃ s, Dict.get? config "region" = some (.str s)
  compartment : ∃ s, Dict.get? config "compartment_id" = some (.str s)

theorem CommandFields.ociCommand_ok {config : Dict} (h : CommandFields config) (request : OciRequest) :
    ∃ command, ociCommand config (.ok request) = .ok command ∧ command.request = request := by
  obtain ⟨auth, ha⟩ := h.auth
  obtain ⟨region, hr⟩ := h.region
  exact ⟨⟨request, auth, region⟩, by simp [ociCommand, ha, hr, argument], rfl⟩

theorem CommandFields.listRequest_ok {config : Dict} (h : CommandFields config) (type : ResourceType)
    (name : Option String) : ∃ compartmentId, listRequest config type name = .ok (.list type compartmentId name) := by
  obtain ⟨compartmentId, hc⟩ := h.compartment
  exact ⟨compartmentId, by simp [listRequest, hc, argument]⟩

/-- Strings that a process can be started with. -/
structure PassableFields (config : Dict) : Prop where
  auth : ∃ s, Dict.get? config "auth" = some (.str s) ∧ passable s = true
  region : ∃ s, Dict.get? config "region" = some (.str s) ∧ passable s = true
  compartment : ∃ s, Dict.get? config "compartment_id" = some (.str s) ∧ passable s = true

theorem PassableFields.commandFields {config : Dict} (h : PassableFields config) : CommandFields config :=
  ⟨h.auth.imp fun _ => And.left, h.region.imp fun _ => And.left, h.compartment.imp fun _ => And.left⟩

theorem startable_iff {command : OciCommand} : command.startable = true ↔
    passable command.auth = true ∧ passable command.region = true ∧ ∀ s ∈ command.request.texts, passable s = true := by
  simp [OciCommand.startable]

/-- A configuration that passes gives commands that can be started. -/
theorem PassableFields.startable {config : Dict} (h : PassableFields config) {request : Except CliError OciRequest}
    {command : OciCommand} (hcommand : ociCommand config request = .ok command)
    (htexts : ∀ s ∈ command.request.texts, passable s = true) : command.startable = true := by
  obtain ⟨hauth, hregion, -⟩ := ociCommand_eq_ok.mp hcommand
  obtain ⟨auth, ha, hpassAuth⟩ := h.auth
  obtain ⟨region, hr, hpassRegion⟩ := h.region
  cases hauth.symm.trans ha
  cases hregion.symm.trans hr
  exact startable_iff.mpr ⟨hpassAuth, hpassRegion, htexts⟩

theorem PassableFields.ociCommand_ok {config : Dict} (h : PassableFields config) (request : OciRequest)
    (htexts : ∀ s ∈ request.texts, passable s = true) :
    ∃ command, ociCommand config (.ok request) = .ok command ∧ command.request = request ∧
      command.startable = true := by
  obtain ⟨command, hcommand, rfl⟩ := h.commandFields.ociCommand_ok request
  exact ⟨command, hcommand, rfl, h.startable hcommand htexts⟩

def StringIdentifiers (entry : Dict) : Prop :=
  ∀ type value, identifierOf entry type = some value → ∃ id, value = .str id

/-- The identifiers of an entry are strings that a process can be started with. -/
def PassableIdentifiers (entry : Dict) : Prop :=
  ∀ type value, identifierOf entry type = some value → ∃ id, value = .str id ∧ passable id = true

theorem PassableIdentifiers.strings {entry : Dict} (h : PassableIdentifiers entry) : StringIdentifiers entry :=
  fun type value hvalue => (h type value hvalue).imp fun _ => And.left

/-- **Every process of a deletion can be started.** -/
theorem calls_deleteNotificationResources_startable {config entry : Dict} (hconfig : PassableFields config)
    (hentry : PassableIdentifiers entry) :
    (deleteNotificationResources config entry).Calls fun command : OciCommand => command.startable = true := by
  refine (calls_deleteNotificationResources_isDeletion config entry).mono ?_
  rintro command ⟨type, hlist | ⟨id, hid, hdelete⟩⟩
  · obtain ⟨compartmentId, hcompartment, hpass⟩ := hconfig.compartment
    have hrequest : listRequest config type none = .ok (.list type compartmentId none) := by
      simp [listRequest, hcompartment, argument]
    refine hconfig.startable hlist fun s hs => ?_
    rw [hrequest] at hlist
    rw [request_of_ociCommand hlist, OciRequest.texts] at hs
    simpa using (show s = compartmentId by simpa using hs) ▸ hpass
  · obtain ⟨_, hstr, hpass⟩ := hentry type _ hid
    cases hstr
    refine hconfig.startable hdelete fun s hs => ?_
    rw [request_of_ociCommand hdelete, OciRequest.texts] at hs
    exact List.mem_singleton.mp hs ▸ hpass

theorem ociResult_eq_ok {outcome : ProcessOutcome} {stdout : Stdout} (h : ociResult outcome = .ok stdout) :
    outcome = .success stdout := by
  unfold ociResult at h
  split at h
  case h_3 => split at h <;> cases h
  all_goals cases h
  rfl

theorem ociResult_isNotification {outcome : ProcessOutcome} {e : CliError} (h : ociResult outcome = .error e) :
    e.isNotification = true := by
  unfold ociResult at h
  split at h
  case h_3 => split at h <;> cases h <;> rfl
  all_goals cases h
  all_goals rfl

theorem absentFromListing_isNotification {type : ResourceType} {id : String} {stdout : Stdout} {e : CliError}
    (h : absentFromListing type id stdout = .error e) : e.isNotification = true := by
  have hlisted : ∀ resources e, listedIds type resources = .error e → e.isNotification = true := by
    intro resources
    induction resources with
    | nil => exact nofun
    | cons resource rest ih =>
        intro e h
        unfold listedIds at h
        split at h <;> cases h
        rfl
  unfold absentFromListing at h
  dsimp only at h
  split at h
  · rename_i e' hresources
    cases h
    split at hresources
    · cases hresources
    · split at hresources <;> cases hresources
      rfl
  · split at h
    · cases h
      rfl
    · split at h <;> cases h
      rename_i hids
      exact hlisted _ _ hids

/-- An issue with a resource, as `_delete_notification_resources` words it. -/
def IsResourceIssue (issue : String) : Prop := ∃ (type : ResourceType) (rest : String), issue = type.text ++ " " ++ rest

section
variable {W : Type} {H : Handler ociSig CliError W} {I : W → Prop} {E : CliError → W → Prop}

/-- The outside keeps `I`, unless a command raises something other than a `NotificationError`. -/
def KeepsUnless (H : Handler ociSig CliError W) (I : W → Prop) (E : CliError → W → Prop) : Prop :=
  ∀ w command r w', I w → H w command r w' → match r with
    | .ok _ => I w'
    | .error e => if e.isNotification then I w' else E e w'

theorem runOci_raises (hH : KeepsUnless H I E) {config : Dict} (hconfig : CommandFields config)
    (request : OciRequest) {w : W} (hw : I w) :
    (runOci config (.ok request)).wp H ⟨fun _ w' => I w',
      fun e w' => if e.isNotification then I w' else E e w', fun _ => True⟩ w := by
  rw [wp_runOci]
  obtain ⟨command, hcommand, _⟩ := hconfig.ociCommand_ok request
  rw [hcommand]
  refine ⟨trivial, fun outcome w' hr => ?_, fun e w' hr => hH w command _ w' hw hr⟩
  have hw' := hH w command _ w' hw hr
  rw [Prog.wp_ofExcept]
  split
  · exact hw'
  · rename_i e he
    simpa [ociResult_isNotification he] using hw'

theorem notificationResourceIsAbsent_raises (hH : KeepsUnless H I E) {config : Dict}
    (hconfig : CommandFields config) (type : ResourceType) (id : String) {w : W} (hw : I w) :
    (notificationResourceIsAbsent config type id).wp H ⟨fun _ w' => I w',
      fun e w' => if e.isNotification then I w' else E e w', fun _ => True⟩ w := by
  obtain ⟨compartmentId, hlist⟩ := hconfig.listRequest_ok type none
  rw [notificationResourceIsAbsent, hlist]
  refine Prog.wp_seq (runOci_raises hH hconfig _ hw) fun stdout w' hw' => ?_
  rw [Prog.wp_ofExcept]
  split
  · exact hw'
  · rename_i e he
    simpa [absentFromListing_isNotification he] using hw'

theorem deleteResource_raises (hH : KeepsUnless H I E) {config : Dict} (hconfig : CommandFields config)
    (type : ResourceType) (id : String) {w : W} (hw : I w) :
    (deleteResource config type id).wp H
      ⟨fun detail w' => I w' ∧ ∀ issue, detail = some issue → IsResourceIssue issue, E, fun _ => True⟩ w := by
  refine Prog.wp_seq_attempt (runOci_raises hH hconfig _ hw) (fun _ w' hw' => ⟨hw', nofun⟩) fun error w' he => ?_
  dsimp only
  cases hn : error.isNotification with
  | false => simpa [hn] using he
  | true =>
      have hw' : I w' := by simpa [hn] using he
      have hissue : ∀ rest : String, IsResourceIssue (type.text ++ " " ++ id ++ ": " ++ error.message ++ rest) :=
        fun rest => ⟨type, id ++ ": " ++ error.message ++ rest, by simp only [String.append_assoc]⟩
      have hplain : IsResourceIssue (type.text ++ " " ++ id ++ ": " ++ error.message) := by
        simpa using hissue ""
      split
      · simp_all
      · split
        · exact ⟨hw', fun issue h => Option.some.inj h ▸ hplain⟩
        · refine Prog.wp_seq_attempt (notificationResourceIsAbsent_raises hH hconfig type id hw')
            (fun absent w'' hw'' => ⟨hw'', fun issue h => ?_⟩) fun e w'' he' => ?_
          · cases absent with
            | true => cases h
            | false => exact Option.some.inj h ▸ hplain
          · dsimp only
            cases hn' : e.isNotification with
            | false => simpa [hn'] using he'
            | true =>
                refine ⟨by simpa [hn'] using he', fun issue h => ?_⟩
                cases h
                simpa only [String.append_assoc] using hissue ("; absence verification failed: " ++ e.message)

theorem deleteIdentifier_raises (hH : KeepsUnless H I E) {config entry : Dict} (hconfig : CommandFields config)
    (hentry : StringIdentifiers entry) (type : ResourceType) (acc : List String × Dict) {w : W} (hw : I w)
    (hacc : ∀ issue ∈ acc.1, IsResourceIssue issue) :
    (deleteIdentifier config entry type acc).wp H
      ⟨fun acc' w' => I w' ∧ ∀ issue ∈ acc'.1, IsResourceIssue issue, E, fun _ => True⟩ w := by
  unfold deleteIdentifier
  split
  · exact ⟨hw, hacc⟩
  · rename_i identifier hid
    obtain ⟨id, rfl⟩ := hentry type identifier hid
    rw [argument_eq_ok.mpr rfl, Prog.wp_bind, Prog.wp_ofExcept_ok]
    refine Prog.wp_seq (deleteResource_raises hH hconfig type id hw) ?_
    rintro detail w' ⟨hw', hissue⟩
    cases detail with
    | none => exact ⟨hw', hacc⟩
    | some detail =>
        refine ⟨hw', fun issue hm => ?_⟩
        rcases List.mem_append.mp hm with hm | hm
        · exact hacc issue hm
        · exact hissue issue (by rw [List.mem_singleton.mp hm])

/-- **A deletion raises only what a command raised**, and words what went wrong. -/
theorem deleteNotificationResources_raises (hH : KeepsUnless H I E) {config entry : Dict}
    (hconfig : CommandFields config) (hentry : StringIdentifiers entry) {w : W} (hw : I w) :
    (deleteNotificationResources config entry).wp H
      ⟨fun acc w' => I w' ∧ ∀ issue ∈ acc.1, IsResourceIssue issue, E, fun _ => True⟩ w := by
  refine Prog.wp_seq (deleteIdentifier_raises hH hconfig hentry .subscription ([], entry) hw (by simp)) ?_
  rintro acc w' ⟨hw', hacc⟩
  exact deleteIdentifier_raises hH hconfig hentry .topic acc hw' hacc

end

/-! ## What a deletion leaves, exactly -/

/-- What remains of an entry are its identifiers, those of resources that are gone apart. -/
def LeftOf (gone : ResourceType → String → Prop) (entry remaining : Dict) : Prop :=
  ∀ type value, identifierOf remaining type = some value ↔
    identifierOf entry type = some value ∧ ¬ GoneValue gone type value

/-- `gone w` are just the resources that some answer so far showed to be deleted or absent. -/
structure ExactAbsence {W : Type} (H : Handler ociSig CliError W) (gone : W → ResourceType → String → Prop) :
    Prop where
  raises : ∀ w command e w', H w command (.error e) w' → gone w' = gone w
  answers : ∀ w command outcome w' type id, H w command (.ok outcome) w' →
    (gone w' type id ↔ gone w type id ∨ showsGone type id command outcome)

/-- Of one type, what a program learns of one resource; of the other type, nothing. -/
structure Learns (gone gone' : ResourceType → String → Prop) (type : ResourceType) (id : String) (shown : Prop) :
    Prop where
  this : gone' type id ↔ gone type id ∨ shown
  others : ∀ t id', t ≠ type → (gone' t id' ↔ gone t id')

theorem Learns.nothing {gone gone' : ResourceType → String → Prop} (hsame : gone' = gone) (type : ResourceType)
    (id : String) {shown : Prop} (h : ¬ shown) : Learns gone gone' type id shown :=
  ⟨by simp [hsame, h], fun _ _ _ => by rw [hsame]⟩

theorem Learns.congr {gone gone' : ResourceType → String → Prop} {type : ResourceType} {id : String}
    {shown shown' : Prop} (h : Learns gone gone' type id shown) (hs : shown ↔ shown') :
    Learns gone gone' type id shown' :=
  ⟨by rw [h.this, hs], h.others⟩

section
variable {W : Type} {H : Handler ociSig CliError W} {gone : W → ResourceType → String → Prop}

theorem runOci_exact (hA : ExactAbsence H gone) (config : Dict) (request : Except CliError OciRequest) (w : W) :
    (runOci config request).wp H
      ⟨fun stdout w' => ∃ command, request = .ok command.request ∧ ∀ type id,
          (gone w' type id ↔ gone w type id ∨ showsGone type id command (.success stdout)),
        fun _ w' => gone w' = gone w, fun _ => True⟩ w := by
  rw [wp_runOci]
  split
  · rfl
  · rename_i command hcommand
    have hrequest : request = .ok command.request := by
      cases request with
      | error e =>
          unfold ociCommand at hcommand
          split at hcommand <;> simp_all
      | ok request => rw [request_of_ociCommand hcommand]
    refine ⟨trivial, fun outcome w' hr => ?_, fun e w' hr => hA.raises w command e w' hr⟩
    have hanswers := fun type id => hA.answers w command outcome w' type id hr
    rw [Prog.wp_ofExcept]
    cases outcome with
    | success stdout => exact ⟨command, hrequest, hanswers⟩
    | failed status detail =>
        have hsame : gone w' = gone w := by
          funext type id
          simpa [showsGone] using hanswers type id
        rw [ociResult]
        split <;> rename_i hresult <;> split at hresult <;> cases hresult <;> exact hsame
    | _ =>
        funext type id
        simpa [showsGone] using hanswers type id

theorem notificationResourceIsAbsent_exact (hA : ExactAbsence H gone) (config : Dict) (type : ResourceType)
    (id : String) (w : W) :
    (notificationResourceIsAbsent config type id).wp H
      ⟨fun absent w' => Learns (gone w) (gone w') type id (absent = true),
        fun _ w' => Learns (gone w) (gone w') type id False, fun _ => True⟩ w := by
  refine Prog.wp_seq (R := fun stdout w' =>
    Learns (gone w) (gone w') type id (absentFromListing type id stdout = .ok true))
    (Prog.wp_mono (runOci_exact hA config _ w) ?_ (fun e w' h => .nothing h type id not_false) fun _ h => h)
    fun stdout w' h => ?_
  · rintro stdout w' ⟨command, hrequest, hgone⟩
    obtain ⟨compartmentId, -, hlist⟩ := listRequest_eq_ok hrequest
    refine ⟨?_, fun t id' ht => ?_⟩
    · rw [hgone]
      simp [showsGone, hlist]
    · rw [hgone]
      simp [showsGone, hlist, Ne.symm ht]
  · rw [Prog.wp_ofExcept]
    split
    · rename_i absent habsent
      exact h.congr (by simp [habsent])
    · rename_i e he
      exact h.congr (by simp [he])

/-- A deletion says nothing just when it learns that the resource is gone. -/
theorem deleteResource_exact (hA : ExactAbsence H gone) (config : Dict) (type : ResourceType) (id : String) (w : W) :
    (deleteResource config type id).wp H
      ⟨fun detail w' => Learns (gone w) (gone w') type id (detail = none), fun _ _ => True, fun _ => True⟩ w := by
  refine Prog.wp_seq_attempt (R := fun _ w' => Learns (gone w) (gone w') type id True)
    (Prog.wp_mono (runOci_exact hA config _ w) ?_ (fun e w' h => h) fun _ h => h)
    (fun _ w' h => h.congr (by simp)) fun error w' hsame => ?_
  · rintro stdout w' ⟨command, hrequest, hgone⟩
    have hdelete : command.request = .delete type id := by simpa using hrequest.symm
    refine ⟨?_, fun t id' ht => ?_⟩
    · rw [hgone]
      simp [showsGone, hdelete]
    · rw [hgone]
      simp [showsGone, hdelete, Ne.symm ht]
  · dsimp only
    split
    · trivial
    · split
      · exact .nothing hsame type id nofun
      · refine Prog.wp_seq_attempt (notificationResourceIsAbsent_exact hA config type id w')
          (fun absent w'' h => ?_) fun e w'' h => ?_
        · rw [← hsame]
          exact h.congr (by cases absent <;> simp)
        · dsimp only
          split
          · trivial
          · rw [← hsame]
            exact h.congr (by simp)

/-- What is left of one identifier, when nothing of its type was gone before. -/
theorem deleteIdentifier_exact (hA : ExactAbsence H gone) (config entry : Dict) (type : ResourceType)
    (acc : List String × Dict) (w : W) (hnone : ∀ id, ¬ gone w type id)
    (hsame : identifierOf acc.2 type = identifierOf entry type) :
    (deleteIdentifier config entry type acc).wp H
      ⟨fun acc' w' => (∀ value, identifierOf acc'.2 type = some value ↔
            identifierOf entry type = some value ∧ ¬ GoneValue (gone w') type value) ∧
          ∀ t, t ≠ type → identifierOf acc'.2 t = identifierOf acc.2 t ∧ ∀ id, (gone w' t id ↔ gone w t id),
        fun _ _ => True, fun _ => True⟩ w := by
  unfold deleteIdentifier
  split
  · rename_i hid
    exact ⟨fun value => by simp [hsame, hid], fun t _ => ⟨rfl, fun _ => Iff.rfl⟩⟩
  · rename_i identifier hid
    refine Prog.wp_ofExcept_seq (fun resourceId harg => ?_) fun _ _ => trivial
    have hstr : identifier = .str resourceId := Option.some.inj (argument_eq_ok.mp harg)
    subst hstr
    refine Prog.wp_seq (deleteResource_exact hA config type resourceId w) fun detail w' h => ?_
    have hgone : GoneValue (gone w') type (.str resourceId) ↔ detail = none := by
      have hthis : gone w' type resourceId ↔ detail = none := by simpa [hnone resourceId] using h.this
      simp [GoneValue, ← hthis]
    cases detail with
    | none =>
        refine ⟨fun value => ?_, fun t ht => ⟨identifierOf_pop_ne acc.2 ht, fun id => h.others t id ht⟩⟩
        rw [identifierOf_pop_self, hid]
        refine ⟨nofun, ?_⟩
        rintro ⟨hvalue, hleft⟩
        exact absurd (hgone.mpr rfl) (Option.some.inj hvalue ▸ hleft)
    | some detail =>
        refine ⟨fun value => ?_, fun t ht => ⟨rfl, fun id => h.others t id ht⟩⟩
        rw [hsame, hid]
        refine ⟨fun hvalue => ⟨hvalue, Option.some.inj hvalue ▸ fun hg => ?_⟩, And.left⟩
        exact nomatch hgone.mp hg

/-- **What remains are exactly the identifiers of resources neither deleted nor found absent.** -/
theorem deleteNotificationResources_exact (hA : ExactAbsence H gone) (config entry : Dict) (w : W)
    (hnone : ∀ type id, ¬ gone w type id) :
    (deleteNotificationResources config entry).wp H
      ⟨fun acc w' => LeftOf (gone w') entry acc.2, fun _ _ => True, fun _ => True⟩ w := by
  refine Prog.wp_seq (deleteIdentifier_exact hA config entry .subscription ([], entry) w (hnone _) rfl) ?_
  rintro acc w₁ ⟨hsub, hothers⟩
  obtain ⟨htopic, hsame⟩ := hothers .topic nofun
  refine Prog.wp_mono (deleteIdentifier_exact hA config entry .topic acc w₁
    (fun id => by rw [hsame]; exact hnone .topic id) htopic) ?_ (fun _ _ _ => trivial) fun _ _ => trivial
  rintro acc' w' ⟨htop, hothers'⟩
  obtain ⟨hsubSame, hgone⟩ := hothers' .subscription nofun
  intro type value
  cases type with
  | topic => exact htop value
  | subscription => rw [hsubSame, hsub value, GoneValue, GoneValue, funext fun id => propext (hgone id)]

end

end OciHpc.ClusterCli
