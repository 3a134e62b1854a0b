import OciHpc.ClusterCli.Ldap
import OciHpc.ClusterCli.Provision

/-!
# `cluster user add`

* `validateEmail` : the check of `--email`;
* `add` : the command: notification resources, LDAP entries, routing, and what is undone on failure.
-/

namespace OciHpc.ClusterCli

/-! ## Email addresses -/

/-- `s.split(sep)`, on the characters. -/
def splitAt (sep : Char) : List Char → List (List Char)
  | [] => [[]]
  | c :: rest =>
      match splitAt sep rest with
      | [] => [[c]]
      | part :: parts => if c = sep then [] :: part :: parts else (c :: part) :: parts

def isAlnum (c : Char) : Bool := ('A' ≤ c && c ≤ 'Z') || ('a' ≤ c && c ≤ 'z') || ('0' ≤ c && c ≤ '9')

def isLocalChar (c : Char) : Bool := isAlnum c || ".!#$%&'*+/=?^_\x60\x7b|\x7d~-".toList.contains c

/-- One label of a domain: at most 63 letters, digits and hyphens, none of them a hyphen at an end. -/
def isDomainLabel (label : List Char) : Bool :=
  label.length ≤ 63 && label.all (fun c => isAlnum c || c == '-') && label.head?.any isAlnum &&
    label.getLast?.any isAlnum

/-- `email_pattern.fullmatch(email)`. -/
def matchesEmailPattern (email : List Char) : Bool :=
  match splitAt '@' email with
  | [localPart, domain] =>
      let labels := splitAt '.' domain
      !localPart.isEmpty && localPart.all isLocalChar && 2 ≤ labels.length && labels.all isDomainLabel
  | _ => false

def validateEmail (email : String) : Bool :=
  let localPart := (splitAt '@' email.toList).headD []
  email.toList.length ≤ 254 && matchesEmailPattern email.toList && !(['.'].isPrefixOf localPart) &&
    !(localPart.getLast? == some '.') && !PyStr.hasInfix ['.', '.'] localPart

theorem mem_splitAt (sep : Char) {c : Char} {l : List Char} (h : c ∈ l) : c = sep ∨ ∃ part ∈ splitAt sep l, c ∈ part := by
  induction l with
  | nil => cases h
  | cons d rest ih =>
      unfold splitAt
      rcases List.mem_cons.mp h with rfl | hrest
      · split
        · exact .inr ⟨_, List.mem_singleton_self _, List.mem_singleton_self _⟩
        · split
          · exact .inl ‹_›
          · exact .inr ⟨_, List.mem_cons_self, List.mem_cons_self⟩
      · refine (ih hrest).imp_right ?_
        rintro ⟨part, hpart, hc⟩
        split
        · rename_i hnil
          rw [hnil] at hpart
          cases hpart
        · rename_i first parts hsplit
          rw [hsplit] at hpart
          split
          · exact ⟨part, List.mem_cons_of_mem _ hpart, hc⟩
          · rcases List.mem_cons.mp hpart with rfl | hpart
            · exact ⟨_, List.mem_cons_self, List.mem_cons_of_mem _ hc⟩
            · exact ⟨part, List.mem_cons_of_mem _ hpart, hc⟩

/-- An address that passes the check is an argument a process can be started with. -/
theorem passable_of_validateEmail {email : String} (h : validateEmail email = true) : passable email = true := by
  simp only [validateEmail, Bool.and_eq_true] at h
  have hmatches := h.1.1.1.2
  unfold matchesEmailPattern at hmatches
  split at hmatches
  · rename_i localPart domain hsplit
    simp only [Bool.and_eq_true, List.all_eq_true] at hmatches
    obtain ⟨⟨⟨-, hlocal⟩, -⟩, hdomain⟩ := hmatches
    rw [passable, Bool.not_eq_true', List.contains_eq_mem, decide_eq_false_iff_not]
    intro hnul
    have hparts := (mem_splitAt '@' hnul).resolve_left (by decide)
    simp only [hsplit, List.mem_cons, List.not_mem_nil, or_false, exists_eq_or_imp, exists_eq_left] at hparts
    rcases hparts with hnul | hnul
    · exact absurd (hlocal _ hnul) (by decide +kernel)
    · obtain ⟨label, hlabel, hnul⟩ := (mem_splitAt '.' hnul).resolve_left (by decide)
      have hchars := hdomain label hlabel
      simp only [isDomainLabel, Bool.and_eq_true, List.all_eq_true] at hchars
      exact absurd (hchars.1.1.2 _ hnul) (by decide +kernel)
  · cases hmatches

/-! ## The command -/

structure AddOptions where
  user : String
  password : String
  name : String
  uid : Option String
  gid : Option String
  email : Option String
  nossh : Bool
  deriving DecidableEq

/-- A `ClickException` without further issues. -/
def clickError (message : String) : CliError := .click message "" []

/-- `except NotificationError as error: raise click.ClickException(before + str(error))`. -/
def orClick {α : Type} (before : String) (p : Cli α) : Cli α :=
  exceptNotification p fun e => .throw (clickError (before ++ e.message))

/-- The registry, the configuration if notifications are enabled, and the email address. -/
def addChecks (options : AddOptions) : Cli (Registry × Option Dict × Option String) :=
  (orClick "" (registryCall .loadNotificationRegistry)).bind fun registry =>
    (if notificationsEnabled registry then
      (orClick "" (Prog.ofExcept (validatedNotificationConfig registry))).bind fun config =>
        match options.email with
        | some email => .ret (some config, some email)
        | none => (host (.prompt "Email address")).bind fun email => .ret (some config, some email)
    else .ret (none, options.email)).bind fun (config, email) =>
      let email := email.map PyStr.strip
      if email.any fun e => !validateEmail e then .throw (clickError "must be a valid email address")
      else .ret (registry, config, email)

/-- An identifier from the command line, or the next free one. -/
def idOr (option : Option String) (next : Cli Int) : Cli Json :=
  match option with
  | some id => .ret (.str id)
  | none => next.bind fun n => .ret (.int n)

/-- The routing entry, if notifications are enabled. -/
def addRouting (sha256Hex : String → String) (user : String) (registry : Registry) (config : Option Dict)
    (email : Option String) : Cli (Option (Dict × Dict)) :=
  match config, email with
  | some config, some email =>
      if (Dict.get? registry.users user).isSome then
        .throw (clickError ("Notification routing already exists for user '" ++ user ++ "'"))
      else (orClick "Unable to create OCI notification resources: "
        (createNotificationResources sha256Hex config user email)).bind fun routingEntry =>
          .ret (some (config, routingEntry))
  | _, _ => .ret none

/-- The LDAP entries; on failure what `addRouting` created is cleaned up. -/
def addLdap (options : AddOptions) (uid gid : Json) (email : Option String) (routing : Option (Dict × Dict)) :
    Cli Bool :=
  (createLdapUser options.user options.password uid gid options.name email).tryCatch fun error =>
    (match routing with
    | some (config, routingEntry) => deleteOrRecord config options.user routingEntry
    | none => .ret []).bind fun cleanupErrors =>
      .throw (.click ("Unable to create LDAP user '" ++ options.user ++ "': " ++ error.message)
        "OCI cleanup failed" cleanupErrors)

/-- The routing is stored; on failure the LDAP entries are taken back and the resources cleaned up. -/
def addStore (user : String) (groupCreated : Bool) (config routingEntry : Dict) : Cli Unit :=
  exceptNotification (registryCall (.storeUserRouting user routingEntry)) fun error =>
    (rollbackLdapUser user groupCreated).bind fun rollbackErrors =>
      (deleteOrRecord config user routingEntry).bind fun cleanupErrors =>
        .throw (.click ("Unable to store notification routing: " ++ error.message) "rollback issues"
          (rollbackErrors ++ cleanupErrors))

/-- The error of the backup synchronization, if it has one. -/
def addSync : Cli (Option String) :=
  exceptNotification
    ((registryCall .loadNotificationRegistry).bind fun current =>
      (registryCall (.syncBackupRegistry current)).bind fun _ => .ret none)
    fun error =>
      exceptNotification
        ((registryCall (.recordPendingBackupSync error.message)).bind fun _ => .ret (some error.message))
        fun recordError =>
          .ret (some (error.message ++ "; unable to record pending synchronization: " ++ recordError.message))

/-- What follows the routing: the backup, the home directory and the last messages. -/
def addFinish (options : AddOptions) (email : Option String) (routed : Bool) : Cli Unit :=
  (if routed then addSync else .ret none).bind fun backupSyncError =>
    (host (.initializeUserHome options.user options.nossh)).bind fun _ =>
      (if routed then host (.echo ("Notification subscription created for " ++ email.getD "None" ++
        ". The recipient must confirm the OCI Notifications email.")) else .ret ()).bind fun _ =>
        match backupSyncError with
        | none => .ret ()
        | some error =>
            .throw (clickError ("LDAP user '" ++ options.user ++ "' and its local notification routing were " ++
              "created, but backup controller synchronization is pending: " ++ error))

/-- `cluster user add`. -/
def add (sha256Hex : String → String) (options : AddOptions) : Cli Unit :=
  (addChecks options).bind fun (registry, config, email) =>
    (idOr options.uid (host .findNextUid)).bind fun uid =>
      (idOr options.gid (host .findNextGid)).bind fun gid =>
        (addRouting sha256Hex options.user registry config email).bind fun routing =>
          (addLdap options uid gid email routing).bind fun groupCreated =>
            (match routing with
            | some (config, routingEntry) => addStore options.user groupCreated config routingEntry
            | none => .ret ()).bind fun _ => addFinish options email routing.isSome

/-! ## The calls of the command -/

section
variable {P : CliCall → Prop}

theorem calls_call {call : CliCall} (h : P call) : (Prog.perform (S := cliSig) call : Cli call.Ans).Calls P :=
  @Prog.calls_perform cliSig CliError P call h

theorem calls_orClick {α : Type} {before : String} {p : Cli α} (hp : p.Calls P) : (orClick before p).Calls P :=
  calls_exceptNotification hp fun _ => trivial

theorem calls_addChecks (hload : P (.registry .loadNotificationRegistry))
    (hprompt : ∀ text, P (.host (.prompt text))) (options : AddOptions) : (addChecks options).Calls P := by
  refine (calls_orClick (calls_call hload)).bind fun registry => Prog.Calls.bind ?_ fun (config, email) => ?_
  · split
    · refine (calls_orClick (Prog.calls_ofExcept _ _)).bind fun config => ?_
      split
      · trivial
      · exact (calls_call (hprompt _)).bind fun _ => trivial
    · trivial
  · dsimp only
    split <;> trivial

theorem calls_idOr (option : Option String) {next : Cli Int} (hnext : next.Calls P) :
    (idOr option next).Calls P := by
  unfold idOr
  split
  · trivial
  · exact hnext.bind fun _ => trivial

theorem calls_addSync (hload : P (.registry .loadNotificationRegistry))
    (hsync : ∀ registry, P (.registry (.syncBackupRegistry registry)))
    (hrecord : ∀ error, P (.registry (.recordPendingBackupSync error))) : addSync.Calls P := by
  refine calls_exceptNotification ?_ fun e => calls_exceptNotification ?_ fun _ => trivial
  · exact (calls_call hload).bind fun registry => (calls_call (hsync registry)).bind fun _ => trivial
  · exact (calls_call (hrecord _)).bind fun _ => trivial

theorem calls_addFinish (hsync : addSync.Calls P) (hhost : ∀ call, P (.host call)) (options : AddOptions)
    (email : Option String) (routed : Bool) : (addFinish options email routed).Calls P := by
  refine Prog.Calls.bind ?_ fun error => Prog.Calls.bind (calls_call (hhost _)) fun _ => Prog.Calls.bind ?_ fun _ => ?_
  · split
    · exact hsync
    · trivial
  · split
    · exact calls_call (hhost _)
    · trivial
  · split <;> trivial

end

end OciHpc.ClusterCli
