import OciHpc.ClusterCli.Cleanup
import OciHpc.ClusterCli.Routing

/-!
# What the cluster CLI calls

* `LdapCall`, `RegistryCall`, `HostCall` : the calls to the LDAP server, to the registry and to the host;
* `cliSig` : all calls of a command, `oci` commands among them;
* `deleteOrRecord` : a deletion whose failures go to the cleanup journal;
* `wp_oci`, `calls_oci` : a program over `oci` commands behaves in a command as it does alone.
-/

namespace OciHpc.ClusterCli

/-- What a `Connection.add` or `Connection.delete` returns, and `connection.result` after it: its code and
its `message or description or str(result)`. -/
structure LdapReply where
  succeeded : Bool
  resultCode : Int
  detail : String
  deriving DecidableEq, Repr

inductive LdapCall
  | groupIdExists (gid : Json)
  | connect
  | add (dn : String) (objectClasses : List String) (attributes : Dict)
  | delete (dn : String)
  deriving DecidableEq

abbrev LdapCall.Ans : LdapCall → Type
  | .groupIdExists _ => Bool
  | .connect => Unit
  | .add .. | .delete _ => LdapReply

inductive RegistryCall
  | loadNotificationRegistry
  | storeUserRouting (user : String) (entry : Dict)
  | removeUserRouting (user : String)
  | restoreUserRouting (user : String) (entry : Dict)
  | recordPendingCleanup (user : String) (entry : Dict) (errors : List String)
  | syncBackupRegistry (registry : Registry)
  | recordPendingBackupSync (error : String)
  deriving DecidableEq

abbrev RegistryCall.Ans : RegistryCall → Type
  | .loadNotificationRegistry => Registry
  | .removeUserRouting _ => Dict × Option Dict
  | _ => Unit

inductive HostCall
  | uuid4
  | prompt (text : String)
  | findNextUid
  | findNextGid
  | echo (text : String)
  | initializeUserHome (user : String) (nossh : Bool)
  deriving DecidableEq

abbrev HostCall.Ans : HostCall → Type
  | .uuid4 | .prompt _ => String
  | .findNextUid | .findNextGid => Int
  | .echo _ | .initializeUserHome .. => Unit

inductive CliCall
  | oci (command : OciCommand)
  | ldap (call : LdapCall)
  | registry (call : RegistryCall)
  | host (call : HostCall)

abbrev CliCall.Ans : CliCall → Type
  | .oci _ => ProcessOutcome
  | .ldap call => call.Ans
  | .registry call => call.Ans
  | .host call => call.Ans

abbrev cliSig : Sig := ⟨CliCall, CliCall.Ans⟩

abbrev Cli (α : Type) := Prog cliSig CliError α

def ldap (call : LdapCall) : Cli call.Ans := Prog.perform (S := cliSig) (.ldap call)

def registryCall (call : RegistryCall) : Cli call.Ans := Prog.perform (S := cliSig) (.registry call)

def host (call : HostCall) : Cli call.Ans := Prog.perform (S := cliSig) (.host call)

/-- An `oci` command of a program over them. -/
def ociCall (command : OciCommand) : Cli ProcessOutcome := Prog.perform (S := cliSig) (.oci command)

/-- A program over `oci` commands. -/
def oci {α : Type} (p : Prog ociSig CliError α) : Cli α := p.via ociCall

/-- `try: p except NotificationError as error: handler(error)`. -/
def exceptNotification {α : Type} (p : Cli α) (handler : CliError → Cli α) : Cli α :=
  p.tryCatch fun e => if e.isNotification then handler e else .throw e

/-- `_record_pending_cleanup`. -/
def recordCleanup (user : String) (entry : Dict) (errors : List String) : Cli Unit :=
  if nothingToClean entry then .ret () else registryCall (.recordPendingCleanup user entry errors)

/-- `_delete_notification_resources`, with what is left recorded in the cleanup journal: the errors. -/
def deleteOrRecord (config : Dict) (user : String) (entry : Dict) : Cli (List String) :=
  (oci (deleteNotificationResources config entry)).bind fun (cleanupErrors, remaining) =>
    if cleanupErrors = [] then .ret []
    else exceptNotification
      ((recordCleanup user remaining cleanupErrors).bind fun _ => .ret cleanupErrors)
      fun recordError =>
        .ret (cleanupErrors ++ ["could not record pending cleanup: " ++ recordError.message])

/-! ## Programs over `oci` commands -/

section
variable {W α : Type} {H : Handler cliSig CliError W}

/-- The outside as the `oci` commands of a command see it. -/
def ociOutside (H : Handler cliSig CliError W) : Handler ociSig CliError W := fun w command r w' =>
  H w (.oci command) r w'

theorem through_ociCall : Prog.Through H ociCall (ociOutside H) := fun command Q w =>
  Prog.wp_perform (S := cliSig) (.oci command) Q w

theorem wp_oci (p : Prog ociSig CliError α) (Q : Post W CliError α) (w : W) :
    (oci p).wp H Q w ↔ p.wp (ociOutside H) Q w := Prog.wp_via through_ociCall p Q w

theorem calls_oci {P : CliCall → Prop} {p : Prog ociSig CliError α} (hp : p.Calls fun command => P (.oci command)) :
    (oci p).Calls P :=
  hp.via fun command hcommand => @Prog.calls_perform cliSig CliError P (.oci command) hcommand

theorem calls_exceptNotification {P : CliCall → Prop} {p : Cli α} {handler : CliError → Cli α} (hp : p.Calls P)
    (hh : ∀ e, (handler e).Calls P) : (exceptNotification p handler).Calls P :=
  hp.tryCatch fun e => by
    split
    · exact hh e
    · trivial

theorem wp_exceptNotification {p : Cli α} {handler : CliError → Cli α} {Q : Post W CliError α} {w : W}
    {E : CliError → W → Prop} (h : p.wp H ⟨Q.ret, E, Q.cut⟩ w)
    (hh : ∀ e w', E e w' → e.isNotification = true → (handler e).wp H Q w')
    (hother : ∀ e w', E e w' → e.isNotification = false → Q.exc e w') :
    (exceptNotification p handler).wp H Q w := by
  rw [exceptNotification, Prog.wp_tryCatch]
  refine Prog.wp_mono h (fun _ _ hr => hr) (fun e w' he => ?_) fun _ hc => hc
  dsimp only
  split
  · exact hh e w' he ‹_›
  · exact hother e w' he (by simpa using ‹¬ e.isNotification = true›)

theorem calls_recordCleanup {P : CliCall → Prop} {user : String} {entry : Dict} {errors : List String}
    (hrecord : P (.registry (.recordPendingCleanup user entry errors))) :
    (recordCleanup user entry errors).Calls P := by
  unfold recordCleanup
  split
  · trivial
  · exact Prog.calls_perform (S := cliSig) hrecord

theorem calls_deleteOrRecord {P : CliCall → Prop} {config : Dict} {user : String} {entry : Dict}
    (hoci : ∀ command, CreatesNothing command → P (.oci command))
    (hrecord : ∀ entry errors, P (.registry (.recordPendingCleanup user entry errors))) :
    (deleteOrRecord config user entry).Calls P := by
  refine (calls_oci ((calls_deleteNotificationResources config entry).mono hoci)).bind fun acc => ?_
  dsimp only
  split
  · trivial
  · exact calls_exceptNotification ((calls_recordCleanup (hrecord _ _)).bind fun _ => trivial) fun _ => trivial

end

end OciHpc.ClusterCli
