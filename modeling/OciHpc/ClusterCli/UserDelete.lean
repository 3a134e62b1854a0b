import OciHpc.ClusterCli.UserAdd

/-!
# `cluster user delete`

* `undoRemoval` : the routing is stored again and synchronized, best effort;
* `removeAndSync`, `deleteLdap`, `deleteResources` : the three stages, with what is undone on failure;
* `delete` : the command.
-/

namespace OciHpc.ClusterCli

def deleteLdapUser (user : String) : Cli Unit :=
  (ldap .connect).bind fun _ =>
    (ldap (.delete (userDn user))).bind fun deleted =>
      .ofExcept (ensureLdapSuccess deleted ("LDAP user '" ++ user ++ "' deletion"))

/-- `_sync_backup_registry(_load_notification_registry())`. -/
def syncBackup : Cli Unit :=
  (registryCall .loadNotificationRegistry).bind fun current => registryCall (.syncBackupRegistry current)

/-- The `NotificationError` of a step, if it raises one. -/
def issueOf (p : Cli Unit) : Cli (Option CliError) :=
  exceptNotification (p.bind fun _ => .ret none) fun error => .ret (some error)

def restoreRouting (user : String) : Option Dict → Cli Unit
  | none => .ret ()
  | some entry => registryCall (.restoreUserRouting user entry)

structure UndoIssues where
  restore : Option CliError
  sync : Option CliError
  record : Option CliError

def undoRemoval (user : String) (routingEntry : Option Dict) : Cli UndoIssues :=
  (issueOf (restoreRouting user routingEntry)).bind fun restore =>
    (issueOf syncBackup).bind fun sync =>
      match sync with
      | none => .ret ⟨restore, none, none⟩
      | some error =>
        (issueOf (registryCall (.recordPendingBackupSync error.message))).bind fun record =>
          .ret ⟨restore, some error, record⟩

def UndoIssues.all (issues : UndoIssues) : List String :=
  issues.restore.toList.map CliError.message ++ issues.sync.toList.map CliError.message ++
    issues.record.toList.map fun error => "unable to record pending synchronization: " ++ error.message

/-- The one issue a failed LDAP deletion reports. -/
def UndoIssues.first (issues : UndoIssues) : List String :=
  (issues.restore.or issues.sync).toList.map CliError.message

/-- `routing_entry and routing_entry.get('managed_by') == 'terraform'`. -/
def managedByTerraform : Option Json → Except CliError Bool
  | none => .ok false
  | some (.obj fields) => .ok (decide (Dict.get? fields "managed_by" = some (.str "terraform")))
  | some entry => if entry.truthy then .error (.other "AttributeError: object has no attribute 'get'") else .ok false

/-- The route is removed, and the removal synchronized: the configuration and the entry of the removal. -/
def removeAndSync (user : String) (registry : Registry) : Cli (Dict × Option Dict) :=
  (orClick "" ((Prog.ofExcept (validatedNotificationConfig registry)).bind fun _ =>
    -- the validated configuration is dropped: that of the removal takes its place
    registryCall (.removeUserRouting user))).bind fun (config, routingEntry) =>
      (exceptNotification syncBackup fun error =>
        (undoRemoval user routingEntry).bind fun issues =>
          .throw (.click ("Backup controller synchronization failed; LDAP user and OCI resources were not deleted: " ++
            error.message) "restore issues" issues.all)).bind fun _ => .ret (config, routingEntry)

/-- The LDAP deletion; on failure the route is stored again. -/
def deleteLdap (user : String) (routingEntry : Option Dict) : Cli Unit :=
  (deleteLdapUser user).tryCatch fun error =>
    (match routingEntry with
      | some entry => (undoRemoval user (some entry)).bind fun issues => .ret issues.first
      | none => .ret []).bind fun issues =>
        .throw (.click ("Unable to delete LDAP user '" ++ user ++ "': " ++ error.message)
          "notification routing restore failed" issues)

def deleteResources (user : String) (config entry : Dict) : Cli Unit :=
  (deleteOrRecord config user entry).bind fun cleanupErrors =>
    if cleanupErrors = [] then .ret ()
    else .throw (clickError ("LDAP user '" ++ user ++ "' was deleted, but OCI cleanup is pending: " ++
      PyStr.join "; " cleanupErrors))

/-- `cluster user delete`. -/
def delete (user : String) : Cli Unit :=
  if user = "opc" then
    .throw (clickError "User 'opc' is locally/Terraform managed and cannot be deleted by cluster")
  else
    (orClick "" (registryCall .loadNotificationRegistry)).bind fun registry =>
      let routingEntry := Dict.getNotNone registry.users user
      (Prog.ofExcept (managedByTerraform routingEntry)).bind fun managed =>
        if managed then
          .throw (clickError ("User '" ++ user ++ "' is managed by Terraform and cannot be deleted by cluster"))
        else
          (match routingEntry with
            | some _ => removeAndSync user registry
            | none => .ret (registry.config, none)).bind fun (config, routingEntry) =>
              (deleteLdap user routingEntry).bind fun _ =>
                match routingEntry with
                | some entry => deleteResources user config entry
                | none => .ret ()

end OciHpc.ClusterCli
