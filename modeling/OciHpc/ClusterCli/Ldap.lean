import OciHpc.ClusterCli.Cli

/-!
# LDAP entries of a user

* `createLdapUser` : the user's entry and, if its group id is new, a group entry, undone together;
* `rollbackLdapUser` : both taken back later, best effort.
-/

namespace OciHpc.ClusterCli

def peopleDn : String := "ou=People,dc=local"

def groupsDn : String := "ou=Group,dc=local"

def userDn (user : String) : String := "cn=" ++ user ++ "," ++ peopleDn

def groupDn (user : String) : String := "cn=" ++ user ++ "," ++ groupsDn

def LdapReply.ok (reply : LdapReply) : Bool := reply.succeeded && reply.resultCode == 0

def ensureLdapSuccess (reply : LdapReply) (action : String) : Except CliError Unit :=
  if reply.ok then .ok () else .error (.notification (action ++ " failed: " ++ reply.detail))

def userAttributes (user password : String) (uid gid : Json) (name : String) (email : Option String) : Dict :=
  [("sn", .str user), ("uid", .str user), ("uidNumber", uid), ("gidNumber", gid), ("userPassword", .str password),
    ("gecos", .str name), ("homeDirectory", .str ("/home/" ++ user)), ("displayName", .str name),
    ("loginShell", .str "/bin/bash")] ++
  match email with
  | some mail => if mail ≠ "" then [("mail", .str mail)] else []
  | none => []

def addLdapUser (user password : String) (uid gid : Json) (name : String) (email : Option String) : Cli Unit :=
  (ldap (.add (userDn user) ["inetOrgPerson", "posixAccount", "top", "shadowAccount"]
    (userAttributes user password uid gid name email))).bind fun added =>
      .ofExcept (ensureLdapSuccess added ("LDAP user '" ++ user ++ "' creation"))

def addLdapGroup (user : String) (gid : Json) : Cli Unit :=
  (host (.echo "Creating group")).bind fun _ =>
    (ldap (.add (groupDn user) ["top", "groupOfMembers", "posixgroup"]
      [("cn", .arr [.str user]), ("gidNumber", .arr [gid])])).bind fun groupAdded =>
        .ofExcept (ensureLdapSuccess groupAdded ("LDAP group '" ++ user ++ "' creation"))

/-- Returns `group_created`. -/
def createLdapUser (user password : String) (uid gid : Json) (name : String) (email : Option String) : Cli Bool :=
  (ldap (.groupIdExists gid)).bind fun gidExists =>
    (ldap .connect).bind fun _ =>
      (addLdapUser user password uid gid name email).bind fun _ =>
        -- `user_created` from here on; `group_created` is set by the last statement of the `try`
        if gidExists then .ret false
        else (addLdapGroup user gid).attempt.bind fun
          | .ok _ => .ret true
          | .error e => (ldap (.delete (userDn user))).bind fun _ => .throw e

/-- One deletion of the rollback, with what is said when it raises. -/
def rollbackDelete (issue dn : String) : Cli (List String) :=
  (ldap (.delete dn)).attempt.bind fun
    | .ok _ => .ret []
    | .error e => .ret [issue ++ e.message]

def userIssue (user : String) : String := "LDAP user '" ++ user ++ "': "

def groupIssue (user : String) : String := "LDAP group '" ++ user ++ "': "

def connectionIssue (user : String) : String := "LDAP rollback connection for '" ++ user ++ "': "

def rollbackLdapUser (user : String) (groupCreated : Bool) : Cli (List String) :=
  (ldap .connect).attempt.bind fun
    | .error e => .ret [connectionIssue user ++ e.message]
    | .ok _ =>
        (if groupCreated then rollbackDelete (groupIssue user) (groupDn user) else .ret []).bind fun groupErrors =>
          (rollbackDelete (userIssue user) (userDn user)).bind fun userErrors => .ret (groupErrors ++ userErrors)

/-! ## What the rollback raises -/

section
variable {W : Type} (H : Handler cliSig CliError W)

theorem rollbackDelete_returns (issue dn : String) (w : W) :
    (rollbackDelete issue dn).wp H ⟨fun _ _ => True, fun _ _ => False, fun _ => True⟩ w := by
  refine Prog.wp_perform_attempt_seq trivial fun r w' _ => ?_
  cases r <;> trivial

/-- **The rollback raises nothing.** -/
theorem rollbackLdapUser_returns (user : String) (groupCreated : Bool) (w : W) :
    (rollbackLdapUser user groupCreated).wp H ⟨fun _ _ => True, fun _ _ => False, fun _ => True⟩ w := by
  refine Prog.wp_perform_attempt_seq trivial fun r w₁ _ => ?_
  cases r with
  | error => trivial
  | ok =>
      have hgroup : (if groupCreated then rollbackDelete (groupIssue user) (groupDn user) else .ret [] :
          Cli (List String)).wp H ⟨fun _ _ => True, fun _ _ => False, fun _ => True⟩ w₁ := by
        split
        · exact rollbackDelete_returns H ..
        · trivial
      exact Prog.wp_seq hgroup fun _ w₂ _ => Prog.wp_seq (rollbackDelete_returns H _ _ w₂) fun _ _ _ => trivial

end

end OciHpc.ClusterCli
