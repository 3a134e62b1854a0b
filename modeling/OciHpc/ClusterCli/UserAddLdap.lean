import OciHpc.ClusterCli.UserAdd

/-!
# `cluster user add` and the LDAP directory

Every LDAP operation succeeds, returns failure or raises without effect; everything else answers as it likes.

* `ldapWorld` : the directory, and a record of the deletions the command makes to undo its entries;
* `createLdapUser_spec`, `rollbackLdapUser_spec` : what is left of the entries, and what is said about it;
* `allOrReported_iff_undoReported` : the command undoes or reports its entries exactly when no such deletion
  fails in silence;
* `silent_refusal` : a rollback deletion that returns failure leaves the entry, and no word of it.
-/

namespace OciHpc.ClusterCli.UserAddLdap

inductive UndoOutcome
  | deleted | refused | raised
  deriving DecidableEq, Repr

/-- A deletion that undoes an entry, or (`none`) the connection of the rollback that could not be made. -/
structure Undo where
  dn : Option String
  rollback : Bool
  outcome : UndoOutcome
  deriving DecidableEq, Repr

/-- How far the command is: it tried to store the routing; it stored it, or went on to the home directory; and
something other than a `NotificationError` was raised at it after the first. -/
structure Phase where
  storeTried : Bool
  routingDone : Bool
  foreign : Bool
  deriving DecidableEq, Repr

def Phase.start : Phase := ⟨false, false, false⟩

structure World where
  directory : Dict
  undo : List Undo
  phase : Phase
  deriving DecidableEq

def World.record (w : World) (dn : Option String) (outcome : UndoOutcome) : World :=
  { w with undo := w.undo ++ [⟨dn, w.phase.storeTried, outcome⟩] }

/-- Something other than a `NotificationError` was raised. -/
def isForeign {α : Type} : Except CliError α → Bool
  | .ok _ => false
  | .error e => !e.isNotification

/-- A call with no effect on the directory was answered. -/
def World.answered {α : Type} (w : World) (r : Except CliError α) : World :=
  { w with phase := { w.phase with foreign := w.phase.foreign || (w.phase.storeTried && isForeign r) } }

theorem World.answered_start {α : Type} {w : World} (h : w.phase = .start) (r : Except CliError α) :
    w.answered r = w := by
  obtain ⟨directory, undo, phase⟩ := w
  obtain rfl : phase = .start := h
  rfl

def ldapEntry (objectClasses : List String) (attributes : Dict) : Json :=
  .obj (("objectClass", .arr (objectClasses.map .str)) :: attributes)

def effect (w : World) : (call : CliCall) → Except CliError call.Ans → World → Prop
  | .ldap (.groupIdExists _), _, w' => w' = w
  | .ldap .connect, .ok _, w' => w' = w
  | .ldap .connect, .error _, w' => w' = if w.phase.storeTried then w.record none .raised else w
  | .ldap (.add dn objectClasses attributes), .ok reply, w' =>
      if reply.ok then Dict.get? w.directory dn = none ∧
        w' = { w with directory := Dict.set w.directory dn (ldapEntry objectClasses attributes) }
      else w' = w
  | .ldap (.add ..), .error _, w' => w' = w
  | .ldap (.delete dn), .ok reply, w' =>
      if reply.ok then Dict.get? w.directory dn ≠ none ∧
        w' = ({ w with directory := Dict.pop w.directory dn } : World).record (some dn) .deleted
      else w' = w.record (some dn) .refused
  | .ldap (.delete dn), .error _, w' => w' = w.record (some dn) .raised
  | .registry (.storeUserRouting ..), .ok _, w' =>
      w' = { w with phase := { w.phase with storeTried := true, routingDone := true } }
  | .registry (.storeUserRouting ..), .error e, w' =>
      -- all that `_store_user_routing` raises: see `storeUserRouting_isNotification`
      e.isNotification = true ∧ w' = { w with phase := { w.phase with storeTried := true } }
  | .host (.initializeUserHome ..), _, w' => w' = { w with phase := { w.phase with routingDone := true } }
  | _, r, w' => w' = w.answered r

/-- The outside of the command; what a call raises is no `ClickException`. -/
def ldapWorld : Handler cliSig CliError World := fun w call r w' =>
  (∀ e, r = .error e → e.isClick = false) ∧ effect w call r w'

/-! ## Entries left over -/

/-- `d'` is `d` with the entries `dns` besides, which `d` does not have. -/
def Leftover (d d' : Dict) (dns : List String) : Prop :=
  ∀ dn, (dn ∈ dns → Dict.get? d dn = none ∧ Dict.get? d' dn ≠ none) ∧
    (dn ∉ dns → Dict.get? d' dn = Dict.get? d dn)

theorem Leftover.refl (d : Dict) : Leftover d d [] := fun _ => ⟨by simp, fun _ => rfl⟩

theorem Leftover.add {d d' : Dict} {dns : List String} (h : Leftover d d' dns) {dn : String}
    (hnew : Dict.get? d' dn = none) (value : Json) : Leftover d (Dict.set d' dn value) (dn :: dns) := by
  have hold : Dict.get? d dn = none := by
    by_cases hm : dn ∈ dns
    · exact ((h dn).1 hm).1
    · rw [← (h dn).2 hm, hnew]
  intro dn'
  by_cases he : dn' = dn
  · subst he
    exact ⟨fun _ => ⟨hold, by simp⟩, fun hm => absurd List.mem_cons_self hm⟩
  · rw [Dict.get?_set_ne _ _ he]
    refine ⟨fun hm => (h dn').1 ((List.mem_cons.mp hm).resolve_left he), fun hm => (h dn').2 fun hm' => ?_⟩
    exact hm (List.mem_cons_of_mem _ hm')

theorem Leftover.delete {d d' : Dict} {dns : List String} (h : Leftover d d' dns) {dn : String}
    (hmem : dn ∈ dns) : Leftover d (Dict.pop d' dn) (dns.filter (· ≠ dn)) := by
  intro dn'
  by_cases he : dn' = dn
  · subst he
    exact ⟨by simp, fun _ => by rw [Dict.get?_pop_self, ((h dn').1 hmem).1]⟩
  · rw [Dict.get?_pop_ne _ he]
    simpa [he] using h dn'

theorem userDn_ne_groupDn (user : String) : userDn user ≠ groupDn user := by
  rw [Ne, ← String.toList_inj]
  simp [userDn, groupDn, peopleDn, groupsDn, String.toList_append]

/-! ## What is said -/

/-- The deletion of `dn` is named in the issues. -/
def Named (user : String) (issues : List String) (dn : String) : Prop :=
  (dn = userDn user ∧ ∃ text, userIssue user ++ text ∈ issues) ∨
    (dn = groupDn user ∧ ∃ text, groupIssue user ++ text ∈ issues) ∨ ∃ text, connectionIssue user ++ text ∈ issues

/-- The error of the command names the failed deletion of `dn` among its rollback issues. -/
def NamedIn (user : String) (error : CliError) (dn : String) : Prop :=
  ∃ summary issues, error = .click summary "rollback issues" issues ∧ Named user issues dn

/-- **Every entry the command created is deleted, or its failed deletion is named; the entries that were there
are unchanged.** -/
def AllOrReported (user : String) (d d' : Dict) (error : CliError) : Prop :=
  (∀ dn value, Dict.get? d dn = some value → Dict.get? d' dn = some value) ∧
    ∀ dn, Dict.get? d dn = none → Dict.get? d' dn ≠ none → NamedIn user error dn

/-- No deletion that undoes an entry fails in silence: each deletes, or raises in the rollback with nothing but
a `NotificationError` raised after it. -/
def UndoReported (w : World) : Prop :=
  ∀ u ∈ w.undo, u.outcome = .deleted ∨ (u.outcome = .raised ∧ u.rollback = true ∧ w.phase.foreign = false)

theorem allOrReported_iff {user : String} {d d' : Dict} {dns : List String} {error : CliError}
    (h : Leftover d d' dns) : AllOrReported user d d' error ↔ ∀ dn ∈ dns, NamedIn user error dn := by
  constructor
  · exact fun ⟨_, hn⟩ dn hm => hn dn ((h dn).1 hm).1 ((h dn).1 hm).2
  · refine fun hn => ⟨fun dn value hv => ?_, fun dn hnone hsome => ?_⟩
    · have hm : dn ∉ dns := fun hm => by rw [((h dn).1 hm).1] at hv; cases hv
      rw [(h dn).2 hm, hv]
    · by_cases hm : dn ∈ dns
      · exact hn dn hm
      · exact absurd ((h dn).2 hm ▸ hnone) hsome

/-! ## The LDAP programs -/

theorem wp_add {dn : String} {objectClasses : List String} {attributes : Dict} {action : String} {w : World}
    {Q : Post World CliError Unit} (hcut : Q.cut w)
    (hadd : Dict.get? w.directory dn = none →
      Q.ret () { w with directory := Dict.set w.directory dn (ldapEntry objectClasses attributes) })
    (hfail : ∀ e, Q.exc e w) :
    ((ldap (.add dn objectClasses attributes)).bind fun added =>
      .ofExcept (ensureLdapSuccess added action)).wp ldapWorld Q w := by
  refine Prog.wp_perform_seq hcut (fun reply w' hr => ?_) fun e w' hr => ?_
  · have heffect := hr.2
    dsimp only [effect] at heffect
    rw [Prog.wp_ofExcept, ensureLdapSuccess]
    split at heffect <;> rename_i hok
    · rw [if_pos hok, heffect.2]
      exact hadd heffect.1
    · rw [if_neg hok, heffect]
      exact hfail _
  · rw [show w' = w from hr.2]
    exact hfail e

/-- What a failed creation leaves: nothing, whatever undid it; or the user's entry, with a failed deletion. -/
def Undone (user : String) (d : Dict) (w : World) : Prop :=
  (Leftover d w.directory [] ∧ ∀ u ∈ w.undo, u.outcome = .deleted) ∨
    Leftover d w.directory [userDn user] ∧ ∃ u ∈ w.undo, u.outcome ≠ .deleted ∧ u.rollback = false

def createdDns (user : String) (groupCreated : Bool) : List String :=
  if groupCreated then [groupDn user, userDn user] else [userDn user]

def Created (user : String) (d : Dict) (groupCreated : Bool) (w : World) : Prop :=
  Leftover d w.directory (createdDns user groupCreated) ∧ w.undo = [] ∧ w.phase = .start

/-- The group's entry failed: the user's entry is deleted, or that fails too. -/
theorem wp_undoUser {user : String} {d : Dict} {w : World} (huser : Leftover d w.directory [userDn user])
    (hundo : w.undo = []) (hphase : w.phase = .start) (e : CliError) :
    ((ldap (.delete (userDn user))).bind fun _ => (.throw e : Cli Bool)).wp ldapWorld
      ⟨Created user d, fun _ w' => Undone user d w', fun _ => True⟩ w := by
  refine Prog.wp_perform_seq trivial (fun reply w' hr => ?_) fun e' w' hr => ?_
  · have heffect := hr.2
    dsimp only [effect] at heffect
    split at heffect
    · obtain ⟨_, rfl⟩ := heffect
      exact .inl ⟨by simpa [World.record] using huser.delete List.mem_cons_self, by simp [World.record, hundo]⟩
    · subst heffect
      exact .inr ⟨huser, by simp [World.record, hundo, hphase, Phase.start]⟩
  · obtain rfl : w' = _ := hr.2
    exact .inr ⟨huser, by simp [World.record, hundo, hphase, Phase.start]⟩

theorem createLdapUser_spec (user password : String) (uid gid : Json) (name : String) (email : Option String)
    (w : World) (hundo : w.undo = []) (hphase : w.phase = .start) :
    (createLdapUser user password uid gid name email).wp ldapWorld
      ⟨Created user w.directory, fun _ w' => Undone user w.directory w', fun _ => True⟩ w := by
  have hnothing : Undone user w.directory w := .inl ⟨Leftover.refl _, by simp [hundo]⟩
  refine Prog.wp_perform_seq trivial (fun gidExists w₁ h₁ => ?_) fun e w₁ h₁ => ?_
  · rw [show w₁ = w from h₁.2]
    refine Prog.wp_perform_seq trivial (fun _ w₂ h₂ => ?_) fun e w₂ h₂ => ?_
    · rw [show w₂ = w from h₂.2]
      refine Prog.wp_seq (R := fun _ w' => Leftover w.directory w'.directory [userDn user] ∧ w'.undo = [] ∧
        w'.phase = .start) ?_ fun _ w₃ h₃ => ?_
      · exact wp_add trivial (fun hnew => ⟨(Leftover.refl _).add hnew _, hundo, hphase⟩) fun _ => hnothing
      · obtain ⟨huser, hundo, hphase⟩ := h₃
        cases gidExists with
        | true => exact ⟨huser, hundo, hphase⟩
        | false =>
            refine Prog.wp_seq_attempt (R := fun _ w' => Created user w.directory true w')
              (E := fun _ w' => Leftover w.directory w'.directory [userDn user] ∧ w'.undo = [] ∧
                w'.phase = .start) ?_ (fun _ w' h => h) fun e w' h => wp_undoUser h.1 h.2.1 h.2.2 e
            refine Prog.wp_perform_seq trivial (fun _ w₄ h₄ => ?_) fun e w₄ h₄ => ?_
            · rw [show w₄ = w₃ from h₄.2.trans (World.answered_start hphase _)]
              exact wp_add trivial (fun hnew => ⟨huser.add hnew _, hundo, hphase⟩) fun _ => ⟨huser, hundo, hphase⟩
            · rw [show w₄ = w₃ from h₄.2.trans (World.answered_start hphase _)]
              exact ⟨huser, hundo, hphase⟩
    · have heffect := h₂.2
      dsimp only [effect] at heffect
      rw [heffect, if_neg (by simp [hphase, Phase.start])]
      exact hnothing
  · rw [show w₁ = w from h₁.2]
    exact hnothing

/-! ## The rollback -/

/-- What the rollback leaves, with `errors` of its own. -/
def RolledBack (user : String) (d : Dict) (errors : List String) (w : World) : Prop :=
  ∃ dns, Leftover d w.directory dns ∧ (∀ u ∈ w.undo, u.rollback = true) ∧
    (dns = [] ↔ ∀ u ∈ w.undo, u.outcome = .deleted) ∧
    ((∀ dn ∈ dns, Named user errors dn) ↔ ∀ u ∈ w.undo, u.outcome ≠ .refused)

def saidOf (issue : String) (outcome : UndoOutcome) (detail : String) : List String :=
  if outcome = .raised then [issue ++ detail] else []

def leftOf (dn : String) (outcome : UndoOutcome) (dns : List String) : List String :=
  if outcome = .deleted then dns.filter (· ≠ dn) else dns

theorem rollbackDelete_spec {d : Dict} {dns : List String} {dn : String} (issue : String)
    {w : World} (hleft : Leftover d w.directory dns) (hmem : dn ∈ dns) (htried : w.phase.storeTried = true) :
    (rollbackDelete issue dn).wp ldapWorld
      ⟨fun errors w' => ∃ outcome detail, errors = saidOf issue outcome detail ∧ w'.phase = w.phase ∧
          w'.undo = w.undo ++ [⟨some dn, true, outcome⟩] ∧ Leftover d w'.directory (leftOf dn outcome dns),
        fun _ _ => False, fun _ => True⟩ w := by
  refine Prog.wp_perform_attempt_seq trivial fun r w' hr => ?_
  have heffect := hr.2
  cases r with
  | ok reply =>
      dsimp only [effect] at heffect
      split at heffect
      · obtain ⟨_, rfl⟩ := heffect
        exact ⟨.deleted, "", rfl, rfl, by simp [World.record, htried], hleft.delete hmem⟩
      · subst heffect
        exact ⟨.refused, "", rfl, rfl, by simp [World.record, htried], hleft⟩
  | error e =>
      obtain rfl : w' = _ := heffect
      exact ⟨.raised, e.message, rfl, rfl, by simp [World.record, htried], hleft⟩

theorem userIssue_ne_groupIssue (user a b : String) : userIssue user ++ a ≠ groupIssue user ++ b := by
  unfold userIssue groupIssue
  simp only [String.append_assoc]
  exact PyStr.append_ne_append 6 _ _ (by decide) (by decide) (by decide)

theorem connectionIssue_ne_userIssue (user a b : String) : connectionIssue user ++ a ≠ userIssue user ++ b := by
  unfold connectionIssue userIssue
  simp only [String.append_assoc]
  exact PyStr.append_ne_append 6 _ _ (by decide) (by decide) (by decide)

theorem connectionIssue_ne_groupIssue (user a b : String) : connectionIssue user ++ a ≠ groupIssue user ++ b := by
  unfold connectionIssue groupIssue
  simp only [String.append_assoc]
  exact PyStr.append_ne_append 6 _ _ (by decide) (by decide) (by decide)

theorem named_said (user : String) (group user' : UndoOutcome) (groupDetail userDetail : String) (dn : String) :
    Named user (saidOf (groupIssue user) group groupDetail ++ saidOf (userIssue user) user' userDetail) dn ↔
      (dn = userDn user ∧ user' = .raised) ∨ (dn = groupDn user ∧ group = .raised) := by
  have hug := userIssue_ne_groupIssue user
  have hcu := connectionIssue_ne_userIssue user
  have hcg := connectionIssue_ne_groupIssue user
  have hgu := fun a b => (hug b a).symm
  by_cases hg : group = .raised <;> by_cases hu : user' = .raised <;>
    simp [Named, saidOf, hg, hu, hug, hgu, hcu, hcg]

/-- Both deletions of the rollback are made. -/
theorem rolledBack_of_deletions {user : String} {d : Dict} {group user' : UndoOutcome}
    {groupDetail userDetail : String} {w : World}
    (hleft : Leftover d w.directory (leftOf (userDn user) user' (leftOf (groupDn user) group
      [groupDn user, userDn user])))
    (hundo : w.undo = [⟨some (groupDn user), true, group⟩, ⟨some (userDn user), true, user'⟩]) :
    RolledBack user d (saidOf (groupIssue user) group groupDetail ++ saidOf (userIssue user) user' userDetail) w := by
  have hne := userDn_ne_groupDn user
  refine ⟨_, hleft, by simp [hundo], ?_, ?_⟩
  · cases group <;> cases user' <;> simp [leftOf, hundo, List.filter, hne, hne.symm]
  · simp only [named_said, hundo]
    cases group <;> cases user' <;> simp [leftOf, hne, hne.symm]
    exact ⟨userDn user, fun _ => rfl⟩

theorem rolledBack_of_deletion {user : String} {d : Dict} {outcome : UndoOutcome} {detail : String} {w : World}
    (hleft : Leftover d w.directory (leftOf (userDn user) outcome [userDn user]))
    (hundo : w.undo = [⟨some (userDn user), true, outcome⟩]) :
    RolledBack user d (saidOf (userIssue user) outcome detail) w := by
  have hsaid := named_said user .deleted outcome "" detail
  refine ⟨_, hleft, by simp [hundo], ?_, ?_⟩
  · cases outcome <;> simp [leftOf, hundo]
  · rw [show saidOf (groupIssue user) .deleted "" = [] from rfl, List.nil_append] at hsaid
    simp only [hsaid, hundo]
    cases outcome <;> simp [leftOf]

/-- **The rollback**: it deletes, or says that it raised; of a deletion that returns failure it says nothing. -/
theorem rollbackLdapUser_spec {user : String} {d : Dict} {groupCreated : Bool} {w : World}
    (hleft : Leftover d w.directory (createdDns user groupCreated)) (hundo : w.undo = [])
    (htried : w.phase.storeTried = true) :
    (rollbackLdapUser user groupCreated).wp ldapWorld
      ⟨fun errors w' => w'.phase = w.phase ∧ RolledBack user d errors w', fun _ _ => False, fun _ => True⟩ w := by
  refine Prog.wp_perform_attempt_seq trivial fun r w₁ h₁ => ?_
  have heffect := h₁.2
  cases r with
  | error e =>
      obtain rfl : w₁ = w.record none .raised := by simpa [effect, htried] using heffect
      refine ⟨rfl, createdDns user groupCreated, hleft, ?_, ?_, ?_⟩
      · simp [World.record, hundo, htried]
      · cases groupCreated <;> simp [World.record, hundo, createdDns]
      · simp [World.record, hundo, Named]
  | ok =>
      obtain rfl : w₁ = w := heffect
      cases groupCreated with
      | false =>
          refine Prog.wp_seq (p := .ret []) (R := fun errors w' => errors = [] ∧ w' = w₁) ⟨rfl, rfl⟩ ?_
          rintro _ _ ⟨rfl, rfl⟩
          refine Prog.wp_seq (rollbackDelete_spec (userIssue user) hleft List.mem_cons_self htried) ?_
          rintro _ w₂ ⟨outcome, detail, rfl, hphase, hundo₂, hleft₂⟩
          exact ⟨hphase, rolledBack_of_deletion hleft₂ (by rw [hundo₂, hundo]; rfl)⟩
      | true =>
          refine Prog.wp_seq (rollbackDelete_spec (groupIssue user) hleft List.mem_cons_self htried) ?_
          rintro _ w₂ ⟨group, groupDetail, rfl, hphase₂, hundo₂, hleft₂⟩
          have hmem : userDn user ∈ leftOf (groupDn user) group [groupDn user, userDn user] := by
            cases group <;> simp [leftOf, userDn_ne_groupDn]
          refine Prog.wp_seq (rollbackDelete_spec (userIssue user) hleft₂ hmem (hphase₂ ▸ htried)) ?_
          rintro _ w₃ ⟨user', userDetail, rfl, hphase₃, hundo₃, hleft₃⟩
          exact ⟨hphase₃.trans hphase₂, rolledBack_of_deletions hleft₃ (by rw [hundo₃, hundo₂, hundo]; rfl)⟩

/-! ## Calls without effect on the directory -/

def isQuiet : CliCall → Bool
  | .ldap _ | .registry (.storeUserRouting ..) | .host (.initializeUserHome ..) => false
  | _ => true

theorem effect_quiet {w w' : World} {call : CliCall} {r : Except CliError call.Ans} (hquiet : isQuiet call = true)
    (h : effect w call r w') : w' = w.answered r := by
  cases call with
  | oci command => exact h
  | ldap call => cases hquiet
  | registry call =>
      cases call with
      | storeUserRouting => cases hquiet
      | _ => exact h
  | host call =>
      cases call with
      | initializeUserHome => cases hquiet
      | _ => exact h

/-- Before anything was stored, quiet calls change nothing. -/
theorem keeps_of_quiet {α : Type} {p : Cli α} (hp : p.Calls (isQuiet · = true)) {w₀ : World}
    (hphase : w₀.phase = .start) : p.Keeps ldapWorld (· = w₀) := by
  refine Prog.keeps_of_calls hp fun w call r w' hquiet hw hr => ?_
  rw [effect_quiet hquiet hr.2, hw, World.answered_start hphase]

theorem quiet_addRouting (sha256Hex : String → String) (user : String) (registry : Registry)
    (config : Option Dict) (email : Option String) :
    (addRouting sha256Hex user registry config email).Calls (isQuiet · = true) := by
  unfold addRouting
  split
  · split
    · trivial
    · exact (calls_orClick (calls_createNotificationResources (P := (isQuiet · = true)) (fun _ => rfl) rfl rfl
        (fun _ _ _ => rfl) ..)).bind fun _ => trivial
  · trivial

/-- The routing entry, before anything was stored. -/
theorem addRouting_spec (sha256Hex : String → String) (user : String) (registry : Registry) (config : Option Dict)
    (email : Option String) {w : World} (hphase : w.phase = .start) :
    (addRouting sha256Hex user registry config email).wp ldapWorld
      ⟨fun routing w' => (∀ config entry, routing = some (config, entry) →
          CommandFields config ∧ StringIdentifiers entry) ∧ w' = w, fun _ w' => w' = w, fun _ => True⟩ w := by
  have hkeeps := keeps_of_quiet (quiet_addRouting sha256Hex user registry config email) hphase
  refine Prog.wp_mono (Prog.wp_and_keeps (Q := ⟨fun routing _ => ∀ config entry,
    routing = some (config, entry) → CommandFields config ∧ StringIdentifiers entry, fun _ _ => True,
    fun _ => True⟩) hkeeps rfl ?_) (fun _ _ h => h) (fun _ _ h => h.2) fun _ _ => trivial
  cases config with
  | none => exact nofun
  | some config =>
      cases email with
      | none => exact nofun
      | some email =>
          unfold addRouting
          dsimp only
          split
          · trivial
          · refine Prog.wp_seq (wp_exceptNotification (E := fun _ _ => True)
              (createNotificationResources_fields sha256Hex config user email w) (fun _ _ _ _ => trivial)
              fun _ _ _ _ => trivial) ?_
            rintro entry _ hfields _ _ ⟨⟩
            exact hfields

/-! ## A cleanup after the LDAP entries -/

def IsLdapIssue (issue : String) : Prop := ∃ rest, issue = "LDAP " ++ rest

theorem isLdapIssue_userIssue (user text : String) : IsLdapIssue (userIssue user ++ text) :=
  ⟨"user '" ++ user ++ "': " ++ text, by
    unfold userIssue
    rw [show "LDAP user '" = "LDAP " ++ "user '" by decide +kernel]
    simp only [String.append_assoc]⟩

theorem isLdapIssue_groupIssue (user text : String) : IsLdapIssue (groupIssue user ++ text) :=
  ⟨"group '" ++ user ++ "': " ++ text, by
    unfold groupIssue
    rw [show "LDAP group '" = "LDAP " ++ "group '" by decide +kernel]
    simp only [String.append_assoc]⟩

theorem isLdapIssue_connectionIssue (user text : String) : IsLdapIssue (connectionIssue user ++ text) :=
  ⟨"rollback connection for '" ++ user ++ "': " ++ text, by
    unfold connectionIssue
    rw [show "LDAP rollback connection for '" = "LDAP " ++ "rollback connection for '" by decide +kernel]
    simp only [String.append_assoc]⟩

theorem not_isLdapIssue_resource {issue : String} (h : IsResourceIssue issue) : ¬ IsLdapIssue issue := by
  obtain ⟨type, rest, rfl⟩ := h
  rintro ⟨rest', h⟩
  rw [String.append_assoc] at h
  cases type
  · exact PyStr.append_ne_append 1 _ _ (by decide) (by decide) (by decide) h
  · exact PyStr.append_ne_append 1 _ _ (by decide) (by decide) (by decide) h

theorem not_isLdapIssue_record (message : String) :
    ¬ IsLdapIssue ("could not record pending cleanup: " ++ message) := fun ⟨_, h⟩ =>
  PyStr.append_ne_append 1 _ _ (by decide) (by decide) (by decide) h

theorem named_append {user : String} {errors cleanupErrors : List String} {dn : String}
    (h : ∀ issue ∈ cleanupErrors, ¬ IsLdapIssue issue) :
    Named user (errors ++ cleanupErrors) dn ↔ Named user errors dn := by
  have hmem : ∀ issue, IsLdapIssue issue → (issue ∈ errors ++ cleanupErrors ↔ issue ∈ errors) :=
    fun issue hissue => by simpa using fun hm => absurd hissue (h issue hm)
  simp only [Named, hmem _ (isLdapIssue_userIssue user _), hmem _ (isLdapIssue_groupIssue user _),
    hmem _ (isLdapIssue_connectionIssue user _)]

/-- Something other than a `NotificationError` ended a cleanup. -/
def CutShort (w : World) (e : CliError) (w' : World) : Prop :=
  e.isClick = false ∧ w'.directory = w.directory ∧ w'.undo = w.undo ∧
    (w.phase.storeTried = true → w'.phase.foreign = true)

theorem answered_eq_self {α : Type} {w : World} {r : Except CliError α} (h : isForeign r = false) :
    w.answered r = w := by
  simp [World.answered, h]

theorem cutShort_answered {α : Type} (w : World) {e : CliError} (hclick : e.isClick = false)
    (he : e.isNotification = false) : CutShort w e (w.answered (.error e : Except CliError α)) :=
  ⟨hclick, rfl, rfl, fun htried => by simp [World.answered, isForeign, htried, he]⟩

theorem deleteOrRecord_spec {config entry : Dict} (hconfig : CommandFields config)
    (hentry : StringIdentifiers entry) (user : String) (w : World) :
    (deleteOrRecord config user entry).wp ldapWorld
      ⟨fun issues w' => w' = w ∧ ∀ issue ∈ issues, ¬ IsLdapIssue issue, CutShort w, fun _ => True⟩ w := by
  have hkeeps : KeepsUnless (ociOutside ldapWorld) (· = w) (CutShort w) := by
    intro w₀ command r w' hw₀ hr
    rw [@effect_quiet _ _ (.oci command) _ rfl hr.2, show w₀ = w from hw₀]
    cases r with
    | ok => exact answered_eq_self rfl
    | error e =>
        dsimp only
        split
        · exact answered_eq_self (by simpa [isForeign])
        · exact cutShort_answered w (hr.1 e rfl) (by simpa using ‹¬ e.isNotification = true›)
  refine Prog.wp_seq ((wp_oci _ _ w).mpr (deleteNotificationResources_raises hkeeps hconfig hentry rfl)) ?_
  rintro ⟨cleanupErrors, remaining⟩ w₁ ⟨hw₁, hissues⟩
  rw [hw₁]
  have hissues' : ∀ issue ∈ cleanupErrors, ¬ IsLdapIssue issue := fun issue hm =>
    not_isLdapIssue_resource (hissues issue hm)
  dsimp only
  split
  · exact ⟨rfl, by simp⟩
  · refine wp_exceptNotification (E := fun e w' => if e.isNotification then w' = w else CutShort w e w') ?_ ?_ ?_
    · refine Prog.wp_seq (R := fun _ w' => w' = w) ?_ fun _ w' hw' => ⟨hw', hissues'⟩
      unfold recordCleanup
      split
      · rfl
      · refine (Prog.wp_perform (S := cliSig) _ _ _).mpr ⟨trivial, fun _ w' hr => ?_, fun e w' hr => ?_⟩
        · exact (effect_quiet rfl hr.2).trans (answered_eq_self rfl)
        · rw [effect_quiet rfl hr.2]
          dsimp only
          split
          · exact answered_eq_self (by simpa [isForeign])
          · exact cutShort_answered w (hr.1 e rfl) (by simpa using ‹¬ e.isNotification = true›)
    · intro e w' hw' he
      rw [if_pos he] at hw'
      refine ⟨hw', fun issue hm => ?_⟩
      rcases List.mem_append.mp hm with hm | hm
      · exact hissues' issue hm
      · rw [List.mem_singleton.mp hm]
        exact not_isLdapIssue_record _
    · intro e w' hw' he
      rwa [if_neg (by simp [he])] at hw'

/-! ## The command -/

theorem undoReported_iff_of_not_foreign {w : World} (hroll : ∀ u ∈ w.undo, u.rollback = true)
    (hforeign : w.phase.foreign = false) : UndoReported w ↔ ∀ u ∈ w.undo, u.outcome ≠ .refused := by
  refine forall₂_congr fun u hu => ?_
  rw [hroll u hu, hforeign]
  cases u.outcome <;> simp

theorem undoReported_iff_of_foreign {w : World} (hforeign : w.phase.foreign = true) :
    UndoReported w ↔ ∀ u ∈ w.undo, u.outcome = .deleted := by
  simp [UndoReported, hforeign]

theorem not_namedIn_of_not_click {user : String} {e : CliError} (h : e.isClick = false) (dn : String) :
    ¬ NamedIn user e dn := by
  rintro ⟨_, _, rfl, _⟩
  cases h

theorem not_namedIn_ociCleanup {user summary : String} {issues : List String} (dn : String) :
    ¬ NamedIn user (.click summary "OCI cleanup failed" issues) dn := by
  rintro ⟨_, _, h, _⟩
  exact absurd (CliError.click.inj h).2.1 (by decide)

theorem namedIn_rollback {user summary dn : String} {issues : List String} :
    NamedIn user (.click summary "rollback issues" issues) dn ↔ Named user issues dn :=
  ⟨fun ⟨_, _, h, hn⟩ => by cases h; exact hn, fun h => ⟨_, _, rfl, h⟩⟩

theorem reported_of_nothing {user : String} {w : World} (hundo : w.undo = []) (e : CliError) :
    AllOrReported user w.directory w.directory e ↔ UndoReported w := by
  rw [allOrReported_iff (Leftover.refl _)]
  simp [UndoReported, hundo]

/-- A failed creation is never named. -/
theorem reported_of_undone {user : String} {d : Dict} {w : World} {e : CliError} (h : Undone user d w)
    (he : ∀ dn, ¬ NamedIn user e dn) : AllOrReported user d w.directory e ↔ UndoReported w := by
  rcases h with ⟨hleft, hdeleted⟩ | ⟨hleft, u, hu, hout, hroll⟩
  · rw [allOrReported_iff hleft]
    exact ⟨fun _ u hu => .inl (hdeleted u hu), fun _ => nofun⟩
  · rw [allOrReported_iff hleft]
    refine ⟨fun hn => absurd (hn _ List.mem_cons_self) (he _), fun hr => ?_⟩
    rcases hr u hu with h | ⟨_, h, _⟩
    · exact absurd h hout
    · rw [hroll] at h
      cases h

theorem addLdap_spec (options : AddOptions) (uid gid : Json) (email : Option String)
    {routing : Option (Dict × Dict)} (hrouting : ∀ config entry, routing = some (config, entry) →
      CommandFields config ∧ StringIdentifiers entry) {w : World} (hundo : w.undo = [])
    (hphase : w.phase = .start) :
    (addLdap options uid gid email routing).wp ldapWorld
      ⟨Created options.user w.directory,
        fun e w' => AllOrReported options.user w.directory w'.directory e ↔ UndoReported w', fun _ => True⟩ w := by
  unfold addLdap
  rw [Prog.wp_tryCatch]
  refine Prog.wp_mono (createLdapUser_spec options.user options.password uid gid options.name email w hundo hphase)
    (fun _ _ h => h) (fun error w₁ hundone => ?_) fun _ _ => trivial
  cases routing with
  | none => exact reported_of_undone hundone not_namedIn_ociCleanup
  | some routing =>
      obtain ⟨hconfig, hentry⟩ := hrouting routing.1 routing.2 rfl
      dsimp only
      rw [Prog.wp_bind]
      refine Prog.wp_mono (deleteOrRecord_spec hconfig hentry options.user w₁) ?_ ?_ fun _ _ => trivial
      · rintro issues _ ⟨rfl, _⟩
        exact reported_of_undone hundone not_namedIn_ociCleanup
      · rintro e w₂ ⟨hclick, hdirectory, hundo₂, _⟩
        refine reported_of_undone ?_ (not_namedIn_of_not_click hclick)
        rwa [Undone, hdirectory, hundo₂]

theorem addStore_spec {user : String} {groupCreated : Bool} {config entry : Dict} (hconfig : CommandFields config)
    (hentry : StringIdentifiers entry) {d : Dict} {w : World} (hcreated : Created user d groupCreated w) :
    (addStore user groupCreated config entry).wp ldapWorld
      ⟨fun _ w' => w'.phase.routingDone = true,
        fun e w' => AllOrReported user d w'.directory e ↔ UndoReported w', fun _ => True⟩ w := by
  obtain ⟨hleft, hundo, hphase⟩ := hcreated
  refine wp_exceptNotification (E := fun e w' => e.isNotification = true ∧
    w' = { w with phase := { w.phase with storeTried := true } }) ?_ ?_ ?_
  · refine (Prog.wp_perform (S := cliSig) _ _ _).mpr ⟨trivial, fun _ w' hr => ?_, fun e w' hr => hr.2⟩
    rw [show w' = _ from hr.2]
  · rintro error _ ⟨_, rfl⟩ _
    refine Prog.wp_seq (Prog.wp_mono (rollbackLdapUser_spec hleft hundo rfl) (fun _ _ h => h)
      (fun _ _ h => h.elim) fun _ _ => trivial) ?_
    rintro rollbackErrors w₁ ⟨hphase₁, dns, hleft₁, hroll, hnil, hnamed⟩
    have htried : w₁.phase.storeTried = true := by rw [hphase₁]
    have hforeign : w₁.phase.foreign = false := by rw [hphase₁, hphase]; rfl
    rw [Prog.wp_bind]
    refine Prog.wp_mono (deleteOrRecord_spec hconfig hentry user w₁) ?_ ?_ fun _ _ => trivial
    · rintro cleanupErrors w₂ ⟨hw₂, hcleanup⟩
      obtain rfl : w₁ = w₂ := hw₂.symm
      calc AllOrReported user d w₁.directory _
          ↔ ∀ dn ∈ dns, Named user rollbackErrors dn := by
            simp only [allOrReported_iff hleft₁, namedIn_rollback, named_append hcleanup]
        _ ↔ ∀ u ∈ w₁.undo, u.outcome ≠ .refused := hnamed
        _ ↔ UndoReported w₁ := (undoReported_iff_of_not_foreign hroll hforeign).symm
    · rintro e w₂ ⟨hclick, hdirectory, hundo₂, hforeign₂⟩
      have hnone : (∀ dn ∈ dns, NamedIn user e dn) ↔ dns = [] := by
        simp [not_namedIn_of_not_click hclick, List.eq_nil_iff_forall_not_mem]
      dsimp only
      rw [hdirectory, allOrReported_iff hleft₁, hnone, hnil, undoReported_iff_of_foreign (hforeign₂ htried), hundo₂]
  · rintro e w' ⟨he, _⟩ hne
    rw [he] at hne
    cases hne

theorem keeps_routingDone {α : Type} (p : Cli α) : p.Keeps ldapWorld (·.phase.routingDone = true) := by
  refine Prog.keeps_of_calls (Prog.calls_true p) fun w call r w' _ hw hr => ?_
  have heffect := hr.2
  cases hquiet : isQuiet call with
  | true => rwa [effect_quiet hquiet heffect]
  | false =>
      cases call with
      | oci => cases hquiet
      | ldap call => cases call <;> cases r <;> grind [effect, World.record]
      | registry call => cases call <;> cases r <;> grind [effect, isQuiet]
      | host call => cases call <;> grind [effect, isQuiet]

theorem addFinish_spec (options : AddOptions) (email : Option String) (routed : Bool) {w : World}
    (hw : routed = true → w.phase.routingDone = true) :
    (addFinish options email routed).wp ldapWorld
      ⟨fun _ _ => True, fun _ w' => w'.phase.routingDone = true, fun _ => True⟩ w := by
  cases routed with
  | true => exact Prog.wp_mono (keeps_routingDone _ w (hw rfl)) (fun _ _ _ => trivial) (fun _ _ h => h) fun _ _ => trivial
  | false =>
      refine Prog.wp_perform_seq trivial (fun _ w' hr => ?_) fun _ w' hr => ?_
      · refine Prog.wp_mono (keeps_routingDone _ w' ?_) (fun _ _ _ => trivial) (fun _ _ h => h) fun _ _ => trivial
        rw [show w' = _ from hr.2]
      · rw [show w' = _ from hr.2]

/-! ### A refused group -/

def alice : AddOptions := ⟨"alice", "secret", "Alice", some "2001", some "2001", none, false⟩

def aliceEntry : Json :=
  ldapEntry ["inetOrgPerson", "posixAccount", "top", "shadowAccount"]
    (userAttributes "alice" "secret" (.str "2001") (.str "2001") "Alice" none)

/-- The directory with the user's entry, when the server refuses the group's. -/
def userAdded : World := ⟨[(userDn "alice", aliceEntry)], [], .start⟩

theorem exec_groupRefused (reply : LdapReply) {w : World}
    (hdelete : ldapWorld userAdded (.ldap (.delete (userDn "alice"))) (.ok reply) w) :
    Exec ldapWorld (add id alice) ⟨[], [], .start⟩ (.raised (.click
      "Unable to create LDAP user 'alice': LDAP group 'alice' creation failed: unwillingToPerform"
      "OCI cleanup failed" [])) w := by
  have huser : ldapWorld ⟨[], [], .start⟩ (.ldap (.add (userDn "alice")
      ["inetOrgPerson", "posixAccount", "top", "shadowAccount"]
      (userAttributes "alice" "secret" (.str "2001") (.str "2001") "Alice" none)))
      (.ok (⟨true, 0, ""⟩ : LdapReply)) userAdded := ⟨nofun, rfl, rfl⟩
  have hgroup : ldapWorld userAdded (.ldap (.add (groupDn "alice") ["top", "groupOfMembers", "posixgroup"]
      [("cn", .arr [.str "alice"]), ("gidNumber", .arr [.str "2001"])]))
      (.ok (⟨false, 53, "unwillingToPerform"⟩ : LdapReply)) userAdded := ⟨nofun, rfl⟩
  refine .call (r := .ok emptyNotificationRegistry) ⟨nofun, rfl⟩ ?_
  refine .call (r := .ok (by exact false)) ⟨nofun, rfl⟩ ?_
  refine .call (r := .ok (by exact ())) ⟨nofun, rfl⟩ ?_
  refine .call huser ?_
  refine .call (r := .ok (by exact ())) ⟨nofun, rfl⟩ ?_
  refine .call hgroup ?_
  exact .call hdelete .throw

/-- **The command undoes or reports its LDAP entries exactly when no deletion that undoes one fails in
silence.** -/
theorem allOrReported_iff_undoReported (sha256Hex : String → String) (options : AddOptions) {w w' : World}
    {e : CliError} (hundo : w.undo = []) (hphase : w.phase = .start)
    (hexec : Exec ldapWorld (add sha256Hex options) w (.raised e) w') (hbefore : w'.phase.routingDone = false) :
    AllOrReported options.user w.directory w'.directory e ↔ UndoReported w' := by
  have hnothing : ∀ e' w₁, w₁ = w → w₁.phase.routingDone = false →
      (AllOrReported options.user w.directory w₁.directory e' ↔ UndoReported w₁) := by
    rintro e' _ rfl _
    exact reported_of_nothing hundo e'
  have hquiet : ∀ {α : Type} {p : Cli α}, p.Calls (isQuiet · = true) → p.wp ldapWorld ⟨fun _ w₁ => w₁ = w,
      fun e' w₁ => w₁.phase.routingDone = false →
        (AllOrReported options.user w.directory w₁.directory e' ↔ UndoReported w₁), fun _ => True⟩ w :=
    fun hp => Prog.wp_mono (keeps_of_quiet hp hphase w rfl) (fun _ _ h => h) hnothing fun _ _ => trivial
  refine Exec.of_wp (Q := ⟨fun _ _ => True, fun e' w₁ => w₁.phase.routingDone = false →
    (AllOrReported options.user w.directory w₁.directory e' ↔ UndoReported w₁), fun _ => True⟩) hexec ?_ hbefore
  refine Prog.wp_seq (hquiet (calls_addChecks (P := (isQuiet · = true)) rfl (fun _ => rfl) options)) ?_
  rintro ⟨registry, config, email⟩ w₁ hw₁
  rw [hw₁]
  refine Prog.wp_seq (hquiet (calls_idOr (P := (isQuiet · = true)) _ (calls_call rfl))) fun uid w₂ hw₂ => ?_
  rw [hw₂]
  refine Prog.wp_seq (hquiet (calls_idOr (P := (isQuiet · = true)) _ (calls_call rfl))) fun gid w₃ hw₃ => ?_
  rw [hw₃]
  refine Prog.wp_seq (Prog.wp_mono (addRouting_spec sha256Hex options.user registry config email hphase)
    (fun _ _ h => h) hnothing fun _ _ => trivial) ?_
  rintro routing w₄ ⟨hrouting, hw₄⟩
  rw [hw₄]
  refine Prog.wp_seq (Prog.wp_mono (addLdap_spec options uid gid email hrouting hundo hphase) (fun _ _ h => h)
    (fun _ _ h _ => h) fun _ _ => trivial) fun groupCreated w₅ hcreated => ?_
  have hfinish : ∀ w₆ : World, (routing.isSome = true → w₆.phase.routingDone = true) →
      (addFinish options email routing.isSome).wp ldapWorld ⟨fun _ _ => True,
        fun e' w₇ => w₇.phase.routingDone = false →
          (AllOrReported options.user w.directory w₇.directory e' ↔ UndoReported w₇), fun _ => True⟩ w₆ := by
    refine fun w₆ hw₆ => Prog.wp_mono (addFinish_spec options email routing.isSome hw₆) (fun _ _ h => h) ?_
      fun _ _ => trivial
    intro _ _ hdone hnot
    rw [hdone] at hnot
    cases hnot
  cases routing with
  | none => exact hfinish w₅ nofun
  | some routing =>
      obtain ⟨hconfig, hentry⟩ := hrouting routing.1 routing.2 rfl
      exact Prog.wp_seq (Prog.wp_mono (addStore_spec hconfig hentry hcreated) (fun _ _ h => h)
        (fun _ _ h _ => h) fun _ _ => trivial) fun _ w₆ hw₆ => hfinish w₆ fun _ => hw₆

/-- The group's creation is refused, and the deletion of the user's entry succeeds. -/
theorem allOrReported_iff_undoReported_deleted : ∃ w e,
    Exec ldapWorld (add id alice) ⟨[], [], .start⟩ (.raised e) w ∧ AllOrReported "alice" [] w.directory e := by
  have hexec := exec_groupRefused ⟨true, 0, ""⟩
    (w := ⟨[], [⟨some (userDn "alice"), false, .deleted⟩], .start⟩) ⟨nofun, by decide, rfl⟩
  refine ⟨_, _, hexec, (allOrReported_iff_undoReported id alice rfl rfl hexec rfl).mpr fun u hu => .inl ?_⟩
  rw [List.mem_singleton.mp hu]

/-- **A silent refusal**: the deletion that undoes the user's entry returns failure; the entry stays, and the
error does not say so. -/
theorem silent_refusal : ∃ w e, Exec ldapWorld (add id alice) ⟨[], [], .start⟩ (.raised e) w ∧
    w.phase.routingDone = false ∧ ¬ AllOrReported "alice" [] w.directory e := by
  refine ⟨userAdded.record (some (userDn "alice")) .refused, _,
    exec_groupRefused ⟨false, 53, "unwillingToPerform"⟩ ⟨nofun, rfl⟩, rfl, fun h => ?_⟩
  exact not_namedIn_ociCleanup (userDn "alice") (h.2 (userDn "alice") rfl (by decide))

end OciHpc.ClusterCli.UserAddLdap
