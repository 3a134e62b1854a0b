import OciHpc.Base.Concurrent
import OciHpc.Base.PyText
import OciHpc.ClusterCli.UserAdd

/-!
# The user identifiers of new users

`cluster user add` without `--uid` asks for the next free identifier in one connection and uses it in another.

* `nextUid` : what `find_next_uid` makes of the entries it finds;
* `Numbering` : the user entries, and which runs were overtaken since they asked;
* `UsesFound` : a program whose new user entries carry the number of a search made for them;
* `uidNumbers_distinct` : identifiers stay distinct in every run where no addition was overtaken.
-/

namespace OciHpc.ClusterCli.UidNumbers
open Interleave

/-! ## The next identifier -/

/-- `find_next_uid`, of the identifiers of the entries under `people_dn` that have one. -/
def nextUid (uidNumbers : List Int) : Int :=
  uidNumbers.foldl (fun base uid => if uid > base then uid else base) (if uidNumbers.isEmpty then 10000 else 10005) + 1

theorem le_foldl_max (uidNumbers : List Int) (base : Int) :
    base ≤ uidNumbers.foldl (fun base uid => if uid > base then uid else base) base ∧
      ∀ uid ∈ uidNumbers, uid ≤ uidNumbers.foldl (fun base uid => if uid > base then uid else base) base := by
  induction uidNumbers generalizing base with
  | nil => exact ⟨Int.le_refl base, fun uid hmem => absurd hmem List.not_mem_nil⟩
  | cons first rest ih =>
      have hmax : base ≤ (if first > base then first else base) ∧ first ≤ (if first > base then first else base) := by
        split <;> omega
      obtain ⟨hbase, hrest⟩ := ih (if first > base then first else base)
      rw [List.foldl_cons]
      refine ⟨Int.le_trans hmax.1 hbase, fun uid hmem => ?_⟩
      rcases List.mem_cons.mp hmem with rfl | hmem
      · exact Int.le_trans hmax.2 hbase
      · exact hrest uid hmem

theorem lt_nextUid {uidNumbers : List Int} {uid : Int} (h : uid ∈ uidNumbers) : uid < nextUid uidNumbers :=
  Int.lt_add_one_of_le ((le_foldl_max uidNumbers _).2 uid h)

/-! ## The directory -/

/-- The identifier of an entry with these attributes. -/
def uidNumber (attributes : Dict) : Option Int :=
  match Dict.get? attributes "uidNumber" with
  | some (.int n) => some n
  | some (.str s) => PyStr.int s.toList
  | _ => none

def addsUser : CliCall → Bool
  | .ldap (.add _ _ attributes) => (uidNumber attributes).isSome
  | _ => false

/-- The entries that have an identifier, and the runs that another run has overtaken: it added a user entry after they
asked for an identifier. -/
structure Numbering (ι : Type) where
  users : List (String × Int)
  overtaken : ι → Bool

variable {ι : Type} [DecidableEq ι]

/-- The outside as run `i` sees it. What a failed connection or a refused call answers is not told. -/
def numbering (i : ι) : Handler cliSig CliError (Numbering ι)
  | w, .host .findNextUid, r, w' =>
      (∃ e, r = .error e ∧ w' = w) ∨
        r = .ok (nextUid (w.users.map (·.2))) ∧ w' = { w with overtaken := Function.update w.overtaken i false }
  | w, .ldap (.add dn _ attributes), r, w' =>
      match uidNumber attributes with
      | none => w' = w
      | some uid =>
          (w' = w ∧ ∀ reply, r = .ok reply → reply.ok = false) ∨
            dn ∉ w.users.map (·.1) ∧ w' = ⟨(dn, uid) :: w.users, fun j => decide (j ≠ i) || w.overtaken j⟩
  | w, .ldap (.delete dn), _, w' => w' = w ∨ w' = { w with users := w.users.filter (·.1 ≠ dn) }
  | w, _, _, w' => w' = w

/-- No run adds a user entry after another did since it asked. -/
def NotOvertaken (w : Numbering ι) (i : ι) (call : CliCall) : Prop := addsUser call = true → w.overtaken i = false

def runsOf (sha256Hex : String → String) (users : List (String × Int)) (options : ι → AddOptions) :
    Config ι (Numbering ι) (Cli Unit) :=
  ⟨⟨users, fun _ => false⟩, fun i => add sha256Hex (options i)⟩

/-- The identifiers of the user entries are distinct. -/
def Numbering.Distinct (w : Numbering ι) : Prop := (w.users.map (·.2)).Nodup

/-! ## A run uses what it found -/

/-- The number a run found and has not used yet, and whether every user entry added so far carried such a number. -/
structure Search where
  found : Option Int
  faithful : Prop

def searching : Handler cliSig CliError Search
  | w, .host .findNextUid, .ok n, w' => w' = { w with found := some n }
  | w, .ldap (.add _ _ attributes), _, w' =>
      w' = if (uidNumber attributes).isSome then ⟨none, w.faithful ∧ w.found = uidNumber attributes⟩ else w
  | w, _, _, w' => w' = w

/-- The program adds user entries only with a number it has found for them. -/
def UsesFound {α : Type} (p : Cli α) (found : Option Int) : Prop :=
  p.wp searching ⟨fun _ w => w.faithful, fun _ w => w.faithful, fun w => w.faithful⟩ ⟨found, True⟩

theorem faithful_of_wp {α : Type} {p : Cli α} {w : Search}
    (h : p.wp searching ⟨fun _ w => w.faithful, fun _ w => w.faithful, fun w => w.faithful⟩ w) : w.faithful := by
  cases p with
  | ret a => exact h
  | throw e => exact h
  | call o k => exact h.1

theorem UsesFound.step {α : Type} {call : CliCall} {k : Except CliError call.Ans → Cli α} {found : Option Int}
    (h : UsesFound (.call call k) found) (r : Except CliError call.Ans) {v : Search}
    (hstep : searching ⟨found, True⟩ call r v) : v.faithful ∧ UsesFound (k r) v.found := by
  have hnext := h.2 r v hstep
  have hfaithful := faithful_of_wp hnext
  obtain ⟨found', faithful'⟩ := v
  obtain rfl : faithful' = True := eq_true hfaithful
  exact ⟨trivial, hnext⟩

def isOther : CliCall → Bool
  | .host .findNextUid => false
  | call => !addsUser call

theorem searching_other {w w' : Search} {call : CliCall} {r : Except CliError call.Ans} (hother : isOther call = true)
    (h : searching w call r w') : w' = w := by
  cases call with
  | oci command => exact h
  | registry call => exact h
  | host call =>
      cases call with
      | findNextUid => cases hother
      | _ => exact h
  | ldap call =>
      cases call with
      | add dn objectClasses attributes =>
          have hnone : (uidNumber attributes).isSome = false := by simpa [isOther, addsUser] using hother
          have hw : w' = if (uidNumber attributes).isSome then
            ⟨none, w.faithful ∧ w.found = uidNumber attributes⟩ else w := h
          rw [hw, hnone, if_neg Bool.false_ne_true]
      | _ => exact h

/-- What may follow, or come before, without a search or a user entry. -/
theorem keeps_search {α : Type} {p : Cli α} (hp : p.Calls (isOther · = true)) {w : Search} (hw : w.faithful) :
    p.wp searching ⟨fun _ w' => w' = w, fun _ w' => w'.faithful, fun w' => w'.faithful⟩ w := by
  have hkeeps : p.Keeps searching (· = w) := Prog.keeps_of_calls hp fun w₁ call r w₂ hother hw₁ hr =>
    (searching_other hother hr).trans hw₁
  refine Prog.wp_mono (hkeeps w rfl) (fun _ _ h => h) ?_ ?_
  · rintro e w' rfl
    exact hw
  · rintro w' rfl
    exact hw

theorem wp_faithful {α : Type} {p : Cli α} (hp : p.Calls (isOther · = true)) {w : Search} (hw : w.faithful) :
    p.wp searching ⟨fun _ w => w.faithful, fun _ w => w.faithful, fun w => w.faithful⟩ w := by
  refine Prog.wp_mono (keeps_search hp hw) ?_ (fun _ _ h => h) fun _ h => h
  rintro a w' rfl
  exact hw

/-! ## The command uses what it found -/

theorem other_call {call : CliCall} (h : isOther call = true) :
    (Prog.perform (S := cliSig) call : Cli call.Ans).Calls (isOther · = true) := calls_call h

theorem other_addRouting (sha256Hex : String → String) (user : String) (registry : Registry)
    (config : Option Dict) (email : Option String) :
    (addRouting sha256Hex user registry config email).Calls (isOther · = true) := by
  unfold addRouting
  split
  · split
    · trivial
    · exact (calls_orClick (calls_createNotificationResources (P := (isOther · = true)) (fun _ => rfl) rfl rfl
        (fun _ _ _ => rfl) ..)).bind fun _ => trivial
  · trivial

theorem other_deleteOrRecord (config : Dict) (user : String) (entry : Dict) :
    (deleteOrRecord config user entry).Calls (isOther · = true) :=
  calls_deleteOrRecord (fun _ _ => rfl) fun _ _ => rfl

theorem other_rollbackDelete (issue dn : String) : (rollbackDelete issue dn).Calls (isOther · = true) := by
  refine (Prog.Calls.attempt (other_call rfl)).bind fun r => ?_
  cases r <;> trivial

theorem other_rollbackLdapUser (user : String) (groupCreated : Bool) :
    (rollbackLdapUser user groupCreated).Calls (isOther · = true) := by
  refine (Prog.Calls.attempt (other_call rfl)).bind fun r => ?_
  cases r with
  | error e => trivial
  | ok _ =>
      refine Prog.Calls.bind ?_ fun groupErrors => (other_rollbackDelete _ _).bind fun _ => trivial
      split
      · exact other_rollbackDelete _ _
      · trivial

/-- What follows the user entry in `_create_ldap_user`. -/
theorem other_group (user : String) (gid : Json) (gidExists : Bool) :
    (if gidExists then .ret false
      else (addLdapGroup user gid).attempt.bind fun
        | .ok _ => .ret true
        | .error e => (ldap (.delete (userDn user))).bind fun _ => .throw e : Cli Bool).Calls (isOther · = true) := by
  split
  · trivial
  · refine (Prog.Calls.attempt ?_).bind fun r => ?_
    · exact (other_call rfl).bind fun _ => (other_call rfl).bind fun _ => Prog.calls_ofExcept _ _
    · cases r with
      | ok _ => trivial
      | error e => exact (other_call rfl).bind fun _ => trivial

theorem other_addStore (user : String) (groupCreated : Bool) (config entry : Dict) :
    (addStore user groupCreated config entry).Calls (isOther · = true) :=
  calls_exceptNotification (other_call rfl) fun _ =>
    (other_rollbackLdapUser _ _).bind fun _ => (other_deleteOrRecord _ _ _).bind fun _ => trivial

theorem other_addFinish (options : AddOptions) (email : Option String) (routed : Bool) :
    (addFinish options email routed).Calls (isOther · = true) := by
  refine Prog.Calls.bind ?_ fun error => Prog.Calls.bind (other_call rfl) fun _ => Prog.Calls.bind ?_ fun _ => ?_
  · split
    · exact calls_addSync (P := (isOther · = true)) rfl (fun _ => rfl) fun _ => rfl
    · trivial
  · split
    · exact other_call rfl
    · trivial
  · split <;> trivial

theorem createLdapUser_usesFound (user password name : String) (uid : Int) (gid : Json) (email : Option String) :
    (createLdapUser user password (.int uid) gid name email).wp searching
      ⟨fun _ w => w.faithful, fun _ w => w.faithful, fun w => w.faithful⟩ ⟨some uid, True⟩ := by
  refine Prog.wp_seq (keeps_search (other_call rfl) trivial) ?_
  rintro gidExists w rfl
  refine Prog.wp_seq (keeps_search (other_call rfl) trivial) ?_
  rintro - w rfl
  have hadd : (addLdapUser user password (.int uid) gid name email).wp searching
      ⟨fun _ w => w.faithful, fun _ w => w.faithful, fun w => w.faithful⟩ ⟨some uid, True⟩ := by
    refine Prog.wp_perform_seq trivial (fun reply w' hw' => ?_) fun e w' hw' => ?_
    · obtain rfl : w' = ⟨none, True ∧ some uid = some uid⟩ := hw'
      exact wp_faithful (Prog.calls_ofExcept _ _) ⟨trivial, rfl⟩
    · obtain rfl : w' = ⟨none, True ∧ some uid = some uid⟩ := hw'
      exact ⟨trivial, rfl⟩
  exact Prog.wp_seq hadd fun _ w hw => wp_faithful (other_group user gid gidExists) hw

theorem addLdap_usesFound (options : AddOptions) (uid : Int) (gid : Json) (email : Option String)
    (routing : Option (Dict × Dict)) :
    (addLdap options (.int uid) gid email routing).wp searching
      ⟨fun _ w => w.faithful, fun _ w => w.faithful, fun w => w.faithful⟩ ⟨some uid, True⟩ := by
  unfold addLdap
  rw [Prog.wp_tryCatch]
  refine Prog.wp_mono (createLdapUser_usesFound ..) (fun _ _ h => h) (fun error w hw => ?_) fun _ h => h
  refine wp_faithful (Prog.Calls.bind ?_ ?_) hw
  · split
    · exact other_deleteOrRecord _ _ _
    · trivial
  · exact fun _ => trivial

/-- **Without `--uid` the user entry carries the number that was found for it.** -/
theorem usesFound_add (sha256Hex : String → String) {options : AddOptions} (huid : options.uid = none) :
    UsesFound (add sha256Hex options) none := by
  refine Prog.wp_seq (keeps_search (calls_addChecks (P := (isOther · = true)) rfl (fun _ => rfl) options) trivial) ?_
  rintro ⟨registry, config, email⟩ w rfl
  have hfind : (idOr options.uid (host .findNextUid)).wp searching
      ⟨fun uid w => ∃ n, uid = .int n ∧ w = ⟨some n, True⟩, fun _ w => w.faithful, fun w => w.faithful⟩
      ⟨none, True⟩ := by
    rw [huid]
    refine Prog.wp_perform_seq trivial (fun n w' hw' => ?_) fun e w' hw' => ?_
    · exact ⟨n, rfl, hw'⟩
    · obtain rfl : w' = ⟨none, True⟩ := hw'
      exact trivial
  refine Prog.wp_seq hfind ?_
  rintro - w ⟨uid, rfl, rfl⟩
  refine Prog.wp_seq (keeps_search (calls_idOr _ (other_call rfl)) trivial) ?_
  rintro gid w rfl
  refine Prog.wp_seq (keeps_search (other_addRouting ..) trivial) ?_
  rintro routing w rfl
  refine Prog.wp_seq (addLdap_usesFound ..) fun groupCreated w hw => ?_
  refine wp_faithful (Prog.Calls.bind ?_ fun _ => other_addFinish ..) hw
  split
  · exact other_addStore ..
  · trivial

/-! ## Runs side by side -/

/-- What every call keeps: identifiers are distinct, each run uses what it found, and what a run that was not
overtaken found is above all there are. -/
structure Numbered (w : Numbering ι) (runs : ι → Cli Unit) (found : ι → Option Int) : Prop where
  distinct : w.Distinct
  usesFound : ∀ i, UsesFound (runs i) (found i)
  above : ∀ i n, found i = some n → w.overtaken i = false → ∀ entry ∈ w.users, entry.2 < n

namespace Numbered
variable {w : Numbering ι} {runs : ι → Cli Unit} {found : ι → Option Int} {i : ι} {p : Cli Unit}

theorem usesFound_update (h : Numbered w runs found) {number : Option Int} (hp : UsesFound p number) (j : ι) :
    UsesFound (Function.update runs i p j) (Function.update found i number j) := by
  by_cases hj : j = i
  · subst hj
    rw [Function.update_self, Function.update_self]
    exact hp
  · rw [Function.update_of_ne hj, Function.update_of_ne hj]
    exact h.usesFound j

/-- A call that leaves the user entries alone. -/
theorem quiet (h : Numbered w runs found) (hp : UsesFound p (found i)) :
    Numbered w (Function.update runs i p) found := by
  have huses := h.usesFound_update (i := i) hp
  rw [Function.update_eq_self] at huses
  exact ⟨h.distinct, huses, h.above⟩

theorem search (h : Numbered w runs found) (hp : UsesFound p (some (nextUid (w.users.map (·.2))))) :
    Numbered { w with overtaken := Function.update w.overtaken i false } (Function.update runs i p)
      (Function.update found i (some (nextUid (w.users.map (·.2))))) := by
  refine ⟨h.distinct, h.usesFound_update hp, fun j n hn hovertaken entry hentry => ?_⟩
  by_cases hj : j = i
  · subst hj
    rw [Function.update_self, Option.some.injEq] at hn
    rw [← hn]
    exact lt_nextUid (List.mem_map_of_mem hentry)
  · rw [Function.update_of_ne hj] at hn
    have hbefore : w.overtaken j = false := by
      rw [← hovertaken]
      exact (Function.update_of_ne hj _ _).symm
    exact h.above j n hn hbefore entry hentry

/-- The number is spent, whether or not the entry was added. -/
theorem forget (h : Numbered w runs found) (hp : UsesFound p none) :
    Numbered w (Function.update runs i p) (Function.update found i none) := by
  refine ⟨h.distinct, h.usesFound_update hp, fun j n hn hovertaken entry hentry => ?_⟩
  by_cases hj : j = i
  · subst hj
    rw [Function.update_self] at hn
    cases hn
  · rw [Function.update_of_ne hj] at hn
    exact h.above j n hn hovertaken entry hentry

theorem add (h : Numbered w runs found) {dn : String} {uid : Int} (huid : found i = some uid)
    (hovertaken : w.overtaken i = false) (hp : UsesFound p none) :
    Numbered ⟨(dn, uid) :: w.users, fun j => decide (j ≠ i) || w.overtaken j⟩ (Function.update runs i p)
      (Function.update found i none) := by
  refine ⟨?_, h.usesFound_update hp, fun j n hn hj entry _ => ?_⟩
  · refine List.nodup_cons.mpr ⟨fun hmem => ?_, h.distinct⟩
    obtain ⟨entry, hentry, heq⟩ := List.mem_map.mp hmem
    have hlt : entry.2 < uid := h.above i uid huid hovertaken entry hentry
    have heq' : entry.2 = uid := heq
    omega
  · by_cases hji : j = i
    · subst hji
      rw [Function.update_self] at hn
      cases hn
    · have htrue : (decide (j ≠ i) || w.overtaken j) = true := by rw [decide_eq_true hji, Bool.true_or]
      exact absurd (htrue.symm.trans hj) Bool.false_ne_true.symm

omit [DecidableEq ι] in
theorem delete (h : Numbered w runs found) (keep : String × Int → Bool) :
    Numbered { w with users := w.users.filter keep } runs found :=
  ⟨h.distinct.sublist (List.filter_sublist.map _), h.usesFound, fun i n hn hovertaken entry hentry =>
    h.above i n hn hovertaken entry (List.mem_of_mem_filter hentry)⟩

theorem step (h : Numbered w runs found) {call : CliCall} {k : Except CliError call.Ans → Cli Unit}
    {r : Except CliError call.Ans} {w' : Numbering ι} (hcall : runs i = .call call k)
    (hguard : NotOvertaken w i call) (hr : numbering i w call r w') :
    ∃ found', Numbered w' (Function.update runs i (k r)) found' := by
  have huses : UsesFound (.call call k) (found i) := hcall ▸ h.usesFound i
  cases call with
  | oci command =>
      obtain rfl : w' = w := hr
      exact ⟨found, h.quiet (huses.step r rfl).2⟩
  | registry call =>
      obtain rfl : w' = w := hr
      exact ⟨found, h.quiet (huses.step r rfl).2⟩
  | host call =>
      cases call with
      | findNextUid =>
          obtain ⟨e, rfl, rfl⟩ | ⟨rfl, rfl⟩ := hr
          · exact ⟨found, h.quiet (huses.step (.error e) rfl).2⟩
          · exact ⟨_, h.search (huses.step (.ok _) rfl).2⟩
      | _ =>
          obtain rfl : w' = w := hr
          exact ⟨found, h.quiet (huses.step r rfl).2⟩
  | ldap call =>
      cases call with
      | add dn objectClasses attributes =>
          cases huid : uidNumber attributes with
          | none =>
              simp only [numbering, huid] at hr
              subst hr
              have hstep := huses.step r (v := ⟨found i, True⟩) (by simp [searching, huid])
              exact ⟨found, h.quiet hstep.2⟩
          | some uid =>
              simp only [numbering, huid] at hr
              have hstep := huses.step r (v := ⟨none, True ∧ found i = some uid⟩) (by simp [searching, huid])
              obtain ⟨rfl, -⟩ | ⟨-, rfl⟩ := hr
              · exact ⟨_, h.forget hstep.2⟩
              · have hovertaken := hguard (by simp [addsUser, huid])
                exact ⟨_, h.add hstep.1.2 hovertaken hstep.2⟩
      | delete dn =>
          have hquiet := h.quiet (huses.step r rfl).2
          obtain rfl | rfl := hr
          · exact ⟨found, hquiet⟩
          · exact ⟨found, hquiet.delete _⟩
      | _ =>
          obtain rfl : w' = w := hr
          exact ⟨found, h.quiet (huses.step r rfl).2⟩

end Numbered

/-- **Identifiers stay distinct in every run in which no addition was overtaken**: between the search of a run and
its addition no other run adds a user entry. -/
theorem uidNumbers_distinct (sha256Hex : String → String) (users : List (String × Int)) (options : ι → AddOptions)
    (huid : ∀ i, (options i).uid = none) (hdistinct : (users.map (·.2)).Nodup)
    {c : Config ι (Numbering ι) (Cli Unit)}
    (h : (programs cliSig CliError (Numbering ι) Unit).Reach (Answered numbering NotOvertaken)
      (runsOf sha256Hex users options) c) : c.shared.Distinct := by
  have hinv : ∃ found, Numbered c.shared c.proc found := by
    refine programs_invariant (fun c => ∃ found, Numbered c.shared c.proc found) ⟨fun _ => none, ?_⟩ ?_ h
    · refine ⟨hdistinct, fun i => usesFound_add sha256Hex (huid i), fun i n hn => ?_⟩
      cases hn
    · rintro c i call k r w' ⟨found, hfound⟩ hcall hguard hr
      exact hfound.step hcall hguard hr
  obtain ⟨found, hfound⟩ := hinv
  exact hfound.distinct

/-! ### Two runs -/

instance (w : Numbering ι) (i : ι) (call : CliCall) : Decidable (NotOvertaken w i call) :=
  inferInstanceAs (Decidable (_ → _))

/-- An outside where nothing fails and notifications are disabled. -/
def plainOutside (i : ι) : Outside cliSig CliError (Numbering ι)
  | w, .registry .loadNotificationRegistry => (.ok emptyNotificationRegistry, w)
  | w, .host .findNextUid =>
      (.ok (nextUid (w.users.map (·.2))), { w with overtaken := Function.update w.overtaken i false })
  | w, .ldap (.groupIdExists _) => (.ok (by exact true), w)
  | w, .ldap .connect => (.ok (by exact ()), w)
  | w, .ldap (.add dn _ attributes) =>
      match uidNumber attributes with
      | none => (.ok (by exact (⟨true, 0, ""⟩ : LdapReply)), w)
      | some uid =>
          if dn ∈ w.users.map (·.1) then (.ok (by exact (⟨false, 68, "entryAlreadyExists"⟩ : LdapReply)), w)
          else (.ok (by exact (⟨true, 0, ""⟩ : LdapReply)),
            ⟨(dn, uid) :: w.users, fun j => decide (j ≠ i) || w.overtaken j⟩)
  | w, _ => (.error (.other ""), w)

theorem numbering_plainOutside (i : ι) (w : Numbering ι) (call : CliCall) :
    numbering i w call (plainOutside i w call).1 (plainOutside i w call).2 := by
  cases call with
  | oci command => exact rfl
  | registry call => cases call <;> exact rfl
  | host call =>
      cases call with
      | findNextUid => exact .inr ⟨rfl, rfl⟩
      | _ => exact rfl
  | ldap call =>
      cases call with
      | add dn objectClasses attributes =>
          cases huid : uidNumber attributes with
          | none => simp only [numbering, plainOutside, huid]
          | some uid =>
              simp only [numbering, plainOutside, huid]
              by_cases hdn : dn ∈ w.users.map (·.1)
              · rw [if_pos hdn]
                refine .inl ⟨rfl, ?_⟩
                rintro reply ⟨⟩
                rfl
              · rw [if_neg hdn]
                exact .inr ⟨hdn, rfl⟩
      | delete dn => exact .inl rfl
      | _ => exact rfl

def aliceAndBob (bob : Bool) : AddOptions :=
  ⟨if bob then "bob" else "alice", "secret", "Name", none, some "9876", none, false⟩

def searchesFirst : List Bool := [false, false, true, true, false, false, false, true, true, true]

/-- **Two runs that search before either adds give both users the same identifier.** -/
theorem searches_before_additions_collide : (∀ i, (aliceAndBob i).uid = none) ∧
    (aliceAndBob false).user ≠ (aliceAndBob true).user ∧ ∃ c,
      (programs cliSig CliError (Numbering Bool) Unit).Reach (Answered numbering fun _ _ _ => True)
        (runsOf id [] aliceAndBob) c ∧ ¬ c.shared.Distinct := by
  have hrun : ((searchesFirst.foldlM (follow plainOutside fun _ _ _ => True) (runsOf id [] aliceAndBob)).map
      fun c => c.shared.users.map (·.2)) = some [10001, 10001] := by decide +kernel
  obtain ⟨c, hc, husers⟩ := Option.map_eq_some_iff.mp hrun
  refine ⟨fun _ => rfl, by decide, c, reach_of_follow numbering_plainOutside hc, ?_⟩
  rw [Numbering.Distinct, husers]
  decide

def oneAfterTheOther : List Bool := [false, false, false, false, false, true, true, true, true, true]

theorem uidNumbers_distinct_in_turn : ∃ c : Config Bool (Numbering Bool) (Cli Unit),
    c.shared.users = [(userDn "bob", 10006), (userDn "alice", 10001)] ∧ c.shared.Distinct := by
  have hrun : ((oneAfterTheOther.foldlM (follow plainOutside NotOvertaken) (runsOf id [] aliceAndBob)).map
      fun c => c.shared.users) = some [(userDn "bob", 10006), (userDn "alice", 10001)] := by decide +kernel
  obtain ⟨c, hc, husers⟩ := Option.map_eq_some_iff.mp hrun
  exact ⟨c, husers, uidNumbers_distinct id [] aliceAndBob (fun _ => rfl) List.nodup_nil
    (reach_of_follow numbering_plainOutside hc)⟩

end OciHpc.ClusterCli.UidNumbers
