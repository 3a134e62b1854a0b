import Mathlib.Data.Set.Finite.Basic
import OciHpc.ClusterCli.CleanupJournal
import OciHpc.ClusterCli.UserAdd

/-!
# `cluster user add` and its Topic

The creation of the Topic may be readable, unreadable, timed out with or without effect, or failed without effect;
LDAP, the Subscription, deletions, absence checks and the routing store end in any way.

* `topicWorld` : the registry file, the Topics the command created, and the `oci` commands so far;
* `findOwnedNotificationTopic_spec` : the recovery finds the very Topic;
* `deleteOrRecord_spec`, `createNotificationResources_spec`, `addStore_spec` : what becomes of the Topic;
* `exec_create_unread`, `exec_create_unrecovered` : an answer that cannot be read, or an entry the recovery refuses,
  and the Topic stays;
* `topicAccounted_iff` : when every Topic is routed to, gone or in the cleanup journal, however the command ends;
* `undecodable_answer_orphans` : a creation whose output cannot be decoded leaves its Topic.
-/

namespace OciHpc.ClusterCli.UserAddTopic
open CleanupJournal (goneIn identifierIn)

/-! ## The world -/

structure Topic where
  id : String
  compartmentId : String
  name : String
  tags : Dict
  deriving DecidableEq

/-- `created` are the Topics of this command, `lag` the number of listings that may not show them yet. -/
structure World where
  file : RegistryFile
  created : List Topic
  commands : List (OciCommand × ProcessOutcome)
  lag : Nat
  stored : Bool
  deriving DecidableEq

abbrev World.gone (w : World) : ResourceType → String → Prop := goneIn w.commands

def RefersTo (id : String) (entry : Json) : Prop := identifierIn entry .topic = some (.str id)

/-- A Topic identifier that the service has not given before. -/
structure Fresh (w : World) (id : String) : Prop where
  isTopicId : PyStr.startsWith id (notificationIdentifierSpec .topic).2 = true
  passable : passable id = true
  unseen : ¬ w.gone .topic id
  users : ∀ registry, loadNotificationRegistry w.file = .ok registry → ∀ e ∈ registry.users, ¬ RefersTo id e.2
  pending : ∀ entry ∈ pendingOf w.file, ¬ RefersTo id entry

def HasTags (tags : Dict) (listed : Json) : Prop :=
  ∃ fields shown, listed = .obj fields ∧ Dict.get? fields "freeform-tags" = some (.obj shown) ∧
    ∀ e ∈ tags, Dict.getD shown e.1 .null = e.2

structure IsListed (topic : Topic) (fields : Dict) : Prop where
  id : Dict.get? fields "topic-id" = some (.str topic.id)
  name : Dict.get? fields "name" = some (.str topic.name)
  compartment : Dict.get? fields "compartment-id" = some (.str topic.compartmentId)
  live : Dict.get? fields "lifecycle-state" = some (.str "ACTIVE") ∨
    Dict.get? fields "lifecycle-state" = some (.str "CREATING")
  tags : HasTags topic.tags (.obj fields)

/-- The listed Topics are a created one and others; no other has its tags, one of which is a new uuid. -/
def Shows (topic : Topic) (listed : List Json) : Prop :=
  ∃ before fields after, listed = before ++ .obj fields :: after ∧ IsListed topic fields ∧
    ∀ other ∈ before ++ after, ¬ HasTags topic.tags other

/-- What an `oci` command does. -/
def ociEffect (w : World) (command : OciCommand) (outcome : ProcessOutcome) (w' : World) : Prop :=
  let commands := w.commands ++ [(command, outcome)]
  match command.request with
  | .topicCreate compartmentId name _ tags =>
      (w' = { w with commands } ∧ ∀ stdout, outcome ≠ .success stdout) ∨
        ∃ id, Fresh w id ∧ w' = { w with commands, created := w.created ++ [⟨id, compartmentId, name, tags⟩] } ∧
          (outcome = .timedOut ∨ ∃ stdout, outcome = .success stdout ∧
            ∀ shown, ociIdentifier stdout .topic = .ok shown → shown = id)
  | .subscriptionCreate .. => w' = { w with commands } ∧
      ∀ stdout shown, outcome = .success stdout → ociIdentifier stdout .subscription = .ok shown → passable shown = true
  | .list .topic _ (some _) =>
      (w' = { w with commands } ∧ ∀ topic ∈ w.created, ∃ stdout listed, outcome = .success stdout ∧
          listedTopics stdout = .ok listed ∧ Shows topic listed) ∨
        (0 < w.lag ∧ w' = { w with commands, lag := w.lag - 1 } ∧
          ∃ stdout, outcome = .success stdout ∧ listedTopics stdout = .ok [])
  | _ => w' = { w with commands }

/-- What an `oci` command does whose answer cannot be read. The recovery listing can be. -/
def unreadEffect (w : World) (command : OciCommand) (w' : World) : Prop :=
  match command.request with
  | .topicCreate compartmentId name _ tags => w' = w ∨
      ∃ id, Fresh w id ∧ w' = { w with created := w.created ++ [⟨id, compartmentId, name, tags⟩] }
  | .list .topic _ (some _) => False
  | _ => w' = w

/-- The effect of a call. What an `oci` command prints may be such that reading it raises something other than a
`NotificationError` (it cannot be decoded, or is nested too deeply) when that is `unexpected`. -/
def effect (unexpected : Bool) (w : World) : (call : CliCall) → Except CliError call.Ans → World → Prop
  | .oci command, .ok outcome, w' => command.startable = true ∧ ociEffect w command outcome w'
  | .oci command, .error e, w' => e.isNotification = false ∧
      (command.startable = false ∧ w' = w ∨ unexpected = true ∧ command.startable = true ∧ unreadEffect w command w')
  | .registry .loadNotificationRegistry, r, w' => r = loadNotificationRegistry w.file ∧ w' = w
  | .registry (.storeUserRouting user entry), r, w' => ∃ stamp io,
      let update := updateNotificationRegistry (storeUserRouting user entry stamp) io w.file
      r = update.1 ∧ w' = { w with file := update.2, stored := w.stored || update.1.isOk }
  | .registry (.removeUserRouting user), r, w' => ∃ stamp io,
      let update := updateNotificationRegistry (removeUserRouting user stamp) io w.file
      r = update.1 ∧ w' = { w with file := update.2 }
  | .registry (.restoreUserRouting user entry), r, w' => ∃ stamp io,
      let update := updateNotificationRegistry (restoreUserRouting user entry stamp) io w.file
      r = update.1 ∧ w' = { w with file := update.2 }
  | .registry (.recordPendingCleanup user entry errors), r, w' => ∃ cleanupId recordedAt,
      let added := cleanupEntry user entry errors cleanupId recordedAt
      let update := updateNotificationRegistry (recordPendingCleanup added) .completes w.file
      -- appending to the journal succeeds
      update.1 = .ok () ∧ r = .ok () ∧ w' = { w with file := update.2 }
  | .registry (.syncBackupRegistry _), _, w' => w' = w ∨ ∃ marker io,
      w' = { w with file := (updateNotificationRegistry (clearPendingBackupSync marker) io w.file).2 }
  | .registry (.recordPendingBackupSync error), r, w' => ∃ stamp io,
      let update := updateNotificationRegistry (recordPendingBackupSync stamp error) io w.file
      r = update.1 ∧ w' = { w with file := update.2 }
  | .ldap _, _, w' | .host _, _, w' => w' = w

def topicWorld (unexpected : Bool) : Handler cliSig CliError World := fun w call r w' => effect unexpected w call r w'

/-! ## The accounting -/

def RoutedTo (user : String) (topic : Topic) (w : World) : Prop :=
  ∃ users entry, usersOf w.file = some users ∧ users user = some entry ∧ RefersTo topic.id entry

def InJournal (topic : Topic) (w : World) : Prop := ∃ entry ∈ pendingOf w.file, RefersTo topic.id entry

/-- **Every Topic created is routed to, gone or in the cleanup journal**; exactly the first once the routing is
stored, and until then the users map is as it was. -/
structure Accounted (user : String) (w₀ w : World) : Prop where
  topics : ∀ topic ∈ w.created, RoutedTo user topic w ∨ w.gone .topic topic.id ∨ InJournal topic w
  routed : w.stored = true → ∀ topic ∈ w.created,
    RoutedTo user topic w ∧ ¬ w.gone .topic topic.id ∧ ¬ InJournal topic w
  users : w.stored = false → usersOf w.file = usersOf w₀.file

def PlainEntry (entry : Json) : Prop :=
  ∃ fields, entry = .obj fields ∧ ∀ value, identifierOf fields .topic = some value → ∃ id, value = .str id

/-- The users map and the cleanup journal have plain entries. -/
structure PlainRegistry (registry : Registry) : Prop where
  users : ∀ e ∈ registry.users, PlainEntry e.2
  pending : ∃ entries, pendingCleanup registry = .arr entries ∧ ∀ entry ∈ entries, PlainEntry entry

/-! ## `oci` commands -/

theorem ociEffect_commands {w w' : World} {command : OciCommand} {outcome : ProcessOutcome}
    (h : ociEffect w command outcome w') : w'.commands = w.commands ++ [(command, outcome)] := by
  unfold ociEffect at h
  dsimp only at h
  split at h
  · rcases h with ⟨rfl, _⟩ | ⟨id, _, rfl, _⟩ <;> rfl
  · rw [h.1]
  · rcases h with ⟨rfl, _⟩ | ⟨_, rfl, _⟩ <;> rfl
  · rw [h]

theorem unreadEffect_commands {w w' : World} {command : OciCommand} (h : unreadEffect w command w') :
    w'.commands = w.commands := by
  unfold unreadEffect at h
  split at h
  · rcases h with rfl | ⟨id, _, rfl⟩ <;> rfl
  · exact h.elim
  · rw [h]

/-- Nothing but the commands and the lag changes. -/
structure SameBut (w w' : World) : Prop where
  file : w'.file = w.file
  created : w'.created = w.created
  stored : w'.stored = w.stored

theorem ociEffect_sameBut {w w' : World} {command : OciCommand} {outcome : ProcessOutcome}
    (hnothing : CreatesNothing command) (h : ociEffect w command outcome w') : SameBut w w' := by
  unfold ociEffect at h
  dsimp only at h
  split at h
  · rename_i hrequest
    rw [CreatesNothing, hrequest] at hnothing
    cases hnothing
  · rw [h.1]
    exact ⟨rfl, rfl, rfl⟩
  · rcases h with ⟨rfl, _⟩ | ⟨_, rfl, _⟩ <;> exact ⟨rfl, rfl, rfl⟩
  · rw [h]
    exact ⟨rfl, rfl, rfl⟩

/-- A command that creates nothing, whatever becomes of its answer. -/
theorem sameBut_of_createsNothing {unexpected : Bool} {w w' : World} {command : OciCommand}
    {r : Except CliError ProcessOutcome} (hnothing : CreatesNothing command)
    (h : topicWorld unexpected w (.oci command) r w') : SameBut w w' := by
  cases r with
  | ok outcome => exact ociEffect_sameBut hnothing h.2
  | error e =>
      obtain ⟨-, ⟨-, rfl⟩ | ⟨-, -, hunread⟩⟩ := h
      · exact ⟨rfl, rfl, rfl⟩
      · unfold unreadEffect at hunread
        split at hunread
        · rename_i hrequest
          rw [CreatesNothing, hrequest] at hnothing
          cases hnothing
        · exact hunread.elim
        · rw [hunread]
          exact ⟨rfl, rfl, rfl⟩

/-- A process that is started, and prints what can be read, raises nothing. -/
theorem no_raise {unexpected : Bool} (hexpected : unexpected = false) {w w' : World} {command : OciCommand}
    {e : CliError} (hstart : command.startable = true) (h : topicWorld unexpected w (.oci command) (.error e) w') :
    False := by
  obtain ⟨-, ⟨hno, -⟩ | ⟨hraise, -⟩⟩ := h
  · exact nomatch hstart.symm.trans hno
  · exact nomatch hexpected.symm.trans hraise

theorem absence (unexpected : Bool) : Absence (ociOutside (topicWorld unexpected)) World.gone where
  keeps := by
    rintro w command r w' type id hr ⟨c, hc, hs⟩
    cases r with
    | error e =>
        obtain ⟨-, ⟨-, rfl⟩ | ⟨-, -, hunread⟩⟩ := hr
        · exact ⟨c, hc, hs⟩
        · exact ⟨c, by rw [unreadEffect_commands hunread]; exact hc, hs⟩
    | ok outcome => exact ⟨c, by rw [ociEffect_commands hr.2]; exact List.mem_append_left _ hc, hs⟩
  shows := fun w command outcome w' type id hr hs => ⟨(command, outcome), by simp [ociEffect_commands hr.2], hs⟩

theorem not_gone_append {w w' : World} {command : OciCommand} {outcome : ProcessOutcome} {type : ResourceType}
    {id : String} (hw : ¬ w.gone type id) (h : ociEffect w command outcome w')
    (hs : ¬ showsGone type id command outcome) : ¬ w'.gone type id := by
  rintro ⟨c, hc, hshows⟩
  rw [ociEffect_commands h] at hc
  rcases List.mem_append.mp hc with hc | hc
  · exact hw ⟨c, hc, hshows⟩
  · rw [List.mem_singleton.mp hc] at hshows
    exact hs hshows

/-! ## The registry -/

/-- A mutator that leaves the users map and the journal. -/
def KeepsRouting (mutator : Mutator Unit) : Prop :=
  ∀ registry result updated, mutator registry = .ok (result, updated) →
    updated.users = registry.users ∧ pendingCleanup updated = pendingCleanup registry

theorem keepsRouting_clear (marker : Json) : KeepsRouting (clearPendingBackupSync marker) := by
  intro registry result updated h
  unfold clearPendingBackupSync at h
  split at h <;> cases h
  · exact ⟨rfl, by simp [pendingCleanup, Dict.getD, Dict.get?_pop_ne]⟩
  · exact ⟨rfl, rfl⟩

theorem keepsRouting_record (stamp : Stamp) (detail : String) :
    KeepsRouting (recordPendingBackupSync stamp detail) := by
  intro registry result updated h
  cases h
  exact ⟨rfl, by simp [pendingCleanup, Dict.getD, markBackupSyncPending, Dict.get?_set_ne]⟩

theorem update_keepsRouting {mutator : Mutator Unit} (hm : KeepsRouting mutator) (io : UpdateIo)
    (file : RegistryFile) : usersOf (updateNotificationRegistry mutator io file).2 = usersOf file ∧
      pendingOf (updateNotificationRegistry mutator io file).2 = pendingOf file := by
  rcases updateNotificationRegistry_cases mutator io file with ⟨e, he⟩ | ⟨registry, result, updated, hl, hr, hu⟩
  · rw [he]
    exact ⟨rfl, rfl⟩
  · obtain ⟨husers, hpending⟩ := hm registry result updated hr
    rw [hu]
    refine ⟨by rw [usersOf_toJson, usersOf_of_load hl, husers], ?_⟩
    simp only [pendingOf, loadNotificationRegistry_toJson, hl, hpending]

theorem refersTo_obj {id : String} {fields : Dict} :
    RefersTo id (.obj fields) ↔ identifierOf fields .topic = some (.str id) := Iff.rfl

/-- Recording leaves the users map, and puts the entry into the journal. -/
theorem record_spec {added : Dict} {file : RegistryFile}
    (h : (updateNotificationRegistry (recordPendingCleanup added) .completes file).1 = .ok ()) :
    let file' := (updateNotificationRegistry (recordPendingCleanup added) .completes file).2
    usersOf file' = usersOf file ∧ .obj added ∈ pendingOf file' := by
  rcases record_cases added .completes file with ⟨e, he⟩ | ⟨_, hpending⟩
  · rw [he] at h
    cases h
  · refine ⟨?_, by rw [hpending]; simp⟩
    rcases updateNotificationRegistry_cases (recordPendingCleanup added) .completes file with
      ⟨e, he⟩ | ⟨registry, result, updated, hl, hm, hu⟩
    · rw [he]
    · rw [hu, usersOf_toJson, usersOf_of_load hl]
      unfold recordPendingCleanup at hm
      split at hm <;> cases hm
      rfl

theorem referencedIn_spec {invalidEntry invalidId : CliError} {entries : List Json}
    (hplain : ∀ entry ∈ entries, PlainEntry entry) :
    ∃ ids, referencedIn invalidEntry invalidId entries = .ok ids ∧
      ∀ id ∈ ids, ∃ entry ∈ entries, RefersTo id entry := by
  induction entries with
  | nil => exact ⟨[], rfl, by simp⟩
  | cons entry rest ih =>
      obtain ⟨ids, hids, hrefer⟩ := ih fun e he => hplain e (List.mem_cons_of_mem _ he)
      obtain ⟨fields, rfl, hstring⟩ := hplain entry List.mem_cons_self
      have hrest : ∀ id ∈ ids, ∃ e ∈ .obj fields :: rest, RefersTo id e := fun id hid =>
        let ⟨e, he, hr⟩ := hrefer id hid
        ⟨e, List.mem_cons_of_mem _ he, hr⟩
      cases hid : identifierOf fields .topic with
      | none => exact ⟨ids, by simp [referencedIn, referencedTopicId, hid, hids], hrest⟩
      | some value =>
          obtain ⟨id, rfl⟩ := hstring value hid
          refine ⟨id :: ids, by simp [referencedIn, referencedTopicId, hid, hids], fun id' hm => ?_⟩
          rcases List.mem_cons.mp hm with rfl | hm
          · exact ⟨_, List.mem_cons_self, hid⟩
          · exact hrest id' hm

theorem referencedTopicIds_spec {registry : Registry} (hplain : PlainRegistry registry) :
    ∃ ids, referencedTopicIds registry = .ok ids ∧ ∀ id ∈ ids,
      (∃ e ∈ registry.users, RefersTo id e.2) ∨
        ∃ entries, pendingCleanup registry = .arr entries ∧ ∃ entry ∈ entries, RefersTo id entry := by
  obtain ⟨entries, hp, hpending⟩ := hplain.pending
  obtain ⟨userIds, hu, huser⟩ := @referencedIn_spec invalidUserEntry invalidUserTopic
    (registry.users.map (·.2)) (by simpa using fun e k he => hplain.users (k, e) he)
  obtain ⟨pendingIds, hr, hpend⟩ := @referencedIn_spec invalidPendingEntry invalidPendingTopic
    entries hpending
  refine ⟨userIds ++ pendingIds, by simp [referencedTopicIds, hu, hp, hr], fun id hm => ?_⟩
  rcases List.mem_append.mp hm with hm | hm
  · obtain ⟨_, he, hrefer⟩ := huser id hm
    obtain ⟨e, hmem, rfl⟩ := List.mem_map.mp he
    exact .inl ⟨e, hmem, hrefer⟩
  · exact .inr ⟨entries, hp, hpend id hm⟩

/-! ## Deleting, or recording for later -/

/-- The Topics are gone or in the journal, and the users map is as it was. -/
structure Settled (w₀ w : World) : Prop where
  stored : w.stored = false
  users : usersOf w.file = usersOf w₀.file
  topics : ∀ topic ∈ w.created, w.gone .topic topic.id ∨ InJournal topic w

theorem Settled.accounted {user : String} {w₀ w : World} (h : Settled w₀ w) : Accounted user w₀ w where
  topics := fun topic ht => .inr (h.topics topic ht)
  routed := fun hs => by rw [h.stored] at hs; cases hs
  users := fun _ => h.users

section
variable {unexpected : Bool}

theorem keeps_sameBut {α : Type} {p : Prog ociSig CliError α} (hp : p.Calls CreatesNothing) (w₀ : World) :
    p.Keeps (ociOutside (topicWorld unexpected)) (SameBut w₀) := by
  refine Prog.keeps_of_calls hp fun w command r w' hnothing hw hr => ?_
  have hsame := sameBut_of_createsNothing hnothing hr
  exact ⟨hsame.file.trans hw.file, hsame.created.trans hw.created, hsame.stored.trans hw.stored⟩

theorem keepsUnless_false (hexpected : unexpected = false) :
    KeepsUnless (fun w command r w' => command.startable = true ∧ ociOutside (topicWorld unexpected) w command r w')
      (fun _ => True) fun _ _ => False := by
  rintro w command r w' - ⟨hstart, hr⟩
  cases r with
  | ok outcome => trivial
  | error e => exact (no_raise hexpected hstart hr).elim

/-- **What is left of an entry is gone, or goes to the journal.** -/
theorem deleteOrRecord_spec (hexpected : unexpected = false) {config entry : Dict} (hconfig : PassableFields config)
    (hentry : PassableIdentifiers entry) (user : String) {w₀ w : World} (hstored : w.stored = false)
    (husers : usersOf w.file = usersOf w₀.file)
    (htopic : ∀ topic ∈ w.created, identifierOf entry .topic = some (.str topic.id)) :
    (deleteOrRecord config user entry).wp (topicWorld unexpected)
      ⟨fun _ w' => Settled w₀ w', fun _ _ => False, fun _ => True⟩ w := by
  have hraises := Prog.wp_of_calls (calls_deleteNotificationResources_startable hconfig hentry)
    (deleteNotificationResources_raises (keepsUnless_false hexpected) hconfig.commandFields hentry.strings (w := w)
      trivial)
  have hdelete := Prog.wp_and (deleteNotificationResources_spec (absence unexpected) config entry w) hraises
  have hall := Prog.wp_and_keeps (keeps_sameBut (calls_deleteNotificationResources config entry) w)
    ⟨rfl, rfl, rfl⟩ hdelete
  refine Prog.wp_seq ((wp_oci _ _ w).mpr (Prog.wp_mono hall (fun _ _ h => h) (fun _ _ h => h.1.2)
    fun _ _ => trivial)) ?_
  rintro ⟨cleanupErrors, remaining⟩ w₁ ⟨⟨⟨hagree, hnone⟩, _⟩, hsame⟩
  have hcreated : ∀ topic ∈ w₁.created, identifierOf entry .topic = some (.str topic.id) := fun topic ht =>
    htopic topic (hsame.created ▸ ht)
  -- an identifier that is not in what remains is of a Topic that is gone
  have hremains : ∀ topic ∈ w₁.created, identifierOf remaining .topic ≠ some (.str topic.id) →
      w₁.gone .topic topic.id := by
    intro topic ht hne
    by_contra hgone
    refine hne ((hagree .topic (.str topic.id) ?_).mp (hcreated topic ht))
    rintro ⟨id, hid, hg⟩
    cases hid
    exact hgone hg
  have hsettled : (∀ topic ∈ w₁.created, w₁.gone .topic topic.id) → Settled w₀ w₁ := fun h =>
    ⟨hsame.stored.trans hstored, by rw [hsame.file, husers], fun topic ht => .inl (h topic ht)⟩
  dsimp only
  split
  · rename_i herr
    refine hsettled fun topic ht => ?_
    by_contra hgone
    have := (hnone herr .topic (.str topic.id) (by rintro ⟨id, hid, hg⟩; cases hid; exact hgone hg)).mp
      (hcreated topic ht)
    cases this
  · refine wp_exceptNotification (E := fun _ _ => False) ?_ (fun _ _ h => h.elim) fun _ _ h => h.elim
    refine Prog.wp_seq (R := fun _ w' => Settled w₀ w') ?_ fun _ w' hw' => hw'
    unfold recordCleanup
    split
    · rename_i hnothing
      refine hsettled fun topic ht => hremains topic ht ?_
      simp only [nothingToClean, Bool.and_eq_true, Option.isNone_iff_eq_none] at hnothing
      rw [hnothing.1]
      exact nofun
    · refine (Prog.wp_perform (S := cliSig) _ _ _).mpr ⟨trivial, fun _ w' hr => ?_, fun e w' hr => ?_⟩
      · obtain ⟨cleanupId, recordedAt, hok, _, rfl⟩ := hr
        obtain ⟨hu, hp⟩ := record_spec hok
        refine ⟨hsame.stored.trans hstored, by rw [hu, hsame.file, husers], fun topic ht => ?_⟩
        by_cases hid : identifierOf remaining .topic = some (.str topic.id)
        · exact .inr ⟨_, hp, refersTo_obj.mpr ((identifierOf_cleanupEntry ..).trans hid)⟩
        · exact .inl (hremains topic ht hid)
      · obtain ⟨_, _, _, hcontra, _⟩ := hr
        cases hcontra

/-! ## The recovery -/

/-- The command created one Topic, which is not gone, and has written nothing yet. -/
structure Live (w₀ : World) (topic : Topic) (w : World) : Prop where
  file : w.file = w₀.file
  created : w.created = [topic]
  stored : w.stored = false
  alive : ¬ w.gone .topic topic.id
  fresh : Fresh w₀ topic.id

/-- A command that creates nothing and shows nothing gone. -/
theorem Live.keep {w₀ w w' : World} {topic : Topic} {command : OciCommand} {outcome : ProcessOutcome}
    (h : Live w₀ topic w) (hsame : SameBut w w') (he : ociEffect w command outcome w')
    (hs : ¬ showsGone .topic topic.id command outcome) : Live w₀ topic w' where
  file := hsame.file.trans h.file
  created := hsame.created.trans h.created
  stored := hsame.stored.trans h.stored
  alive := not_gone_append h.alive he hs
  fresh := h.fresh

theorem listTopicsOnce_spec (hexpected : unexpected = false) {config : Dict} (hconfig : PassableFields config)
    {topicName : String} (hname : passable topicName = true) {w₀ w : World} {topic : Topic} (hw : Live w₀ topic w) :
    (listTopicsOnce config topicName).wp (topicWorld unexpected)
      ⟨fun topics w' => Live w₀ topic w' ∧ ((topics = [] ∧ w'.lag + 1 = w.lag) ∨ (Shows topic topics ∧ w'.lag = w.lag)),
        fun _ _ => False, fun _ => True⟩ w := by
  obtain ⟨compartmentId, hcompartment, hpass⟩ := hconfig.compartment
  have hlist : listRequest config .topic (some topicName) = .ok (.list .topic compartmentId (some topicName)) := by
    simp [listRequest, hcompartment, argument]
  obtain ⟨command, hcommand, hrequest, hstart⟩ :=
    hconfig.ociCommand_ok (.list .topic compartmentId (some topicName)) (by simp [OciRequest.texts, hpass, hname])
  refine Prog.wp_seq (R := fun stdout w' => Live w₀ topic w' ∧ ∃ topics, listedTopics stdout = .ok topics ∧
    ((topics = [] ∧ w'.lag + 1 = w.lag) ∨ (Shows topic topics ∧ w'.lag = w.lag))) ?_ ?_
  · rw [hlist, wp_oci, wp_runOci, hcommand]
    refine ⟨trivial, fun outcome w' hr => ?_, fun _ _ hr => no_raise hexpected hstart hr⟩
    have hnothing : CreatesNothing command := by rw [CreatesNothing, hrequest]; rfl
    obtain ⟨-, heffect⟩ : _ ∧ ociEffect w command outcome w' := hr
    have hlive : Live w₀ topic w' :=
      hw.keep (ociEffect_sameBut hnothing heffect) heffect (by simp [showsGone, hrequest])
    unfold ociEffect at heffect
    simp only [hrequest] at heffect
    rcases heffect with ⟨rfl, hshows⟩ | ⟨hlag, rfl, stdout, rfl, hempty⟩
    · obtain ⟨stdout, topics, rfl, htopics, hshow⟩ := hshows topic (by rw [hw.created]; exact List.mem_singleton_self _)
      exact ⟨hlive, topics, htopics, .inr ⟨hshow, rfl⟩⟩
    · exact ⟨hlive, [], hempty, .inl ⟨rfl, by dsimp only; omega⟩⟩
  · rintro stdout w' ⟨hlive, topics, htopics, h⟩
    rw [htopics]
    exact ⟨hlive, h⟩

/-- While the lag is within the retries, the listing shows the Topic. -/
theorem listTopics_spec (hexpected : unexpected = false) {config : Dict} (hconfig : PassableFields config)
    {topicName : String} (hname : passable topicName = true) {w₀ : World} {topic : Topic} (retries : Nat) {w : World}
    (hw : Live w₀ topic w) (hlag : w.lag ≤ retries) :
    (listTopics config topicName retries).wp (topicWorld unexpected)
      ⟨fun topics w' => Live w₀ topic w' ∧ Shows topic topics, fun _ _ => False, fun _ => True⟩ w := by
  induction retries generalizing w with
  | zero =>
      refine Prog.wp_mono (listTopicsOnce_spec hexpected hconfig hname hw) ?_ (fun _ _ h => h) fun _ _ => trivial
      rintro topics w' ⟨hlive, ⟨_, hlag'⟩ | ⟨hshow, _⟩⟩
      · omega
      · exact ⟨hlive, hshow⟩
  | succ retries ih =>
      refine Prog.wp_seq (listTopicsOnce_spec hexpected hconfig hname hw) ?_
      rintro topics w' ⟨hlive, ⟨rfl, hlag'⟩ | ⟨hshow, _⟩⟩
      · exact ih hlive (by omega)
      · cases topics with
        | nil =>
            obtain ⟨before, fields, after, hcontra, _⟩ := hshow
            simp at hcontra
        | cons => exact ⟨hlive, hshow⟩

theorem identifier_of_listed {topic : Topic} {fields : Dict} (h : IsListed topic fields)
    (hid : PyStr.startsWith topic.id (notificationIdentifierSpec .topic).2 = true) :
    notificationIdentifierFromData (.obj fields) .topic = some topic.id := by
  unfold notificationIdentifierFromData
  simp only [show (notificationIdentifierSpec .topic).1 = "topic-id" from rfl, h.id, hid, if_true]

/-- The listed Topic of this attempt is its own. -/
theorem ownedTopicId_listed {config : Dict} {topic : Topic} {fields : Dict} {referenced : List String}
    (h : IsListed topic fields) (hcompartment : Dict.getD config "compartment_id" .null = .str topic.compartmentId)
    (hid : PyStr.startsWith topic.id (notificationIdentifierSpec .topic).2 = true) (hnew : topic.id ∉ referenced) :
    ownedTopicId config topic.name topic.tags referenced (.obj fields) = some topic.id := by
  obtain ⟨_, shown, hfields, htags, hall⟩ := h.tags
  cases hfields
  have hlive : ¬ (Dict.get? fields "lifecycle-state" ≠ some (.str "ACTIVE") ∧
      Dict.get? fields "lifecycle-state" ≠ some (.str "CREATING")) := by
    rintro ⟨hactive, hcreating⟩
    exact h.live.elim hactive hcreating
  unfold ownedTopicId
  dsimp only
  rw [if_neg (not_not.mpr h.name), if_neg, if_neg hlive, htags]
  · dsimp only
    rw [if_pos (by simpa using fun key value he => hall (key, value) he), identifier_of_listed h hid]
    simp [hnew]
  · rw [not_not, hcompartment, Dict.getD, h.compartment]
    rfl

theorem ownedTopicId_other {config : Dict} {topicName : String} {tags : Dict} {referenced : List String}
    {other : Json} (h : ¬ HasTags tags other) : ownedTopicId config topicName tags referenced other = none := by
  unfold ownedTopicId
  split
  · rename_i fields
    split
    · rfl
    · split
      · rfl
      · split
        · rfl
        · split
          · rename_i shown hshown
            rw [if_neg]
            intro hall
            exact h ⟨fields, shown, rfl, hshown, fun e he => by simpa using List.all_eq_true.mp hall e he⟩
          · rfl
  · rfl

theorem owned_of_shows {config : Dict} {topic : Topic} {topics : List Json} {referenced : List String}
    (h : Shows topic topics) (hcompartment : Dict.getD config "compartment_id" .null = .str topic.compartmentId)
    (hid : PyStr.startsWith topic.id (notificationIdentifierSpec .topic).2 = true) (hnew : topic.id ∉ referenced) :
    topics.filterMap (ownedTopicId config topic.name topic.tags referenced) = [topic.id] := by
  obtain ⟨before, fields, after, rfl, hlisted, hothers⟩ := h
  have hnone : ∀ l : List Json, (∀ other ∈ l, ¬ HasTags topic.tags other) →
      l.filterMap (ownedTopicId config topic.name topic.tags referenced) = [] := fun l hl =>
    List.filterMap_eq_nil_iff.mpr fun other hm => ownedTopicId_other (hl other hm)
  rw [List.filterMap_append, List.filterMap_cons, ownedTopicId_listed hlisted hcompartment hid hnew,
    hnone before fun o ho => hothers o (List.mem_append_left _ ho),
    hnone after fun o ho => hothers o (List.mem_append_right _ ho)]
  rfl

/-- **The recovery finds the Topic of this attempt.** -/
theorem findOwnedNotificationTopic_spec (hexpected : unexpected = false) {config : Dict}
    (hconfig : PassableFields config) {w₀ w : World} {registry : Registry} (hload : loadNotificationRegistry w₀.file = .ok registry)
    (hplain : PlainRegistry registry) {topic : Topic}
    (hcompartment : Dict.getD config "compartment_id" .null = .str topic.compartmentId)
    (hname : passable topic.name = true) (hw : Live w₀ topic w) (hlag : w.lag ≤ 2) :
    (findOwnedNotificationTopic config topic.name topic.tags).wp (topicWorld unexpected)
      ⟨fun id w' => id = topic.id ∧ Live w₀ topic w', fun _ _ => False, fun _ => True⟩ w := by
  refine Prog.wp_seq (listTopics_spec hexpected hconfig hname 2 hw hlag) ?_
  rintro topics w₁ ⟨hlive, hshow⟩
  refine Prog.wp_perform_seq trivial ?_ ?_
  · rintro registry' w₂ ⟨hr, rfl⟩
    rw [hlive.file, hload] at hr
    cases hr
    obtain ⟨ids, hids, hrefer⟩ := referencedTopicIds_spec hplain
    have hnew : topic.id ∉ ids := by
      intro hm
      rcases hrefer topic.id hm with ⟨e, he, hrefers⟩ | ⟨entries, hp, entry, he, hrefers⟩
      · exact hw.fresh.users _ hload e he hrefers
      · exact hw.fresh.pending entry (by rw [pendingOf_of_load hload hp]; exact he) hrefers
    have howned := owned_of_shows hshow hcompartment hw.fresh.isTopicId hnew
    rw [Prog.wp_bind, hids, Prog.wp_ofExcept_ok]
    dsimp only
    rw [howned]
    exact ⟨rfl, hlive⟩
  · rintro e w₂ ⟨hr, _⟩
    rw [hlive.file, hload] at hr
    cases hr

/-! ## The creation -/

structure Barren (w₀ w : World) : Prop where
  created : w.created = []
  stored : w.stored = false
  users : usersOf w.file = usersOf w₀.file

theorem Barren.settled {w₀ w : World} (h : Barren w₀ w) : Settled w₀ w :=
  ⟨h.stored, h.users, fun topic ht => by rw [h.created] at ht; cases ht⟩

/-- The calls that neither create a resource nor change a routing. -/
def isAside : CliCall → Prop
  | .oci command => CreatesNothing command
  | .registry (.storeUserRouting ..) | .registry (.removeUserRouting _) | .registry (.restoreUserRouting ..) => False
  | _ => True

theorem keeps_barren {α : Type} {p : Cli α} (hp : p.Calls isAside) (w₀ : World) :
    p.Keeps (topicWorld unexpected) (Barren w₀) := by
  refine Prog.keeps_of_calls hp fun w call r w' haside hw hr => ?_
  have heffect : effect unexpected w call r w' := hr
  cases call with
  | oci command =>
      have hsame := sameBut_of_createsNothing haside hr
      exact ⟨hsame.created.trans hw.created, hsame.stored.trans hw.stored, by rw [hsame.file, hw.users]⟩
  | ldap call => rwa [show w' = w from heffect]
  | host call => rwa [show w' = w from heffect]
  | registry call =>
      cases call with
      | loadNotificationRegistry => rwa [heffect.2]
      | storeUserRouting | removeUserRouting | restoreUserRouting => exact haside.elim
      | recordPendingCleanup =>
          obtain ⟨_, _, hok, _, rfl⟩ := heffect
          exact ⟨hw.created, hw.stored, (record_spec hok).1.trans hw.users⟩
      | syncBackupRegistry =>
          rcases heffect with rfl | ⟨marker, io, rfl⟩
          · exact hw
          · exact ⟨hw.created, hw.stored, (update_keepsRouting (keepsRouting_clear marker) io _).1.trans hw.users⟩
      | recordPendingBackupSync =>
          obtain ⟨stamp, io, _, rfl⟩ := heffect
          exact ⟨hw.created, hw.stored, (update_keepsRouting (keepsRouting_record stamp _) io _).1.trans hw.users⟩

structure CanCreate (config : Dict) (user topicName : String) : Prop where
  fields : PassableFields config
  user : passable user = true
  name : passable topicName = true

theorem passable_append {s t : String} : passable (s ++ t) = true ↔ passable s = true ∧ passable t = true := by
  simp [passable]

def TopicCreation (config : Dict) (user topicName : String) (tags : Dict) (w₀ : World) (r : Except CliError String)
    (w : World) : Prop :=
  match r with
  | .ok id => CanCreate config user topicName ∧ ∃ topic, topic.id = id ∧ Live w₀ topic w
  | .error _ => SameBut w₀ w ∨ (CanCreate config user topicName ∧ w.lag = w₀.lag ∧ ∃ topic, Live w₀ topic w ∧
      Dict.getD config "compartment_id" .null = .str topic.compartmentId ∧ topic.name = topicName ∧ topic.tags = tags)

/-- The command that creates the Topic can be started only where `CanCreate` says so. -/
theorem canCreate_of_startable {config : Dict} {user topicName : String} {tags : Dict} {command : OciCommand}
    (hcommand : ociCommand config (match argument (Dict.get? config "compartment_id") with
      | .ok compartmentId =>
          .ok (.topicCreate compartmentId topicName ("Slurm job notifications for " ++ user) tags)
      | .error e => .error e) = .ok command) (hstart : command.startable = true) :
    CanCreate config user topicName ∧ ∃ compartmentId, Dict.get? config "compartment_id" = some (.str compartmentId) ∧
      command.request = .topicCreate compartmentId topicName ("Slurm job notifications for " ++ user) tags := by
  obtain ⟨hauth, hregion, hrequest⟩ := ociCommand_eq_ok.mp hcommand
  obtain ⟨hpassAuth, hpassRegion, htexts⟩ := startable_iff.mp hstart
  split at hrequest
  case h_2 => cases hrequest
  rename_i compartmentId hcompartment
  replace hrequest := Except.ok.inj hrequest
  rw [← hrequest] at htexts
  simp only [OciRequest.texts, List.mem_cons, List.not_mem_nil, or_false, forall_eq_or_imp, forall_eq,
    passable_append] at htexts
  obtain ⟨hpass, hname, -, huser⟩ := htexts
  rw [argument_eq_ok] at hcompartment
  exact ⟨⟨⟨⟨_, hauth, hpassAuth⟩, ⟨_, hregion, hpassRegion⟩, ⟨_, hcompartment, hpass⟩⟩, huser, hname⟩,
    compartmentId, hcompartment, hrequest.symm⟩

theorem createTopic_spec {config : Dict} {user topicName : String} (tags : Dict)
    (hexpected : CanCreate config user topicName → unexpected = false) {w : World} (hcreated : w.created = [])
    (hstored : w.stored = false) :
    (createTopic config user topicName tags).wp (topicWorld unexpected)
      ⟨TopicCreation config user topicName tags w, fun _ w' => SameBut w w', fun _ => True⟩ w := by
  unfold createTopic
  dsimp only
  rw [Prog.wp_bind, Prog.wp_attempt, wp_oci, wp_runOci]
  split
  · rename_i e _
    cases e with
    | timedOut => exact .inl ⟨rfl, rfl, rfl⟩
    | _ => exact ⟨rfl, rfl, rfl⟩
  · rename_i command hcommand
    refine ⟨trivial, fun outcome w' hr => ?_, fun e w' hr => ?_⟩
    · obtain ⟨hstart, heffect⟩ : _ ∧ ociEffect w command outcome w' := hr
      obtain ⟨hcan, compartmentId, hcompartment, hrequest⟩ := canCreate_of_startable hcommand hstart
      have hnot : ∀ id, ¬ showsGone .topic id command outcome := fun id => by simp [showsGone, hrequest]
      have hcommands := fun id (hid : ¬ w.gone .topic id) => not_gone_append hid heffect (hnot id)
      unfold ociEffect at heffect
      simp only [hrequest] at heffect
      rcases heffect with ⟨rfl, hfailed⟩ | ⟨id, hfresh, hw', houtcome⟩
      · -- nothing was created
        rw [Prog.wp_ofExcept]
        cases outcome with
        | success stdout => exact absurd rfl (hfailed stdout)
        | timedOut => exact .inl ⟨rfl, rfl, rfl⟩
        | failed status detail =>
            by_cases hdetail : detail = ""
            · rw [ociResult, if_neg (not_not.mpr hdetail)]
              exact ⟨rfl, rfl, rfl⟩
            · rw [ociResult, if_pos hdetail]
              exact ⟨rfl, rfl, rfl⟩
        | _ => exact ⟨rfl, rfl, rfl⟩
      · have hlive : Live w ⟨id, compartmentId, topicName, tags⟩ w' :=
          { file := by rw [hw']
            created := by simp [hw', hcreated]
            stored := by rw [hw', hstored]
            alive := hcommands id hfresh.unseen
            fresh := hfresh }
        have huncertain : ∀ e, TopicCreation config user topicName tags w (.error e) w' := fun _ =>
          .inr ⟨hcan, by rw [hw'], _, hlive, by rw [Dict.getD, hcompartment]; rfl, rfl, rfl⟩
        rcases houtcome with rfl | ⟨stdout, rfl, hshown⟩
        · exact huncertain (.timedOut "OCI CLI timed out after 120 seconds")
        · show TopicCreation config user topicName tags w (ociIdentifier stdout .topic) w'
          cases hid : ociIdentifier stdout .topic with
          | error e => exact huncertain e
          | ok shown => exact ⟨hcan, _, (hshown shown hid).symm, hlive⟩
    · obtain ⟨hnot, hraised⟩ : e.isNotification = false ∧
        (command.startable = false ∧ w' = w ∨
          unexpected = true ∧ command.startable = true ∧ unreadEffect w command w') := hr
      have hsame : SameBut w w' := by
        rcases hraised with ⟨-, rfl⟩ | ⟨hraise, hstart, -⟩
        · exact ⟨rfl, rfl, rfl⟩
        · have hexpected := hexpected (canCreate_of_startable hcommand hstart).1
          exact absurd (hexpected.symm.trans hraise) Bool.false_ne_true
      cases e with
      | timedOut => cases hnot
      | _ => exact hsame

theorem createSubscription_spec (hexpected : unexpected = false) {config : Dict} (hconfig : PassableFields config)
    {topicId email : String} (hid : passable topicId = true) (hemail : passable email = true) (tags : Dict) {w₀ w : World}
    {topic : Topic} (hw : Live w₀ topic w) :
    (createSubscription config topicId email tags).wp (topicWorld unexpected)
      ⟨fun id w' => passable id = true ∧ Live w₀ topic w', fun e w' => e.isNotification = true ∧ Live w₀ topic w',
        fun _ => True⟩ w := by
  obtain ⟨compartmentId, hcompartment, hpass⟩ := hconfig.compartment
  obtain ⟨command, hcommand, hrequest, hstart⟩ :=
    hconfig.ociCommand_ok (.subscriptionCreate compartmentId topicId email tags)
      (by simp [OciRequest.texts, hpass, hid, hemail])
  unfold createSubscription
  rw [hcompartment, argument_eq_ok.mpr rfl]
  refine Prog.wp_seq (R := fun stdout w' => Live w₀ topic w' ∧
    ∀ id, ociIdentifier stdout .subscription = .ok id → passable id = true) ?_ fun stdout w' hw' => ?_
  · rw [wp_oci, wp_runOci, hcommand]
    refine ⟨trivial, fun outcome w' hr => ?_, fun _ _ hr => (no_raise hexpected hstart hr).elim⟩
    obtain ⟨-, heffect⟩ : _ ∧ ociEffect w command outcome w' := hr
    have hanswer := heffect
    unfold ociEffect at hanswer
    simp only [hrequest] at hanswer
    obtain ⟨hw', hshown⟩ := hanswer
    have hlive : Live w₀ topic w' :=
      hw.keep (by rw [hw']; exact ⟨rfl, rfl, rfl⟩) heffect (by simp [showsGone, hrequest])
    rw [Prog.wp_ofExcept]
    split
    · exact ⟨hlive, fun id => hshown _ id (ociResult_eq_ok ‹_›)⟩
    · rename_i e he
      exact ⟨ociResult_isNotification he, hlive⟩
  · rw [Prog.wp_ofExcept]
    split
    · exact ⟨hw'.2 _ ‹_›, hw'.1⟩
    · rename_i e he
      refine ⟨?_, hw'.1⟩
      unfold ociIdentifier at he
      split at he <;> cases he
      rfl

theorem identifierOf_topicId {fields : Dict} {id : String} (h : Dict.get? fields "topic_id" = some (.str id))
    (hid : PyStr.startsWith id (notificationIdentifierSpec .topic).2 = true) :
    identifierOf fields .topic = some (.str id) := by
  refine Option.filter_eq_some_iff.mpr ⟨h, ?_⟩
  have hne : id ≠ "" := by
    rintro rfl
    exact absurd hid (by decide)
  simpa [Json.truthy] using hne

theorem passableIdentifiers_topicOnly {topicId : String} (hid : passable topicId = true) (email : String) :
    PassableIdentifiers (topicOnly topicId email) := by
  intro type value h
  have hget := (Option.filter_eq_some_iff.mp h).1
  cases type
  · exact ⟨topicId, by simpa [topicOnly, ResourceType.field, Dict.get?] using hget.symm, hid⟩
  · simp [topicOnly, ResourceType.field, Dict.get?] at hget

theorem settle_topicOnly (hexpected : unexpected = false) {config : Dict} (hconfig : PassableFields config)
    (user email : String) {w₀ w : World} {topic : Topic} (hw : Live w₀ topic w) :
    (deleteOrRecord config user (topicOnly topic.id email)).wp (topicWorld unexpected)
      ⟨fun _ w' => Settled w₀ w', fun _ _ => False, fun _ => True⟩ w := by
  refine deleteOrRecord_spec hexpected hconfig (passableIdentifiers_topicOnly hw.fresh.passable email) user hw.stored
    (by rw [hw.file]) ?_
  intro topic' ht
  rw [hw.created] at ht
  rw [List.mem_singleton.mp ht]
  exact identifierOf_topicId rfl hw.fresh.isTopicId

theorem passableIdentifiers_created {topicId subscriptionId : String} (htopic : passable topicId = true)
    (hsubscription : passable subscriptionId = true) (email : String) :
    PassableIdentifiers [("email", .str email), ("topic_id", .str topicId), ("subscription_id", .str subscriptionId),
      ("managed_by", .str "cluster-cli")] := by
  intro type value h
  have hget := (Option.filter_eq_some_iff.mp h).1
  cases type
  · exact ⟨topicId, by simpa [ResourceType.field, Dict.get?] using hget.symm, htopic⟩
  · exact ⟨subscriptionId, by simpa [ResourceType.field, Dict.get?] using hget.symm, hsubscription⟩

structure RoutingFor (w₀ : World) (config entry : Dict) (topic : Topic) (w : World) : Prop where
  live : Live w₀ topic w
  config : PassableFields config
  identifiers : PassableIdentifiers entry
  topic : identifierOf entry .topic = some (.str topic.id)

/-- **Creation**: a Topic and its entry, or an error after which every Topic is gone or in the journal. -/
theorem createNotificationResources_spec (sha256Hex : String → String) {config : Dict} {user email : String}
    {w : World} {registry : Registry} (hload : loadNotificationRegistry w.file = .ok registry)
    (hcan : CanCreate config user (notificationTopicName sha256Hex config user) →
      unexpected = false ∧ PlainRegistry registry)
    (hemail : passable email = true) (hcreated : w.created = []) (hstored : w.stored = false) (hlag : w.lag ≤ 2) :
    (createNotificationResources sha256Hex config user email).wp (topicWorld unexpected)
      ⟨fun entry w' => unexpected = false ∧ ∃ topic, RoutingFor w config entry topic w',
        fun _ w' => Settled w w', fun _ => True⟩ w := by
  have hbarren : Barren w w := ⟨hcreated, hstored, rfl⟩
  refine Prog.wp_perform_seq trivial ?_ ?_
  · intro provisionId w' hw'
    rw [show w' = w from hw']
    refine Prog.wp_seq (Prog.wp_mono (createTopic_spec _ (fun h => (hcan h).1) hcreated hstored) (fun _ _ h => h)
      (fun _ w' hsame => ?_) fun _ _ => trivial) ?_
    · exact Barren.settled ⟨hsame.created.trans hcreated, hsame.stored.trans hstored, by rw [hsame.file]⟩
    · intro r w₁ hr
      cases r with
      | error topicError =>
          rcases hr with hsame | ⟨hcreate, hlag₁, topic, hlive, hcompartment, hname, htags⟩
          · have hw₁ : Barren w w₁ := ⟨hsame.created.trans hcreated, hsame.stored.trans hstored, by rw [hsame.file]⟩
            have haside := calls_cleanupTopicAfterUncertainCreation (P := isAside) (fun _ h => h) trivial
              (fun _ _ _ => trivial) config user email (notificationTopicName sha256Hex config user)
              (provisionTags config user provisionId)
            exact Prog.wp_seq (Prog.wp_mono (keeps_barren haside w w₁ hw₁) (fun _ _ h => h)
              (fun _ _ h => h.settled) fun _ _ => trivial) fun _ _ h => h.settled
          · obtain ⟨hexpected, hplain⟩ := hcan hcreate
            refine Prog.wp_seq (R := fun _ w' => Settled w w') ?_ fun _ _ h => h
            refine wp_exceptNotification (E := fun _ _ => False) ?_ (fun _ _ h => h.elim) fun _ _ h => h.elim
            dsimp only
            rw [← hname, ← htags]
            refine Prog.wp_seq (findOwnedNotificationTopic_spec hexpected hcreate.fields hload hplain hcompartment
              (hname ▸ hcreate.name) hlive (hlag₁ ▸ hlag)) ?_
            rintro _ w₂ ⟨rfl, hlive₂⟩
            exact settle_topicOnly hexpected hcreate.fields user email hlive₂
      | ok topicId =>
          obtain ⟨hcreate, topic, rfl, hlive⟩ := hr
          obtain ⟨hexpected, -⟩ := hcan hcreate
          refine wp_exceptNotification (E := fun e w' => e.isNotification = true ∧ Live w topic w') ?_ ?_ ?_
          · refine Prog.wp_seq (createSubscription_spec hexpected hcreate.fields hlive.fresh.passable hemail _ hlive) ?_
            rintro id w₂ ⟨hpass, hlive₂⟩
            exact ⟨hexpected, topic, hlive₂, hcreate.fields, passableIdentifiers_created hlive₂.fresh.passable hpass email,
              identifierOf_topicId rfl hlive₂.fresh.isTopicId⟩
          · rintro e w₂ ⟨_, hlive₂⟩ _
            exact Prog.wp_seq (Prog.wp_mono (settle_topicOnly hexpected hcreate.fields user email hlive₂) (fun _ _ h => h)
              (fun _ _ h => h.elim) fun _ _ => trivial) fun _ _ h => h
          · rintro e w₂ ⟨he, _⟩ hne
            rw [he] at hne
            cases hne
  · rintro e _ rfl
    exact hbarren.settled

/-! ## The command -/

def isStill : CliCall → Prop
  | .ldap _ | .host _ | .registry .loadNotificationRegistry => True
  | _ => False

theorem keeps_still {α : Type} {p : Cli α} (hp : p.Calls isStill) (w₀ : World) :
    p.Keeps (topicWorld unexpected) (· = w₀) := by
  refine Prog.keeps_of_calls hp fun w call r w' hstill hw hr => ?_
  have heffect : effect unexpected w call r w' := hr
  cases call with
  | oci => exact hstill.elim
  | ldap => exact (show w' = w from heffect).trans hw
  | host => exact (show w' = w from heffect).trans hw
  | registry call =>
      cases call with
      | loadNotificationRegistry => exact heffect.2.trans hw
      | _ => exact hstill.elim

theorem still_createLdapUser (user password : String) (uid gid : Json) (name : String) (email : Option String) :
    (createLdapUser user password uid gid name email).Calls isStill := by
  refine Prog.Calls.bind (calls_call trivial) fun gidExists => Prog.Calls.bind (calls_call trivial) fun _ =>
    Prog.Calls.bind (Prog.Calls.bind (calls_call trivial) fun _ => Prog.calls_ofExcept ..) fun _ => ?_
  split
  · trivial
  · refine Prog.Calls.bind (Prog.Calls.attempt ?_) fun r => ?_
    · exact Prog.Calls.bind (calls_call trivial) fun _ =>
        Prog.Calls.bind (calls_call trivial) fun _ => Prog.calls_ofExcept ..
    · cases r with
      | ok => trivial
      | error e => exact Prog.Calls.bind (calls_call trivial) fun _ => trivial

theorem still_rollbackDelete (issue dn : String) : (rollbackDelete issue dn).Calls isStill := by
  refine Prog.Calls.bind (Prog.Calls.attempt (calls_call trivial)) fun r => ?_
  cases r <;> trivial

theorem still_rollbackLdapUser (user : String) (groupCreated : Bool) :
    (rollbackLdapUser user groupCreated).Calls isStill := by
  refine Prog.Calls.bind (Prog.Calls.attempt (calls_call trivial)) fun r => ?_
  cases r with
  | error => trivial
  | ok =>
      refine Prog.Calls.bind ?_ fun _ => (still_rollbackDelete ..).bind fun _ => trivial
      split
      · exact still_rollbackDelete ..
      · trivial

structure Checked (options : AddOptions) (file : RegistryFile) (registry : Registry) (config : Option Dict)
    (email : Option String) : Prop where
  loaded : loadNotificationRegistry file = .ok registry
  config : ∀ c, config = some c → notificationsEnabled registry = true ∧ validatedNotificationConfig registry = .ok c
  email : ∀ e, email = some e → validateEmail e = true ∧ ∀ given, options.email = some given → PyStr.strip given = e

theorem addChecks_spec (options : AddOptions) (w : World) :
    (addChecks options).wp (topicWorld unexpected)
      ⟨fun checked w' => Checked options w.file checked.1 checked.2.1 checked.2.2 ∧ w' = w, fun _ w' => w' = w,
        fun _ => True⟩ w := by
  have hkeeps : (addChecks options).Keeps (topicWorld unexpected) (· = w) :=
    keeps_still (calls_addChecks trivial (fun _ => trivial) options) w
  refine Prog.wp_mono (Prog.wp_and_keeps (Q := ⟨fun checked _ => Checked options w.file checked.1 checked.2.1 checked.2.2,
    fun _ _ => True, fun _ => True⟩) hkeeps rfl ?_) (fun _ _ h => h) (fun _ _ h => h.2) fun _ _ => trivial
  refine Prog.wp_seq (R := fun registry _ => loadNotificationRegistry w.file = .ok registry) ?_ fun registry w' hload => ?_
  · refine wp_exceptNotification (E := fun _ _ => True) ?_ (fun _ _ _ _ => trivial) fun _ _ _ _ => trivial
    exact (Prog.wp_perform (S := cliSig) _ _ _).mpr ⟨trivial, fun registry _ hr => hr.1.symm, fun _ _ _ => trivial⟩
  refine Prog.wp_seq (R := fun checked _ =>
    (∀ c, checked.1 = some c → notificationsEnabled registry = true ∧ validatedNotificationConfig registry = .ok c) ∧
      ∀ given, options.email = some given → checked.2 = some given) ?_ ?_
  · split
    · rename_i henabled
      refine Prog.wp_seq (R := fun config _ => validatedNotificationConfig registry = .ok config) ?_ fun config w₁ hvalid => ?_
      · refine wp_exceptNotification (E := fun _ _ => True) ?_ (fun _ _ _ _ => trivial) fun _ _ _ _ => trivial
        rw [Prog.wp_ofExcept]
        split
        · assumption
        · trivial
      · have hconfig : ∀ c, some config = some c →
            notificationsEnabled registry = true ∧ validatedNotificationConfig registry = .ok c := fun c hc =>
          ⟨henabled, Option.some.inj hc ▸ hvalid⟩
        split
        · rename_i email hemail
          exact ⟨hconfig, fun given hgiven => hemail.symm.trans hgiven⟩
        · rename_i hemail
          exact Prog.wp_perform_seq trivial (fun email w₂ _ => ⟨hconfig, fun given hgiven => nomatch hemail.symm.trans hgiven⟩)
            fun _ _ _ => trivial
    · exact ⟨nofun, fun given hgiven => hgiven⟩
  · rintro ⟨config, email⟩ w₁ ⟨hconfig, hgiven⟩
    dsimp only at hconfig hgiven ⊢
    split
    · trivial
    · rename_i hvalid
      refine ⟨hload, hconfig, fun e he => ?_⟩
      replace he : email.map PyStr.strip = some e := he
      rw [he] at hvalid
      refine ⟨by simpa using hvalid, fun given hoption => ?_⟩
      rw [hgiven given hoption] at he
      exact Option.some.inj he

theorem RoutingFor.settle (hexpected : unexpected = false) {w₀ w : World} {config entry : Dict} {topic : Topic}
    (h : RoutingFor w₀ config entry topic w) (user : String) :
    (deleteOrRecord config user entry).wp (topicWorld unexpected)
      ⟨fun _ w' => Settled w₀ w', fun _ _ => False, fun _ => True⟩ w := by
  refine deleteOrRecord_spec hexpected h.config h.identifiers user h.live.stored (by rw [h.live.file]) fun topic' ht => ?_
  rw [h.live.created] at ht
  rw [List.mem_singleton.mp ht, h.topic]

/-- The command can come to the creation of its Topic. -/
structure Provisions (sha256Hex : String → String) (options : AddOptions) (registry : Registry) : Prop where
  enabled : notificationsEnabled registry = true
  config : ∃ config, validatedNotificationConfig registry = .ok config ∧
    CanCreate config options.user (notificationTopicName sha256Hex config options.user)
  email : ∀ email, options.email = some email → validateEmail (PyStr.strip email) = true
  unrouted : Dict.get? registry.users options.user = none

theorem addRouting_spec (sha256Hex : String → String) {options : AddOptions} {registry : Registry}
    {config : Option Dict} {email : Option String} {w : World} (hchecked : Checked options w.file registry config email)
    (hprovisions : Provisions sha256Hex options registry → unexpected = false ∧ PlainRegistry registry)
    (hcreated : w.created = []) (hstored : w.stored = false) (hlag : w.lag ≤ 2) :
    (addRouting sha256Hex options.user registry config email).wp (topicWorld unexpected)
      ⟨fun routing w' => match routing with
          | none => w' = w
          | some (config, entry) => unexpected = false ∧ ∃ topic, RoutingFor w config entry topic w',
        fun _ w' => Settled w w', fun _ => True⟩ w := by
  cases config with
  | none => exact rfl
  | some config =>
      cases email with
      | none => exact rfl
      | some email =>
          have hbarren : Barren w w := ⟨hcreated, hstored, rfl⟩
          obtain ⟨henabled, hconfig⟩ := hchecked.config config rfl
          obtain ⟨hvalid, hgiven⟩ := hchecked.email email rfl
          unfold addRouting
          dsimp only
          split
          · exact hbarren.settled
          · rename_i hrouted
            have hcan : CanCreate config options.user (notificationTopicName sha256Hex config options.user) →
                unexpected = false ∧ PlainRegistry registry := fun hcan =>
              hprovisions ⟨henabled, ⟨config, hconfig, hcan⟩, fun given hoption => by rw [hgiven given hoption]; exact hvalid,
                by simpa using hrouted⟩
            refine Prog.wp_seq (R := fun entry w' => unexpected = false ∧ ∃ topic, RoutingFor w config entry topic w') ?_
              fun _ _ h => h
            refine wp_exceptNotification (E := fun _ w' => Settled w w') ?_ (fun _ _ h _ => h) fun _ _ h _ => h
            exact createNotificationResources_spec sha256Hex hchecked.loaded hcan (passable_of_validateEmail hvalid)
              hcreated hstored hlag

theorem addLdap_spec (hexpected : unexpected = false) (options : AddOptions) (uid gid : Json) (email : Option String)
    {w₀ w : World} {config entry : Dict} {topic : Topic} (hw : RoutingFor w₀ config entry topic w) :
    (addLdap options uid gid email (some (config, entry))).wp (topicWorld unexpected)
      ⟨fun _ w' => w' = w, fun _ w' => Settled w₀ w', fun _ => True⟩ w := by
  unfold addLdap
  rw [Prog.wp_tryCatch]
  refine Prog.wp_mono (keeps_still (still_createLdapUser ..) w w rfl) (fun _ _ h => h) (fun error w' hw' => ?_)
    fun _ _ => trivial
  rw [show w' = w from hw']
  exact Prog.wp_seq (Prog.wp_mono (hw.settle hexpected options.user) (fun _ _ h => h) (fun _ _ h => h.elim)
    fun _ _ => trivial) fun _ _ h => h

structure Routed (user : String) (topic : Topic) (w : World) : Prop where
  created : w.created = [topic]
  stored : w.stored = true
  routed : RoutedTo user topic w
  alive : ¬ w.gone .topic topic.id
  notPending : ¬ InJournal topic w

theorem Routed.accounted {user : String} {topic : Topic} {w₀ w : World} (h : Routed user topic w) :
    Accounted user w₀ w := by
  have hall : ∀ topic' ∈ w.created, topic' = topic := fun topic' ht => by
    rw [h.created] at ht
    exact List.mem_singleton.mp ht
  refine ⟨fun topic' ht => ?_, fun _ topic' ht => ?_, fun hs => ?_⟩
  · rw [hall topic' ht]
    exact .inl h.routed
  · rw [hall topic' ht]
    exact ⟨h.routed, h.alive, h.notPending⟩
  · rw [h.stored] at hs
    cases hs

theorem storeUserRouting_routes {user : String} {entry : Dict} {stamp : Stamp} {io : UpdateIo} {file : RegistryFile}
    (h : (updateNotificationRegistry (storeUserRouting user entry stamp) io file).1 = .ok ()) :
    let file' := (updateNotificationRegistry (storeUserRouting user entry stamp) io file).2
    (∃ users, usersOf file' = some users ∧ users user = some (.obj entry)) ∧ pendingOf file' = pendingOf file := by
  rcases updateNotificationRegistry_cases (storeUserRouting user entry stamp) io file with
    ⟨e, he⟩ | ⟨registry, result, updated, hl, hm, hu⟩
  · rw [he] at h
    cases h
  · unfold storeUserRouting at hm
    split at hm <;> cases hm
    rw [hu]
    refine ⟨⟨_, usersOf_toJson _, Dict.get?_set_self ..⟩, ?_⟩
    simp [pendingOf, hl, pendingCleanup, Dict.getD, markBackupSyncPending, Dict.get?_set_ne]

theorem addStore_spec (hexpected : unexpected = false) {user : String} (groupCreated : Bool) {w₀ w : World} {config entry : Dict} {topic : Topic}
    (hw : RoutingFor w₀ config entry topic w) :
    (addStore user groupCreated config entry).wp (topicWorld unexpected)
      ⟨fun _ w' => Routed user topic w', fun _ w' => Settled w₀ w', fun _ => True⟩ w := by
  refine wp_exceptNotification (E := fun e w' => e.isNotification = true ∧ w' = w) ?_ ?_ ?_
  · refine (Prog.wp_perform (S := cliSig) _ _ _).mpr ⟨trivial, fun _ w' hr => ?_, fun e w' hr => ?_⟩
    · obtain ⟨stamp, io, hok, rfl⟩ := hr
      obtain ⟨⟨users, husers, hentry⟩, hpending⟩ := storeUserRouting_routes hok.symm
      exact
        { created := hw.live.created
          stored := by simp [← hok, Except.isOk, Except.toBool]
          routed := ⟨users, _, husers, hentry, hw.topic⟩
          alive := hw.live.alive
          notPending := by
            rintro ⟨e, he, hrefers⟩
            rw [hpending, hw.live.file] at he
            exact hw.live.fresh.pending e he hrefers }
    · obtain ⟨stamp, io, herror, rfl⟩ := hr
      refine ⟨storeUserRouting_isNotification herror.symm, ?_⟩
      rcases updateNotificationRegistry_cases (storeUserRouting user entry stamp) io w.file with
        ⟨e', he⟩ | ⟨_, _, _, _, _, hu⟩
      · simp [he, Except.isOk, Except.toBool]
      · rw [hu] at herror
        cases herror
  · rintro e _ ⟨_, rfl⟩ _
    refine Prog.wp_seq (Prog.wp_mono (Prog.wp_and_keeps (keeps_still (still_rollbackLdapUser user groupCreated) _) rfl
      (rollbackLdapUser_returns (topicWorld unexpected) user groupCreated _)) (fun _ _ h => h.2) (fun _ _ h => h.1.elim)
      fun _ _ => trivial) ?_
    rintro rollbackErrors _ rfl
    exact Prog.wp_seq (Prog.wp_mono (hw.settle hexpected user) (fun _ _ h => h) (fun _ _ h => h.elim) fun _ _ => trivial)
      fun _ _ h => h
  · rintro e w' ⟨he, _⟩ hne
    rw [he] at hne
    cases hne

def isFinish : CliCall → Prop
  | .host _ | .registry .loadNotificationRegistry | .registry (.syncBackupRegistry _) => True
  | .registry (.recordPendingBackupSync _) => True
  | _ => False

theorem isAside_of_isFinish (call : CliCall) (h : isFinish call) : isAside call := by
  cases call with
  | registry call => cases call <;> trivial
  | _ => trivial

theorem finish_addFinish (options : AddOptions) (email : Option String) (routed : Bool) :
    (addFinish options email routed).Calls isFinish :=
  calls_addFinish (calls_addSync trivial (fun _ => trivial) fun _ => trivial) (fun _ => trivial) ..

theorem keeps_routed {α : Type} {p : Cli α} (hp : p.Calls isFinish) (user : String) (topic : Topic) :
    p.Keeps (topicWorld unexpected) (Routed user topic) := by
  have hfile : ∀ {w : World} {file : RegistryFile}, Routed user topic w → usersOf file = usersOf w.file →
      pendingOf file = pendingOf w.file → Routed user topic { w with file } := by
    intro w file hw husers hpending
    obtain ⟨users, entry, hu, he⟩ := hw.routed
    exact ⟨hw.created, hw.stored, ⟨users, entry, husers.trans hu, he⟩, hw.alive, fun ⟨e, hm, hr⟩ =>
      hw.notPending ⟨e, hpending ▸ hm, hr⟩⟩
  refine Prog.keeps_of_calls hp fun w call r w' hfinish hw hr => ?_
  have heffect : effect unexpected w call r w' := hr
  cases call with
  | oci => exact hfinish.elim
  | ldap => exact hfinish.elim
  | host => rwa [show w' = w from heffect]
  | registry call =>
      cases call with
      | loadNotificationRegistry => rwa [heffect.2]
      | storeUserRouting | removeUserRouting | restoreUserRouting => exact hfinish.elim
      | recordPendingCleanup => exact hfinish.elim
      | syncBackupRegistry =>
          rcases heffect with rfl | ⟨marker, io, rfl⟩
          · exact hw
          · have hkeeps := update_keepsRouting (keepsRouting_clear marker) io w.file
            exact hfile hw hkeeps.1 hkeeps.2
      | recordPendingBackupSync error =>
          obtain ⟨stamp, io, _, rfl⟩ := heffect
          have hkeeps := update_keepsRouting (keepsRouting_record stamp error) io w.file
          exact hfile hw hkeeps.1 hkeeps.2

theorem add_spec (sha256Hex : String → String) (options : AddOptions) {w : World} (hcreated : w.created = [])
    (hstored : w.stored = false) (hlag : w.lag ≤ 2)
    (hprovisions : ∀ registry, loadNotificationRegistry w.file = .ok registry →
      Provisions sha256Hex options registry → unexpected = false ∧ PlainRegistry registry) :
    (add sha256Hex options).wp (topicWorld unexpected)
      ⟨fun _ w' => Accounted options.user w w', fun _ w' => Accounted options.user w w', fun _ => True⟩ w := by
  have hbarren : Barren w w := ⟨hcreated, hstored, rfl⟩
  have hstill : ∀ {α : Type} {p : Cli α}, p.Calls isStill → p.wp (topicWorld unexpected) ⟨fun _ w₁ => w₁ = w,
      fun _ w₁ => Accounted options.user w w₁, fun _ => True⟩ w := fun hp =>
    Prog.wp_mono (keeps_still hp w w rfl) (fun _ _ h => h) (fun _ w₁ hw₁ => by
      rw [show w₁ = w from hw₁]
      exact hbarren.settled.accounted) fun _ _ => trivial
  refine Prog.wp_seq (Prog.wp_mono (addChecks_spec options w) (fun _ _ h => h) (fun _ w₁ hw₁ => ?_)
    fun _ _ => trivial) ?_
  · rw [show w₁ = w from hw₁]
    exact hbarren.settled.accounted
  rintro ⟨registry, config, email⟩ w₁ ⟨hchecked, hw₁⟩
  rw [hw₁]
  refine Prog.wp_seq (hstill (calls_idOr _ (calls_call trivial))) fun uid w₂ hw₂ => ?_
  rw [hw₂]
  refine Prog.wp_seq (hstill (calls_idOr _ (calls_call trivial))) fun gid w₃ hw₃ => ?_
  rw [hw₃]
  refine Prog.wp_seq (Prog.wp_mono (addRouting_spec sha256Hex hchecked
    (hprovisions registry hchecked.loaded) hcreated hstored hlag) (fun _ _ h => h) (fun _ _ h => h.accounted) fun _ _ => trivial)
    fun routing w₄ hw₄ => ?_
  cases routing with
  | none =>
      rw [show w₄ = w from hw₄]
      refine Prog.wp_seq (hstill ?_) fun groupCreated w₅ hw₅ => ?_
      · exact (still_createLdapUser ..).tryCatch fun _ => trivial
      · rw [hw₅]
        exact Prog.wp_mono (keeps_barren ((finish_addFinish options email false).mono isAside_of_isFinish) w w hbarren)
          (fun _ _ h => h.settled.accounted) (fun _ _ h => h.settled.accounted) fun _ _ => trivial
  | some routing =>
      obtain ⟨config, entry⟩ := routing
      obtain ⟨hexpected, topic, hrouting⟩ := hw₄
      refine Prog.wp_seq (Prog.wp_mono (addLdap_spec hexpected options uid gid email hrouting) (fun _ _ h => h)
        (fun _ _ h => h.accounted) fun _ _ => trivial) fun groupCreated w₅ hw₅ => ?_
      rw [hw₅]
      refine Prog.wp_seq (Prog.wp_mono (addStore_spec hexpected groupCreated hrouting) (fun _ _ h => h)
        (fun _ _ h => h.accounted) fun _ _ => trivial) fun _ w₆ hrouted => ?_
      exact Prog.wp_mono (keeps_routed (finish_addFinish options email true) options.user topic w₆ hrouted)
        (fun _ _ h => h.accounted) (fun _ _ h => h.accounted) fun _ _ => trivial

end

/-! ## Topics that are left behind -/

def start (file : RegistryFile) (lag : Nat) : World := ⟨file, [], [], lag, false⟩

def referredTo (entry : Json) : Option String :=
  match identifierIn entry .topic with
  | some (.str id) => some id
  | _ => none

theorem referredTo_eq_some {id : String} {entry : Json} (h : RefersTo id entry) : referredTo entry = some id := by
  rw [referredTo, h]

theorem exists_fresh {w : World} (hcommands : w.commands = []) : ∃ id, Fresh w id := by
  let name (n : Nat) := String.ofList ("ocid1.onstopic.".toList ++ List.replicate n 'a')
  let users := ((loadNotificationRegistry w.file).toOption.map fun registry => registry.users.map (·.2)).getD []
  have hinj : Function.Injective name := by
    intro m n h
    have hlength := congrArg List.length (String.ofList_injective h)
    simpa using hlength
  obtain ⟨_, ⟨n, rfl⟩, hnew⟩ := (Set.infinite_range_of_injective hinj).exists_notMem_finset
    ((users ++ pendingOf w.file).filterMap referredTo).toFinset
  have hunreferred : ∀ entry ∈ users ++ pendingOf w.file, ¬ RefersTo (name n) entry := fun entry hentry hrefers =>
    hnew (List.mem_toFinset.mpr (List.mem_filterMap.mpr ⟨entry, hentry, referredTo_eq_some hrefers⟩))
  refine ⟨name n, ?_, ?_, ?_, fun registry hload e he => ?_, fun entry he => ?_⟩
  · show ("ocid1.onstopic.".toList).isPrefixOf (name n).toList = true
    simp [name]
  · simp [passable, name]
  · rintro ⟨c, hc, -⟩
    rw [hcommands] at hc
    cases hc
  · refine hunreferred e.2 (List.mem_append_left _ ?_)
    simp only [users, hload, Except.toOption, Option.map_some, Option.getD_some]
    exact List.mem_map_of_mem he
  · exact hunreferred entry (List.mem_append_right _ he)

/-- A Topic that lives, and that nobody was told of. -/
theorem Live.not_accounted {user : String} {topic : Topic} {w₀ w : World} {registry : Registry}
    (h : Live w₀ topic w) (hload : loadNotificationRegistry w₀.file = .ok registry)
    (hunrouted : Dict.get? registry.users user = none) : ¬ Accounted user w₀ w := by
  intro haccounted
  rcases haccounted.topics topic (by rw [h.created]; exact List.mem_singleton_self topic) with
    ⟨users, entry, husers, hentry, -⟩ | hgone | ⟨entry, he, hrefers⟩
  · rw [h.file, usersOf_of_load hload] at husers
    cases husers
    exact nomatch hunrouted.symm.trans hentry
  · exact h.alive hgone
  · rw [h.file] at he
    exact h.fresh.pending entry he hrefers

/-- A registry with an entry that is not plain stops the recovery. -/
theorem referencedIn_plain {invalidEntry invalidId : CliError} {entries : List Json} {ids : List String}
    (h : referencedIn invalidEntry invalidId entries = .ok ids) : ∀ entry ∈ entries, PlainEntry entry := by
  induction entries generalizing ids with
  | nil => simp
  | cons entry rest ih =>
      unfold referencedIn at h
      split at h
      · cases h
      · rename_i id hid
        split at h
        · cases h
        · rename_i hrest
          have hentry : PlainEntry entry := by
            unfold referencedTopicId at hid
            split at hid
            · rename_i fields
              refine ⟨fields, rfl, fun value hvalue => ?_⟩
              split at hid
              · exact nomatch ‹_ = none›.symm.trans hvalue
              · rename_i id' hsome
                exact ⟨id', (Option.some.inj (hsome.symm.trans hvalue)).symm⟩
              · cases hid
            · cases hid
          exact List.forall_mem_cons.mpr ⟨hentry, ih hrest⟩

theorem referencedIn_raises {invalidEntry invalidId : CliError} {entries : List Json} {e : CliError}
    (h : referencedIn invalidEntry invalidId entries = .error e) : e = invalidEntry ∨ e = invalidId := by
  induction entries with
  | nil => cases h
  | cons entry rest ih =>
      unfold referencedIn at h
      split at h
      · rename_i e' he'
        cases h
        unfold referencedTopicId at he'
        split at he'
        · split at he' <;> cases he'
          exact .inr rfl
        · cases he'
          exact .inl rfl
      · split at h <;> cases h
        exact ih ‹_›

/-- **The recovery refuses every registry that is not plain.** -/
theorem referencedTopicIds_raises {registry : Registry} (h : ¬ PlainRegistry registry) :
    ∃ e, referencedTopicIds registry = .error e ∧ e.isNotification = true := by
  unfold referencedTopicIds
  split
  · rename_i e he
    exact ⟨e, rfl, by rcases referencedIn_raises he with rfl | rfl <;> rfl⟩
  · rename_i userIds husers
    split
    · rename_i pending hpending
      split
      · rename_i e he
        exact ⟨e, rfl, by rcases referencedIn_raises he with rfl | rfl <;> rfl⟩
      · rename_i pendingIds hids
        refine absurd ⟨fun e he => ?_, pending, hpending, referencedIn_plain hids⟩ h
        exact referencedIn_plain husers e.2 (List.mem_map_of_mem he)
    · exact ⟨_, rfl, rfl⟩

section
variable {unexpected : Bool} {sha256Hex : String → String} {options : AddOptions} {registry : Registry}
  {config : Dict} {user email topicName : String} {tags : Dict} {w : World}

theorem CanCreate.ociCommand_ok (h : CanCreate config user topicName) (tags : Dict) :
    ∃ command compartmentId, ociCommand config (match argument (Dict.get? config "compartment_id") with
        | .ok compartmentId =>
            .ok (.topicCreate compartmentId topicName ("Slurm job notifications for " ++ user) tags)
        | .error e => .error e) = .ok command ∧ command.startable = true ∧
      Dict.get? config "compartment_id" = some (.str compartmentId) ∧
      command.request = .topicCreate compartmentId topicName ("Slurm job notifications for " ++ user) tags := by
  obtain ⟨compartmentId, hcompartment, hpass⟩ := h.fields.compartment
  have hprefix : passable "Slurm job notifications for " = true := by decide +kernel
  obtain ⟨command, hcommand, hrequest, hstart⟩ := h.fields.ociCommand_ok
    (.topicCreate compartmentId topicName ("Slurm job notifications for " ++ user) tags)
    (by simp [OciRequest.texts, passable_append, hpass, h.name, h.user, hprefix])
  exact ⟨command, compartmentId, by rw [argument_eq_ok.mpr hcompartment]; exact hcommand, hstart, hcompartment, hrequest⟩

theorem exec_oci {H : Handler cliSig CliError World} {request : Except CliError OciRequest} {command : OciCommand}
    (hcommand : ociCommand config request = .ok command) {outcome : ProcessOutcome} {w' : World}
    (h : H w (.oci command) (.ok outcome) w') :
    Exec H (oci (runOci config request)) w (.ofExcept (ociResult outcome)) w' := by
  rw [oci, runOci, hcommand]
  refine .call h ?_
  show Exec H (oci (.ofExcept (ociResult outcome))) w' _ w'
  cases ociResult outcome with
  | ok stdout => exact .ret
  | error e => exact .throw

theorem exec_oci_raised {H : Handler cliSig CliError World} {request : Except CliError OciRequest}
    {command : OciCommand} (hcommand : ociCommand config request = .ok command) {e : CliError} {w' : World}
    (h : H w (.oci command) (.error e) w') : Exec H (oci (runOci config request)) w (.raised e) w' := by
  rw [oci, runOci, hcommand]
  exact .call h .throw

def withTopic (file : RegistryFile) (lag : Nat) (topic : Topic) (commands : List (OciCommand × ProcessOutcome)) : World :=
  ⟨file, [topic], commands, lag, false⟩

theorem live_withTopic {file : RegistryFile} {lag : Nat} {topic : Topic} (hfresh : Fresh (start file lag) topic.id)
    {commands : List (OciCommand × ProcessOutcome)} (hnot : ∀ c ∈ commands, ¬ showsGone .topic topic.id c.1 c.2) :
    Live (start file lag) topic (withTopic file lag topic commands) :=
  ⟨rfl, rfl, rfl, fun ⟨c, hc, hshows⟩ => hnot c hc hshows, hfresh⟩

/-- **An answer that cannot be read**: the Topic is created, and what is raised is no `NotificationError`. -/
theorem exec_create_unread (file : RegistryFile) (lag : Nat)
    (hcan : CanCreate config user (notificationTopicName sha256Hex config user)) (email : String) :
    ∃ topic e w', Live (start file lag) topic w' ∧ Exec (topicWorld true)
      (createNotificationResources sha256Hex config user email) (start file lag) (.raised e) w' := by
  obtain ⟨id, hfresh⟩ := @exists_fresh (start file lag) rfl
  obtain ⟨command, compartmentId, hcommand, hstart, -, hrequest⟩ := hcan.ociCommand_ok (provisionTags config user "p")
  let topic : Topic :=
    ⟨id, compartmentId, notificationTopicName sha256Hex config user, provisionTags config user "p"⟩
  have hcreate : topicWorld true (start file lag) (.oci command) (.error (.other "UnicodeDecodeError"))
      (withTopic file lag topic []) := by
    refine ⟨rfl, .inr ⟨rfl, hstart, ?_⟩⟩
    rw [unreadEffect, hrequest]
    exact .inr ⟨id, hfresh, rfl⟩
  refine ⟨topic, .other "UnicodeDecodeError", withTopic file lag topic [], live_withTopic hfresh (by simp), ?_⟩
  refine .bind (Exec.perform (S := cliSig) (o := .host .uuid4) (a := ("p" : String)) rfl) (.bind_raised ?_)
  exact .bind (Exec.attempt_raised (exec_oci_raised hcommand hcreate)) .throw

def listedAs (topic : Topic) : Dict :=
  [("topic-id", .str topic.id), ("name", .str topic.name), ("compartment-id", .str topic.compartmentId),
    ("lifecycle-state", .str "ACTIVE"), ("freeform-tags", .obj topic.tags)]

theorem isListed_listedAs {id compartmentId topicName provisionId : String} :
    IsListed ⟨id, compartmentId, topicName, provisionTags config user provisionId⟩
      (listedAs ⟨id, compartmentId, topicName, provisionTags config user provisionId⟩) where
  id := rfl
  name := rfl
  compartment := rfl
  live := .inl rfl
  tags := by
    refine ⟨_, provisionTags config user provisionId, rfl, rfl, fun e he => ?_⟩
    simp only [provisionTags, List.mem_cons, List.not_mem_nil, or_false] at he
    rcases he with rfl | rfl | rfl | rfl | rfl | rfl | rfl <;> rfl

/-- The recovery lists the Topics, and then refuses the registry. -/
theorem exec_cleanup_refused {w' : World} {listed : Json} {others : List Json}
    (honce : Exec (topicWorld unexpected) (listTopicsOnce config topicName) w (.done (listed :: others)) w')
    (hload : loadNotificationRegistry w'.file = .ok registry) (hplain : ¬ PlainRegistry registry) (email : String) :
    ∃ errors, Exec (topicWorld unexpected) (cleanupTopicAfterUncertainCreation config user email topicName tags) w
      (.done errors) w' := by
  obtain ⟨e, he, hnotification⟩ := referencedTopicIds_raises hplain
  have hfind : Exec (topicWorld unexpected) (findOwnedNotificationTopic config topicName tags) w (.raised e) w' := by
    refine .bind (.bind honce .ret) (.bind (Exec.perform (S := cliSig) (o := .registry .loadNotificationRegistry)
      (a := registry) ⟨hload.symm, rfl⟩) (.bind_raised ?_))
    rw [he]
    exact .throw
  refine ⟨["could not identify created Topic for cleanup: " ++ e.message], .tryCatch_raised hfind.bind_raised ?_⟩
  rw [if_pos hnotification]
  exact .ret

/-- **A creation that times out with effect**, beside a registry that the recovery refuses. -/
theorem exec_create_unrecovered (unexpected : Bool) (lag : Nat) {file : RegistryFile}
    (hload : loadNotificationRegistry file = .ok registry) (hplain : ¬ PlainRegistry registry)
    (hcan : CanCreate config user (notificationTopicName sha256Hex config user)) (email : String) :
    ∃ topic e w', Live (start file lag) topic w' ∧ Exec (topicWorld unexpected)
      (createNotificationResources sha256Hex config user email) (start file lag) (.raised e) w' := by
  obtain ⟨id, hfresh⟩ := @exists_fresh (start file lag) rfl
  obtain ⟨create, compartmentId, hcreate, hstart, hcompartment, hrequest⟩ :=
    hcan.ociCommand_ok (provisionTags config user "p")
  let topicName := notificationTopicName sha256Hex config user
  let topic : Topic := ⟨id, compartmentId, topicName, provisionTags config user "p"⟩
  have hpass : passable compartmentId = true := by
    obtain ⟨_, hsome, hpass⟩ := hcan.fields.compartment
    cases hcompartment.symm.trans hsome
    exact hpass
  obtain ⟨list, hlist, hlistRequest, hlistStart⟩ := hcan.fields.ociCommand_ok
    (.list .topic compartmentId (some topicName)) (by simp [OciRequest.texts, hpass, hcan.name, topicName])
  let answer : ProcessOutcome := .success (.json (.obj [("data", .arr [.obj (listedAs topic)])]))
  have htimedOut : topicWorld unexpected (start file lag) (.oci create) (.ok .timedOut)
      (withTopic file lag topic [(create, .timedOut)]) := by
    refine ⟨hstart, ?_⟩
    rw [ociEffect, hrequest]
    exact .inr ⟨id, hfresh, rfl, .inl rfl⟩
  have hlisted : topicWorld unexpected (withTopic file lag topic [(create, .timedOut)]) (.oci list) (.ok answer)
      (withTopic file lag topic [(create, .timedOut), (list, answer)]) := by
    refine ⟨hlistStart, ?_⟩
    rw [ociEffect, hlistRequest]
    refine .inl ⟨rfl, fun t ht => ?_⟩
    rw [List.mem_singleton.mp ht]
    exact ⟨_, _, rfl, rfl, [], listedAs topic, [], rfl, isListed_listedAs, by simp⟩
  have hcreation : Exec (topicWorld unexpected) (createTopic config user topicName (provisionTags config user "p"))
      (start file lag) (.done (.error (.timedOut "OCI CLI timed out after 120 seconds")))
      (withTopic file lag topic [(create, .timedOut)]) :=
    .bind (Exec.attempt_raised (exec_oci hcreate htimedOut)) .ret
  have honce : Exec (topicWorld unexpected) (listTopicsOnce config topicName)
      (withTopic file lag topic [(create, .timedOut)]) (.done [.obj (listedAs topic)])
      (withTopic file lag topic [(create, .timedOut), (list, answer)]) := by
    rw [listTopicsOnce, show listRequest config .topic (some topicName) =
      .ok (.list .topic compartmentId (some topicName)) by simp [listRequest, hcompartment, argument]]
    exact .bind (exec_oci hlist hlisted) .ret
  obtain ⟨errors, hcleanup⟩ := exec_cleanup_refused honce hload hplain email
  have hnot : ∀ c ∈ [(create, ProcessOutcome.timedOut), (list, answer)], ¬ showsGone .topic topic.id c.1 c.2 := by
    simp [showsGone, hrequest, hlistRequest]
  refine ⟨topic, withCleanup (.timedOut "OCI CLI timed out after 120 seconds") errors,
    withTopic file lag topic [(create, .timedOut), (list, answer)], live_withTopic hfresh hnot, ?_⟩
  exact .bind (Exec.perform (S := cliSig) (o := .host .uuid4) (a := ("p" : String)) rfl)
    (.bind hcreation (.bind hcleanup .throw))

/-! ## The command, up to the creation -/

/-- Something raised is raised as something, by `orClick`. -/
theorem exec_orClick_raised {α : Type} {H : Handler cliSig CliError World} (before : String) {p : Cli α}
    {e : CliError} {w' : World} (h : Exec H p w (.raised e) w') : ∃ e', Exec H (orClick before p) w (.raised e') w' := by
  cases hn : e.isNotification with
  | true => exact ⟨_, .tryCatch_raised h (by rw [hn, if_pos rfl]; exact .throw)⟩
  | false => exact ⟨_, .tryCatch_raised h (by rw [hn, if_neg Bool.false_ne_true]; exact .throw)⟩

theorem exec_addChecks (unexpected : Bool) (hload : loadNotificationRegistry w.file = .ok registry)
    (henabled : notificationsEnabled registry = true) (hvalid : validatedNotificationConfig registry = .ok config)
    (hemail : ∀ email, options.email = some email → validateEmail (PyStr.strip email) = true) :
    ∃ email, Exec (topicWorld unexpected) (addChecks options) w (.done (registry, some config, some email)) w := by
  have hload : Exec (topicWorld unexpected) (orClick "" (registryCall .loadNotificationRegistry)) w (.done registry) w :=
    .tryCatch_done (Exec.perform (S := cliSig) (o := .registry .loadNotificationRegistry) (a := registry)
      ⟨hload.symm, rfl⟩)
  have hconfig : Exec (topicWorld unexpected) (orClick "" (.ofExcept (validatedNotificationConfig registry))) w
      (.done config) w := by
    rw [hvalid]
    exact .tryCatch_done .ret
  cases hoption : options.email with
  | some given =>
      refine ⟨PyStr.strip given, .bind hload (.bind (a := (some config, some given)) (show Exec _ _ w _ w from ?_) ?_)⟩
      · rw [if_pos henabled, hoption]
        exact .bind hconfig .ret
      · dsimp only
        rw [if_neg (by simp [hemail given hoption])]
        exact .ret
  | none =>
      -- the prompt is answered with an address that passes the check
      have hpasses : validateEmail (PyStr.strip "alice@example.com") = true := by decide +kernel
      refine ⟨PyStr.strip "alice@example.com",
        .bind hload (.bind (a := (some config, some "alice@example.com")) (show Exec _ _ w _ w from ?_) ?_)⟩
      · rw [if_pos henabled, hoption]
        exact .bind hconfig (.bind (Exec.perform (S := cliSig) (o := .host (.prompt "Email address"))
          (a := ("alice@example.com" : String)) rfl) .ret)
      · dsimp only
        rw [if_neg (by simp [hpasses])]
        exact .ret

theorem exec_idOr (option : Option String) {next : Cli Int} {n : Int}
    (h : Exec (topicWorld unexpected) next w (.done n) w) :
    ∃ id, Exec (topicWorld unexpected) (idOr option next) w (.done id) w := by
  cases option with
  | some id => exact ⟨.str id, .ret⟩
  | none => exact ⟨.int n, .bind h .ret⟩

/-- **A creation that raises ends the command.** -/
theorem exec_add_raised (hprovisions : Provisions sha256Hex options registry)
    (hload : loadNotificationRegistry w.file = .ok registry)
    {P : World → Prop} (hcreate : ∀ config email,
      CanCreate config options.user (notificationTopicName sha256Hex config options.user) → ∃ e w', P w' ∧
        Exec (topicWorld unexpected) (createNotificationResources sha256Hex config options.user email) w (.raised e) w') :
    ∃ e w', P w' ∧ Exec (topicWorld unexpected) (add sha256Hex options) w (.raised e) w' := by
  obtain ⟨config, hvalid, hcan⟩ := hprovisions.config
  obtain ⟨email, hchecks⟩ := exec_addChecks unexpected hload hprovisions.enabled hvalid hprovisions.email
  obtain ⟨uid, huid⟩ := exec_idOr options.uid
    (Exec.perform (H := topicWorld unexpected) (S := cliSig) (o := .host .findNextUid) (a := (0 : Int)) (w := w) rfl)
  obtain ⟨gid, hgid⟩ := exec_idOr options.gid
    (Exec.perform (H := topicWorld unexpected) (S := cliSig) (o := .host .findNextGid) (a := (0 : Int)) (w := w) rfl)
  obtain ⟨e, w', hP, hraised⟩ := hcreate config email hcan
  obtain ⟨e', hclick⟩ := exec_orClick_raised "Unable to create OCI notification resources: " hraised
  refine ⟨e', w', hP, .bind hchecks (.bind huid (.bind hgid (.bind_raised ?_)))⟩
  rw [addRouting, hprovisions.unrouted, if_neg (by simp)]
  exact hclick.bind_raised

end

/-! ## The creation of one Topic -/

def alice : AddOptions := ⟨"alice", "secret", "Alice", some "2001", some "2001", some "alice@example.com", false⟩

def clusterConfig : Dict :=
  [("enabled", .bool true), ("region", .str "eu-frankfurt-1"), ("compartment_id", .str "ocid1.compartment.oc1..a"),
    ("cluster_name", .str "hpc"), ("cluster_scope_id", .str "hpc-1"), ("auth", .str "instance_principal"),
    ("deployment_id", .str "0123456789abcdef0123456789abcdef")]

def clusterRegistry : Registry := ⟨clusterConfig, [], [], restPlain_nil⟩

def clusterFile : RegistryFile := .json clusterRegistry.toJson

def aliceTopic : Topic where
  id := "ocid1.onstopic.oc1..t"
  compartmentId := "ocid1.compartment.oc1..a"
  name := notificationTopicName id clusterConfig "alice"
  tags := provisionTags clusterConfig "alice" "p1"

def createAlice : OciCommand :=
  ⟨.topicCreate aliceTopic.compartmentId aliceTopic.name "Slurm job notifications for alice" aliceTopic.tags,
    "instance_principal", "eu-frankfurt-1"⟩

def listAlice : OciCommand × ProcessOutcome :=
  (⟨.list .topic aliceTopic.compartmentId (some aliceTopic.name), "instance_principal", "eu-frankfurt-1"⟩,
    .success (.json (.obj [("data", .arr [.obj (listedAs aliceTopic)])])))

theorem fresh_aliceTopic : Fresh (start clusterFile 0) aliceTopic.id where
  isTopicId := by decide
  passable := by decide
  unseen := by rintro ⟨c, hc, _⟩; cases hc
  users := by
    intro registry hload e he
    cases (loadNotificationRegistry_toJson clusterRegistry).symm.trans hload
    cases he
  pending := by
    intro entry he
    rw [start, clusterFile, @pendingOf_toJson clusterRegistry [] rfl] at he
    cases he

theorem creates_aliceTopic {unexpected : Bool} : topicWorld unexpected (start clusterFile 0) (.oci createAlice)
    (.ok .timedOut) (withTopic clusterFile 0 aliceTopic [(createAlice, .timedOut)]) :=
  ⟨by decide +kernel, .inr ⟨aliceTopic.id, fresh_aliceTopic, rfl, .inl rfl⟩⟩

theorem lists_aliceTopic {unexpected : Bool} :
    topicWorld unexpected (withTopic clusterFile 0 aliceTopic [(createAlice, .timedOut)]) (.oci listAlice.1)
      (.ok listAlice.2) (withTopic clusterFile 0 aliceTopic [(createAlice, .timedOut), listAlice]) := by
  refine ⟨by decide +kernel, .inl ⟨rfl, fun topic ht => ?_⟩⟩
  rw [List.mem_singleton.mp ht]
  exact ⟨_, _, rfl, rfl, [], listedAs aliceTopic, [], rfl, isListed_listedAs, by simp⟩

theorem loads {unexpected : Bool} {w : World} (hw : w.file = clusterFile) :
    topicWorld unexpected w (.registry .loadNotificationRegistry) (.ok clusterRegistry) w :=
  ⟨by rw [hw]; exact (loadNotificationRegistry_toJson _).symm, rfl⟩

theorem draws {unexpected : Bool} (w : World) : topicWorld unexpected w (.host .uuid4) (.ok ("p1" : String)) w := rfl

/-! ## The result -/

/-- **No orphan Topic**: however the command ends, its Topic is routed to, gone or in the cleanup journal, exactly
when, wherever it comes to the creation, every answer can be read and the registry is plain. -/
theorem topicAccounted_iff (sha256Hex : String → String) (options : AddOptions) (unexpected : Bool) (file : RegistryFile)
    {lag : Nat} (hlag : lag ≤ 2) :
    (∀ out w, Exec (topicWorld unexpected) (add sha256Hex options) (start file lag) out w → out ≠ .cut →
        Accounted options.user (start file lag) w) ↔
      ∀ registry, loadNotificationRegistry file = .ok registry → Provisions sha256Hex options registry →
        unexpected = false ∧ PlainRegistry registry := by
  constructor
  · intro h registry hload hprovisions
    have hnone : ¬ ∃ e w, (∃ topic, Live (start file lag) topic w) ∧
        Exec (topicWorld unexpected) (add sha256Hex options) (start file lag) (.raised e) w := by
      rintro ⟨e, w, ⟨topic, hlive⟩, hexec⟩
      exact hlive.not_accounted hload hprovisions.unrouted (h _ w hexec nofun)
    constructor
    · cases unexpected with
      | false => rfl
      | true =>
          refine absurd (exec_add_raised hprovisions hload fun config email hcan => ?_) hnone
          obtain ⟨topic, e, w, hlive, hexec⟩ := exec_create_unread file lag hcan email
          exact ⟨e, w, ⟨topic, hlive⟩, hexec⟩
    · by_contra hplain
      refine hnone (exec_add_raised hprovisions hload fun config email hcan => ?_)
      obtain ⟨topic, e, w, hlive, hexec⟩ := exec_create_unrecovered unexpected lag hload hplain hcan email
      exact ⟨e, w, ⟨topic, hlive⟩, hexec⟩
  · intro h out w hexec hend
    have hspec := add_spec (w := start file lag) sha256Hex options rfl rfl hlag h
    cases out with
    | done => exact hexec.of_wp hspec
    | raised => exact hexec.of_wp hspec
    | cut => exact absurd rfl hend

/-- The creation of the Topic times out, and the recovery deletes it. -/
theorem topicAccounted_iff_recovered : ∃ w e, Exec (topicWorld false) (add id alice) (start clusterFile 0) (.raised e) w ∧
    w.created = [aliceTopic] ∧ Accounted "alice" (start clusterFile 0) w := by
  have hexec : Exec (topicWorld false) (add id alice) (start clusterFile 0) (.raised (clickError
      "Unable to create OCI notification resources: OCI CLI timed out after 120 seconds"))
      (withTopic clusterFile 0 aliceTopic [(createAlice, .timedOut), listAlice, (⟨.delete .topic aliceTopic.id,
        "instance_principal", "eu-frankfurt-1"⟩, .success .blank)]) := by
    refine .call (loads rfl) ?_
    refine .call (draws _) ?_
    refine .call creates_aliceTopic ?_
    refine .call lists_aliceTopic ?_
    refine .call (loads rfl) ?_
    refine .call (show topicWorld false _ (.oci _) (.ok (.success .blank)) _ from ⟨by decide +kernel, rfl⟩) ?_
    exact .throw
  refine ⟨_, _, hexec, rfl, (topicAccounted_iff id alice false clusterFile (by decide)).mpr ?_ _ _ hexec nofun⟩
  intro registry hload _
  cases (loadNotificationRegistry_toJson clusterRegistry).symm.trans hload
  exact ⟨rfl, nofun, [], rfl, nofun⟩

/-- **An orphan**: the Topic is created, and what `oci` prints of it cannot be decoded. -/
theorem undecodable_answer_orphans : ∃ w, Exec (topicWorld true) (add id alice) (start clusterFile 0)
    (.raised (.other "UnicodeDecodeError")) w ∧ w.created = [aliceTopic] ∧
      ¬ Accounted "alice" (start clusterFile 0) w := by
  have hlive : Live (start clusterFile 0) aliceTopic (withTopic clusterFile 0 aliceTopic []) :=
    live_withTopic fresh_aliceTopic (by simp)
  have hcreate : topicWorld true (start clusterFile 0) (.oci createAlice) (.error (.other "UnicodeDecodeError"))
      (withTopic clusterFile 0 aliceTopic []) :=
    ⟨rfl, .inr ⟨rfl, by decide +kernel, .inr ⟨aliceTopic.id, fresh_aliceTopic, rfl⟩⟩⟩
  refine ⟨withTopic clusterFile 0 aliceTopic [], ?_, rfl,
    hlive.not_accounted (loadNotificationRegistry_toJson clusterRegistry) rfl⟩
  refine .call (loads rfl) ?_
  refine .call (draws _) ?_
  exact .call hcreate .throw

end OciHpc.ClusterCli.UserAddTopic
