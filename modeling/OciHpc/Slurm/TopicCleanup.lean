import OciHpc.Base.Prog
import OciHpc.Slurm.TopicOwnership

/-!
# The Topic cleanup of a destroy

* `cleanupTopics` : discovery and checks, deletions, then listings until no owned Topic is left;
* `CleanupEvent` : the history of a run, a listing with its answer or a deletion asked for;
* `Justified`, `Settled` : a deletion against the listing before it, the listings of a run that returned;
* `Invariant` : what the polling loop keeps;
* `cleanupTopics_safe` : a run deletes only what it owns, each Topic once and after all checks, and returns only
  when all it waited for is gone.
-/

namespace OciHpc.Slurm
open OciHpc.ClusterCli (RegistryFile)

/-! ## The program -/

inductive CleanupCall
  | listTopics
  | deleteTopic (topicId : String)

abbrev CleanupCall.Ans : CleanupCall → Type
  | .listTopics => ListOutput
  | .deleteTopic _ => Unit

abbrev cleanupSig : Sig := ⟨CleanupCall, CleanupCall.Ans⟩

/-- A program over the Topics of the compartment; `run_oci` raises a `CleanupError`. -/
abbrev Cleanup (α : Type) := Prog cleanupSig CleanupError α

def listTopics : Cleanup (List Topic) :=
  (Prog.perform (S := cleanupSig) .listTopics).bind fun stdout => .ofExcept (parseTopicList stdout)

def deleteTopic (topicId : String) : Cleanup Unit := Prog.perform (S := cleanupSig) (.deleteTopic topicId)

structure PollState where
  remaining : List String
  observedOwned : List String
  deleteRequested : List String

def deleteOnce (deleteRequested : List String) (topicId : String) : Cleanup (List String) :=
  if topicId ∈ deleteRequested then .ret deleteRequested
  else (deleteTopic topicId).bind fun _ => .ret (deleteRequested ++ [topicId])

def timedOutWaiting (remaining : List String) : CleanupError :=
  "timed out waiting for " ++ toString remaining.length ++ " Topic(s) to be deleted: " ++
    PyStr.join ", " (remaining.insertionSort (· ≤ ·))

def PollState.observe (s : PollState) (currentTopics : List Topic) (currentOwnedIds : List String) : PollState where
  remaining := (s.remaining.filter fun id => id ∈ currentTopics.map (·.topicId)) ∪ currentOwnedIds
  observedOwned := s.observedOwned ∪ currentOwnedIds
  deleteRequested := s.deleteRequested

/-- `for attempt in range(poll_attempts)`. -/
def pollLoop (sha256Hex : String → String) (config : CleanupConfig) (scopes : List Scope)
    (knownTopicIds : List String) : Nat → PollState → Cleanup Nat
  | 0, s => .throw (timedOutWaiting s.remaining)
  | attempts + 1, s =>
    listTopics.bind fun currentTopics =>
      (Prog.ofExcept (ownedTopicIds sha256Hex config currentTopics scopes)).bind fun current =>
        (Prog.ofExcept (validateKnownTopics knownTopicIds currentTopics current.2)).bind fun _ =>
          let s := s.observe currentTopics current.2
          (Prog.forEach deleteOnce current.1 s.deleteRequested).bind fun deleteRequested =>
            if s.remaining = [] then .ret s.observedOwned.length
            else pollLoop sha256Hex config scopes knownTopicIds attempts { s with deleteRequested }

/-- Delete owned, unprotected Topics and confirm their eventual absence. -/
def cleanupTopics (sha256Hex : String → String) (config : CleanupConfig) (registry : RegistryFile)
    (pollAttempts : Nat) : Cleanup Nat :=
  (Prog.ofExcept (loadCleanupMetadata config registry)).bind fun metadata =>
    listTopics.bind fun topics =>
      (Prog.ofExcept (ownedTopicIds sha256Hex config topics metadata.1)).bind fun owned =>
        (Prog.ofExcept (validateKnownTopics metadata.2 topics owned.2)).bind fun _ =>
          -- candidate discovery and validation finishes before the first mutation
          (Prog.forEach (fun _ topicId => deleteTopic topicId) owned.1 ()).bind fun _ =>
            pollLoop sha256Hex config metadata.1 metadata.2 pollAttempts
              { remaining := owned.2, observedOwned := owned.2, deleteRequested := owned.1 }

/-! ## Histories -/

/-- A call that was made: a listing with its output, a listing that failed, a deletion whatever came of it. -/
inductive CleanupEvent
  | listing (stdout : ListOutput)
  | listingFailed
  | delete (topicId : String)

abbrev History := List CleanupEvent

inductive answers : Handler cleanupSig CleanupError History
  | listed (h : History) (stdout : ListOutput) : answers h .listTopics (.ok stdout) (h ++ [.listing stdout])
  | failed (h : History) (e : CleanupError) : answers h .listTopics (.error e) (h ++ [.listingFailed])
  | deleted (h : History) (topicId : String) (r : Except CleanupError Unit) :
    answers h (.deleteTopic topicId) r (h ++ [.delete topicId])

def deletions (h : History) : List String :=
  h.filterMap fun
    | .delete topicId => some topicId
    | _ => none

def listings (h : History) : List (List Topic) :=
  h.filterMap fun
    | .listing stdout => (parseTopicList stdout).toOption
    | _ => none

section
variable (sha256Hex : String → String) (config : CleanupConfig) (registry : RegistryFile)

/-- The deployment identity of the configuration. -/
def configIdentity : Except CleanupError (List Char × List Char) := do
  let currentScope ← configScope config
  scopeDeploymentIdentity currentScope "cleanup configuration"

/-- A listing shows the Topic as owned and not protected: the tags name this deployment and a scope of it. -/
def ShowsOwned (scopes : List Scope) (listing : List Topic) (topicId : String) : Prop :=
  topicId ∉ config.protectedTopicIds ∧ ∃ identity, configIdentity config = .ok identity ∧
    ∃ topic ∈ listing, topic.topicId = topicId ∧ Owned config identity scopes topic

/-- A deletion is of a Topic that the newest listing shows as owned and not protected. -/
def Justified (before : History) (topicId : String) : Prop :=
  ∃ scopes knownTopicIds listing, loadCleanupMetadata config registry = .ok (scopes, knownTopicIds) ∧
    (listings before).getLast? = some listing ∧ ShowsOwned config scopes listing topicId

/-- The registry and the whole first listing, the first thing a run does, have passed all checks. -/
def FirstChecksPassed (h : History) : Prop :=
  ∃ scopes knownTopicIds stdout topics deleteIds waitIds after,
    loadCleanupMetadata config registry = .ok (scopes, knownTopicIds) ∧ h = .listing stdout :: after ∧
      parseTopicList stdout = .ok topics ∧
      ownedTopicIds sha256Hex config topics scopes = .ok (deleteIds, waitIds) ∧
      validateKnownTopics knownTopicIds topics waitIds = .ok ()

/-- Some listing does not contain the Topic, and neither it nor a later one shows it as owned. -/
def GoneAfter (scopes : List Scope) (ls : List (List Topic)) (topicId : String) : Prop :=
  ∃ before listing after, ls = before ++ listing :: after ∧ topicId ∉ listing.map (·.topicId) ∧
    ∀ l ∈ listing :: after, ¬ ShowsOwned config scopes l topicId

/-- The listings of a run that returned: the last one shows no owned Topic that is not protected, and every Topic
some listing showed as owned is missing from a listing read after the last that did. -/
def Settled (h : History) : Prop :=
  ∃ scopes knownTopicIds last, loadCleanupMetadata config registry = .ok (scopes, knownTopicIds) ∧
    (listings h).getLast? = some last ∧ (∀ topicId, ¬ ShowsOwned config scopes last topicId) ∧
    ∀ topicId, (∃ listing ∈ listings h, ShowsOwned config scopes listing topicId) →
      GoneAfter config scopes (listings h) topicId

structure Safe (h : History) : Prop where
  justified : ∀ before topicId after, h = before ++ .delete topicId :: after →
    Justified config registry before topicId
  once : (deletions h).Nodup
  checked : deletions h ≠ [] → FirstChecksPassed sha256Hex config registry h

end

/-! ## How a history grows -/

theorem deletions_append (a b : History) : deletions (a ++ b) = deletions a ++ deletions b := List.filterMap_append

theorem listings_append (a b : History) : listings (a ++ b) = listings a ++ listings b := List.filterMap_append

theorem deletions_listing (h : History) (stdout : ListOutput) :
    deletions (h ++ [.listing stdout]) = deletions h := by
  rw [deletions_append]
  exact List.append_nil _

theorem listings_listing (h : History) {stdout : ListOutput} {topics : List Topic}
    (hparse : parseTopicList stdout = .ok topics) : listings (h ++ [.listing stdout]) = listings h ++ [topics] := by
  have hone : listings [.listing stdout] = [topics] := by
    simp [listings, hparse, Except.toOption]
  rw [listings_append, hone]

section
variable {sha256Hex : String → String} {config : CleanupConfig} {registry : RegistryFile}

theorem FirstChecksPassed.append {h : History} (hpassed : FirstChecksPassed sha256Hex config registry h)
    (events : History) : FirstChecksPassed sha256Hex config registry (h ++ events) := by
  obtain ⟨scopes, known, stdout, topics, deleteIds, waitIds, after, hload, rfl, hrest⟩ := hpassed
  exact ⟨scopes, known, stdout, topics, deleteIds, waitIds, after ++ events, hload, rfl, hrest⟩

/-- An event of a history grown by one is the new one or was there before. -/
theorem event_of_grown {h before after : History} {event new : CleanupEvent}
    (hsplit : h ++ [new] = before ++ event :: after) :
    (before = h ∧ new = event) ∨ ∃ rest, h = before ++ event :: rest := by
  rcases List.append_eq_append_iff.mp hsplit with ⟨mid, hbefore, hnew⟩ | ⟨mid, hold, hevent⟩
  · cases mid with
    | nil =>
      obtain ⟨rfl, -⟩ := List.cons.inj hnew
      exact .inl ⟨by rw [hbefore, List.append_nil], rfl⟩
    | cons other rest => simp at hnew
  · cases mid with
    | nil =>
      obtain ⟨rfl, -⟩ := List.cons.inj hevent
      exact .inl ⟨by rw [hold, List.append_nil], rfl⟩
    | cons first rest =>
      obtain ⟨rfl, -⟩ := List.cons.inj hevent
      exact .inr ⟨rest, hold⟩

/-- A history grown by something other than a deletion. -/
theorem Safe.read {h : History} (hsafe : Safe sha256Hex config registry h) {event : CleanupEvent}
    (hevent : ∀ topicId, event ≠ .delete topicId) : Safe sha256Hex config registry (h ++ [event]) := by
  have hdeletions : deletions (h ++ [event]) = deletions h := by
    rw [deletions_append]
    cases event with
    | delete topicId => exact absurd rfl (hevent topicId)
    | listing stdout => exact List.append_nil _
    | listingFailed => exact List.append_nil _
  refine ⟨fun before topicId after hsplit => ?_, hdeletions ▸ hsafe.once, fun hne => ?_⟩
  · rcases event_of_grown hsplit with ⟨-, heq⟩ | ⟨after', hold⟩
    · exact absurd heq (hevent topicId)
    · exact hsafe.justified before topicId after' hold
  · rw [hdeletions] at hne
    exact (hsafe.checked hne).append _

/-- A history grown by a justified deletion, the first of its Topic. -/
theorem Safe.delete {h : History} (hsafe : Safe sha256Hex config registry h) {topicId : String}
    (hjustified : Justified config registry h topicId) (hfresh : topicId ∉ deletions h)
    (hpassed : FirstChecksPassed sha256Hex config registry h) :
    Safe sha256Hex config registry (h ++ [.delete topicId]) := by
  refine ⟨fun before other after hsplit => ?_, ?_, fun _ => hpassed.append _⟩
  · rcases event_of_grown hsplit with ⟨rfl, heq⟩ | ⟨after', hold⟩
    · cases heq
      exact hjustified
    · exact hsafe.justified before other after' hold
  · rw [deletions_append]
    exact List.Nodup.append hsafe.once (List.nodup_singleton _) (List.disjoint_singleton.mpr hfresh)

/-! ## The checks of one listing -/

theorem addScope_ne_nil (scopes : List Scope) (scope : Scope) : addScope scopes scope ≠ [] := by
  unfold addScope
  split
  case isTrue hmem => exact List.ne_nil_of_mem hmem
  case isFalse => exact List.append_ne_nil_of_right_ne_nil _ (List.cons_ne_nil _ _)

theorem addHistory_ne_nil {identity : List Char × List Char} {scopes scopes' : List Scope} {index : Nat}
    {entries : List Json} (hne : scopes ≠ []) (h : addHistory identity scopes index entries = .ok scopes') :
    scopes' ≠ [] := by
  induction entries generalizing scopes index with
  | nil => cases h; exact hne
  | cons entry rest ih =>
    unfold addHistory at h
    obtain ⟨scope, -, h⟩ := bind_eq_ok h
    obtain ⟨scopeIdentity, -, h⟩ := bind_eq_ok h
    obtain ⟨_, -, h⟩ := bind_eq_ok h
    exact ih (addScope_ne_nil scopes scope) h

theorem scopes_ne_nil {scopes : List Scope} {knownTopicIds : List String}
    (h : loadCleanupMetadata config registry = .ok (scopes, knownTopicIds)) : scopes ≠ [] := by
  unfold loadCleanupMetadata at h
  obtain ⟨currentScope, -, h⟩ := bind_eq_ok h
  obtain ⟨identity, -, h⟩ := bind_eq_ok h
  split at h
  · cases h
    exact List.cons_ne_nil _ _
  · cases h
  · split at h
    · split at h
      · obtain ⟨_, -, h⟩ := bind_eq_ok h
        obtain ⟨_, -, h⟩ := bind_eq_ok h
        obtain ⟨registryScope, -, h⟩ := bind_eq_ok h
        obtain ⟨registryIdentity, -, h⟩ := bind_eq_ok h
        obtain ⟨_, -, h⟩ := bind_eq_ok h
        obtain ⟨history, -, h⟩ := bind_eq_ok h
        obtain ⟨found, hfound, h⟩ := bind_eq_ok h
        split at h
        · obtain ⟨userIds, -, h⟩ := bind_eq_ok h
          obtain ⟨pending, -, h⟩ := bind_eq_ok h
          obtain ⟨pendingIds, -, h⟩ := bind_eq_ok h
          cases h
          exact addHistory_ne_nil (addScope_ne_nil _ _) hfound
        · cases h
      · cases h
    · cases h
  · cases h

/-- What `_owned_topic_ids` returns of a listing, against what the listing shows. -/
theorem ownedTopicIds_spec {scopes : List Scope} (hscopes : scopes ≠ []) {topics : List Topic}
    {deleteIds waitIds : List String}
    (h : ownedTopicIds sha256Hex config topics scopes = .ok (deleteIds, waitIds)) :
    deleteIds.Sublist waitIds ∧ waitIds.Sublist (topics.map (·.topicId)) ∧
      ∀ topicId, ShowsOwned config scopes topics topicId ↔ topicId ∈ waitIds := by
  unfold ownedTopicIds at h
  obtain ⟨currentScope, hscope, h⟩ := bind_eq_ok h
  obtain ⟨identity, hidentity, h⟩ := bind_eq_ok h
  have hempty : scopes.isEmpty = false := List.isEmpty_eq_false_iff.mpr hscopes
  rw [hempty, if_neg Bool.false_ne_true] at h
  have hconfig : configIdentity config = .ok identity := by
    unfold configIdentity
    rw [hscope]
    exact hidentity
  obtain ⟨hsub, hlisted, howned, hall⟩ := ownedLoop_spec h
  refine ⟨hsub, hlisted, fun topicId => ⟨?_, fun hin => ?_⟩⟩
  · rintro ⟨hprotected, identity', hidentity', topic, htopic, rfl, hown⟩
    rw [hconfig] at hidentity'
    cases hidentity'
    exact hall topic htopic hprotected hown
  · obtain ⟨hprotected, topic, htopic, heq, hown⟩ := howned topicId hin
    exact ⟨hprotected, identity, hconfig, topic, htopic, heq, hown⟩

/-! ## The rules of the calls -/

theorem wp_listTopics {Q : Post History CleanupError (List Topic)} {h : History} (hcut : Q.cut h)
    (hlisted : ∀ stdout topics, parseTopicList stdout = .ok topics → Q.ret topics (h ++ [.listing stdout]))
    (hfailed : ∀ e event, (∀ topicId, event ≠ .delete topicId) → Q.exc e (h ++ [event])) :
    listTopics.wp answers Q h := by
  refine Prog.wp_perform_seq hcut (fun stdout h' hanswer => ?_) fun e h' hanswer => ?_
  · cases hanswer
    rw [Prog.wp_ofExcept]
    split
    case h_1 topics hparse => exact hlisted stdout topics hparse
    case h_2 e hparse => exact hfailed e _ fun _ => nofun
  · cases hanswer
    exact hfailed e _ fun _ => nofun

theorem wp_deleteTopic {Q : Post History CleanupError Unit} {h : History} {topicId : String} (hcut : Q.cut h)
    (hret : Q.ret () (h ++ [.delete topicId])) (hexc : ∀ e, Q.exc e (h ++ [.delete topicId])) :
    (deleteTopic topicId).wp answers Q h := by
  refine (Prog.wp_perform (S := cleanupSig) _ _ _).mpr ⟨hcut, fun a h' hanswer => ?_, fun e h' hanswer => ?_⟩
  · cases hanswer
    exact hret
  · cases hanswer
    exact hexc e

/-! ## The loops -/

variable (sha256Hex config registry) in
/-- How a run may end: safe however it ends, and settled if it returns. -/
def runPost : Post History CleanupError Nat where
  ret := fun _ h => Safe sha256Hex config registry h ∧ Settled config registry h
  exc := fun _ h => Safe sha256Hex config registry h
  cut := Safe sha256Hex config registry

variable (sha256Hex config registry) in
/-- What the deletions after a listing keep: the listing is the newest, and it shows as owned what is still to be
deleted. -/
structure Deleting (scopes : List Scope) (ls : List (List Topic)) (h : History) : Prop where
  safe : Safe sha256Hex config registry h
  passed : FirstChecksPassed sha256Hex config registry h
  listings : listings h = ls

theorem Deleting.delete {scopes : List Scope} {knownTopicIds : List String} {ls : List (List Topic)}
    {listing : List Topic} {h : History} {topicId : String}
    (hload : loadCleanupMetadata config registry = .ok (scopes, knownTopicIds))
    (hdeleting : Deleting sha256Hex config registry scopes ls h) (hlast : ls.getLast? = some listing)
    (hshows : ShowsOwned config scopes listing topicId) (hfresh : topicId ∉ deletions h) :
    Deleting sha256Hex config registry scopes ls (h ++ [.delete topicId]) := by
  obtain ⟨hsafe, hpassed, hlistings⟩ := hdeleting
  refine ⟨hsafe.delete ⟨scopes, knownTopicIds, listing, hload, ?_, hshows⟩ hfresh hpassed, hpassed.append _, ?_⟩
  · rw [hlistings, hlast]
  · rw [listings_append, hlistings]
    exact List.append_nil _

/-- The deletions before the polling loop. -/
theorem wp_firstDeletions {scopes : List Scope} {knownTopicIds : List String} {ls : List (List Topic)}
    {listing : List Topic} {deleteIds : List String} {h : History}
    (hload : loadCleanupMetadata config registry = .ok (scopes, knownTopicIds))
    (hdeleting : Deleting sha256Hex config registry scopes ls h) (hlast : ls.getLast? = some listing)
    (hshows : ∀ topicId ∈ deleteIds, ShowsOwned config scopes listing topicId)
    (hnodup : deleteIds.Nodup) (hnone : deletions h = []) :
    (Prog.forEach (fun _ topicId => deleteTopic topicId) deleteIds ()).wp answers
      ⟨fun _ h' => Deleting sha256Hex config registry scopes ls h' ∧ deletions h' = deleteIds,
        fun _ h' => Safe sha256Hex config registry h', Safe sha256Hex config registry⟩ h := by
  refine Prog.wp_forEach (fun xs _ h' => Deleting sha256Hex config registry scopes ls h' ∧
    deletions h' ++ xs = deleteIds) ?_ ?_ ⟨hdeleting, by rw [hnone]; rfl⟩
  · rintro _ h' ⟨hdel, heq⟩
    exact ⟨hdel, by rw [← heq, List.append_nil]⟩
  · rintro topicId xs _ h' ⟨hdel, heq⟩
    have hfresh : topicId ∉ deletions h' := by
      rw [← heq] at hnodup
      exact fun hin => (List.nodup_append.mp hnodup).2.2 topicId hin topicId List.mem_cons_self rfl
    have hin : topicId ∈ deleteIds := by
      rw [← heq]
      exact List.mem_append_right _ List.mem_cons_self
    have hnext := hdel.delete hload hlast (hshows topicId hin) hfresh
    refine wp_deleteTopic hdel.safe ⟨hnext, ?_⟩ fun e => hnext.safe
    rw [deletions_append, ← heq, List.append_assoc]
    rfl

theorem wp_furtherDeletions {scopes : List Scope} {knownTopicIds : List String} {ls : List (List Topic)}
    {listing : List Topic} {deleteIds deleteRequested : List String} {h : History}
    (hload : loadCleanupMetadata config registry = .ok (scopes, knownTopicIds))
    (hdeleting : Deleting sha256Hex config registry scopes ls h) (hlast : ls.getLast? = some listing)
    (hshows : ∀ topicId ∈ deleteIds, ShowsOwned config scopes listing topicId)
    (hrequested : deletions h ⊆ deleteRequested) :
    (Prog.forEach deleteOnce deleteIds deleteRequested).wp answers
      ⟨fun requested h' => Deleting sha256Hex config registry scopes ls h' ∧ deletions h' ⊆ requested,
        fun _ h' => Safe sha256Hex config registry h', Safe sha256Hex config registry⟩ h := by
  refine Prog.wp_forEach (fun xs requested h' => (Deleting sha256Hex config registry scopes ls h' ∧
    deletions h' ⊆ requested) ∧ xs ⊆ deleteIds) (fun requested h' hinv => hinv.1) ?_
    ⟨⟨hdeleting, hrequested⟩, fun _ hx => hx⟩
  rintro topicId xs requested h' ⟨⟨hdel, hsub⟩, hxs⟩
  have hrest : xs ⊆ deleteIds := fun x hx => hxs (List.mem_cons_of_mem _ hx)
  unfold deleteOnce
  split
  case isTrue => exact ⟨⟨hdel, hsub⟩, hrest⟩
  case isFalse hnew =>
    have hnext := hdel.delete hload hlast (hshows topicId (hxs List.mem_cons_self)) fun hin => hnew (hsub hin)
    rw [Prog.wp_bind]
    refine wp_deleteTopic hdel.safe ⟨⟨hnext, ?_⟩, hrest⟩ fun e => hnext.safe
    rw [deletions_append]
    intro x hx
    rcases List.mem_append.mp hx with hold | hnew
    · exact List.mem_append_left _ (hsub hold)
    · exact List.mem_append_right _ hnew

/-- A Topic some listing showed as owned is waited for, or gone since. -/
def WaitsForAll (config : CleanupConfig) (scopes : List Scope) (ls : List (List Topic)) (remaining : List String) :
    Prop :=
  ∀ topicId, (∃ listing ∈ ls, ShowsOwned config scopes listing topicId) →
    topicId ∈ remaining ∨ GoneAfter config scopes ls topicId

/-- One more listing. -/
theorem WaitsForAll.observe {scopes : List Scope} {ls : List (List Topic)} {s : PollState} {topics : List Topic}
    {waitIds : List String} (h : WaitsForAll config scopes ls s.remaining)
    (hwait : ∀ topicId, ShowsOwned config scopes topics topicId ↔ topicId ∈ waitIds) :
    WaitsForAll config scopes (ls ++ [topics]) (s.observe topics waitIds).remaining := by
  intro topicId hshown
  unfold PollState.observe
  dsimp only
  by_cases hnow : ShowsOwned config scopes topics topicId
  · exact .inl (List.mem_union_iff.mpr (.inr ((hwait topicId).mp hnow)))
  · have hbefore : ∃ listing ∈ ls, ShowsOwned config scopes listing topicId := by
      obtain ⟨listing, hmem, hshows⟩ := hshown
      rcases List.mem_append.mp hmem with hold | hnew
      · exact ⟨listing, hold, hshows⟩
      · rw [List.mem_singleton.mp hnew] at hshows
        exact absurd hshows hnow
    rcases h topicId hbefore with hremaining | ⟨before, listing, after, rfl, hmissing, hlater⟩
    · by_cases hlisted : topicId ∈ topics.map (·.topicId)
      · refine .inl (List.mem_union_iff.mpr (.inl (List.mem_filter.mpr ⟨hremaining, ?_⟩)))
        exact decide_eq_true hlisted
      · refine .inr ⟨ls, topics, [], rfl, hlisted, fun l hl => ?_⟩
        rw [List.mem_singleton.mp hl]
        exact hnow
    · refine .inr ⟨before, listing, after ++ [topics], ?_, hmissing, fun l hl => ?_⟩
      · rw [List.append_assoc, List.cons_append]
      · rw [← List.cons_append] at hl
        rcases List.mem_append.mp hl with hold | hnew
        · exact hlater l hold
        · rw [List.mem_singleton.mp hnew]
          exact hnow

/-- **The polling loop** keeps the history safe and returns only when it is settled. -/
theorem wp_pollLoop {scopes : List Scope} {knownTopicIds : List String}
    (hload : loadCleanupMetadata config registry = .ok (scopes, knownTopicIds)) (attempts : Nat) (s : PollState)
    (h : History) (hsafe : Safe sha256Hex config registry h) (hpassed : FirstChecksPassed sha256Hex config registry h)
    (hrequested : deletions h ⊆ s.deleteRequested) (hwaits : WaitsForAll config scopes (listings h) s.remaining) :
    (pollLoop sha256Hex config scopes knownTopicIds attempts s).wp answers (runPost sha256Hex config registry) h := by
  induction attempts generalizing s h with
  | zero => exact hsafe
  | succ attempts ih =>
    rw [pollLoop, Prog.wp_bind]
    refine wp_listTopics hsafe (fun stdout topics hparse => ?_) fun e event hevent => hsafe.read hevent
    have hread : Safe sha256Hex config registry (h ++ [.listing stdout]) := hsafe.read fun _ => nofun
    refine Prog.wp_ofExcept_seq (fun current howned => ?_) fun e _ => hread
    obtain ⟨deleteIds, waitIds⟩ := current
    obtain ⟨hsub, -, hshows⟩ := ownedTopicIds_spec (scopes_ne_nil hload) howned
    refine Prog.wp_ofExcept_seq (fun _ _ => ?_) fun e _ => hread
    have hwaits' := hwaits.observe hshows
    refine Prog.wp_seq (wp_furtherDeletions hload ⟨hread, hpassed.append _, listings_listing h hparse⟩
      (List.getLast?_concat (l := listings h)) (fun id hid => (hshows id).mpr (hsub.subset hid))
      (by rw [deletions_listing]; exact hrequested)) fun requested h' hdone => ?_
    obtain ⟨⟨hsafe', hpassed', hlistings'⟩, hrequested'⟩ := hdone
    rw [← hlistings'] at hwaits'
    split
    case isTrue hempty =>
      rw [hempty] at hwaits'
      refine ⟨hsafe', scopes, knownTopicIds, topics, hload, ?_, fun topicId hshown => ?_, fun topicId hshown => ?_⟩
      · rw [hlistings', List.getLast?_concat]
      · have hin : topicId ∈ (s.observe topics waitIds).remaining :=
          List.mem_union_iff.mpr (.inr ((hshows topicId).mp hshown))
        rw [hempty] at hin
        exact absurd hin List.not_mem_nil
      · exact (hwaits' topicId hshown).resolve_left List.not_mem_nil
    case isFalse =>
      exact ih { s.observe topics waitIds with deleteRequested := requested } h' hsafe' hpassed' hrequested' hwaits'

end

/-- **A cleanup is safe.** Every deletion is of a Topic the newest listing shows as owned and not protected, no
Topic is deleted twice, the registry and the first listing pass all checks before the first deletion, and a run
that returns has settled: its last listing shows no owned Topic, and each Topic it waited for is missing from a
listing read after the last one that showed it as owned. -/
theorem cleanupTopics_safe (sha256Hex : String → String) (config : CleanupConfig) (registry : RegistryFile)
    (pollAttempts : Nat) {out : Outcome CleanupError Nat} {h : History}
    (hexec : Exec answers (cleanupTopics sha256Hex config registry pollAttempts) [] out h) :
    Safe sha256Hex config registry h ∧ ∀ n, out = .done n → Settled config registry h := by
  have hempty : Safe sha256Hex config registry [] :=
    ⟨fun before id after hsplit => absurd hsplit (by simp), List.nodup_nil, fun hne => absurd rfl hne⟩
  have hwp : (cleanupTopics sha256Hex config registry pollAttempts).wp answers
      (runPost sha256Hex config registry) [] := by
    unfold cleanupTopics
    refine Prog.wp_ofExcept_seq (fun metadata hload => ?_) fun e _ => hempty
    obtain ⟨scopes, knownTopicIds⟩ := metadata
    rw [Prog.wp_bind]
    refine wp_listTopics hempty (fun stdout topics hparse => ?_) fun e event hevent => hempty.read hevent
    have hread : Safe sha256Hex config registry [.listing stdout] := hempty.read fun _ => nofun
    refine Prog.wp_ofExcept_seq (fun owned howned => ?_) fun e _ => hread
    obtain ⟨deleteIds, waitIds⟩ := owned
    obtain ⟨hsub, hlisted, hshows⟩ := ownedTopicIds_spec (scopes_ne_nil hload) howned
    refine Prog.wp_ofExcept_seq (fun _ hvalid => ?_) fun e _ => hread
    have hnodup : deleteIds.Nodup := ((parseTopicList_nodup hparse).sublist hlisted).sublist hsub
    have hpassed : FirstChecksPassed sha256Hex config registry [.listing stdout] :=
      ⟨scopes, knownTopicIds, stdout, topics, deleteIds, waitIds, [], hload, rfl, hparse, howned, hvalid⟩
    refine Prog.wp_seq (wp_firstDeletions hload ⟨hread, hpassed, listings_listing [] hparse⟩ rfl
      (fun id hid => (hshows id).mpr (hsub.subset hid)) hnodup rfl) fun _ h' hdone => ?_
    obtain ⟨⟨hsafe', hpassed', hlistings'⟩, hdeleted⟩ := hdone
    refine wp_pollLoop hload pollAttempts _ h' hsafe' hpassed' (fun x hx => hdeleted ▸ hx) fun topicId hshown => ?_
    obtain ⟨listing, hmem, hshow⟩ := hshown
    have hone : listings h' = [topics] := hlistings'
    rw [hone, List.mem_singleton] at hmem
    rw [hmem] at hshow
    exact .inl ((hshows topicId).mp hshow)
  have hholds := hexec.of_wp hwp
  cases out with
  | done n => exact ⟨hholds.1, fun _ _ => hholds.2⟩
  | raised e => exact ⟨hholds, fun _ => nofun⟩
  | cut => exact ⟨hholds, fun _ => nofun⟩

/-- A deployment with one Topic of `ann`. -/
def petConfig : CleanupConfig where
  region := "us-phoenix-1"
  compartmentId := "ocid1.compartment.oc1..a"
  clusterName := "hpc"
  clusterScopeId := "hpc:pet:0123456789ab"
  deploymentId := "00000000000000000000000000000000"
  registryPath := "/opt/oci-hpc/conf/slurm_notification_users.json"
  protectedTopicIds := []

/-- The hash of `hpc:pet:0123456789ab:ann`. -/
def annSha256Hex (_ : String) : String := "d65a7b138c0480fa33d05107a2877c676f081a18b565851efaf27128e5360962"

def annTopic : Json :=
  .obj [("topic-id", .str "ocid1.onstopic.ann"), ("name", .str "slurm-hpc-ann-d65a7b138c04"), ("lifecycle-state", .str "ACTIVE"),
    ("freeform-tags", .obj [("managed_by", .str "cluster-cli"), ("slurm_user", .str "ann"),
      ("notification_deployment_id", .str "00000000000000000000000000000000"), ("cluster_name", .str "hpc"),
      ("parent_cluster", .str "hpc"), ("notification_scope", .str "hpc:pet:0123456789ab")])]

/-- The Topic is listed until its deletion is asked for. -/
def annOutside (h : History) : (call : CleanupCall) → Except CleanupError call.Ans × History
  | .listTopics =>
    let stdout := .json (.obj [("data", .arr (if deletions h = [] then [annTopic] else []))])
    (.ok stdout, h ++ [.listing stdout])
  | .deleteTopic topicId => (.ok (), h ++ [.delete topicId])

theorem annOutside_answers (h : History) (call : CleanupCall) :
    answers h call (annOutside h call).1 (annOutside h call).2 := by
  cases call with
  | listTopics => exact .listed h _
  | deleteTopic topicId => exact .deleted h topicId _

/-- The Topic is deleted and the run returns. -/
theorem cleanupTopics_safe_ann : let run := (cleanupTopics annSha256Hex petConfig .absent 30).run annOutside []
    (run.1 = .ok 1 ∧ deletions run.2 = ["ocid1.onstopic.ann"]) ∧ Safe annSha256Hex petConfig .absent run.2 :=
  ⟨by decide, (cleanupTopics_safe annSha256Hex petConfig .absent 30 (Exec.of_run annOutside_answers _ [])).1⟩

end OciHpc.Slurm
