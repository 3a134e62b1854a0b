import Mathlib.Data.List.Nodup
import OciHpc.ClusterCli.Oci

/-!
# The cleanup journal in the registry

* `recordPendingCleanup`, `preparePendingCleanup`, `commitPendingCleanupResults` : the registry updates
  of the journal `pending_cleanup`;
* `WellIdentified` : every entry has an identifier of its own;
* `identify_ids`, `commitEntries_of_wellIdentified` : what preparing does to the identifiers, and that
  committing acts entry by entry;
* `record_cases`, `prepare_cases`, `commit_cases` : what an update does to the journal.
-/

namespace OciHpc.ClusterCli

/-! ## The updates -/

/-- `config.get('pending_cleanup', [])`. -/
def pendingCleanup (registry : Registry) : Json := Dict.getD registry.config "pending_cleanup" (.arr [])

def cleanupEntry (user : String) (entry : Dict) (errors : List String) (cleanupId recordedAt : String) : Dict :=
  [("cleanup_id", .str cleanupId), ("username", .str user), ("email", Dict.getD entry "email" (.str "")),
    ("topic_id", Dict.getD entry "topic_id" (.str "")),
    ("subscription_id", Dict.getD entry "subscription_id" (.str "")), ("managed_by", .str "cluster-cli"),
    ("errors", .arr (errors.map .str)), ("recorded_at", .str recordedAt)]

/-- `not entry.get('topic_id') and not entry.get('subscription_id')`. -/
def nothingToClean (entry : Dict) : Bool :=
  (identifierOf entry .topic).isNone && (identifierOf entry .subscription).isNone

def recordPendingCleanup (added : Dict) : Mutator Unit := fun registry =>
  match pendingCleanup registry with
  | .arr pending =>
      .ok ((), { registry with
        config := Dict.set registry.config "pending_cleanup" (.arr (pending ++ [.obj added])) })
  | _ => .error (.other "AttributeError: object has no attribute 'append'")

def pendingCleanupNotList : CliError :=
  .notification "Notification registry field 'pending_cleanup' must be a list"

def invalidPendingEntry : CliError := .notification "Invalid pending notification cleanup entry"

/-- The identifier of an entry, if it is a string. -/
def cleanupIdOf (entry : Dict) : Option String := (Dict.get? entry "cleanup_id").bind Json.str?

/-- The entry under its own identifier, or under `uuid` if it has none or another entry has it. -/
def nameEntry (entry : Dict) (uuid : String) (cleanupIds : List String) : String × Dict :=
  match (cleanupIdOf entry).filter fun id => id ≠ "" && !cleanupIds.contains id with
  | some id => (id, entry)
  | none => (uuid, Dict.set entry "cleanup_id" (.str uuid))

/-- The loop of `prepare`; `uuids` are the identifiers `uuid.uuid4()` would draw, one for each entry. -/
def identify : List Json → List String → List String → Except CliError (List Dict)
  | [], _, _ => .ok []
  | .obj entry :: rest, uuids, cleanupIds =>
      let named := nameEntry entry (uuids.headD "") cleanupIds
      match identify rest uuids.tail (named.1 :: cleanupIds) with
      | .error e => .error e
      | .ok entries => .ok (named.2 :: entries)
  | _ :: _, _, _ => .error invalidPendingEntry

def preparePendingCleanup (uuids : List String) : Mutator (Dict × List Dict) := fun registry =>
  match validatedNotificationConfig registry with
  | .error e => .error e
  | .ok validatedConfig =>
      match pendingCleanup registry with
      | .arr pending =>
          match identify pending uuids [] with
          | .error e => .error e
          | .ok snapshot =>
              let config := match Dict.get? registry.config "pending_cleanup" with
                | some _ => Dict.set registry.config "pending_cleanup" (.arr (snapshot.map .obj))
                | none => registry.config
              .ok ((validatedConfig, snapshot), { registry with config })
      | _ => .error pendingCleanupNotList

/-- What became of each entry: `none` when its resources are gone, else the entry to keep. -/
abbrev Results := List (String × Option Dict)

/-- The loop of `commit`: the updated journal, and the identifiers matched. -/
def commitEntries (results : Results) : List Json → Except CliError (List Json × List String)
  | [] => .ok ([], [])
  | .obj entry :: rest =>
      match Dict.getD entry "cleanup_id" .null, commitEntries results rest with
      | .arr _, _ | .obj _, _ => .error (.other "TypeError: unhashable type")
      | _, .error e => .error e
      | .str id, .ok (updated, matched) =>
          match results.lookup id with
          | none => .ok (.obj entry :: updated, matched)
          | some none => .ok (updated, id :: matched)
          | some (some replacement) => .ok (.obj replacement :: updated, id :: matched)
      | _, .ok (updated, matched) => .ok (.obj entry :: updated, matched)
  | _ :: _ => .error invalidPendingEntry

def commitPendingCleanupResults (results : Results) : Mutator Unit := fun registry =>
  match pendingCleanup registry with
  | .arr pending =>
      match commitEntries results pending with
      | .error e => .error e
      | .ok (updated, matched) =>
          if !results.all fun r => matched.contains r.1 then
            .error (.notification "Notification cleanup journal changed while cleanup was running")
          else if updated ≠ [] then
            .ok ((), { registry with config := Dict.set registry.config "pending_cleanup" (.arr updated) })
          else .ok ((), { registry with config := Dict.pop registry.config "pending_cleanup" })
  | _ => .error pendingCleanupNotList

/-! ## The journal of a file -/

/-- The entries of `pending_cleanup`, where it is a list. -/
def pendingOf (file : RegistryFile) : List Json :=
  match loadNotificationRegistry file with
  | .ok registry =>
      match pendingCleanup registry with
      | .arr pending => pending
      | _ => []
  | .error _ => []

theorem pendingOf_of_load {file : RegistryFile} {registry : Registry} {pending : List Json}
    (hl : loadNotificationRegistry file = .ok registry) (hp : pendingCleanup registry = .arr pending) :
    pendingOf file = pending := by
  simp [pendingOf, hl, hp]

theorem pendingOf_toJson {registry : Registry} {pending : List Json}
    (hp : pendingCleanup registry = .arr pending) : pendingOf (.json registry.toJson) = pending :=
  pendingOf_of_load (loadNotificationRegistry_toJson registry) hp

@[simp] theorem pendingCleanup_set (registry : Registry) (value : Json) :
    pendingCleanup { registry with config := Dict.set registry.config "pending_cleanup" value } = value := by
  simp [pendingCleanup, Dict.getD]

@[simp] theorem pendingCleanup_pop (registry : Registry) :
    pendingCleanup { registry with config := Dict.pop registry.config "pending_cleanup" } = .arr [] := by
  simp [pendingCleanup, Dict.getD]

/-! ## What the updates do to the journal -/

/-- Every entry has a string identifier of its own. -/
structure WellIdentified (entries : List Dict) : Prop where
  nodup : (entries.map cleanupIdOf).Nodup
  named : ∀ entry ∈ entries, ∃ id, cleanupIdOf entry = some id ∧ id ≠ ""

theorem WellIdentified.eq_of_id {entries : List Dict} (h : WellIdentified entries) {a b : Dict}
    (ha : a ∈ entries) (hb : b ∈ entries) (hid : cleanupIdOf a = cleanupIdOf b) : a = b :=
  List.inj_on_of_nodup_map h.nodup ha hb hid

theorem WellIdentified.tail {entry : Dict} {entries : List Dict} (h : WellIdentified (entry :: entries)) :
    WellIdentified entries :=
  ⟨(List.nodup_cons.mp h.nodup).2, fun e he => h.named e (List.mem_cons_of_mem _ he)⟩

theorem WellIdentified.cons {entry : Dict} {entries : List Dict} {id : String} (h : WellIdentified entries)
    (hid : cleanupIdOf entry = some id) (hne : id ≠ "") (hnew : ∀ e ∈ entries, cleanupIdOf e ≠ some id) :
    WellIdentified (entry :: entries) := by
  refine ⟨List.nodup_cons.mpr ⟨fun hm => ?_, h.nodup⟩, fun e he => ?_⟩
  · obtain ⟨e, he, heq⟩ := List.mem_map.mp hm
    exact hnew e he (heq.trans hid)
  · rcases List.mem_cons.mp he with rfl | he
    · exact ⟨id, hid, hne⟩
    · exact h.named e he

/-- Dropping and replacing entries under their identifiers. -/
theorem WellIdentified.filterMap {entries : List Dict} (h : WellIdentified entries) {f : Dict → Option Dict}
    (hf : ∀ e ∈ entries, ∀ e', f e = some e' → cleanupIdOf e' = cleanupIdOf e) :
    WellIdentified (entries.filterMap f) := by
  induction entries with
  | nil => exact h
  | cons entry rest ih =>
      have hrest := ih h.tail fun e he => hf e (List.mem_cons_of_mem _ he)
      cases he : f entry with
      | none => simpa [List.filterMap_cons, he] using hrest
      | some entry' =>
          obtain ⟨id, hid, hne⟩ := h.named entry List.mem_cons_self
          simp only [List.filterMap_cons, he]
          refine hrest.cons ((hf entry List.mem_cons_self entry' he).trans hid) hne fun e' he' hid' => ?_
          obtain ⟨e, hmem, hfe⟩ := List.mem_filterMap.mp he'
          refine (List.nodup_cons.mp h.nodup).1 (List.mem_map.mpr ⟨e, hmem, ?_⟩)
          rw [← hf e (List.mem_cons_of_mem _ hmem) e' hfe, hid', hid]

theorem cleanupIdOf_set (entry : Dict) (id : String) :
    cleanupIdOf (Dict.set entry "cleanup_id" (.str id)) = some id := by
  simp [cleanupIdOf, Json.str?]

theorem identifierOf_set_ne (entry : Dict) {key : String} (value : Json) {type : ResourceType}
    (h : type.field ≠ key) : identifierOf (Dict.set entry key value) type = identifierOf entry type := by
  rw [identifierOf, Dict.get?_set_ne _ _ h]
  rfl

theorem identifierOf_cleanupEntry (user : String) (entry : Dict) (errors : List String) (cleanupId recordedAt : String)
    (type : ResourceType) :
    identifierOf (cleanupEntry user entry errors cleanupId recordedAt) type = identifierOf entry type := by
  cases type with
  | topic => cases h : Dict.get? entry "topic_id" <;>
      simp [identifierOf, cleanupEntry, ResourceType.field, Dict.get?, Dict.getD, h, Json.truthy]
  | subscription => cases h : Dict.get? entry "subscription_id" <;>
      simp [identifierOf, cleanupEntry, ResourceType.field, Dict.get?, Dict.getD, h, Json.truthy]

theorem nameEntry_cases (entry : Dict) (uuid : String) (cleanupIds : List String) :
    (∃ id, nameEntry entry uuid cleanupIds = (id, entry) ∧ cleanupIdOf entry = some id ∧ id ≠ "" ∧
      id ∉ cleanupIds) ∨
    nameEntry entry uuid cleanupIds = (uuid, Dict.set entry "cleanup_id" (.str uuid)) := by
  unfold nameEntry
  split
  · rename_i id hid
    simp only [Option.filter_eq_some_iff, Bool.and_eq_true, decide_eq_true_eq, ne_eq, Bool.not_eq_true',
      List.contains_eq_mem, decide_eq_false_iff_not] at hid
    exact .inl ⟨id, rfl, hid.1, hid.2.1, hid.2.2⟩
  · exact .inr rfl

theorem cleanupIdOf_nameEntry (entry : Dict) (uuid : String) (cleanupIds : List String) :
    cleanupIdOf (nameEntry entry uuid cleanupIds).2 = some (nameEntry entry uuid cleanupIds).1 := by
  rcases nameEntry_cases entry uuid cleanupIds with ⟨id, hn, hid, _⟩ | hn <;> rw [hn]
  · exact hid
  · exact cleanupIdOf_set entry uuid

theorem identifierOf_nameEntry (entry : Dict) (uuid : String) (cleanupIds : List String) (type : ResourceType) :
    identifierOf (nameEntry entry uuid cleanupIds).2 type = identifierOf entry type := by
  rcases nameEntry_cases entry uuid cleanupIds with ⟨id, hn, _⟩ | hn <;> rw [hn]
  exact identifierOf_set_ne _ _ (by cases type <;> decide)

/-- Preparing names entries and leaves what they identify. -/
theorem identify_identifiers {pending : List Json} {uuids cleanupIds : List String} {entries : List Dict}
    (h : identify pending uuids cleanupIds = .ok entries) :
    List.Forall₂ (fun e entry => ∃ old, e = .obj old ∧ ∀ type, identifierOf entry type = identifierOf old type)
      pending entries := by
  induction pending generalizing uuids cleanupIds entries with
  | nil => cases h; exact .nil
  | cons e rest ih =>
      cases e with
      | obj entry =>
          simp only [identify] at h
          split at h
          · cases h
          · rename_i entries' hrest
            cases h
            exact .cons ⟨entry, rfl, identifierOf_nameEntry entry _ _⟩ (ih hrest)
      | _ => simp [identify] at h

/-- New identifiers are drawn: enough of them, all different, and none in use. -/
structure FreshIds (uuids used : List String) (pending : List Json) : Prop where
  enough : pending.length ≤ uuids.length
  nodup : uuids.Nodup
  nonempty : "" ∉ uuids
  unused : ∀ id ∈ uuids, id ∉ used
  notPending : ∀ id ∈ uuids, ∀ entry, .obj entry ∈ pending → cleanupIdOf entry ≠ some id

/-- **Preparing gives every entry an identifier of its own**: a new one, or the entry is as it was. -/
theorem identify_ids {pending : List Json} {uuids cleanupIds : List String} {entries : List Dict}
    (hf : FreshIds uuids cleanupIds pending) (h : identify pending uuids cleanupIds = .ok entries) :
    WellIdentified entries ∧ ∀ e ∈ entries, ∀ id, cleanupIdOf e = some id → id ∉ cleanupIds ∧
      (id ∈ uuids ∨ .obj e ∈ pending) := by
  induction pending generalizing uuids cleanupIds entries with
  | nil =>
      cases h
      exact ⟨⟨.nil, by simp⟩, by simp⟩
  | cons e rest ih =>
      cases e with
      | obj entry =>
          obtain ⟨henough, hnodup, hnonempty, hunused, hnotPending⟩ := hf
          cases uuids with
          | nil => simp at henough
          | cons uuid uuids =>
              simp only [identify, List.headD_cons, List.tail_cons] at h
              split at h
              · cases h
              · rename_i entries' hrest
                cases h
                have hname := cleanupIdOf_nameEntry entry uuid cleanupIds
                -- the name is new to what was seen, and is not one of those still to be drawn
                have hnew : (nameEntry entry uuid cleanupIds).1 ∉ cleanupIds ∧
                    (nameEntry entry uuid cleanupIds).1 ≠ "" ∧
                    (nameEntry entry uuid cleanupIds).1 ∉ uuids ∧
                    ((nameEntry entry uuid cleanupIds).1 ∈ uuid :: uuids ∨
                      (nameEntry entry uuid cleanupIds).2 = entry) := by
                  rcases nameEntry_cases entry uuid cleanupIds with ⟨id, hn, hid, hne, hseen⟩ | hn <;>
                    simp only [hn]
                  · exact ⟨hseen, hne, fun hm => hnotPending id (List.mem_cons_of_mem _ hm) entry
                      List.mem_cons_self hid, .inr trivial⟩
                  · exact ⟨hunused uuid List.mem_cons_self, fun e => hnonempty (e ▸ List.mem_cons_self),
                      (List.nodup_cons.mp hnodup).1, .inl List.mem_cons_self⟩
                generalize nameEntry entry uuid cleanupIds = named at hrest hname hnew
                have hfresh : FreshIds uuids (named.1 :: cleanupIds) rest :=
                  { enough := by simpa using henough
                    nodup := (List.nodup_cons.mp hnodup).2
                    nonempty := fun hm => hnonempty (List.mem_cons_of_mem _ hm)
                    unused := fun id hid hm => by
                      rcases List.mem_cons.mp hm with rfl | hm
                      · exact hnew.2.2.1 hid
                      · exact hunused id (List.mem_cons_of_mem _ hid) hm
                    notPending := fun id hid e he =>
                      hnotPending id (List.mem_cons_of_mem _ hid) e (List.mem_cons_of_mem _ he) }
                obtain ⟨hwell, hall⟩ := ih hfresh hrest
                refine ⟨hwell.cons hname hnew.2.1 fun e he hid => ?_, fun e he id hid => ?_⟩
                · exact (hall e he _ hid).1 List.mem_cons_self
                · rcases List.mem_cons.mp he with rfl | he
                  · cases hname.symm.trans hid
                    exact ⟨hnew.1, hnew.2.2.2.imp_right fun h => by simp [h]⟩
                  · obtain ⟨hseen, hfrom⟩ := hall e he id hid
                    exact ⟨fun hm => hseen (List.mem_cons_of_mem _ hm),
                      hfrom.imp (List.mem_cons_of_mem _) (List.mem_cons_of_mem _)⟩
      | _ => simp [identify] at h

def commitEntry (results : Results) (entry : Dict) : Option Dict :=
  match (cleanupIdOf entry).bind fun id => results.lookup id with
  | none => some entry
  | some replacement => replacement

theorem getD_cleanupId {entry : Dict} {id : String} (h : cleanupIdOf entry = some id) :
    Dict.getD entry "cleanup_id" .null = .str id := by
  obtain ⟨value, hv, hs⟩ := Option.bind_eq_some_iff.mp h
  cases value <;> simp only [Json.str?, reduceCtorEq, Option.some.injEq] at hs
  rw [Dict.getD, hv, hs]
  rfl

/-- **Committing a well identified journal acts entry by entry.** -/
theorem commitEntries_of_wellIdentified {results : Results} {entries : List Dict} {updated : List Json}
    {matched : List String} (hwell : WellIdentified entries)
    (h : commitEntries results (entries.map .obj) = .ok (updated, matched)) :
    updated = (entries.filterMap (commitEntry results)).map .obj := by
  induction entries generalizing updated matched with
  | nil => cases h; rfl
  | cons entry rest ih =>
      obtain ⟨id, hid, _⟩ := hwell.named entry List.mem_cons_self
      rw [List.map_cons, commitEntries, getD_cleanupId hid] at h
      cases hrest : commitEntries results (rest.map .obj) with
      | error e => simp [hrest] at h
      | ok r =>
          have hupdated := ih hwell.tail hrest
          simp only [hrest] at h
          rw [List.filterMap_cons]
          cases hl : results.lookup id with
          | none =>
              simp only [hl] at h
              cases h
              simp [commitEntry, hid, hl, hupdated]
          | some replacement =>
              cases replacement <;> simp only [hl] at h <;> cases h <;> simp [commitEntry, hid, hl, hupdated]

/-! ## What an update does to the journal -/

theorem record_cases (added : Dict) (io : UpdateIo) (file : RegistryFile) :
    let r := updateNotificationRegistry (recordPendingCleanup added) io file
    (∃ e, r = (.error e, file)) ∨ r.1 = .ok () ∧ pendingOf r.2 = pendingOf file ++ [.obj added] := by
  rcases updateNotificationRegistry_cases (recordPendingCleanup added) io file with
    ⟨e, he⟩ | ⟨registry, result, updated, hl, hm, hu⟩
  · exact .inl ⟨e, he⟩
  · rw [hu]
    unfold recordPendingCleanup at hm
    split at hm <;> rename_i hp <;> cases hm
    refine .inr ⟨rfl, ?_⟩
    rw [pendingOf_of_load hl hp]
    exact pendingOf_toJson (pendingCleanup_set ..)

theorem prepare_cases (uuids : List String) (io : UpdateIo) (file : RegistryFile) :
    let r := updateNotificationRegistry (preparePendingCleanup uuids) io file
    (∃ e, r = (.error e, file)) ∨
      ∃ config snapshot, r.1 = .ok (config, snapshot) ∧ identify (pendingOf file) uuids [] = .ok snapshot ∧
        pendingOf r.2 = snapshot.map .obj := by
  rcases updateNotificationRegistry_cases (preparePendingCleanup uuids) io file with
    ⟨e, he⟩ | ⟨registry, result, updated, hl, hm, hu⟩
  · exact .inl ⟨e, he⟩
  · rw [hu]
    unfold preparePendingCleanup at hm
    split at hm
    · cases hm
    · rename_i validatedConfig _
      split at hm
      · rename_i pending hp
        split at hm
        · cases hm
        · rename_i snapshot hsnapshot
          cases hm
          refine .inr ⟨validatedConfig, snapshot, rfl, by rw [pendingOf_of_load hl hp, hsnapshot], ?_⟩
          cases hget : Dict.get? registry.config "pending_cleanup" with
          | some value => exact pendingOf_toJson (pendingCleanup_set ..)
          | none =>
              have hnil : pending = [] := by simpa [pendingCleanup, Dict.getD, hget, eq_comm] using hp
              subst hnil
              cases hsnapshot
              exact pendingOf_toJson hp
      · cases hm

theorem commit_cases (results : Results) (io : UpdateIo) (file : RegistryFile) :
    let r := updateNotificationRegistry (commitPendingCleanupResults results) io file
    (∃ e, r = (.error e, file)) ∨
      r.1 = .ok () ∧ ∃ matched, commitEntries results (pendingOf file) = .ok (pendingOf r.2, matched) := by
  rcases updateNotificationRegistry_cases (commitPendingCleanupResults results) io file with
    ⟨e, he⟩ | ⟨registry, result, updated, hl, hm, hu⟩
  · exact .inl ⟨e, he⟩
  · rw [hu]
    unfold commitPendingCleanupResults at hm
    split at hm
    · rename_i pending hp
      split at hm
      · cases hm
      · rename_i entries matched hentries
        split at hm
        · cases hm
        · split at hm <;> rename_i hne <;> cases hm
          · refine .inr ⟨rfl, matched, ?_⟩
            rw [pendingOf_of_load hl hp, pendingOf_toJson (pendingCleanup_set ..), hentries]
          · refine .inr ⟨rfl, matched, ?_⟩
            rw [pendingOf_of_load hl hp, pendingOf_toJson (pendingCleanup_pop registry), hentries,
              not_not.mp hne]
    · cases hm

end OciHpc.ClusterCli
