import Mathlib.Data.List.Dedup
import OciHpc.Resize.PendingRemoval

/-!
# Cleaning up a compute cluster

What `resize.py cleanup_compute_cluster` does before Terraform destroys a compute cluster: the instances that the
state does not track are terminated.

* `getTrackedComputeClusterResources` : the cluster and the instances of the Terraform state;
* `terminateInstanceAndDeleteLaunchVolumes`, `terminateComputeClusterInstances` : the terminations;
* `cleanupComputeCluster` : the branch of the main program;
* `cleanup_is_safe` : no tracked instance is terminated, every other one is attempted, and the end tells the truth.
-/

namespace OciHpc.Resize
open Prog

/-! ## The Terraform state -/

/-- The items of `for item in value`; `none` is a `TypeError`. -/
def iterate : Json → Option (List Json)
  | .arr items => some items
  | .str s => some (s.toList.map fun c => .str (String.singleton c))
  | .obj fields => some (fields.map fun e => .str e.1)
  | .null | .bool _ | .int _ | .float _ => none

/-- `value.get(key, default)`; `none` is an `AttributeError`. -/
def getKey? (value : Json) (key : String) (default : Json) : Option Json :=
  value.obj?.map fun fields => Dict.getD fields key default

def isHashable : Json → Bool
  | .arr _ | .obj _ => false
  | _ => true

/-- `keys.add(key)`. -/
def addKey (key : Json) (keys : List Json) : List Json := if ∃ other ∈ keys, key.SameValue other then keys else keys ++ [key]

/-- `tracked_compute_cluster_ids` and `tracked_ids`. -/
structure Tracked where
  computeClusterIds : List Json
  ids : List Json

/-- The turn of an entry of `instances`; `none` is an exception. -/
def trackInstance (resource : Dict) (tracked : Tracked) (resourceInstance : Json) : Option Tracked := do
  let attributes ← getKey? resourceInstance "attributes" (.obj [])
  let resourceId ← getKey? attributes "id" .null
  let type := Dict.getD resource "type" .null
  let name := Dict.getD resource "name" .null
  if !resourceId.truthy then some tracked
  else if type = .str "oci_core_compute_cluster" ∧ name = .str "compute_cluster" then
    if isHashable resourceId then some { tracked with computeClusterIds := addKey resourceId tracked.computeClusterIds }
    else none
  else if type = .str "oci_core_instance" ∧ name = .str "compute_cluster_instances" then
    if isHashable resourceId then some { tracked with ids := addKey resourceId tracked.ids } else none
  else some tracked

def trackResource (tracked : Tracked) (resource : Json) : Option Tracked := do
  let fields ← resource.obj?
  if Dict.getD fields "mode" .null ≠ .str "managed" then some tracked
  else
    let instances ← iterate (Dict.getD fields "instances" (.arr []))
    instances.foldlM (trackInstance fields) tracked

def trackResources (state : Json) : Option Tracked := do
  let resources ← getKey? state "resources" (.arr [])
  (← iterate resources).foldlM trackResource ⟨[], []⟩

/-- `terraform.tfstate`: it is no file, cannot be read as JSON, or holds a document. -/
inductive StateFile
  | missing
  | unreadable
  | document (state : Json)

/-- `none` where there is no state file. -/
def getTrackedComputeClusterResources : StateFile → Except CallError (Option (Option Json × List Json))
  | .missing => .ok none
  | .unreadable => .error (.runtime "terraform.tfstate cannot be read")
  | .document state =>
      match trackResources state with
      | none => .error (.runtime "terraform.tfstate is malformed")
      | some tracked =>
          if 1 < tracked.computeClusterIds.length then
            .error (.runtime "Terraform state contains multiple managed Compute Clusters")
          else .ok (some (tracked.computeClusterIds.head?, tracked.ids))

/-! ## All terminations -/

/-- The instances that are not excluded and not terminated. -/
def candidates (excludedInstanceIds : List Json) (instances : List ListedInstance) : List ListedInstance :=
  instances.filter fun listed => .str listed.id ∉ excludedInstanceIds ∧ listed.lifecycleState ≠ "TERMINATED"

/-- The turn of a candidate, with `cleanup_errors`. -/
def terminateCandidate (request : Request) (turns : Nat) (cleanupErrors : List String) (candidate : ListedInstance) :
    Prog resizeSig CallError (List String) :=
  (terminateInstanceAndDeleteLaunchVolumes request turns candidate.id none).attempt.bind fun result =>
    .ret (match result with
      | .ok _ => cleanupErrors
      | .error e => cleanupErrors ++ [candidate.displayName ++ ": " ++ e.text])

/-- The detail of the error: what was raised, or else the identifiers left. -/
def cleanupDetail (cleanupErrors : List String) (remaining : List ListedInstance) : String :=
  if cleanupErrors.isEmpty then PyStr.join ", " ((remaining.map (·.id)).dedup.mergeSort (· ≤ ·))
  else PyStr.join "; " cleanupErrors

/-- The end of the function, after the second listing. -/
def endTerminations (excludedInstanceIds : List Json) (cleanupErrors : List String) (instances : List ListedInstance) :
    Prog resizeSig CallError Unit :=
  match candidates excludedInstanceIds instances with
  | [] => .ret ()
  | remaining => .throw (.runtime
      ("Failed to terminate all state-external Compute Cluster instances: " ++ cleanupDetail cleanupErrors remaining))

def terminateComputeClusterInstances (request : Request) (turns : Nat) (computeClusterId : Json)
    (excludedInstanceIds : List Json) : Prog resizeSig CallError Unit :=
  (oci (.listInstances request.compartmentId computeClusterId)).bind fun (instances : List ListedInstance) =>
    (forEach (terminateCandidate request turns) (candidates excludedInstanceIds instances) []).bind fun cleanupErrors =>
      (oci (.listInstances request.compartmentId computeClusterId)).bind fun (instances : List ListedInstance) =>
        endTerminations excludedInstanceIds cleanupErrors instances

/-- The instances outside the state are terminated, where the state is that of the cluster asked for; with the exit
code. -/
def terminateUntracked (request : Request) (turns : Nat) (state : StateFile) : Prog resizeSig CallError Nat :=
  (ofExcept (getTrackedComputeClusterResources state)).bind fun resources =>
    match resources with
    | none => .throw (.runtime
        "Terraform state was not found; refusing to clean up Compute Cluster instances before destroy")
    | some (none, _) => .ret 0
    | some (some computeClusterId, trackedInstanceIds) =>
        (oci (.getComputeCluster computeClusterId)).attempt.bind fun (result : Except CallError ComputeCluster) =>
          match result with
          | .error (.service 404 _) => .ret 0
          | .error e => .throw e
          | .ok cluster =>
              if cluster.displayName ≠ request.clusterName ∨ cluster.compartmentId ≠ request.compartmentId then
                .throw (.runtime "Terraform state Compute Cluster identity does not match the requested cluster")
              else
                (terminateComputeClusterInstances request turns computeClusterId trackedInstanceIds).bind fun _ => .ret 0

/-- The branch of the main program, with its exit code. -/
def cleanupComputeCluster (request : Request) (turns : Nat) (readyPendingDeletions : List Record) (state : StateFile) :
    Prog resizeSig CallError Nat :=
  (cleanupPendingDnsRecords request readyPendingDeletions).attempt.bind fun result =>
    match result with
    | .error _ => .ret 1
    | .ok _ => terminateUntracked request turns state

/-! ## What is tracked -/

inductive TrackedKind
  | computeCluster
  | clusterInstance

namespace TrackedKind

def type : TrackedKind → String
  | computeCluster => "oci_core_compute_cluster"
  | clusterInstance => "oci_core_instance"

def name : TrackedKind → String
  | computeCluster => "compute_cluster"
  | clusterInstance => "compute_cluster_instances"

end TrackedKind

def resourcesOf (state : Json) : List Json := ((getKey? state "resources" (.arr [])).bind iterate).getD []

def instancesOf (resource : Dict) : List Json := (iterate (Dict.getD resource "instances" (.arr []))).getD []

def resourceIdOf (resourceInstance : Json) : Json :=
  ((getKey? resourceInstance "attributes" (.obj [])).bind fun attributes => getKey? attributes "id" .null).getD .null

/-- An entry of a resource of this kind with this identifier. -/
def Tracks (kind : TrackedKind) (state key : Json) : Prop :=
  ∃ resource, .obj resource ∈ resourcesOf state ∧ Dict.getD resource "mode" .null = .str "managed" ∧
    Dict.getD resource "type" .null = .str kind.type ∧ Dict.getD resource "name" .null = .str kind.name ∧
      ∃ resourceInstance ∈ instancesOf resource, resourceIdOf resourceInstance = key ∧ key.truthy = true

/-- The state tracks two compute clusters or more. -/
def TracksSeveralClusters (state : Json) : Prop :=
  ∃ first second, Tracks .computeCluster state first ∧ Tracks .computeCluster state second ∧ ¬ Json.SameValue first second

/-! ## The sets of the state -/

theorem sameValue_str {s : String} {key : Json} : Json.SameValue (.str s) key ↔ key = .str s := by
  refine ⟨fun h => ?_, fun h => h ▸ .refl _⟩
  cases key with
  | str t => exact h.symm
  | bool b => cases b <;> cases h
  | float repr =>
    have hleaf : Json.str s = Json.numberLeaf (.float repr) := h
    rw [Json.numberLeaf] at hleaf
    cases hint : Json.asInt? (.float repr) with
    | none =>
      rw [hint] at hleaf
      cases hleaf
    | some n =>
      rw [hint] at hleaf
      cases hleaf
  | null => cases h
  | int n => cases h
  | arr items => cases h
  | obj fields => cases h

/-- `key in keys`. -/
def KeyIn (key : Json) (keys : List Json) : Prop := ∃ other ∈ keys, key.SameValue other

theorem keyIn_addKey {key added : Json} {keys : List Json} :
    KeyIn key (addKey added keys) ↔ KeyIn key keys ∨ key.SameValue added := by
  rw [addKey]
  split
  · rename_i hold
    obtain ⟨other, hother, hsame⟩ := hold
    exact ⟨.inl, fun h => h.elim id fun h => ⟨other, hother, h.trans hsame⟩⟩
  · constructor
    · rintro ⟨other, hother, hsame⟩
      rcases List.mem_append.mp hother with hother | hother
      · exact .inl ⟨other, hother, hsame⟩
      · exact .inr (List.mem_singleton.mp hother ▸ hsame)
    · rintro (⟨other, hother, hsame⟩ | hsame)
      · exact ⟨other, List.mem_append_left _ hother, hsame⟩
      · exact ⟨added, List.mem_append_right _ List.mem_cons_self, hsame⟩

def Tracked.keys (tracked : Tracked) : TrackedKind → List Json
  | .computeCluster => tracked.computeClusterIds
  | .clusterInstance => tracked.ids

theorem foldlM_iff {α β : Type} {f : β → α → Option β} {P : β → Prop} {Q : α → Prop} {xs : List α}
    (hstep : ∀ x ∈ xs, ∀ b b', f b x = some b' → (P b' ↔ P b ∨ Q x)) {b b' : β} (h : xs.foldlM f b = some b') :
    P b' ↔ P b ∨ ∃ x ∈ xs, Q x := by
  induction xs generalizing b with
  | nil =>
    rw [List.foldlM_nil] at h
    cases h
    simp
  | cons x rest ih =>
    rw [List.foldlM_cons] at h
    obtain ⟨mid, hmid, hrest⟩ := Option.bind_eq_some_iff.mp h
    rw [ih (fun y hy => hstep y (List.mem_cons_of_mem _ hy)) hrest, hstep x List.mem_cons_self b mid hmid, or_assoc,
      List.exists_mem_cons_iff]

theorem keyIn_trackInstance {resource : Dict} {resourceInstance : Json} {tracked tracked' : Tracked}
    (h : trackInstance resource tracked resourceInstance = some tracked') (kind : TrackedKind) (key : Json) :
    KeyIn key (tracked'.keys kind) ↔ KeyIn key (tracked.keys kind) ∨
      Dict.getD resource "type" .null = .str kind.type ∧ Dict.getD resource "name" .null = .str kind.name ∧
        (resourceIdOf resourceInstance).truthy = true ∧ key.SameValue (resourceIdOf resourceInstance) := by
  obtain ⟨attributes, hattributes, h⟩ := Option.bind_eq_some_iff.mp h
  obtain ⟨resourceId, hid, h⟩ := Option.bind_eq_some_iff.mp h
  have hresource : resourceIdOf resourceInstance = resourceId := by
    rw [resourceIdOf, hattributes, Option.bind_some, hid, Option.getD_some]
  rw [hresource]
  by_cases htruthy : resourceId.truthy = true
  · rw [htruthy, Bool.not_true, if_neg Bool.false_ne_true] at h
    by_cases hcluster : Dict.getD resource "type" .null = .str "oci_core_compute_cluster" ∧
        Dict.getD resource "name" .null = .str "compute_cluster"
    · rw [if_pos hcluster] at h
      obtain ⟨-, h⟩ := Option.ite_none_right_eq_some.mp h
      cases h
      cases kind with
      | computeCluster =>
        refine keyIn_addKey.trans (or_congr_right ?_)
        exact ⟨fun hsame => ⟨hcluster.1, hcluster.2, htruthy, hsame⟩, fun h => h.2.2.2⟩
      | clusterInstance =>
        refine (or_iff_left fun h => ?_).symm
        have htype := hcluster.1.symm.trans h.1
        exact absurd htype (by decide)
    · rw [if_neg hcluster] at h
      by_cases hinstance : Dict.getD resource "type" .null = .str "oci_core_instance" ∧
          Dict.getD resource "name" .null = .str "compute_cluster_instances"
      · rw [if_pos hinstance] at h
        obtain ⟨-, h⟩ := Option.ite_none_right_eq_some.mp h
        cases h
        cases kind with
        | computeCluster => exact (or_iff_left fun h => hcluster ⟨h.1, h.2.1⟩).symm
        | clusterInstance =>
          refine keyIn_addKey.trans (or_congr_right ?_)
          exact ⟨fun hsame => ⟨hinstance.1, hinstance.2, htruthy, hsame⟩, fun h => h.2.2.2⟩
      · rw [if_neg hinstance] at h
        cases h
        cases kind with
        | computeCluster => exact (or_iff_left fun h => hcluster ⟨h.1, h.2.1⟩).symm
        | clusterInstance => exact (or_iff_left fun h => hinstance ⟨h.1, h.2.1⟩).symm
  · rw [Bool.eq_false_iff.mpr htruthy, Bool.not_false, if_pos rfl] at h
    cases h
    exact (or_iff_left fun h => htruthy h.2.2.1).symm

theorem keyIn_trackResource {resource : Json} {tracked tracked' : Tracked}
    (h : trackResource tracked resource = some tracked') (kind : TrackedKind) (key : Json) :
    KeyIn key (tracked'.keys kind) ↔ KeyIn key (tracked.keys kind) ∨
      ∃ fields, resource = .obj fields ∧ Dict.getD fields "mode" .null = .str "managed" ∧
        Dict.getD fields "type" .null = .str kind.type ∧ Dict.getD fields "name" .null = .str kind.name ∧
          ∃ resourceInstance ∈ instancesOf fields,
            (resourceIdOf resourceInstance).truthy = true ∧ key.SameValue (resourceIdOf resourceInstance) := by
  obtain ⟨fields, hfields, hturn⟩ := Option.bind_eq_some_iff.mp h
  have hresource := Json.obj?_eq_some.mp hfields
  subst hresource
  by_cases hmode : Dict.getD fields "mode" .null = .str "managed"
  · rw [if_neg (not_not_intro hmode)] at hturn
    obtain ⟨instances, hinstances, hloop⟩ := Option.bind_eq_some_iff.mp hturn
    have hlist : instancesOf fields = instances := by rw [instancesOf, hinstances, Option.getD_some]
    rw [foldlM_iff (f := trackInstance fields)
      (fun resourceInstance _ tracked tracked' hturn => keyIn_trackInstance hturn kind key) hloop]
    refine or_congr_right ⟨?_, ?_⟩
    · rintro ⟨resourceInstance, hmem, htype, hname, htruthy, hsame⟩
      exact ⟨fields, rfl, hmode, htype, hname, resourceInstance, hlist ▸ hmem, htruthy, hsame⟩
    · rintro ⟨fields', hfields', -, htype, hname, resourceInstance, hmem, htruthy, hsame⟩
      cases hfields'
      exact ⟨resourceInstance, hlist ▸ hmem, htype, hname, htruthy, hsame⟩
  · rw [if_pos hmode] at hturn
    cases hturn
    refine (or_iff_left ?_).symm
    rintro ⟨fields', hfields', hmode', -⟩
    cases hfields'
    exact hmode hmode'

/-- **The sets hold what is tracked.** -/
theorem keyIn_trackResources {state : Json} {tracked : Tracked} (h : trackResources state = some tracked)
    (kind : TrackedKind) (key : Json) :
    KeyIn key (tracked.keys kind) ↔ ∃ found, Tracks kind state found ∧ key.SameValue found := by
  obtain ⟨value, hvalue, h⟩ := Option.bind_eq_some_iff.mp h
  obtain ⟨resources, hresources, h⟩ := Option.bind_eq_some_iff.mp h
  have hlist : resourcesOf state = resources := by
    rw [resourcesOf, hvalue, Option.bind_some, hresources, Option.getD_some]
  have hempty : ¬ KeyIn key ((⟨[], []⟩ : Tracked).keys kind) := by
    rintro ⟨other, hother, -⟩
    cases kind <;> exact absurd hother List.not_mem_nil
  rw [foldlM_iff (f := trackResource)
    (fun resource _ tracked tracked' hturn => keyIn_trackResource hturn kind key) h, or_iff_right hempty]
  constructor
  · rintro ⟨resource, hmem, fields, rfl, hmode, htype, hname, resourceInstance, hinstance, htruthy, hsame⟩
    exact ⟨_, ⟨fields, hlist ▸ hmem, hmode, htype, hname, resourceInstance, hinstance, rfl, htruthy⟩, hsame⟩
  · rintro ⟨found, ⟨fields, hmem, hmode, htype, hname, resourceInstance, hinstance, rfl, htruthy⟩, hsame⟩
    exact ⟨_, hlist ▸ hmem, fields, rfl, hmode, htype, hname, resourceInstance, hinstance, htruthy, hsame⟩

theorem mem_ids_iff {state : Json} {tracked : Tracked} (h : trackResources state = some tracked) (id : String) :
    .str id ∈ tracked.ids ↔ Tracks .clusterInstance state (.str id) := by
  have hkeys := keyIn_trackResources h .clusterInstance (.str id)
  constructor
  · intro hmem
    obtain ⟨found, hfound, hsame⟩ := hkeys.mp ⟨_, hmem, Json.SameValue.refl _⟩
    rwa [sameValue_str.mp hsame] at hfound
  · intro htracks
    obtain ⟨other, hother, hsame⟩ := hkeys.mpr ⟨_, htracks, Json.SameValue.refl _⟩
    rwa [sameValue_str.mp hsame] at hother

/-- A state that tracks several compute clusters is refused. -/
theorem error_of_several {state : Json} (h : TracksSeveralClusters state) :
    ∃ e, getTrackedComputeClusterResources (.document state) = .error e := by
  obtain ⟨first, second, hfirst, hsecond, hdifferent⟩ := h
  rw [getTrackedComputeClusterResources]
  cases htracked : trackResources state with
  | none => exact ⟨_, rfl⟩
  | some tracked =>
    obtain ⟨a, ha, hfirsta⟩ := (keyIn_trackResources htracked .computeCluster first).mpr ⟨_, hfirst, Json.SameValue.refl _⟩
    obtain ⟨b, hb, hsecondb⟩ := (keyIn_trackResources htracked .computeCluster second).mpr ⟨_, hsecond, Json.SameValue.refl _⟩
    have hlength : 1 < tracked.computeClusterIds.length := by
      by_contra hshort
      obtain ⟨only, honly⟩ := List.length_eq_one_iff.mp
        (Nat.le_antisymm (Nat.not_lt.mp hshort) (List.length_pos_of_mem ha))
      have ha' : a ∈ tracked.computeClusterIds := ha
      have hb' : b ∈ tracked.computeClusterIds := hb
      rw [honly, List.mem_singleton] at ha' hb'
      exact hdifferent ((ha' ▸ hfirsta).trans (hb' ▸ hsecondb).symm)
    exact ⟨_, if_pos hlength⟩

/-! ## The calls of the terminations -/

/-- Only instances that pass a test are terminated, and no compute cluster is looked up. -/
def CleanupCall (allowed : String → Prop) : ResizeCall → Prop
  | .terminateInstance id _ => allowed id
  | .getComputeCluster _ => False
  | _ => True

/-- **Only candidates are terminated.** -/
theorem calls_terminateComputeClusterInstances {allowed : String → Prop} (request : Request) (turns : Nat)
    (computeClusterId : Json) {excludedInstanceIds : List Json} (h : ∀ id, .str id ∉ excludedInstanceIds → allowed id) :
    (terminateComputeClusterInstances request turns computeClusterId excludedInstanceIds).Calls (CleanupCall allowed) := by
  refine Calls.bind (calls_perform trivial) fun instances => ?_
  refine Calls.bind (Calls.forEach_of_mem (fun candidate hcandidate cleanupErrors => ?_) []) fun cleanupErrors => ?_
  · have hout := (of_decide_eq_true (List.mem_filter.mp hcandidate).2).1
    have hcalls := @calls_terminateInstanceAndDeleteLaunchVolumes (fun id _ => allowed id) request turns candidate.id
      (fun _ => h _ hout) none
    refine Calls.attempt (hcalls.mono fun o ho => ?_) |>.bind fun result => calls_ret ..
    cases o <;> first | exact ho | exact trivial
  · refine Calls.bind (calls_perform trivial) fun instances => ?_
    unfold endTerminations
    split <;> trivial

/-! ## What is promised -/

def listing (request : Request) (computeClusterId : Json) (answer : Except CallError (List ListedInstance)) :
    Event resizeSig CallError :=
  ⟨.listInstances request.compartmentId computeClusterId, answer⟩

/-- A call of the terminate operation and its answer. -/
def termination (id : String) (preserveDataVolumes : Bool) (answer : Except CallError Unit) : Event resizeSig CallError :=
  ⟨.terminateInstance id preserveDataVolumes, answer⟩

/-- The instance is looked up and, where it is running, terminated, unless the look at its volumes raises. -/
def Attempted (request : Request) (id : String) (events : List (Event resizeSig CallError)) : Prop :=
  ∃ answer rest, events = ⟨.getInstance id, answer⟩ :: rest ∧ ∀ found : Instance, answer = .ok found →
    found.lifecycleState ≠ "TERMINATED" → found.lifecycleState ≠ "TERMINATING" →
      (∃ e, Trace (deletesDataVolumes request id none) (.raised e) rest) ∨
        ∃ preserveDataVolumes answer, termination id preserveDataVolumes answer ∈ rest

/-- Nothing is left that is neither excluded nor terminated. -/
def NoneLeft (excludedInstanceIds : List Json) (instances : List ListedInstance) : Prop :=
  ∀ listed ∈ instances, .str listed.id ∈ excludedInstanceIds ∨ listed.lifecycleState = "TERMINATED"

/-- The function returns where the second listing leaves nothing, and raises otherwise. -/
def EndsTruthfully (excludedInstanceIds : List Json) (out : Outcome CallError Unit) :
    Except CallError (List ListedInstance) → Prop
  | .error e => out = .raised e
  | .ok remaining => (out = .done () ↔ NoneLeft excludedInstanceIds remaining) ∧
      (¬ NoneLeft excludedInstanceIds remaining → ∃ e, out = .raised e)

/-- **The terminations.** Excluded instances are spared; where the first listing succeeds, every candidate in it is
attempted to its end, however the others end. -/
structure TerminatesAll (request : Request) (turns : Nat) (computeClusterId : Json) (excludedInstanceIds : List Json)
    (out : Outcome CallError Unit) (events : List (Event resizeSig CallError)) : Prop where
  spares : ∀ id preserveDataVolumes answer, termination id preserveDataVolumes answer ∈ events →
    .str id ∉ excludedInstanceIds
  attempts : out ≠ .cut →
    (∃ e, events = [listing request computeClusterId (.error e)] ∧ out = .raised e) ∨
      ∃ first pieces second, events = listing request computeClusterId (.ok first) ::
          (pieces.flatten ++ [listing request computeClusterId second]) ∧
        List.Forall₂ (fun candidate piece => (∃ result, result ≠ .cut ∧
            Trace (terminateInstanceAndDeleteLaunchVolumes request turns candidate.id none) result piece) ∧
            Attempted request candidate.id piece)
          (candidates excludedInstanceIds first) pieces ∧
        EndsTruthfully excludedInstanceIds out second

/-- The state file is missing, tracks several compute clusters, or its cluster is another one than was asked for. -/
def Refused (request : Request) (state : StateFile) (events : List (Event resizeSig CallError)) : Prop :=
  state = .missing ∨ (∃ document, state = .document document ∧ TracksSeveralClusters document) ∨
    ∃ id, ∃ cluster : ComputeCluster, (⟨.getComputeCluster id, .ok cluster⟩ : Event resizeSig CallError) ∈ events ∧
      (cluster.displayName ≠ request.clusterName ∨ cluster.compartmentId ≠ request.compartmentId)

/-- Nothing is terminated. -/
def Spared (events : List (Event resizeSig CallError)) : Prop :=
  ∀ id preserveDataVolumes answer, termination id preserveDataVolumes answer ∉ events

/-- **The cleanup.** Tracked instances are spared, and all are where it is refused; what is terminated otherwise is
left to the terminations. -/
structure CleansUp (request : Request) (turns : Nat) (state : StateFile) (events : List (Event resizeSig CallError)) : Prop where
  spares : ∀ document id, state = .document document → Tracks .clusterInstance document (.str id) →
    ∀ preserveDataVolumes answer, termination id preserveDataVolumes answer ∉ events
  refuses : Refused request state events → Spared events
  terminates : Spared events ∨ ∃ before computeClusterId tracked result rest, events = before ++ rest ∧ Spared before ∧
    getTrackedComputeClusterResources state = .ok (some (some computeClusterId, tracked)) ∧
    Trace (terminateComputeClusterInstances request turns computeClusterId tracked) result rest

section
variable {request : Request} {turns : Nat} {readyPendingDeletions : List Record}

theorem candidates_eq_nil {excludedInstanceIds : List Json} {instances : List ListedInstance} :
    candidates excludedInstanceIds instances = [] ↔ NoneLeft excludedInstanceIds instances := by
  rw [candidates, List.filter_eq_nil_iff]
  refine forall₂_congr fun listed _ => ?_
  rw [decide_eq_true_eq, not_and_or, not_not, not_not]

theorem endsTruthfully_of_trace {excludedInstanceIds : List Json} {cleanupErrors : List String}
    {instances : List ListedInstance} {out : Outcome CallError Unit} {events : List (Event resizeSig CallError)}
    (h : Trace (endTerminations excludedInstanceIds cleanupErrors instances) out events) :
    events = [] ∧ EndsTruthfully excludedInstanceIds out (.ok instances) := by
  unfold endTerminations at h
  split at h
  · rename_i hnil
    obtain ⟨rfl, rfl⟩ := trace_ret.mp h
    have hnone := candidates_eq_nil.mp hnil
    exact ⟨rfl, iff_of_true rfl hnone, fun hleft => absurd hnone hleft⟩
  · rename_i hnil
    obtain ⟨rfl, rfl⟩ := trace_throw.mp h
    have hleft : ¬ NoneLeft excludedInstanceIds instances := fun hnone => hnil (candidates_eq_nil.mpr hnone)
    exact ⟨rfl, iff_of_false nofun hleft, fun _ => ⟨_, rfl⟩⟩

theorem attempted_of_trace {id : String} {out : Outcome CallError Unit} {events : List (Event resizeSig CallError)}
    (hcut : out ≠ .cut) (h : Trace (terminateInstanceAndDeleteLaunchVolumes request turns id none) out events) :
    Attempted request id events := by
  rcases trace_perform_attempt_bind.mp h with ⟨answer, rest, rfl, hrest⟩ | ⟨rfl, -⟩
  swap
  · exact absurd rfl hcut
  refine ⟨answer, rest, rfl, fun found hfound hterminated hterminating => ?_⟩
  subst hfound
  dsimp only at hrest
  rw [if_neg hterminated, if_neg hterminating] at hrest
  rcases trace_bind.mp hrest with ⟨delete, first, last, hvolumes, hlast, rfl⟩ | ⟨e, hvolumes, -⟩ | ⟨-, rfl⟩
  · rcases trace_perform_attempt_bind.mp hlast with ⟨answer, after, rfl, -⟩ | ⟨rfl, -⟩
    · exact .inr ⟨!delete, answer, List.mem_append_right _ List.mem_cons_self⟩
    · exact absurd rfl hcut
  · exact .inl ⟨e, hvolumes⟩
  · exact absurd rfl hcut

theorem terminateComputeClusterInstances_spec {computeClusterId : Json} {excludedInstanceIds : List Json}
    {out : Outcome CallError Unit} {events : List (Event resizeSig CallError)}
    (h : Trace (terminateComputeClusterInstances request turns computeClusterId excludedInstanceIds) out events) :
    TerminatesAll request turns computeClusterId excludedInstanceIds out events := by
  constructor
  · intro id preserveDataVolumes answer hmem
    have hcalls := @calls_terminateComputeClusterInstances (fun id => .str id ∉ excludedInstanceIds) request turns computeClusterId
      excludedInstanceIds fun _ h => h
    exact h.calls hcalls _ hmem
  · intro hcut
    rcases trace_perform_bind.mp h with ⟨first, rest, hevents, hrest⟩ | ⟨e, hout, hevents⟩ | ⟨hout, -⟩
    · rcases trace_bind.mp hrest with ⟨cleanupErrors, before, after, hloop, hafter, hsplit⟩ | ⟨e, hloop, -⟩ | ⟨-, hout⟩
      · rcases trace_forEach_attempt hloop with hcut | ⟨errors, pieces, -, hpieces, hturns⟩
        · cases hcut
        have hattempts := hturns.imp fun candidate piece hturn =>
          (⟨hturn, hturn.elim fun _ hpiece => attempted_of_trace hpiece.1 hpiece.2⟩ :
            (∃ result, result ≠ .cut ∧
              Trace (terminateInstanceAndDeleteLaunchVolumes request turns candidate.id none) result piece) ∧
              Attempted request candidate.id piece)
        rw [hsplit, hpieces] at hevents
        rcases trace_perform_bind.mp hafter with ⟨second, last, hlast, hend⟩ | ⟨e, hout, hlast⟩ | ⟨hout, -⟩
        · obtain ⟨rfl, htruth⟩ := endsTruthfully_of_trace hend
          exact .inr ⟨first, pieces, .ok second, by rw [hevents, hlast]; rfl, hattempts, htruth⟩
        · exact .inr ⟨first, pieces, .error e, by rw [hevents, hlast]; rfl, hattempts, hout⟩
        · exact absurd hout hcut
      · rcases trace_forEach_attempt hloop with hcut | ⟨errors, pieces, hdone, -⟩
        · cases hcut
        · cases hdone
      · exact absurd hout hcut
    · exact .inl ⟨e, hevents, hout⟩
    · exact absurd hout hcut

theorem spared_nil : Spared [] := fun _ _ _ => List.not_mem_nil

theorem spared_cons {event : Event resizeSig CallError} {events : List (Event resizeSig CallError)}
    (hevent : ∀ id preserveDataVolumes, event.1 ≠ .terminateInstance id preserveDataVolumes) (h : Spared events) :
    Spared (event :: events) := fun id preserveDataVolumes answer hmem => by
  rcases List.mem_cons.mp hmem with rfl | hmem
  · exact hevent id preserveDataVolumes rfl
  · exact h id preserveDataVolumes answer hmem

theorem spared_of_calls {events : List (Event resizeSig CallError)}
    (h : ∀ event ∈ events, CleanupCall (fun _ => False) event.1) : Spared events := fun _ _ _ hmem => h _ hmem

theorem spared_append {first rest : List (Event resizeSig CallError)} (hfirst : Spared first) (hrest : Spared rest) :
    Spared (first ++ rest) := fun id preserveDataVolumes answer hmem =>
  (List.mem_append.mp hmem).elim (hfirst id preserveDataVolumes answer) (hrest id preserveDataVolumes answer)

/-- The state tracks one cluster, which is the one asked for, and the terminations follow. -/
def Terminations (request : Request) (turns : Nat) (state : StateFile) (events : List (Event resizeSig CallError)) : Prop :=
  ∃ computeClusterId tracked, ∃ cluster : ComputeCluster, ∃ result rest,
    getTrackedComputeClusterResources state = .ok (some (some computeClusterId, tracked)) ∧
    cluster.displayName = request.clusterName ∧ cluster.compartmentId = request.compartmentId ∧
    events = ⟨.getComputeCluster computeClusterId, .ok cluster⟩ :: rest ∧
    Trace (terminateComputeClusterInstances request turns computeClusterId tracked) result rest

theorem terminateUntracked_cases {state : StateFile} {out : Outcome CallError Nat}
    {events : List (Event resizeSig CallError)} (h : Trace (terminateUntracked request turns state) out events) :
    Spared events ∨ Terminations request turns state events := by
  rcases trace_ofExcept_bind.mp h with ⟨resources, hstate, hresources⟩ | ⟨e, -, -, rfl⟩
  swap
  · exact .inl spared_nil
  match resources with
  | none =>
    obtain ⟨-, rfl⟩ := trace_throw.mp hresources
    exact .inl spared_nil
  | some (none, tracked) =>
    obtain ⟨-, rfl⟩ := trace_ret.mp hresources
    exact .inl spared_nil
  | some (some computeClusterId, tracked) =>
    rcases trace_perform_attempt_bind.mp hresources with ⟨found, rest, rfl, hfound⟩ | ⟨-, rfl⟩
    swap
    · exact .inl spared_nil
    cases found with
    | error e =>
      have hrest : rest = [] := by
        dsimp only at hfound
        split at hfound
        · exact (trace_ret.mp hfound).2
        · rename_i herror
          cases herror
          exact (trace_throw.mp hfound).2
        · rename_i hok
          cases hok
      subst hrest
      exact .inl (spared_cons nofun spared_nil)
    | ok cluster =>
      dsimp only at hfound
      split at hfound
      · obtain ⟨-, rfl⟩ := trace_throw.mp hfound
        exact .inl (spared_cons nofun spared_nil)
      · rename_i hsame
        rw [not_or, not_not, not_not] at hsame
        refine .inr ⟨computeClusterId, tracked, cluster, ?_⟩
        rcases trace_bind.mp hfound with ⟨a, first, last, hfirst, hlast, rfl⟩ | ⟨e, hfirst, -⟩ | ⟨hfirst, -⟩
        · obtain ⟨-, rfl⟩ := trace_ret.mp hlast
          exact ⟨.done a, first, hstate, hsame.1, hsame.2, by rw [List.append_nil], hfirst⟩
        · exact ⟨.raised e, rest, hstate, hsame.1, hsame.2, rfl, hfirst⟩
        · exact ⟨.cut, rest, hstate, hsame.1, hsame.2, rfl, hfirst⟩

/-- Either nothing is terminated, or the terminations follow the DNS cleanup. -/
theorem cleanupComputeCluster_cases {state : StateFile} {out : Outcome CallError Nat} {events : List (Event resizeSig CallError)}
    (h : Trace (cleanupComputeCluster request turns readyPendingDeletions state) out events) :
    Spared events ∨ ∃ dns rest, (∀ event ∈ dns, CleanupCall (fun _ => False) event.1) ∧ events = dns ++ rest ∧
      Terminations request turns state rest := by
  have hdnsCalls := calls_cleanupPendingDnsRecords (P := CleanupCall fun _ => False) (fun _ => trivial)
    (fun _ _ => trivial) (fun _ _ => trivial) request readyPendingDeletions
  rcases trace_bind.mp h with ⟨result, dns, rest, hdns, hrest, rfl⟩ | ⟨e, hdns, -⟩ | ⟨hdns, -⟩
  · have hspared := hdns.calls hdnsCalls.attempt
    cases result with
    | error e =>
      obtain ⟨-, rfl⟩ := trace_ret.mp hrest
      exact .inl (spared_append (spared_of_calls hspared) spared_nil)
    | ok count =>
      rcases terminateUntracked_cases hrest with hnone | hterminations
      · exact .inl (spared_append (spared_of_calls hspared) hnone)
      · exact .inr ⟨dns, rest, hspared, rfl, hterminations⟩
  · exact .inl (spared_of_calls (hdns.calls hdnsCalls.attempt))
  · exact .inl (spared_of_calls (hdns.calls hdnsCalls.attempt))

theorem mem_of_tracks {document : Json} {computeClusterId : Option Json} {tracked : List Json}
    (h : getTrackedComputeClusterResources (.document document) = .ok (some (computeClusterId, tracked))) {id : String}
    (hid : Tracks .clusterInstance document (.str id)) : .str id ∈ tracked := by
  rw [getTrackedComputeClusterResources] at h
  cases hresources : trackResources document with
  | none =>
    rw [hresources] at h
    cases h
  | some found =>
    rw [hresources] at h
    dsimp only at h
    split at h
    · cases h
    · cases h
      exact (mem_ids_iff hresources id).mpr hid

theorem cleanupComputeCluster_spec {state : StateFile} {out : Outcome CallError Nat}
    {events : List (Event resizeSig CallError)}
    (h : Trace (cleanupComputeCluster request turns readyPendingDeletions state) out events) :
    CleansUp request turns state events := by
  rcases cleanupComputeCluster_cases h with hnone | ⟨dns, _, hdns, rfl, computeClusterId, tracked, cluster, result, rest,
    hstate, hname, hcompartment, rfl, hrest⟩
  · exact ⟨fun _ id _ _ => hnone id, fun _ => hnone, .inl hnone⟩
  · have hbefore : Spared (dns ++ [⟨.getComputeCluster computeClusterId, .ok cluster⟩]) :=
      spared_append (spared_of_calls hdns) (spared_cons nofun spared_nil)
    have hspares := (terminateComputeClusterInstances_spec hrest).spares
    rw [show dns ++ ⟨.getComputeCluster computeClusterId, .ok cluster⟩ :: rest =
      (dns ++ [⟨.getComputeCluster computeClusterId, .ok cluster⟩]) ++ rest by simp]
    constructor
    · intro document id hdocument hid preserveDataVolumes answer hmem
      subst hdocument
      rcases List.mem_append.mp hmem with hmem | hmem
      · exact hbefore id preserveDataVolumes answer hmem
      · exact hspares id preserveDataVolumes answer hmem (mem_of_tracks hstate hid)
    · rintro (hmissing | ⟨document, hdocument, hseveral⟩ | ⟨id, other, hmem, hdifferent⟩)
      · subst hmissing
        cases hstate
      · subst hdocument
        obtain ⟨e, he⟩ := error_of_several hseveral
        rw [he] at hstate
        cases hstate
      · -- the cluster is looked up once, and it is the one asked for
        rcases List.mem_append.mp hmem with hmem | hmem
        · rcases List.mem_append.mp hmem with hmem | hmem
          · exact (hdns _ hmem).elim
          · cases List.mem_singleton.mp hmem
            exact absurd hdifferent (by rw [hname, hcompartment]; simp)
        · have hcalls := @calls_terminateComputeClusterInstances (fun _ => True) request turns computeClusterId tracked
            fun _ _ => trivial
          exact (hrest.calls hcalls _ hmem).elim
    · exact .inr ⟨_, computeClusterId, tracked, result, rest, rfl, hbefore, hstate, hrest⟩

end

/-- **The cleanup is safe.** Whatever OCI answers, no tracked instance is terminated, every other one is attempted, the
function returns only where none is left, and nothing is terminated where the state is not that of the cluster asked for. -/
theorem cleanup_is_safe (request : Request) (turns : Nat) :
    (∀ computeClusterId excludedInstanceIds out events,
      Trace (terminateComputeClusterInstances request turns computeClusterId excludedInstanceIds) out events →
        TerminatesAll request turns computeClusterId excludedInstanceIds out events) ∧
    ∀ readyPendingDeletions state out events,
      Trace (cleanupComputeCluster request turns readyPendingDeletions state) out events →
        CleansUp request turns state events :=
  ⟨fun _ _ _ _ h => terminateComputeClusterInstances_spec h, fun _ _ _ _ h => cleanupComputeCluster_spec h⟩

/-! ## Two nodes outside the state -/

def hpcRequest : Request := ⟨"hpc", "ocid1.compartment", [], false, ⟨none, [], [], none⟩⟩

/-- The state tracks a cluster and the instance a. -/
def hpcState : Json :=
  .obj [("resources", .arr
    [.obj [("mode", .str "managed"), ("type", .str "oci_core_compute_cluster"), ("name", .str "compute_cluster"),
        ("instances", .arr [.obj [("attributes", .obj [("id", .str "ocid1.cluster")])]])],
      .obj [("mode", .str "managed"), ("type", .str "oci_core_instance"), ("name", .str "compute_cluster_instances"),
        ("instances", .arr [.obj [("attributes", .obj [("id", .str "ocid1.a")])]])]])]

/-- The instances of the compute cluster, as they are when these have been terminated. -/
def lifecycleAfter (terminated : List String) (id : String) : String :=
  if id ∈ terminated then "TERMINATED" else "RUNNING"

/-- The instances b and c are still running, and c cannot be terminated. -/
def hpcAnswer (terminated : List String) : (o : ResizeCall) → Except CallError o.Ans
  | .getComputeCluster _ => .ok (⟨"hpc", "ocid1.compartment"⟩ : ComputeCluster)
  | .listInstances .. => .ok (["a", "b", "c"].map fun name =>
      (⟨"ocid1." ++ name, name, lifecycleAfter terminated ("ocid1." ++ name)⟩ : ListedInstance))
  | .getInstance id =>
      .ok (⟨⟨id, "inst", lifecycleAfter terminated id, true, none, fun _ => true⟩, [], true, true⟩ : Instance)
  | .terminateInstance id _ => if id = "ocid1.b" then .ok () else .error (.service 500 "InternalServerError")
  | _ => .error (.service 500 "InternalServerError")

/-- What OCI answers; the instances that were terminated stay so. -/
def hpcOutside (terminated : List String) (o : ResizeCall) : Except CallError o.Ans × List String :=
  (hpcAnswer terminated o,
    match o with
    | .terminateInstance "ocid1.b" _ => "ocid1.b" :: terminated
    | _ => terminated)

def hpcCleanup : Prog resizeSig CallError Nat := cleanupComputeCluster hpcRequest 3 [] (.document hpcState)

/-- The instances that are terminated, in their order. -/
def terminatedIds (events : List (Event resizeSig CallError)) : List String :=
  events.filterMap fun event =>
    match event.1 with
    | .terminateInstance id _ => some id
    | _ => none

theorem cleanup_is_safe_two_left :
    (hpcCleanup.run hpcOutside []).1 = .error (.runtime
      "Failed to terminate all state-external Compute Cluster instances: c: InternalServerError") ∧
    terminatedIds (hpcCleanup.runEvents hpcOutside []) = ["ocid1.b", "ocid1.c"] ∧
    CleansUp hpcRequest 3 (.document hpcState) (hpcCleanup.runEvents hpcOutside []) :=
  ⟨by decide +kernel, by decide +kernel, (cleanup_is_safe hpcRequest 3).2 [] _ _ _
    (@Trace.of_run resizeSig CallError Nat (List String) hpcOutside hpcCleanup [])⟩

end OciHpc.Resize
