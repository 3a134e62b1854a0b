import OciHpc.Resize.FinalizePending
import OciHpc.Resize.RemoveRun

/-!
# The world of a removal

The pool, its instances and their volumes, and what the calls of a removal run do to them.

* `Pool`, `World` : what does not change, and what does;
* `anyStep`, `anyCall` : the calls, any of which may raise, with or without its effect;
* `goodStep`, `goodCall` : the calls where all of them succeed, and no deadline is reached.
-/

namespace OciHpc.Resize
open Prog Files

/-! ## The world -/

/-- The request, the pool, the volume attachments of its instances and the scratch volumes that its members came with, what the
lookups of an instance answer and the node that is found so. -/
structure Pool where
  isWord : Char → Bool
  inventoryPath : String
  request : Request
  kind : ClusterKind
  clusterId : String
  poolId : String
  attachments : String → List VolumeAttachment
  scratch : String → String → Prop
  turnOf : String → Turn
  nodeOf : String → Node
  privateIp : String → String

/-- `detached` counts the detachments of an instance, and `waits` bounds how often an answer says that an instance, a volume
or the cluster is not ready yet. -/
structure World where
  final : FinalSite
  instances : String → Option Instance
  volumes : String → Option StoredVolume
  members : List String
  size : Int
  detached : String → Nat
  waits : String → Nat

def IsEnding (state : String) : Prop := state = "TERMINATING" ∨ state = "TERMINATED"

instance (state : String) : Decidable (IsEnding state) := inferInstanceAs (Decidable (_ ∨ _))

/-- Nothing that is terminated comes back. -/
def Ages (before after : String) : Prop :=
  (before = "TERMINATED" → after = "TERMINATED") ∧ (before = "TERMINATING" → IsEnding after)

/-- An instance goes only when it is on the way out, and gets there only when it is terminated. -/
def InstanceAges (before after : Option Instance) : Prop :=
  match before, after with
  | none, after => after = none
  | some found, none => IsEnding found.lifecycleState
  | some found, some found' => found' = { found with lifecycleState := found'.lifecycleState } ∧
      Ages found.lifecycleState found'.lifecycleState ∧ (IsEnding found'.lifecycleState → IsEnding found.lifecycleState)

/-- A volume may go with its instance. -/
def VolumeAges (before after : Option StoredVolume) : Prop :=
  match before, after with
  | none, after => after = none
  | some _, none => True
  | some volume, some volume' => volume' = { volume with lifecycleState := volume'.lifecycleState } ∧
      Ages volume.lifecycleState volume'.lifecycleState

def terminating (found : Instance) : Instance :=
  if IsEnding found.lifecycleState then found else { found with lifecycleState := "TERMINATING" }

namespace World
variable (w : World)

/-- The instance is terminated, or gone. -/
def Terminated (id : String) : Prop := ∀ found, w.instances id = some found → found.lifecycleState = "TERMINATED"

/-- The volume is terminated, or gone. -/
def VolumeGone (id : String) : Prop := ∀ volume, w.volumes id = some volume → volume.lifecycleState = "TERMINATED"

/-- The instance is there, and not on the way out. -/
def Running (id : String) : Prop := ∃ found, w.instances id = some found ∧ ¬ IsEnding found.lifecycleState

def Lists (ids : List String) : Prop := ∀ id, id ∈ ids ↔ id ∈ w.members

def SamePool (w' : World) : Prop := w'.members = w.members ∧ w'.size = w.size ∧ w'.detached = w.detached

/-- The instance has left the pool, whose size is decremented. -/
def Detaches (id : String) (w' : World) : Prop :=
  id ∈ w.members ∧ w'.members = w.members.erase id ∧ w'.size = w.size - 1 ∧
    w'.detached = Function.update w.detached id (w.detached id + 1)

end World

/-! ## The calls -/

/-- What a call changes, whether it raises or not. -/
structure Changes (env : Pool) (w : World) (o : ResizeCall) (w' : World) : Prop where
  instances : ∀ id, InstanceAges (w.instances id) (w'.instances id) ∨
    (∃ preserve, o = .terminateInstance id preserve) ∧ InstanceAges ((w.instances id).map terminating) (w'.instances id)
  volumes : ∀ id, VolumeAges (w.volumes id) (w'.volumes id)
  pool : w.SamePool w' ∨ ∃ id, o = .detachInstance env.poolId id ∧ w.Detaches id w'

/-- What an answer says of the world it leaves. A 404 is about what is not there; any other error says nothing. -/
def Tells (env : Pool) (w : World) : (o : ResizeCall) → Except CallError o.Ans → Prop
  | .getInstance id, .ok found => w.instances id = some found
  | .getInstance id, .error (.service 404 _) => w.instances id = none
  | .listVolumeAttachments _ id, .ok attachments => w.Running id → attachments = env.attachments id
  | .poll _ id, .ok poll => w.Running id → poll.attachments = env.attachments id
  | .terminateInstance id _, .error (.service 404 _) => w.instances id = none
  | .getInstancePool id, .ok pool => id = env.poolId → pool.size = w.size
  | .listInstancePoolInstances _ poolId, .ok ids => poolId = env.poolId → w.Lists ids
  | .listInstancePoolInstances _ poolId, .error (.service 404 _) => poolId ≠ env.poolId
  | .detachInstance poolId id, .ok _ => poolId = env.poolId → id ∉ w.members
  | .getVolume id, .ok volume => w.volumes id = some volume
  | .getVolume id, .error (.service 404 _) => w.volumes id = none
  | .deleteVolume id, .error (.service 404 _) => w.volumes id = none
  | _, _ => True

def anyStep (env : Pool) : Handler resizeSig CallError World := fun w o r w' =>
  finalStep env.isWord env.inventoryPath w.final o r w'.final ∧ Changes env w o w' ∧ Tells env w' o r

section
variable (env : Pool) (w : World)

/-- The networks that run are the one of the cluster. -/
def NetworksAre (networks : List NetworkSummary) : Prop := ∀ network ∈ networks, network.lifecycleState = "RUNNING" →
  env.kind = .clusterNetwork ∧ network.id = env.clusterId ∧ network.instancePools.head? = some ⟨env.poolId, w.size⟩

/-- The pools that run are the one of the cluster. -/
def PoolsAre (pools : List ListedPool) : Prop :=
  ∀ pool ∈ pools, pool.lifecycleState = "RUNNING" → pool.toPoolSummary = ⟨env.poolId, w.size⟩

def World.Has (instances : List Instance) : Prop := ∀ found ∈ instances, w.instances found.id = some found

end

/-- What the other calls say. The cluster is no compute cluster. -/
def TellsCluster (env : Pool) (w : World) : (o : ClusterCall) → Except CallError o.Ans → Prop
  | .listClusterNetworks .., .ok networks => NetworksAre env w networks
  | .listComputeClusters .., .ok clusters => activeCluster env.request.clusterName clusters = none
  | .listInstancePools .., .ok pools => PoolsAre env w pools
  | .listTurns .., .ok listed => (List.map (·.id) listed : List String) ⊆ w.members
  | .listNamed .., .ok instances => w.Has instances
  | _, _ => True

def anyCall (env : Pool) : Handler clusterSig CallError World
  | w, .resize o, r, w' => anyStep env w o r w'
  | w, o, r, w' => w' = w ∧ TellsCluster env w' o r

/-! ## Where all calls succeed -/

/-- The call succeeds, or finds what it is about to be gone; what takes its time does so fewer times than `waits` says. -/
def Goes (w : World) : (o : ResizeCall) → Except CallError o.Ans → World → Prop
  | .getInstance id, .ok found, w' => found.lifecycleState = "TERMINATING" → w'.waits id < w.waits id
  | .getInstance _, .error e, _ | .terminateInstance .., .error e, _ | .getVolume _, .error e, _
  | .deleteRrSet .., .error e, _ => ∃ text, e = .service 404 text
  | .terminateInstance id _, .ok _, w' => ∀ found, w'.instances id = some found → IsEnding found.lifecycleState
  | .getVolume id, .ok volume, w' => volume.lifecycleState = "TERMINATING" → w'.waits id < w.waits id
  | .deleteVolume id, .ok _, w' => ∀ volume, w'.volumes id = some volume → IsEnding volume.lifecycleState
  | .deleteVolume id, .error e, w' => (∃ text, e = .service 404 text) ∨
      (∃ text, e = .service 409 text) ∧ w'.waits id < w.waits id
  | _, .error _, _ => False
  | _, .ok _, _ => True

def goodStep (env : Pool) : Handler resizeSig CallError World := fun w o r w' =>
  anyStep env w o r w' ∧ (∀ id, w'.waits id ≤ w.waits id) ∧ Goes w o r w'

/-- The cluster is found, and its members with their names and addresses. -/
def GoesCluster (env : Pool) (w : World) : (o : ClusterCall) → Except CallError o.Ans → World → Prop
  | .listClusterNetworks .., .ok networks, _ => env.kind = .clusterNetwork → runningNetwork networks ≠ none
  | .listInstancePools .., .ok pools, _ => env.kind = .instancePool → runningPool pools ≠ none
  | .getLifecycleState _ id, .ok state, w' => state ≠ "RUNNING" → w'.waits id < w.waits id
  | .listMembers .., .ok ids, _ => ids = w.members
  | .listTurns .., .ok listed, _ => listed = w.members.map env.turnOf
  | _, .error _, _ => False
  | _, .ok _, _ => True

def goodCall (env : Pool) : Handler clusterSig CallError World
  | w, .resize o, r, w' => goodStep env w o r w'
  | w, o, r, w' => w' = { w with waits := w'.waits } ∧ (∀ id, w'.waits id ≤ w.waits id) ∧ TellsCluster env w' o r ∧
      GoesCluster env w o r w'

end OciHpc.Resize
