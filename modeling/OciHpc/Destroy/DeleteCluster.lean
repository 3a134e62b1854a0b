import OciHpc.Resize.CleanupComputeCluster
import OciHpc.Resize.RemovalWorld

/-!
# Deleting a cluster

`delete_cluster.sh` after its arguments are read, and what its commands do to the cluster.

* `DeleteCall` : its commands, and the calls of `resize.py cleanup_compute_cluster`;
* `deleteCluster` : the script, with its exit status;
* `World`, `Destroys`, `deleteStep` : the cluster directory and the compute cluster, and what a command may do to them.
-/

namespace OciHpc.Deletion
open Prog Resize

/-! ## The commands -/

/-- `enter` is the entry under the lock, `startCleanup` what `resize.py` does before its branch for the cleanup, `none`
where that ends the run, `readState` its reading of `terraform.tfstate`, and `exitCleanup` its exit. -/
inductive DeleteCall
  | enter (force : Bool)
  | isInventory
  | cleanup (force : Bool)
  | startCleanup
  | readState
  | resize (o : ResizeCall)
  | exitCleanup (status : Nat)
  | terraformDestroy
  | invalidIndex
  | pushSize
  | topologyNodes
  | removeUnreachable (node : String)
  | removeDirectory
  | removeMarker

def DeleteCall.Ans : DeleteCall → Type
  | .enter _ | .isInventory | .invalidIndex => Bool
  | .cleanup _ | .terraformDestroy => Nat
  | .startCleanup => Option (List Record)
  | .readState => StateFile
  | .resize o => o.Ans
  | .topologyNodes => List String
  | .exitCleanup _ | .pushSize | .removeUnreachable _ | .removeDirectory | .removeMarker => Unit

abbrev deleteSig : Sig := ⟨DeleteCall, DeleteCall.Ans⟩

abbrev sh (o : DeleteCall) : Prog deleteSig CallError o.Ans := perform (S := deleteSig) o

/-- A part of `resize.py`. -/
def onCloud {α : Type} (p : Prog resizeSig CallError α) : Prog deleteSig CallError α := p.via fun o => sh (.resize o)

/-! ## The script -/

/-- The cluster that is deleted: what `resize.py` reads in the inventory, for how many turns it waits, and the compute
cluster of the directory. -/
structure Site where
  request : Request
  turns : Nat
  computeClusterId : String

variable (site : Site)

/-- The branch of `resize.py` for the cleanup, after the pending removals. -/
def cleanupBranch (readyPendingDeletions : List Record) : Prog deleteSig CallError Nat :=
  (onCloud (cleanupPendingDnsRecords site.request readyPendingDeletions)).attempt.bind fun (result : Except CallError Nat) =>
    match result with
    | .error _ => .ret 1
    | .ok _ => (sh .readState).bind fun (state : StateFile) => onCloud (terminateUntracked site.request site.turns state)

/-- The exit status of Python. -/
def exitStatus : Except CallError Nat → Nat
  | .ok status => status
  | .error _ => 1

/-- `resize.py --cluster_name "$1" cleanup_compute_cluster`. -/
def cleanupCluster : Prog deleteSig CallError Nat :=
  (sh .startCleanup).bind fun (started : Option (List Record)) =>
    match started with
    | none => .ret 1
    | some readyPendingDeletions =>
        (cleanupBranch site readyPendingDeletions).attempt.bind fun (result : Except CallError Nat) =>
          (sh (.exitCleanup (exitStatus result))).bind fun _ => .ret (exitStatus result)

/-- `cleanup.sh`, with its exit status. -/
def cleanup (force : Bool) : Prog deleteSig CallError Nat := sh (.cleanup force)

/-- `status_initial_deletion`. -/
def initialDeletion (force : Bool) : Prog deleteSig CallError Nat :=
  (sh .isInventory).bind fun (inventory : Bool) =>
    (if inventory then cleanup false else .ret 0).bind fun (status : Nat) =>
      if status ≠ 0 ∧ force = true then cleanup true else .ret status

/-- `status_compute_cleanup`, first. -/
def firstCleanup : Prog deleteSig CallError Nat :=
  (sh .isInventory).bind fun (inventory : Bool) => if inventory then cleanupCluster site else .ret 0

/-- `status_compute_cleanup`, again. -/
def retryCleanup (status : Nat) : Prog deleteSig CallError Nat :=
  if status = 0 then .ret 0
  else (sh .isInventory).bind fun (inventory : Bool) => if inventory then cleanupCluster site else .ret status

/-- The repair of a state that lists more members than there are. -/
def repairState : Prog deleteSig CallError Unit :=
  (sh .invalidIndex).bind fun (indexerror : Bool) => if indexerror then sh .pushSize else .ret ()

/-- `status_terraform_deletion` and `status_compute_cleanup`. -/
structure Statuses where
  terraform : Nat
  compute : Nat

def retryDestroy : Nat → Statuses → Prog deleteSig CallError Statuses
  | 0, statuses => .ret statuses
  | turns + 1, statuses =>
      if statuses.terraform = 0 then .ret statuses
      else repairState.bind fun _ => (retryCleanup site statuses.compute).bind fun (compute : Nat) =>
        (sh .terraformDestroy).bind fun (terraform : Nat) => retryDestroy turns ⟨terraform, compute⟩

/-- The end of the script: the directory is removed where both went well. -/
def finish (statuses : Statuses) : Prog deleteSig CallError Nat :=
  if statuses.terraform = 0 ∧ statuses.compute = 0 then
    (sh .topologyNodes).bind fun (nodes : List String) =>
      (forEach (fun _ node => sh (.removeUnreachable node)) nodes ()).bind fun _ =>
        (sh .removeDirectory).bind fun _ => .ret 0
  else (sh .removeMarker).bind fun _ => .ret (if statuses.terraform ≠ 0 then statuses.terraform else statuses.compute)

/-- `delete_cluster.sh`, with its exit status. -/
def deleteCluster (force : Bool) : Prog deleteSig CallError Nat :=
  (sh (.enter force)).bind fun (entered : Bool) =>
    if entered then
      (initialDeletion force).bind fun _ => (firstCleanup site).bind fun (compute : Nat) =>
        (sh .terraformDestroy).bind fun (terraform : Nat) =>
          (retryDestroy site 5 ⟨terraform, compute⟩).bind fun (statuses : Statuses) =>
            (retryCleanup site statuses.compute).bind fun (compute : Nat) => finish ⟨statuses.terraform, compute⟩
    else .ret 1

/-! ## The world -/

/-- The directory with its marker, its inventory and its Terraform state, the compute cluster, and the lifecycle states
of the instances in it. `cleaned` tells whether a cleanup has ended with the status zero. -/
structure World where
  present : Bool
  marker : Bool
  inventory : Bool
  state : StateFile
  hasCluster : Bool
  instances : String → Option String
  cleaned : Bool

/-- A lifecycle state or its end. An instance gets on the way out only when it is `ended`. -/
def LifeGoesOn (ended : Prop) : Option String → Option String → Prop
  | none, after => after = none
  | some before, none => ended ∨ IsEnding before
  | some before, some after => Ages before after ∧ (IsEnding after → ended ∨ IsEnding before)

namespace World
variable (w : World)

def Tracked (kind : TrackedKind) (key : String) : Prop :=
  ∃ document, w.state = .document document ∧ Tracks kind document (.str key)

/-- The instance is there, and not terminated. -/
def Left (id : String) : Prop := ∃ state, w.instances id = some state ∧ state ≠ "TERMINATED"

/-- The instance is there, and not on the way out. -/
def Running (id : String) : Prop := ∃ state, w.instances id = some state ∧ ¬ IsEnding state

def Empty : Prop := ∀ id, ¬ w.Left id

/-- The state tracks every instance that is left. -/
def AllTracked : Prop := ∀ id, w.Left id → w.Tracked .clusterInstance id

/-- What is left is in the compute cluster that the state of the directory tracks. -/
def Held : Prop :=
  ∀ id, w.Left id → w.present = true ∧ w.hasCluster = true ∧ w.Tracked .computeCluster site.computeClusterId

end World

/-! ## What the commands do -/

/-- What `terraform destroy` does. What it no longer tracks it has deleted, and OCI deletes no compute cluster with instances;
the inventory is one of its files. -/
structure Destroys (w : World) (status : Nat) (w' : World) : Prop where
  directory : w'.present = w.present ∧ w'.marker = w.marker ∧ w'.cleaned = w.cleaned
  inventory : w'.inventory = true → w.inventory = true
  tracked : ∀ kind key, w'.Tracked kind key → w.Tracked kind key
  instances : ∀ id, w.Tracked .clusterInstance id → ¬ w'.Tracked .clusterInstance id → ¬ w'.Left id
  cluster : w.Tracked .computeCluster site.computeClusterId → ¬ w'.Tracked .computeCluster site.computeClusterId →
    w'.hasCluster = false
  deletes : w'.hasCluster = false → w.hasCluster = false ∨ w'.Empty
  creates : w'.hasCluster = true → w.hasCluster = true
  done : status = 0 → w'.inventory = false ∧ ∀ kind key, ¬ w'.Tracked kind key

/-- The commands that end instances: `terraform destroy` those that it tracks. -/
def Ends (w : World) (id : String) : DeleteCall → Prop
  | .resize (.terminateInstance id' _) => id' = id
  | .terraformDestroy => w.Tracked .clusterInstance id
  | .startCleanup | .cleanup _ | .removeUnreachable _ => True
  | _ => False

/-- What a command does to the directory, and to the cluster. -/
def Changes (w w' : World) : (o : DeleteCall) → Except CallError o.Ans → Prop
  | .enter force, .ok true =>
      w.present = true ∧ (w.marker = true → force = true) ∧ w' = { w with marker := true, instances := w'.instances }
  | .exitCleanup status, _ => w' = { w with cleaned := w.cleaned || status == 0, instances := w'.instances }
  | .terraformDestroy, .ok status => Destroys site w status w'
  | .pushSize, _ =>
      w' = { w with state := w'.state, instances := w'.instances } ∧ ∀ kind key, w'.Tracked kind key ↔ w.Tracked kind key
  | .removeDirectory, _ =>
      w' = { w with present := false, marker := false, inventory := false, state := .missing, instances := w'.instances }
  | .removeMarker, _ => w' = { w with marker := false, instances := w'.instances }
  | _, _ => w' = { w with instances := w'.instances }

def Tells (w : World) : (o : DeleteCall) → Except CallError o.Ans → Prop
  | .isInventory, .ok inventory => inventory = w.inventory
  | .readState, .ok state => state = w.state
  | .resize (.getComputeCluster id), .error (.service 404 _) => id = .str site.computeClusterId → w.hasCluster = false
  | .resize (.listInstances _ computeClusterId), .ok (instances : List ListedInstance) =>
      computeClusterId = .str site.computeClusterId → ∀ id state, w.instances id = some state →
        ∃ listed ∈ instances, listed.id = id ∧ listed.lifecycleState = state
  | _, _ => True

/-- The commands do not raise; the calls of `resize.py` may, with or without their effect. -/
def deleteStep : Handler deleteSig CallError World := fun w o r w' =>
  (∀ id, LifeGoesOn (Ends w id o) (w.instances id) (w'.instances id)) ∧ Changes site w w' o r ∧ Tells site w' o r

/-- Any number of runs, with `FORCE` and without. -/
def runs (run : ℕ × Bool) : Prog deleteSig CallError Nat := deleteCluster site run.2

end OciHpc.Deletion
