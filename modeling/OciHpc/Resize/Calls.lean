import OciHpc.Base.Files
import OciHpc.Base.JsonEquality
import OciHpc.Base.Trace
import OciHpc.Resize.BlockVolume
import OciHpc.Resize.Dns

/-!
# The calls of a removal

What the removal routines of `resize.py` ask of OCI, of DNS, of Terraform and of the file system.

* `CallError` : what a call raises;
* `ResizeCall`, `ResizeCall.Ans` : the calls and their answers;
* `oci`, `onFiles` : one call, and a program on files.
-/

namespace OciHpc.Resize
open Prog

/-- An error of OCI with its status, an error of the file system, or another exception, by their texts. -/
inductive CallError
  | service (status : Nat) (text : String)
  | os (permission : Bool) (text : String)
  | runtime (message : String)
  deriving DecidableEq, Repr

def CallError.text : CallError → String
  | .service _ text | .os _ text => text
  | .runtime message => message

def CallError.isPermission : CallError → Bool
  | .os permission _ => permission
  | .service .. | .runtime _ => false

/-- The journal of the pending deletions, and the inventory beside it. -/
inductive PendingFile
  | journal
  | inventory
  deriving DecidableEq, Repr

/-- The calls on these files. A file is the document its text is, `none` where it is no JSON. -/
abbrev FileCall := Files.Call PendingFile (Option Json)

abbrev fileSig : Sig := Files.sig PendingFile (Option Json)

abbrev PendingDisk := Files.Disk PendingFile (Option Json)

structure ListedInstance where
  id : String
  displayName : String
  lifecycleState : String
  deriving DecidableEq, Repr

structure ComputeCluster where
  displayName : String
  compartmentId : String
  deriving DecidableEq, Repr

structure InstancePool where
  id : String
  compartmentId : String
  size : Int
  deriving DecidableEq, Repr

/-- A volume as `get_volume` returns it. -/
structure StoredVolume extends Volume where
  compartmentId : String
  lifecycleState : String
  deriving DecidableEq, Repr

/-- The calls. `poll` lists the attachments of an instance and reads their volumes; `updateTFState` is the function of
this name. -/
inductive ResizeCall
  | file (o : FileCall)
  | getComputeCluster (id : Json)
  | listInstances (compartmentId : String) (computeClusterId : Json)
  | getInstance (id : String)
  | listVolumeAttachments (compartmentId id : String)
  | poll (compartmentId id : String)
  | terminateInstance (id : String) (preserveDataVolumes : Bool)
  | getInstancePool (id : String)
  | listInstancePoolInstances (compartmentId poolId : String)
  | detachInstance (poolId id : String)
  | getVolume (id : String)
  | deleteVolume (id : String)
  | listZones (compartmentId : String) (name : Text)
  | deleteRrSet (zoneId : String) (domain : Text)
  | updateTFState (size : Int)
  deriving DecidableEq, Repr

def ResizeCall.Ans : ResizeCall → Type
  | .file o => o.Ans
  | .terminateInstance .. | .detachInstance .. | .deleteVolume _ | .deleteRrSet .. | .updateTFState _ => Unit
  | .getComputeCluster _ => ComputeCluster
  | .listInstances .. => List ListedInstance
  | .getInstance _ => Instance
  | .listVolumeAttachments .. => List VolumeAttachment
  | .poll .. => Poll
  | .getInstancePool _ => InstancePool
  | .listInstancePoolInstances .. | .listZones .. => List String
  | .getVolume _ => StoredVolume

abbrev resizeSig : Sig := ⟨ResizeCall, ResizeCall.Ans⟩

abbrev oci (o : ResizeCall) : Prog resizeSig CallError o.Ans := perform (S := resizeSig) o

def onFiles {α : Type} (p : Prog fileSig CallError α) : Prog resizeSig CallError α := p.via fun o => oci (.file o)

/-- What `resize.py` is called for, and what it reads in the inventory. -/
structure Request where
  clusterName : String
  compartmentId : String
  inventory : Inventory
  dnsEntries : Bool
  dns : DnsSite

end OciHpc.Resize
