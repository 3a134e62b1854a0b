import OciHpc.Resize.Calls

/-!
# Terminating an instance

* `getExclusiveManagedLocalBlockVolumeAttachment` : the scratch attachment of an instance, if it is the cluster's;
* `terminateInstanceAndDeleteLaunchVolumes` : the termination, with the wait for its end;
* `TerminatesOnly` : a program that terminates no instance but those that pass a test.
-/

namespace OciHpc.Resize
open Prog

def getExclusiveManagedLocalBlockVolumeAttachment (request : Request) (id : String) :
    Prog resizeSig CallError (Option VolumeAttachment) :=
  (oci (.getInstance id)).bind fun (found : Instance) =>
    match getInstanceLocalBlockVolumeConfig found request.inventory request.clusterName with
    | .error message => .throw (.runtime message)
    | .ok none => .ret none
    | .ok (some _) =>
        (oci (.listVolumeAttachments request.compartmentId id)).bind fun (attachments : List VolumeAttachment) =>
          if (attachments.filter onVdc).isEmpty then .ret none
          else
            (oci (.poll request.compartmentId id)).bind fun (poll : Poll) =>
              match getExclusiveManagedAttachment found request.inventory request.clusterName attachments poll with
              | .error (.runtime message) => .throw (.runtime message)
              | .error .service => .throw (.service 500 "")
              | .ok managed => .ret managed

def instanceHasExclusiveManagedLocalBlockVolume (request : Request) (id : String) : Prog resizeSig CallError Bool :=
  (getExclusiveManagedLocalBlockVolumeAttachment request id).bind fun managed =>
    .ret (managed.any fun attachment => attachment.isVolumeCreatedDuringLaunch == some true)

/-- A turn of the loop that waits for the instance to be gone, and what follows it. -/
def waitTurn (id : String) (next : Prog resizeSig CallError Unit) : Prog resizeSig CallError Unit :=
  (oci (.getInstance id)).attempt.bind fun (result : Except CallError Instance) =>
    match result with
    | .error (.service 404 _) => .ret ()
    | .error e => .throw e
    | .ok found => if found.lifecycleState = "TERMINATED" then .ret () else next

/-- The loop, with the turns left before the deadline. -/
def waitTerminated (id : String) : Nat → Prog resizeSig CallError Unit
  | 0 => waitTurn id (.throw (.runtime ("Timed out while terminating instance " ++ id)))
  | turns + 1 => waitTurn id (waitTerminated id turns)

/-- The volumes go with the instance where this is asked for, or else where they are its own. -/
def deletesDataVolumes (request : Request) (id : String) : Option Bool → Prog resizeSig CallError Bool
  | some delete => .ret delete
  | none => instanceHasExclusiveManagedLocalBlockVolume request id

def terminateInstanceAndDeleteLaunchVolumes (request : Request) (turns : Nat) (id : String)
    (deleteLaunchCreatedDataVolumes : Option Bool) : Prog resizeSig CallError Unit :=
  (oci (.getInstance id)).attempt.bind fun (result : Except CallError Instance) =>
    match result with
    | .error (.service 404 _) => .ret ()
    | .error e => .throw e
    | .ok found =>
        if found.lifecycleState = "TERMINATED" then .ret ()
        else if found.lifecycleState = "TERMINATING" then waitTerminated id turns
        else
          (deletesDataVolumes request id deleteLaunchCreatedDataVolumes).bind fun delete =>
            (oci (.terminateInstance id !delete)).attempt.bind fun (result : Except CallError Unit) =>
              match result with
              | .error (.service 404 _) => .ret ()
              | .error e => .throw e
              | .ok _ => waitTerminated id turns

/-! ## The calls of a termination -/

/-- A program that looks at instances and attachments, and terminates only what passes a test. -/
def TerminatesOnly (allowed : String → Bool → Prop) : ResizeCall → Prop
  | .terminateInstance id preserveDataVolumes => allowed id preserveDataVolumes
  | .getInstance _ | .listVolumeAttachments .. | .poll .. => True
  | _ => False

section
variable {allowed : String → Bool → Prop} (request : Request) (turns : Nat) (id : String)

theorem calls_waitTurn {next : Prog resizeSig CallError Unit} (hnext : next.Calls (TerminatesOnly allowed)) :
    (waitTurn id next).Calls (TerminatesOnly allowed) := by
  refine Calls.bind (calls_perform trivial).attempt fun result => ?_
  split
  · trivial
  · trivial
  · split
    · trivial
    · exact hnext

theorem calls_waitTerminated : (waitTerminated id turns).Calls (TerminatesOnly allowed) := by
  induction turns with
  | zero => exact calls_waitTurn id (calls_throw ..)
  | succ turns ih => exact calls_waitTurn id ih

theorem calls_getExclusiveManaged :
    (getExclusiveManagedLocalBlockVolumeAttachment request id).Calls (TerminatesOnly allowed) := by
  refine Calls.bind (calls_perform trivial) fun found => ?_
  split
  · trivial
  · trivial
  · refine Calls.bind (calls_perform trivial) fun attachments => ?_
    split
    · trivial
    · refine Calls.bind (calls_perform trivial) fun poll => ?_
      split <;> trivial

theorem calls_deletesDataVolumes (delete : Option Bool) :
    (deletesDataVolumes request id delete).Calls (TerminatesOnly allowed) := by
  cases delete with
  | some delete => exact calls_ret ..
  | none => exact (calls_getExclusiveManaged request id).bind fun managed => calls_ret ..

theorem calls_terminateInstanceAndDeleteLaunchVolumes (h : ∀ preserveDataVolumes, allowed id preserveDataVolumes)
    (delete : Option Bool) :
    (terminateInstanceAndDeleteLaunchVolumes request turns id delete).Calls (TerminatesOnly allowed) := by
  refine Calls.bind (calls_perform trivial).attempt fun result => ?_
  split
  · trivial
  · trivial
  · split
    · trivial
    · split
      · exact calls_waitTerminated turns id
      · refine (calls_deletesDataVolumes request id delete).bind fun delete => ?_
        refine Calls.bind (calls_perform (h _)).attempt fun result => ?_
        split
        · trivial
        · trivial
        · exact calls_waitTerminated turns id

end

end OciHpc.Resize
