import OciHpc.Resize.PendingJournal
import OciHpc.Resize.Termination

/-!
# Removing a node with a journal

The routines of `resize.py` that remove a pool member and its scratch volume, retry what was left over, and finalize it.

* `buildPendingRecord`, `removeInstancePoolMember` : the removal of one node;
* `retryPending`, `processPending` : what is pending is removed again;
* `finalizePending`, `cleanupPendingDnsRecords` : the DNS records, the Terraform state and the journal.
-/

namespace OciHpc.Resize
open Prog

/-! ## The instance pool -/

def instanceIsPoolMember (compartmentId poolId id : String) : Prog resizeSig CallError Bool :=
  (oci (.listInstancePoolInstances compartmentId poolId)).bind fun (ids : List String) => .ret (ids.contains id)

/-- The loop after a detach that failed, with the turns left before the deadline. -/
def waitDetached (compartmentId poolId id : String) (detachError : CallError) : Nat → Prog resizeSig CallError Unit
  | 0 => .throw detachError
  | turns + 1 =>
      (instanceIsPoolMember compartmentId poolId id).attempt.bind fun result =>
        match result with
        | .ok false => .ret ()
        | .ok true | .error _ => waitDetached compartmentId poolId id detachError turns

def detachInstanceFromPoolIfNeeded (turns : Nat) (compartmentId poolId id : String) : Prog resizeSig CallError Unit :=
  (instanceIsPoolMember compartmentId poolId id).bind fun isMember =>
    if !isMember then .ret ()
    else
      (oci (.detachInstance poolId id)).attempt.bind fun (result : Except CallError Unit) =>
        match result with
        | .ok _ => .ret ()
        | .error detachError => waitDetached compartmentId poolId id detachError turns

/-! ## The volume -/

/-- A turn of the loop that deletes a volume and waits for it to be gone; `next` is given whether the deletion has been
requested. -/
def deleteTurn (id : String) (deleteRequested : Bool) (next : Bool → Prog resizeSig CallError Unit) :
    Prog resizeSig CallError Unit :=
  (oci (.getVolume id)).attempt.bind fun (result : Except CallError StoredVolume) =>
    match result with
    | .error (.service 404 _) => .ret ()
    | .error e => .throw e
    | .ok volume =>
        if volume.lifecycleState = "TERMINATED" then .ret ()
        else if deleteRequested then next true
        else
          (oci (.deleteVolume id)).attempt.bind fun (result : Except CallError Unit) =>
            match result with
            | .ok _ => next true
            | .error (.service 404 _) => .ret ()
            | .error (.service 409 _) => next false
            | .error e => .throw e

/-- `delete_managed_local_block_volume`, with the turns left before the deadline. -/
def deleteManagedLocalBlockVolume (id : String) : Nat → Bool → Prog resizeSig CallError Unit
  | 0, deleteRequested => deleteTurn id deleteRequested fun _ =>
      .throw (.runtime ("Timed out while deleting managed local scratch volume " ++ id))
  | turns + 1, deleteRequested => deleteTurn id deleteRequested (deleteManagedLocalBlockVolume id turns)

def ownedAs (request : Request) (record : Record) (volume : StoredVolume) : Bool :=
  record.volumeDisplayName == request.clusterName ++ "-local-scratch" &&
    volume.displayName == record.volumeDisplayName &&
    volume.compartmentId == request.compartmentId &&
    parentCluster volume.freeformTags == some request.clusterName &&
    volume.freeformTags.lookup "oci_hpc_local_scratch" == some "true" &&
    volume.sizeInGbs == record.sizeInGbs && volume.vpusPerGb == record.vpusPerGb

/-- `validate_pending_local_block_volume`. -/
def validatePendingVolume (request : Request) (record : Record) (volume : StoredVolume) : Except String Unit :=
  if record.clusterName ≠ request.clusterName then .error "The pending local Block Volume belongs to another cluster"
  else if record.compartmentId ≠ request.compartmentId then
    .error "The pending local Block Volume belongs to another compartment"
  else if ownedAs request record volume then .ok ()
  else .error "The pending local Block Volume no longer matches its ownership record"

/-! ## Removing a node -/

def newFields (request : Request) (id displayName privateIp poolId : String) (poolSize : Int) (volumeId : String)
    (volume : StoredVolume) : Dict :=
  [("cluster_name", .str request.clusterName), ("compartment_id", .str request.compartmentId),
    ("instance_id", .str id), ("instance_display_name", .str displayName), ("instance_private_ip", .str privateIp),
    ("instance_pool_id", .str poolId), ("instance_pool_size_before_removal", .int poolSize), ("volume_id", .str volumeId),
    ("volume_display_name", .str volume.displayName), ("size_in_gbs", .int volume.sizeInGbs),
    ("vpus_per_gb", .int volume.vpusPerGb)]

/-- `build_pending_local_block_volume_deletion_record`. -/
def buildPendingRecord (request : Request) (poolId id privateIp volumeId : String) : Prog resizeSig CallError Record :=
  (oci (.getInstance id)).bind fun (found : Instance) =>
    if parentCluster found.freeformTags ≠ some request.clusterName then
      .throw (.runtime "The local Block Volume instance belongs to another cluster")
    else if (ipAddress privateIp.toList).isNone then
      .throw (.runtime "The local Block Volume instance has an invalid private IP address")
    else
      (oci (.getInstancePool poolId)).bind fun (pool : InstancePool) =>
        if pool.id ≠ poolId ∨ pool.compartmentId ≠ request.compartmentId ∨ pool.size < 1 then
          .throw (.runtime "The local Block Volume instance pool has an invalid identity or size")
        else
          (oci (.getVolume volumeId)).bind fun (volume : StoredVolume) =>
            match validateRecord
              (.obj (newFields request id found.displayName privateIp poolId pool.size volumeId volume)) with
            | .error message => .throw (.runtime message)
            | .ok record =>
                match validatePendingVolume request record volume with
                | .error message => .throw (.runtime message)
                | .ok _ => .ret record

/-- The record of a volume that is deleted on its own, once it is in the journal. -/
def recordPendingVolume (request : Request) (poolId id privateIp : String) :
    Option String → Prog resizeSig CallError (Option Record)
  | none => .ret none
  | some volumeId =>
      (buildPendingRecord request poolId id privateIp volumeId).bind fun record =>
        (onFiles (rememberPending record)).bind fun _ => .ret (some record)

/-- `remove_instance_pool_member_and_managed_local_block_volume`. -/
def removeInstancePoolMember (request : Request) (turns : Nat) (poolId id privateIp : String) :
    Prog resizeSig CallError (Option Record) :=
  (getExclusiveManagedLocalBlockVolumeAttachment request id).bind fun managed =>
    let launchCreated := managed.any fun attachment => attachment.isVolumeCreatedDuringLaunch == some true
    let explicitlyDeleted := if launchCreated then none else managed.map (·.volumeId)
    (recordPendingVolume request poolId id privateIp explicitlyDeleted).bind fun pendingRecord =>
      (detachInstanceFromPoolIfNeeded turns request.compartmentId poolId id).bind fun _ =>
        (terminateInstanceAndDeleteLaunchVolumes request turns id (some launchCreated)).bind fun _ =>
          match pendingRecord with
          | none => .ret none
          | some record =>
              (deleteManagedLocalBlockVolume record.volumeId turns false).bind fun _ => .ret (some record)

/-! ## Retrying -/

/-- The state of the instance of a record, where it is still the one of the record. -/
def pendingInstanceState (request : Request) (record : Record) : Prog resizeSig CallError String :=
  (oci (.getInstance record.instanceId)).attempt.bind fun (result : Except CallError Instance) =>
    match result with
    | .error (.service 404 _) => .ret "TERMINATED"
    | .error e => .throw e
    | .ok found =>
        if parentCluster found.freeformTags ≠ some request.clusterName then
          .throw (.runtime "The pending local Block Volume instance belongs to another cluster")
        else if found.displayName ≠ record.instanceDisplayName then
          .throw (.runtime "The pending local Block Volume instance name changed unexpectedly")
        else .ret found.lifecycleState

/-- The instance of a record is a member of its pool, which may be gone. -/
def pendingIsPoolMember (request : Request) (record : Record) : Prog resizeSig CallError Bool :=
  (instanceIsPoolMember request.compartmentId record.instancePoolId record.instanceId).attempt.bind fun result =>
    match result with
    | .error (.service 404 _) => .ret false
    | .error e => .throw e
    | .ok isMember => .ret isMember

/-- A member is detached where the removal may be resumed. -/
def resumePendingMember (request : Request) (turns : Nat) (resumePoolMembers : Bool) (record : Record) :
    Prog resizeSig CallError Unit :=
  (pendingIsPoolMember request record).bind fun isMember =>
    if !isMember then .ret ()
    else if !resumePoolMembers then
      .throw (.runtime ("Pending removal for " ++ record.instanceDisplayName ++
        " must be resumed explicitly with --nodes " ++ record.instanceDisplayName))
    else detachInstanceFromPoolIfNeeded turns request.compartmentId record.instancePoolId record.instanceId

/-- The instance of a record is terminated if it is not yet. -/
def removePendingInstance (request : Request) (turns : Nat) (resumePoolMembers : Bool) (record : Record) :
    Prog resizeSig CallError Unit :=
  (pendingInstanceState request record).bind fun instanceState =>
    if instanceState = "TERMINATED" then .ret ()
    else
      (resumePendingMember request turns resumePoolMembers record).bind fun _ =>
        terminateInstanceAndDeleteLaunchVolumes request turns record.instanceId (some false)

/-- The volume of a record is deleted if it is there and still the one of the record. -/
def deletePendingVolume (request : Request) (turns : Nat) (record : Record) : Prog resizeSig CallError Unit :=
  (oci (.getVolume record.volumeId)).attempt.bind fun (result : Except CallError StoredVolume) =>
    match result with
    | .error (.service 404 _) => .ret ()
    | .error e => .throw e
    | .ok volume =>
        match validatePendingVolume request record volume with
        | .error message => .throw (.runtime message)
        | .ok _ => deleteManagedLocalBlockVolume record.volumeId turns false

def retryRecord (request : Request) (turns : Nat) (resumePoolMembers : Bool) (readyDeletions : List Record)
    (record : Record) : Prog resizeSig CallError (List Record) :=
  if record.clusterName ≠ request.clusterName ∨ record.compartmentId ≠ request.compartmentId then
    .throw (.runtime "A pending local Block Volume deletion does not match the requested cluster")
  else
    (removePendingInstance request turns resumePoolMembers record).bind fun _ =>
      (deletePendingVolume request turns record).bind fun _ => .ret (readyDeletions ++ [record])

/-- `retry_pending_local_block_volume_deletions`. -/
def retryPending (request : Request) (turns : Nat) (resumePoolMembers : Bool) : Prog resizeSig CallError (List Record) :=
  (onFiles loadPending).bind fun pendingDeletions =>
    forEach (retryRecord request turns resumePoolMembers) pendingDeletions []

/-- The modes of `resize.py`. -/
inductive Mode
  | add | remove | removeUnreachable | list | reconfigure | prepareLocalBlockVolume | cleanupComputeCluster
  deriving DecidableEq, Repr

/-- `process_pending_local_block_volume_deletions_for_operation`. -/
def processPending (request : Request) (turns : Nat) (mode : Mode) (requestedHostnames : List String) :
    Prog resizeSig CallError (List Record) :=
  (onFiles loadPending).bind fun pendingDeletions =>
    retryPending request turns (mode == .cleanupComputeCluster || ((mode == .remove || mode == .removeUnreachable) &&
      pendingDeletions.all fun record => requestedHostnames.contains record.instanceDisplayName))

/-! ## The DNS records -/

def deletePrivateDnsRrsetIfPresent (zoneId : String) (domain : Text) : Prog resizeSig CallError Unit :=
  (oci (.deleteRrSet zoneId domain)).attempt.bind fun (result : Except CallError Unit) =>
    match result with
    | .ok _ | .error (.service 404 _) => .ret ()
    | .error e => .throw e

def deleteDomains (zoneId : String) (domains : List Text) : Prog resizeSig CallError Unit :=
  forEach (fun _ domain => deletePrivateDnsRrsetIfPresent zoneId domain) domains ()

def notAnAddress (privateIp : String) : String := "'" ++ privateIp ++ "' does not appear to be an IPv4 or IPv6 address"

def dnsNeedsInventory : String := "Inventory does not contain queue and private_subnet values required for DNS cleanup"

def getPendingNodeDnsDomains (dns : DnsSite) (record : Record) : Except String (List Text) :=
  if dns.queue.isNone || dns.privateSubnet.isNone then .error dnsNeedsInventory
  else
    match dns.pendingDomains record.instanceDisplayName.toList record.instancePrivateIp.toList with
    | some domains => .ok domains
    | none => .error
        (if (ipAddress record.instancePrivateIp.toList).isNone then notAnAddress record.instancePrivateIp
        else "The pending node private IP is outside private_subnet: " ++ record.instancePrivateIp)

/-- Why a record that is ready is not the one in the journal. -/
def readyError (request : Request) (pendingDeletions : List Record) (foreign changed : String) (record : Record) :
    Option String :=
  if record.clusterName ≠ request.clusterName ∨ record.compartmentId ≠ request.compartmentId then some foreign
  else
    match storedRecord pendingDeletions record.volumeId with
    | none => some changed
    | some stored => if stored.Same record then none else some changed

def allDomains (dns : DnsSite) : List Record → Except String (List Text)
  | [] => .ok []
  | record :: rest => do
      let domains ← getPendingNodeDnsDomains dns record
      let others ← allDomains dns rest
      .ok (domains ++ others)

/-- `cleanup_pending_local_block_volume_dns_records`. -/
def cleanupPendingDnsRecords (request : Request) (readyDeletions : List Record) : Prog resizeSig CallError Nat :=
  if readyDeletions.isEmpty || !request.dnsEntries then .ret 0
  else
    (onFiles loadPending).bind fun pendingDeletions =>
      let mismatch := "A pending DNS cleanup does not match the requested cluster"
      match readyDeletions.findSome? (readyError request pendingDeletions mismatch mismatch) with
      | some message => .throw (.runtime message)
      | none =>
          (oci (.listZones request.compartmentId request.dns.zoneName)).bind fun (zones : List String) =>
            match zones with
            | [] => .ret readyDeletions.length
            | zoneId :: _ =>
                match allDomains request.dns readyDeletions with
                | .error message => .throw (.runtime message)
                | .ok domains => (deleteDomains zoneId domains).bind fun _ => .ret readyDeletions.length

/-! ## Finalizing -/

/-- The pool and its active members, as far as they are known. -/
structure PoolState where
  size : Option Int
  instancePoolId : Option String
  activeDisplayNames : Option (List String)
  activePrivateIps : Option (List String)

/-- The domains of the records, none of which may be in use. -/
def domainsToDelete (dns : DnsSite) (activeDisplayNames activePrivateIps : List String) :
    List Record → Except String (List Text)
  | [] => .ok []
  | record :: rest =>
      match ipAddress record.instancePrivateIp.toList with
      | none => .error (notAnAddress record.instancePrivateIp)
      | some address =>
          if record.instanceDisplayName ∈ activeDisplayNames ∨ String.ofList (dotted address) ∈ activePrivateIps then
            .error "A pending node hostname or private IP is in use by an active instance"
          else do
            let domains ← getPendingNodeDnsDomains dns record
            let others ← domainsToDelete dns activeDisplayNames activePrivateIps rest
            .ok (domains ++ others)

/-- The checks of the records and of the pool; the size of the pool where they pass. -/
def checkFinalize (request : Request) (pendingDeletions readyDeletions : List Record) (pool : PoolState) :
    Except String Int :=
  match readyDeletions.findSome? (readyError request pendingDeletions
    "A completed local Block Volume deletion does not match the requested cluster"
    "The pending local Block Volume deletion record changed before finalization") with
  | some message => .error message
  | none =>
      match pool.size, pool.instancePoolId.filter (· != "") with
      | none, _ => .error "The current instance pool size is required to finalize node removal"
      | some _, none => .error "The current instance pool OCID is required to finalize node removal"
      | some size, some poolId =>
          if readyDeletions.any fun record => record.instancePoolId != poolId then
            .error "The pending node removal belongs to a different instance pool"
          else if readyDeletions.any fun record => decide (record.instancePoolSizeBeforeRemoval ≤ size) then
            .error "The instance pool size was not decremented for every pending node removal"
          else .ok size

def finalizeDns (request : Request) (readyDeletions : List Record) (pool : PoolState) : Prog resizeSig CallError Unit :=
  if !request.dnsEntries then .ret ()
  else
    match pool.activeDisplayNames, pool.activePrivateIps with
    | some activeDisplayNames, some activePrivateIps =>
        (oci (.listZones request.compartmentId request.dns.zoneName)).bind fun (zones : List String) =>
          match zones with
          | [] => .throw (.runtime ("Private DNS zone " ++ String.ofList request.dns.zoneName ++ " was not found"))
          | zoneId :: _ =>
              if request.dns.queue.isNone || request.dns.privateSubnet.isNone then .throw (.runtime dnsNeedsInventory)
              else
                match domainsToDelete request.dns activeDisplayNames activePrivateIps readyDeletions with
                | .error message => .throw (.runtime message)
                | .ok domains => deleteDomains zoneId domains
    | _, _ => .throw (.runtime "Active instance identities are required for DNS cleanup")

def remaining (pendingDeletions readyDeletions : List Record) : List Record :=
  pendingDeletions.filter fun record => record.volumeId ∉ readyDeletions.map (·.volumeId)

/-- `finalize_pending_local_block_volume_deletions`. -/
def finalizePending (request : Request) (readyDeletions : List Record) (pool : PoolState) : Prog resizeSig CallError Nat :=
  if readyDeletions.isEmpty then .ret 0
  else
    (onFiles loadPending).bind fun pendingDeletions =>
      match checkFinalize request pendingDeletions readyDeletions pool with
      | .error message => .throw (.runtime message)
      | .ok size =>
          (finalizeDns request readyDeletions pool).bind fun _ =>
            (oci (.updateTFState size)).bind fun _ =>
              (onFiles (writePending (remaining pendingDeletions readyDeletions))).bind fun _ =>
                .ret readyDeletions.length

/-! ## Calls that are made -/

section
variable {P : ResizeCall → Prop}

theorem calls_onFiles {α : Type} (hfile : ∀ o, P (.file o)) (p : Prog fileSig CallError α) : (onFiles p).Calls P :=
  (calls_true p).via fun o _ => calls_perform (hfile o)

theorem calls_deleteDomains (hdelete : ∀ zoneId domain, P (.deleteRrSet zoneId domain)) (zoneId : String)
    (domains : List Text) : (deleteDomains zoneId domains).Calls P := by
  refine Calls.forEach (fun _ domain => ?_) domains ()
  refine Calls.bind (calls_perform (hdelete zoneId domain)).attempt fun result => ?_
  split <;> trivial

theorem calls_cleanupPendingDnsRecords (hfile : ∀ o, P (.file o)) (hlist : ∀ compartmentId name, P (.listZones compartmentId name))
    (hdelete : ∀ zoneId domain, P (.deleteRrSet zoneId domain)) (request : Request) (readyDeletions : List Record) :
    (cleanupPendingDnsRecords request readyDeletions).Calls P := by
  unfold cleanupPendingDnsRecords
  split
  · trivial
  · refine (calls_onFiles hfile loadPending).bind fun pendingDeletions => ?_
    dsimp only
    split
    · trivial
    · refine Calls.bind (calls_perform (hlist ..)) fun zones => ?_
      split
      · trivial
      · split
        · trivial
        · exact (calls_deleteDomains hdelete ..).bind fun _ => calls_ret ..

end

end OciHpc.Resize
