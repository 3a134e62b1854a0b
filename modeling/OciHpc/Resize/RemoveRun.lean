import OciHpc.Resize.PendingReached

/-!
# A removal run

The main program of `resize.py` in mode `remove`, from the journal of an earlier run to the end of the removal.

* `ClusterCall` : the calls on the cluster, beside those of the removal routines;
* `getSummary`, `waitForRunningStatus`, `getActiveInstanceIdentities`, `findClusterInstanceByName` : the lookups;
* `finalizeReady` : the records that are ready are finalized with the pool as it is;
* `removeNode`, `removeNodes` : the loop over the nodes;
* `removeRun` : the run, which finishes what an earlier run has left or else removes its own nodes.
-/

namespace OciHpc.Resize
open Prog

/-! ## The calls -/

structure PoolSummary where
  id : String
  size : Int
  deriving DecidableEq, Repr

structure NetworkSummary where
  id : String
  lifecycleState : String
  instancePools : List PoolSummary
  deriving DecidableEq, Repr

structure ListedCluster where
  id : String
  displayName : String
  lifecycleState : String
  deriving DecidableEq, Repr

structure ListedPool extends PoolSummary where
  lifecycleState : String
  deriving DecidableEq, Repr

/-- The calls on the cluster. `listTurns` lists its instances, with what the lookups of `get_instances` answer. -/
inductive ClusterCall
  | resize (o : ResizeCall)
  | listClusterNetworks (compartmentId displayName : String)
  | listComputeClusters (compartmentId displayName : String)
  | listInstancePools (compartmentId displayName : String)
  | getLifecycleState (kind : ClusterKind) (id : String)
  | listMembers (kind : ClusterKind) (compartmentId id : String)
  | listTurns (kind : ClusterKind) (compartmentId id : String)
  | listNamed (compartmentId displayName : String)

def ClusterCall.Ans : ClusterCall → Type
  | .resize o => o.Ans
  | .listClusterNetworks .. => List NetworkSummary
  | .listComputeClusters .. => List ListedCluster
  | .listInstancePools .. => List ListedPool
  | .getLifecycleState .. => String
  | .listMembers .. => List String
  | .listTurns .. => List Turn
  | .listNamed .. => List Instance

abbrev clusterSig : Sig := ⟨ClusterCall, ClusterCall.Ans⟩

abbrev clusterCall (o : ClusterCall) : Prog clusterSig CallError o.Ans := perform (S := clusterSig) o

def routine {α : Type} (p : Prog resizeSig CallError α) : Prog clusterSig CallError α := p.via fun o => clusterCall (.resize o)

/-! ## Looking up -/

/-- The cluster that was found; a compute cluster has no pool. -/
structure Summary where
  kind : ClusterKind
  id : String
  pool : Option PoolSummary

def runningNetwork (networks : List NetworkSummary) : Option NetworkSummary :=
  (networks.filter fun network => network.lifecycleState = "RUNNING").getLast?

def activeCluster (clusterName : String) (clusters : List ListedCluster) : Option ListedCluster :=
  (clusters.filter fun cluster => cluster.lifecycleState = "ACTIVE" ∧ cluster.displayName = clusterName).getLast?

def runningPool (pools : List ListedPool) : Option ListedPool :=
  (pools.filter fun pool => pool.lifecycleState = "RUNNING").getLast?

/-- The part of `get_summary` where no cluster network runs. -/
def findBeside (request : Request) (clusters : List ListedCluster) : Prog clusterSig CallError (Option Summary) :=
  match activeCluster request.clusterName clusters with
  | some cluster => .ret (some ⟨.computeCluster, cluster.id, none⟩)
  | none =>
      (clusterCall (.listInstancePools request.compartmentId request.clusterName)).bind fun (pools : List ListedPool) =>
        .ret ((runningPool pools).map fun pool => ⟨.instancePool, pool.id, some pool.toPoolSummary⟩)

/-- `get_summary`; `none` is `None, None, True`. -/
def getSummary (request : Request) : Prog clusterSig CallError (Option Summary) :=
  (clusterCall (.listClusterNetworks request.compartmentId request.clusterName)).bind fun (networks : List NetworkSummary) =>
    match runningNetwork networks with
    | some network =>
        match network.instancePools with
        | [] => .throw (.runtime "list index out of range")
        | pool :: _ => .ret (some ⟨.clusterNetwork, network.id, some pool⟩)
    | none =>
        (clusterCall (.listComputeClusters request.compartmentId request.clusterName)).attempt.bind
          fun (result : Except CallError (List ListedCluster)) =>
            match result with
            | .ok clusters => findBeside request clusters
            | .error _ => findBeside request []

/-- A turn of the loop that waits for the cluster, and what follows it. -/
def runningTurn (request : Request) (kind : ClusterKind) (id : String) (expectedSize : Option Int)
    (next : Prog clusterSig CallError Unit) : Prog clusterSig CallError Unit :=
  (clusterCall (.getLifecycleState kind id)).bind fun (state : String) =>
    (clusterCall (.listMembers kind request.compartmentId id)).bind fun (ids : List String) =>
      if state ≠ "RUNNING" then next
      else if expectedSize.all fun (size : Int) => decide (size = (ids.length : Int)) then .ret ()
      else next

/-- The loop, with the turns left before the deadline. -/
def waitForRunning (request : Request) (kind : ClusterKind) (id : String) (expectedSize : Option Int) :
    Nat → Prog clusterSig CallError Unit
  | 0 => runningTurn request kind id expectedSize (.throw (.runtime
      ("Timed out waiting for cluster " ++ request.clusterName ++ " to reach the expected running state")))
  | turns + 1 => runningTurn request kind id expectedSize (waitForRunning request kind id expectedSize turns)

def waitForRunningStatus (request : Request) (turns : Nat) (kind : ClusterKind) (id : String) (expectedSize : Option Int) :
    Prog clusterSig CallError Unit :=
  if kind = .computeCluster then .ret () else waitForRunning request kind id expectedSize turns

section
-- the addresses of the VNICs
variable (privateIp : String → String) (request : Request) (turns : Nat)

/-- `get_instances`. -/
def getInstancesOf (kind : ClusterKind) (id : String) : Prog clusterSig CallError (List Node) :=
  (clusterCall (.listTurns kind request.compartmentId id)).bind fun (listed : List Turn) =>
    .ret (getInstances privateIp kind listed)

/-- `str(ipaddress.ip_address(instance["ip"]))`. -/
def addressText (node : Node) : Option String := (ipAddress node.ip.toList).map fun address => String.ofList (dotted address)

/-- The names and addresses of these nodes, which must be as many as the pool has, and different. -/
def identities (nodes : List Node) (expectedSize : Int) : Except String (List String × List String) :=
  if (nodes.length : Int) ≠ expectedSize then
    .error "The active instance list does not match the current instance pool size"
  else
    match nodes.mapM addressText with
    | none => .error "does not appear to be an IPv4 or IPv6 address"
    | some ips =>
        if ¬ (nodes.map (·.displayName)).Nodup ∨ ¬ ips.Nodup then
          .error "The active instance list contains duplicate hostnames or private IPs"
        else .ok (nodes.map (·.displayName), ips)

def getActiveInstanceIdentities (kind : ClusterKind) (id : String) (expectedSize : Int) :
    Prog clusterSig CallError (List String × List String) :=
  (getInstancesOf privateIp request kind id).bind fun nodes =>
    match identities nodes expectedSize with
    | .error message => .throw (.runtime message)
    | .ok found => .ret found

/-- `find_cluster_instance_by_name`, the OCID of the instance. -/
def findClusterInstanceByName (instanceName : String) : Prog clusterSig CallError (Option String) :=
  (clusterCall (.listNamed request.compartmentId instanceName)).bind fun (instances : List Instance) =>
    match matching request.clusterName instanceName.toList instances with
    | [] => .ret none
    | [found] => .ret (some found.id)
    | _ => .throw (.runtime ("Multiple active instances named " ++ instanceName ++ " belong to cluster " ++
        request.clusterName))

/-! ## Finalizing -/

/-- The names and the addresses in use, which are asked for where there are DNS records. -/
def activeIdentities (kind : ClusterKind) (id : String) (size : Int) :
    Prog clusterSig CallError (Option (List String) × Option (List String)) :=
  if request.dnsEntries then
    (waitForRunningStatus request turns kind id (some size)).bind fun _ =>
      (getActiveInstanceIdentities privateIp request kind id size).bind fun found => .ret (some found.1, some found.2)
  else .ret (none, none)

/-- The records that are ready are finalized with the pool that was found. -/
def finalizeReady (summary : Summary) (readyDeletions : List Record) : Prog clusterSig CallError Nat :=
  match summary.pool with
  | none => .throw (.runtime "An Instance Pool local Block Volume deletion cannot be finalized as a Compute Cluster")
  | some pool =>
      (activeIdentities privateIp request turns summary.kind summary.id pool.size).bind fun active =>
        routine (finalizePending request readyDeletions ⟨some pool.size, some pool.id, active.1, active.2⟩)

/-! ## Removing the nodes -/

/-- The DNS records of a node that has no record in the journal. -/
def deleteNodeDns (zoneId instanceName : String) (cnInstances : List Node) : Prog resizeSig CallError Unit :=
  (deletePrivateDnsRrsetIfPresent zoneId (request.dns.instanceDomain instanceName.toList)).bind fun _ =>
    match DnsSite.listedIp cnInstances instanceName.toList with
    | none => .ret ()
    | some ip =>
        match request.dns.slurmDomain ip with
        | none => .throw (.runtime "is not in list")
        | some slurmName => deletePrivateDnsRrsetIfPresent zoneId slurmName

/-- The node is removed, from the pool that was found first unless the cluster is a compute cluster now. -/
def removeFound (summary current : Summary) (cnInstances : List Node) (instanceName id : String) :
    Prog clusterSig CallError (Option Record) :=
  if current.kind = .computeCluster then
    (routine (terminateInstanceAndDeleteLaunchVolumes request turns id none)).bind fun _ => .ret none
  else
    match cnInstances.find? fun node => node.ocid == id with
    | none => .throw (.runtime ("The private IP for instance " ++ instanceName ++ " was not found"))
    | some node =>
        match summary.pool with
        | none => .throw (.runtime "name 'ipa_ocid' is not defined")
        | some pool => routine (removeInstancePoolMember request turns pool.id id node.ip)

def removeNode (summary current : Summary) (cnInstances : List Node) (zoneId : Option String) (instanceName : String) :
    Prog clusterSig CallError Unit :=
  (findClusterInstanceByName request instanceName).bind fun found =>
    match found with
    | none => .ret ()
    | some id =>
        (removeFound request turns summary current cnInstances instanceName id).bind fun pendingRecord =>
          match zoneId, pendingRecord with
          | some zoneId, none => routine (deleteNodeDns request zoneId instanceName cnInstances)
          | _, _ => .ret ()

/-- The loop; a 404 is passed over. -/
def removeNodes (summary current : Summary) (cnInstances : List Node) (zoneId : Option String) (names : List String) :
    Prog clusterSig CallError Unit :=
  forEach (fun _ instanceName => (removeNode request turns summary current cnInstances zoneId instanceName).tryCatch fun e =>
    match e with
    | .service 404 _ => .ret ()
    | e => .throw e) names ()

def finishRemoval (summary : Summary) : Prog clusterSig CallError Unit :=
  (getSummary request).bind fun found =>
    match found with
    | none => .throw (.runtime "'NoneType' object has no attribute 'id'")
    | some current =>
        match current.pool with
        | none => (getInstancesOf privateIp request current.kind summary.id).bind fun _ => .ret ()
        | some pool =>
            (routine (retryPending request turns false)).bind fun readyRemovedNodes =>
              if readyRemovedNodes.isEmpty then (routine (oci (.updateTFState pool.size))).bind fun _ => .ret ()
              else (finalizeReady privateIp request turns current readyRemovedNodes).bind fun _ => .ret ()

/-- The zone of the DNS records, where there are any. -/
def findZone : Prog clusterSig CallError (Option String) :=
  if request.dnsEntries then
    (routine (oci (.listZones request.compartmentId request.dns.zoneName))).bind fun (zones : List String) =>
      match zones with
      | [] => .throw (.runtime ("Private DNS zone " ++ String.ofList request.dns.zoneName ++ " was not found"))
      | zoneId :: _ => .ret (some zoneId)
  else .ret none

/-- The removal of the nodes that are selected among the instances; `none` where the run exits before. -/
def removeSelected (select : List Node → Option (List String)) (summary : Summary) : Prog clusterSig CallError Unit :=
  (waitForRunningStatus request turns summary.kind summary.id none).bind fun _ =>
    (getInstancesOf privateIp request summary.kind summary.id).bind fun cnInstances =>
      (findZone request).bind fun zoneId =>
        match select cnInstances with
        | none => .throw (.runtime "exit")
        | some [] => .ret ()
        | some names =>
            (getSummary request).bind fun found =>
              match found with
              | none => .throw (.runtime "'NoneType' object has no attribute 'size'")
              | some current =>
                  (removeNodes request turns summary current cnInstances zoneId names).bind fun _ =>
                    finishRemoval privateIp request turns summary

/-- The run. `select` stands for the selection of the nodes and the playbook that takes them out of Slurm. -/
def removeRun (hostnames : List String) (select : List Node → Option (List String)) : Prog clusterSig CallError Unit :=
  (routine (processPending request turns .remove hostnames)).bind fun readyDeletions =>
    (getSummary request).bind fun found =>
      match found with
      | none => .throw (.runtime "exit")
      | some summary =>
          if readyDeletions.isEmpty then removeSelected privateIp request turns select summary
          else (finalizeReady privateIp request turns summary readyDeletions).bind fun _ => .ret ()

end

end OciHpc.Resize
