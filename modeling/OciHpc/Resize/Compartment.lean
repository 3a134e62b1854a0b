import OciHpc.Resize.Instances
import OciHpc.Resize.Inventory

/-!
# The instances of a compartment

`find_cluster_instance_by_name` of `resize.py`.

* `Instance` : an instance, with its tags;
* `launchName` : the name a launch takes from its template;
* `matching` : the active instances of a name that are tagged with a cluster.
-/

namespace OciHpc.Resize

/-- A `ServiceError` of status 404, and any other error. -/
inductive Failure
  | notFound
  | other
  deriving DecidableEq, Repr

/-- An instance of the compartment. `volumeSettled` says that
`instance_has_exclusive_managed_local_block_volume` answers for it rather than raising. -/
structure Instance extends Turn where
  freeformTags : List (String × String)
  inCluster : Bool
  volumeSettled : Bool

/-- `tags.get("parent_cluster", tags.get("cluster_name"))`. -/
def parentCluster (tags : List (String × String)) : Option String :=
  (tags.lookup "parent_cluster").or (tags.lookup "cluster_name")

/-- The active instances of a name that are tagged with the cluster. -/
def matching (clusterName : String) (name : Text) (instances : List Instance) : List Instance :=
  instances.filter fun candidate => candidate.displayName.toList = name ∧ candidate.lifecycleState ≠ "TERMINATED" ∧
    parentCluster candidate.freeformTags = some clusterName

/-- The display name `getLaunchInstanceDetails` makes from that of the template. -/
def launchName (template : Text) (maxPreviousIndex : Int) (index : Nat) : Text :=
  joinWith '-' ((splitAt '-' template).dropLast ++ [(Nat.repr (maxPreviousIndex + 1 + index).toNat).toList])

theorem matching_append (clusterName : String) (name : Text) (instances created : List Instance) :
    matching clusterName name (instances ++ created) =
      matching clusterName name instances ++ matching clusterName name created :=
  List.filter_append ..

theorem displayName_of_mem_matching {clusterName : String} {name : Text} {instances : List Instance}
    {found : Instance} (h : found ∈ matching clusterName name instances) : found.displayName.toList = name :=
  (of_decide_eq_true (List.mem_filter.mp h).2).1

end OciHpc.Resize
