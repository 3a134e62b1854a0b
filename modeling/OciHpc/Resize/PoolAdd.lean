import OciHpc.Resize.Compartment

/-!
# Adding nodes to an instance pool after removing unreachable ones

Mode `add` of `resize.py` with `--remove_unreachable`.

* `inventoryInstances`, `unreachableNames` : the names to remove, from the inventory and the reachability test;
* `removeTurn`, `removeAll` : the loop over these names, which detaches pool members;
* `PoolAddition.requested` : the size asked for, and that of a rollback;
* `rightSize_iff` : both are right exactly when the turn of every name detaches a member.
-/

namespace OciHpc.Resize

/-! ## The names to remove -/

/-- `line.split('ansible_host=')[0].strip()`. -/
def inventoryHost (line : Text) : Text := strip ((PyStr.splitFrom "ansible_host=".toList 0 [] line).headD [])

/-- `inventory_instances`, as pairs of a name and an address: `none` is an exception. -/
def inventoryInstances (inventory : Inventory) : Option (List (Text × Text)) := do
  let configured ← inventory.lines? "compute_configured".toList
  let toAdd ← inventory.lines? "compute_to_add".toList
  (configured ++ toAdd).mapM fun line => (ansibleHost line).map fun ip => (inventoryHost line, ip)

/-- The names `getreachable` finds unreachable, of those with these addresses reachable. -/
def unreachableNames (inventory : Inventory) (reachableIps : List Text) : Option (List Text) :=
  (inventoryInstances inventory).map fun nodes => (nodes.filter fun node => node.2 ∉ reachableIps).map (·.1)

/-! ## The removal loop -/

/-- What the calls of one turn do: the search for the instance, what comes before it is detached, the detachment,
which may be given up though the member is gone, and what comes after it. -/
structure TurnFate where
  find : Option Failure
  before : Option Failure
  detach : Option (Bool × Failure)
  after : Option Failure
  stateAfter : String

/-- The instances of the compartment and the members of the pool. -/
structure PoolWorld where
  instances : List Instance
  members : List String
  nodup_ids : (instances.map (·.id)).Nodup
  nodup_members : members.Nodup

namespace PoolWorld

def setState (id state : String) (candidate : Instance) : Instance :=
  if candidate.id = id then { candidate with lifecycleState := state } else candidate

theorem setState_id (id state : String) (candidate : Instance) : (setState id state candidate).id = candidate.id := by
  unfold setState
  split <;> rfl

theorem setState_displayName (id state : String) (candidate : Instance) :
    (setState id state candidate).displayName = candidate.displayName := by
  unfold setState
  split <;> rfl

def change (w : PoolWorld) (id state : String) : PoolWorld where
  instances := w.instances.map (setState id state)
  members := w.members
  nodup_ids := by
    rw [List.map_map, show (fun candidate : Instance => candidate.id) ∘ setState id state = (·.id) from
      funext (setState_id id state)]
    exact w.nodup_ids
  nodup_members := w.nodup_members

def detached (w : PoolWorld) (id : String) : PoolWorld where
  instances := w.instances
  members := w.members.erase id
  nodup_ids := w.nodup_ids
  nodup_members := w.nodup_members.erase id

end PoolWorld

/-- A turn that ends with an error: a 404 is passed over, any other ends the program. -/
def endTurn (failure : Failure) (w : PoolWorld) : Option PoolWorld :=
  match failure with
  | .notFound => some w
  | .other => none

/-- After the detachment the instance is terminated, and its records are deleted. -/
def finishTurn (found : Instance) (fate : TurnFate) (w : PoolWorld) : Option PoolWorld :=
  match fate.after with
  | none => some (w.change found.id fate.stateAfter)
  | some failure => endTurn failure (w.change found.id fate.stateAfter)

/-- The turn of a name; `none` where the program ends. `listed` is `cn_instances`. -/
def removeTurn (clusterName : String) (listed : List Node) (w : PoolWorld) (name : Text) (fate : TurnFate) :
    Option PoolWorld :=
  match fate.find with
  | some failure => endTurn failure w
  | none =>
      match matching clusterName name w.instances with
      | [] => some w
      | [found] =>
          -- "The private IP for instance ... was not found"
          if !listed.any fun node => node.ocid == found.id then none
          else
            match fate.before with
            | some failure => endTurn failure w
            | none =>
                if found.id ∈ w.members then
                  match fate.detach with
                  | none => finishTurn found fate (w.detached found.id)
                  | some (gone, failure) => endTurn failure (if gone then w.detached found.id else w)
                else finishTurn found fate w
      | _ => none

def removeAll (clusterName : String) (listed : List Node) : PoolWorld → List (Text × TurnFate) → Option PoolWorld
  | w, [] => some w
  | w, turn :: rest => do
      let w' ← removeTurn clusterName listed w turn.1 turn.2
      removeAll clusterName listed w' rest

/-! ## The addition -/

/-- An addition: what it finds, and what the calls of the removal loop do. The size OCI reports for the pool is the
number of its members. -/
structure PoolAddition where
  clusterName : String
  inventory : Inventory
  reachableIps : List Text
  listed : List Node
  world : PoolWorld
  fates : Nat → TurnFate
  number : Nat

/-- The size of the update, the size a rollback asks for, and the members left after the removals. -/
structure Requested where
  size : Int
  rollbackSize : Int
  left : Nat

namespace PoolAddition

def turns (addition : PoolAddition) (names : List Text) : List (Text × TurnFate) :=
  names.zipIdx.map fun entry => (entry.1, addition.fates entry.2)

/-- What is asked for, where the program gets there. -/
def requested (addition : PoolAddition) : Option Requested := do
  let names ← unreachableNames addition.inventory addition.reachableIps
  let w ← removeAll addition.clusterName addition.listed addition.world (addition.turns names)
  let currentSize : Int := addition.world.members.length
  some ⟨currentSize - names.length + addition.number, currentSize - names.length, w.members.length⟩

end PoolAddition

/-! ## What is promised -/

/-- **The sizes are right**: the members left and the new ones, and for a rollback the members left. -/
structure Requested.Right (requested : Requested) (number : Nat) : Prop where
  size : requested.size = requested.left + number
  rollbackSize : requested.rollbackSize = requested.left

/-- The turn of a name detaches a member: the name has one active instance, which is a pool member, and nothing ends
the turn before it is detached. -/
def Detaches (clusterName : String) (w : PoolWorld) (turn : Text × TurnFate) : Prop :=
  turn.2.find = none ∧ turn.2.before = none ∧ (turn.2.detach.all fun given => given.1) = true ∧
    ∃ found, matching clusterName turn.1 w.instances = [found] ∧ found.id ∈ w.members

/-- The names differ, and each is one of a member that can be detached. -/
def EveryNameDetaches (clusterName : String) (w : PoolWorld) (turns : List (Text × TurnFate)) : Prop :=
  (turns.map (·.1)).Nodup ∧ ∀ turn ∈ turns, Detaches clusterName w turn

/-! ## One turn -/

section
variable {clusterName : String} {listed : List Node} {w w' : PoolWorld} {turn : Text × TurnFate}

theorem endTurn_eq_some {failure : Failure} (h : endTurn failure w = some w') : w' = w := by
  cases failure with
  | notFound => exact (Option.some.inj h).symm
  | other => cases h

theorem finishTurn_eq_some {found : Instance} {fate : TurnFate} (h : finishTurn found fate w = some w') :
    w' = w.change found.id fate.stateAfter := by
  unfold finishTurn at h
  split at h
  · exact (Option.some.inj h).symm
  · exact endTurn_eq_some h

/-- The member is gone from the pool; the state of its instance may have changed. -/
structure Detached (w : PoolWorld) (found : Instance) (w' : PoolWorld) : Prop where
  members : w'.members = w.members.erase found.id
  instances : w'.instances = w.instances ∨ ∃ state, w'.instances = w.instances.map (PoolWorld.setState found.id state)

/-- From the detachment on. -/
theorem detach_cases {found : Instance} (hfind : turn.2.find = none) (hbefore : turn.2.before = none)
    (hfound : matching clusterName turn.1 w.instances = [found]) (hmember : found.id ∈ w.members)
    (h : (match turn.2.detach with
      | none => finishTurn found turn.2 (w.detached found.id)
      | some (gone, failure) => endTurn failure (if gone then w.detached found.id else w)) = some w') :
    (∃ found, Detaches clusterName w turn ∧ matching clusterName turn.1 w.instances = [found] ∧
      found.id ∈ w.members ∧ Detached w found w') ∨
    (¬ Detaches clusterName w turn ∧ w'.members = w.members) := by
  cases hdetach : turn.2.detach with
  | none =>
      rw [hdetach] at h
      have hall : (turn.2.detach.all fun given => given.1) = true := by rw [hdetach]; rfl
      refine .inl ⟨found, ⟨hfind, hbefore, hall, found, hfound, hmember⟩, hfound, hmember, ?_⟩
      rw [finishTurn_eq_some h]
      exact ⟨rfl, .inr ⟨_, rfl⟩⟩
  | some given =>
      obtain ⟨gone, failure⟩ := given
      rw [hdetach] at h
      cases gone with
      | true =>
          have hall : (turn.2.detach.all fun given => given.1) = true := by rw [hdetach]; rfl
          refine .inl ⟨found, ⟨hfind, hbefore, hall, found, hfound, hmember⟩, hfound, hmember, ?_⟩
          rw [endTurn_eq_some h]
          exact ⟨rfl, .inl rfl⟩
      | false =>
          refine .inr ⟨fun hdetaches => ?_, congrArg PoolWorld.members (endTurn_eq_some h)⟩
          have hall := hdetaches.2.2.1
          rw [hdetach] at hall
          cases hall

/-- A turn detaches the one instance of its name, whose state may change, or leaves the members as they are. -/
theorem removeTurn_cases (h : removeTurn clusterName listed w turn.1 turn.2 = some w') :
    (∃ found, Detaches clusterName w turn ∧ matching clusterName turn.1 w.instances = [found] ∧
      found.id ∈ w.members ∧ Detached w found w') ∨
    (¬ Detaches clusterName w turn ∧ w'.members = w.members) := by
  unfold removeTurn at h
  cases hfind : turn.2.find with
  | some failure =>
      rw [hfind] at h
      refine .inr ⟨fun hdetaches => ?_, congrArg PoolWorld.members (endTurn_eq_some h)⟩
      rw [hdetaches.1] at hfind
      cases hfind
  | none =>
      rw [hfind] at h
      dsimp only at h
      split at h
      · rename_i hnone
        refine .inr ⟨fun hdetaches => ?_, congrArg PoolWorld.members (Option.some.inj h).symm⟩
        obtain ⟨-, -, -, found, hfound, -⟩ := hdetaches
        rw [hnone] at hfound
        cases hfound
      · rename_i found hfound
        split at h
        · cases h
        · cases hbefore : turn.2.before with
          | some failure =>
              rw [hbefore] at h
              refine .inr ⟨fun hdetaches => ?_, congrArg PoolWorld.members (endTurn_eq_some h)⟩
              rw [hdetaches.2.1] at hbefore
              cases hbefore
          | none =>
              rw [hbefore] at h
              dsimp only at h
              by_cases hmember : found.id ∈ w.members
              · rw [if_pos hmember] at h
                exact detach_cases hfind hbefore hfound hmember h
              · rw [if_neg hmember] at h
                refine .inr ⟨fun hdetaches => ?_, ?_⟩
                · obtain ⟨-, -, -, other, hother, hin⟩ := hdetaches
                  rw [hfound, List.singleton_inj] at hother
                  exact hmember (hother ▸ hin)
                · rw [finishTurn_eq_some h]
                  rfl
      · cases h

/-! ## The other names -/

/-- The turn of one name does not change what another name stands for. -/
theorem matching_change {name : Text} {found : Instance} {instances : List Instance} (state : String)
    (hname : ∀ candidate ∈ instances, candidate.id = found.id → candidate.displayName.toList ≠ name) :
    matching clusterName name (instances.map (PoolWorld.setState found.id state)) =
      matching clusterName name instances := by
  induction instances with
  | nil => rfl
  | cons first rest ih =>
      have hrest := ih fun candidate hcandidate => hname candidate (List.mem_cons_of_mem _ hcandidate)
      unfold matching at hrest ⊢
      rw [List.map_cons, List.filter_cons, List.filter_cons, hrest]
      by_cases hid : first.id = found.id
      · have hne := hname first List.mem_cons_self hid
        rw [if_neg, if_neg]
        · simp only [decide_eq_true_eq]
          exact fun h => hne h.1
        · simp only [decide_eq_true_eq, PoolWorld.setState_displayName]
          exact fun h => hne h.1
      · rw [PoolWorld.setState, if_neg hid]

variable {found : Instance} {other : Text × TurnFate}

theorem eq_of_id_eq {a b : Instance} (ha : a ∈ w.instances) (hb : b ∈ w.instances) (h : a.id = b.id) : a = b :=
  List.inj_on_of_nodup_map w.nodup_ids ha hb h

theorem mem_of_matching {name : Text} {instances : List Instance} (h : matching clusterName name instances = [found]) :
    found ∈ instances ∧ found.displayName.toList = name := by
  have hmem : found ∈ matching clusterName name instances := h ▸ List.mem_singleton_self found
  exact ⟨List.mem_of_mem_filter hmem, displayName_of_mem_matching hmem⟩

theorem detaches_iff_of_ne (hfound : matching clusterName turn.1 w.instances = [found]) (hdetached : Detached w found w')
    (hne : other.1 ≠ turn.1) : Detaches clusterName w' other ↔ Detaches clusterName w other := by
  obtain ⟨hmem, hname⟩ := mem_of_matching hfound
  have hmatching : matching clusterName other.1 w'.instances = matching clusterName other.1 w.instances := by
    obtain hsame | ⟨state, hchanged⟩ := hdetached.instances
    · rw [hsame]
    · rw [hchanged]
      refine matching_change state fun candidate hcandidate hid heq => hne ?_
      rw [← heq, eq_of_id_eq hcandidate hmem hid, hname]
  unfold Detaches
  rw [hmatching, hdetached.members]
  refine and_congr_right fun _ => and_congr_right fun _ => and_congr_right fun _ => exists_congr fun candidate =>
    and_congr_right fun hcandidate => ?_
  obtain ⟨hmem', hname'⟩ := mem_of_matching hcandidate
  refine List.mem_erase_of_ne fun hid => hne ?_
  rw [← hname', eq_of_id_eq hmem' hmem hid, hname]

/-- The name itself stands for no member any more. -/
theorem not_detaches_of_eq (hfound : matching clusterName turn.1 w.instances = [found]) (hdetached : Detached w found w')
    (heq : other.1 = turn.1) : ¬ Detaches clusterName w' other := by
  rintro ⟨-, -, -, candidate, hcandidate, hin⟩
  obtain ⟨hmem, -⟩ := mem_of_matching hcandidate
  rw [hdetached.members, w.nodup_members.mem_erase_iff] at hin
  have hfrom : candidate ∈ w.instances := by
    obtain hsame | ⟨state, hchanged⟩ := hdetached.instances
    · rw [← hsame]
      exact hmem
    · rw [hchanged] at hmem
      obtain ⟨before, hbefore, rfl⟩ := List.mem_map.mp hmem
      rw [PoolWorld.setState_id] at hin
      rw [PoolWorld.setState, if_neg hin.1]
      exact hbefore
  have hmatches : candidate ∈ matching clusterName turn.1 w.instances := by
    have hmem' : candidate ∈ matching clusterName other.1 w'.instances :=
      hcandidate ▸ List.mem_singleton_self candidate
    rw [heq] at hmem'
    exact List.mem_filter.mpr ⟨hfrom, (List.mem_filter.mp hmem').2⟩
  rw [hfound, List.mem_singleton] at hmatches
  exact hin.1 (congrArg (·.id) hmatches)

theorem everyNameDetaches_cons {rest : List (Text × TurnFate)}
    (hfound : matching clusterName turn.1 w.instances = [found]) (hdetaches : Detaches clusterName w turn)
    (hdetached : Detached w found w') :
    EveryNameDetaches clusterName w (turn :: rest) ↔ EveryNameDetaches clusterName w' rest := by
  constructor
  · rintro ⟨hnodup, hall⟩
    obtain ⟨hfresh, hnodup⟩ := List.nodup_cons.mp hnodup
    refine ⟨hnodup, fun other hother => (detaches_iff_of_ne hfound hdetached fun heq => hfresh ?_).mpr
      (hall other (List.mem_cons_of_mem _ hother))⟩
    have hmem : other.1 ∈ rest.map (·.1) := List.mem_map_of_mem hother
    rwa [heq] at hmem
  · rintro ⟨hnodup, hall⟩
    have hne : ∀ other ∈ rest, other.1 ≠ turn.1 := fun other hother heq =>
      not_detaches_of_eq hfound hdetached heq (hall other hother)
    refine ⟨List.nodup_cons.mpr ⟨fun hmem => ?_, hnodup⟩, List.forall_mem_cons.mpr ⟨hdetaches, fun other hother => ?_⟩⟩
    · obtain ⟨other, hother, heq⟩ := List.mem_map.mp hmem
      exact hne other hother heq
    · exact (detaches_iff_of_ne hfound hdetached (hne other hother)).mp (hall other hother)

end

/-! ## The whole loop -/

/-- **The loop detaches as many members as there are names exactly when every name detaches one.** -/
theorem length_removeAll {clusterName : String} {listed : List Node} {turns : List (Text × TurnFate)}
    {w w' : PoolWorld} (h : removeAll clusterName listed w turns = some w') :
    w.members.length ≤ w'.members.length + turns.length ∧
      (w'.members.length + turns.length = w.members.length ↔ EveryNameDetaches clusterName w turns) := by
  induction turns generalizing w with
  | nil =>
      obtain rfl : w = w' := Option.some.inj h
      refine ⟨Nat.le_refl _, iff_of_true rfl ⟨List.nodup_nil, fun turn hturn => ?_⟩⟩
      cases hturn
  | cons turn rest ih =>
      obtain ⟨w₁, hturn, hrest⟩ := Option.bind_eq_some_iff.mp h
      obtain ⟨hle, hiff⟩ := ih hrest
      rw [List.length_cons]
      obtain ⟨found, hdetaches, hfound, hmember, hdetached⟩ | ⟨hno, hsame⟩ := removeTurn_cases hturn
      · have hlength := List.length_erase_of_mem hmember
        have hpos := List.length_pos_of_mem hmember
        rw [← hdetached.members] at hlength
        refine ⟨by omega, ?_⟩
        rw [everyNameDetaches_cons hfound hdetaches hdetached, ← hiff]
        omega
      · rw [hsame] at hle
        refine ⟨by omega, iff_of_false (by omega) fun hall => hno (hall.2 turn List.mem_cons_self)⟩

namespace PoolAddition

/-- The names to remove differ, and each is one of a member that can be detached. -/
def EveryNameDetaches (addition : PoolAddition) : Prop :=
  ∀ names, unreachableNames addition.inventory addition.reachableIps = some names →
    Resize.EveryNameDetaches addition.clusterName addition.world (addition.turns names)

/-- **An addition asks for the right sizes exactly when the turn of every name to remove detaches a member.** -/
theorem rightSize_iff (addition : PoolAddition) {requested : Requested} (h : addition.requested = some requested) :
    requested.Right addition.number ↔ addition.EveryNameDetaches := by
  obtain ⟨names, hnames, h⟩ := Option.bind_eq_some_iff.mp h
  obtain ⟨w, hw, h⟩ := Option.bind_eq_some_iff.mp h
  obtain rfl := Option.some.inj h
  have hlength : (addition.turns names).length = names.length := by
    rw [turns, List.length_map, List.length_zipIdx]
  obtain ⟨-, hiff⟩ := length_removeAll hw
  rw [hlength] at hiff
  constructor
  · intro hright names' hnames'
    obtain rfl : names = names' := Option.some.inj (hnames.symm.trans hnames')
    have hsize : (addition.world.members.length : Int) - names.length = w.members.length := hright.rollbackSize
    exact hiff.mp (by omega)
  · intro hall
    have hcount := hiff.mpr (hall names hnames)
    refine ⟨?_, ?_⟩
    · dsimp only
      omega
    · dsimp only
      omega

/-! ### Nodes that are gone already -/

def poolMember (id displayName : String) : Instance :=
  ⟨⟨id, displayName, "RUNNING", true, none, fun _ => true⟩, [("parent_cluster", "c")], false, true⟩

/-- A pool of two members, and calls that all succeed. -/
def twoMembers (inventory : String) (reachableIps : List String) : PoolAddition where
  clusterName := "c"
  inventory := parseInventory inventory.toList
  reachableIps := reachableIps.map (·.toList)
  listed := [⟨"a", "10.0.0.2", "ocid.a"⟩, ⟨"b", "10.0.0.3", "ocid.b"⟩]
  world := ⟨[poolMember "ocid.a" "a", poolMember "ocid.b" "b"], ["ocid.a", "ocid.b"], by decide, by decide⟩
  fates := fun _ => ⟨none, none, none, none, "TERMINATED"⟩
  number := 1

/-- The member `b` does not answer. -/
def oneUnreachable : PoolAddition := twoMembers
  ("[compute_configured]\na ansible_host=10.0.0.2 ansible_user=u\nb ansible_host=10.0.0.3 ansible_user=u\n" ++
    "[compute_to_add]\n") ["10.0.0.2"]

/-- Both members answer, and the inventory has two nodes besides that are gone. -/
def twoGone : PoolAddition := twoMembers
  ("[compute_configured]\na ansible_host=10.0.0.2 ansible_user=u\nb ansible_host=10.0.0.3 ansible_user=u\n" ++
    "x ansible_host=10.0.0.4 ansible_user=u\ny ansible_host=10.0.0.5 ansible_user=u\n[compute_to_add]\n")
  ["10.0.0.2", "10.0.0.3"]

theorem rightSize_of_oneUnreachable : ∃ requested, oneUnreachable.requested = some requested ∧
    requested.Right 1 ∧ oneUnreachable.EveryNameDetaches := by
  have hsizes : (oneUnreachable.requested.map fun requested =>
      (requested.size, requested.rollbackSize, requested.left)) = some (2, 1, 1) := by decide +kernel
  obtain ⟨⟨size, rollbackSize, left⟩, hrequested, heq⟩ := Option.map_eq_some_iff.mp hsizes
  obtain ⟨rfl, rfl, rfl⟩ : size = 2 ∧ rollbackSize = 1 ∧ left = 1 := by simpa using heq
  have hright : (⟨2, 1, 1⟩ : Requested).Right 1 := ⟨rfl, rfl⟩
  exact ⟨_, hrequested, hright, (rightSize_iff oneUnreachable hrequested).mp hright⟩

/-- **One node is asked for, and the pool shrinks**: the nodes that are gone are counted as removed. -/
theorem gone_nodes_are_counted : ∃ requested, twoGone.requested = some requested ∧
    ¬ requested.Right twoGone.number ∧ requested.size < requested.left := by
  have hsizes : (twoGone.requested.map fun requested =>
      (requested.size, requested.rollbackSize, requested.left)) = some (1, 0, 2) := by decide +kernel
  obtain ⟨⟨size, rollbackSize, left⟩, hrequested, heq⟩ := Option.map_eq_some_iff.mp hsizes
  obtain ⟨rfl, rfl, rfl⟩ : size = 1 ∧ rollbackSize = 0 ∧ left = 2 := by simpa using heq
  refine ⟨_, hrequested, fun hright => ?_, by decide⟩
  have hzero : (0 : Int) = 2 := hright.rollbackSize
  omega

end PoolAddition
end OciHpc.Resize
