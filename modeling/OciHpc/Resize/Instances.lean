import Mathlib.Data.List.Nodup

/-!
# The instances of a cluster

`get_instances` of `resize.py`: a loop over the listed instances that looks up each one's VNIC.

* `Turn` : a listed instance, and what the lookups of its turn answer;
* `getInstances` : the entries found, with the variable `vnic_attachment` that outlives its turn;
* `NeverMixed` : every entry has an address of its own instance;
* `neverMixed_iff` : entries are never mixed up exactly when no instance without a VNIC attachment of null name
  follows one with such an attachment.
-/

namespace OciHpc.Resize

/-- `"CC"`, `"CN"`, and anything else. -/
inductive ClusterKind
  | computeCluster | clusterNetwork | instancePool
  deriving DecidableEq, Repr

structure VnicAttachment where
  displayName : Option String
  vnicId : String
  deriving DecidableEq, Repr

/-- A node as `get_instances` returns it. -/
structure Node where
  displayName : String
  ip : String
  ocid : String
  deriving DecidableEq, Repr

/-- A listed instance and the lookups of its turn: whether `get_instance` answers, which only an instance pool
asks, the VNIC attachments if they can be listed, and the VNICs that can be read. -/
structure Turn where
  id : String
  displayName : String
  lifecycleState : String
  found : Bool
  attachments : Option (List VnicAttachment)
  readable : String → Bool

def nullNamed (attachments : List VnicAttachment) : Option VnicAttachment :=
  (attachments.filter fun attachment => attachment.displayName = none).getLast?

/-- The attachments the turn goes through, if it gets there. -/
def Turn.lookedUp (kind : ClusterKind) (turn : Turn) : Option (List VnicAttachment) :=
  match kind with
  | .computeCluster => if turn.lifecycleState = "TERMINATED" then none else turn.attachments
  | .clusterNetwork | .instancePool => if turn.found then turn.attachments else none

/-- `vnic_attachment` after the turn; it is assigned only by an attachment with a null name. -/
def vnicAttachmentAfter (kind : ClusterKind) (previous : Option VnicAttachment) (turn : Turn) : Option VnicAttachment :=
  ((turn.lookedUp kind).bind nullNamed).or previous

/-- The entry a turn appends; `none` where a lookup raises, or `vnic_attachment` was never assigned. -/
def entryOf (privateIp : String → String) (kind : ClusterKind) (previous : Option VnicAttachment) (turn : Turn) :
    Option Node :=
  match turn.lookedUp kind, vnicAttachmentAfter kind previous turn with
  | some _, some attachment =>
      if turn.readable attachment.vnicId then some ⟨turn.displayName, privateIp attachment.vnicId, turn.id⟩ else none
  | _, _ => none

/-- The loop. `privateIp` are the addresses of the VNICs. -/
def getInstancesFrom (privateIp : String → String) (kind : ClusterKind) : Option VnicAttachment → List Turn → List Node
  | _, [] => []
  | previous, turn :: rest =>
      (entryOf privateIp kind previous turn).toList ++
        getInstancesFrom privateIp kind (vnicAttachmentAfter kind previous turn) rest

def getInstances (privateIp : String → String) (kind : ClusterKind) (turns : List Turn) : List Node :=
  getInstancesFrom privateIp kind none turns

/-! ## What is promised -/

/-- The address is that of a VNIC attached to the instance. -/
def Attached (privateIp : String → String) (turn : Turn) (ip : String) : Prop :=
  ∃ attachments, turn.attachments = some attachments ∧ ∃ attachment ∈ attachments, privateIp attachment.vnicId = ip

/-- Entries are of listed instances, in their order and once each, with an address of the instance. -/
structure NeverMixed (privateIp : String → String) (turns : List Turn) (nodes : List Node) : Prop where
  own : ∀ node ∈ nodes, ∃ turn ∈ turns, turn.id = node.ocid ∧ turn.displayName = node.displayName ∧
    Attached privateIp turn node.ip
  subsequence : (nodes.map fun node => (node.ocid, node.displayName)).Sublist
    (turns.map fun turn => (turn.id, turn.displayName))
  once : (nodes.map (·.ocid)).Nodup

/-- The last attachment with a null name that the turns came across. -/
def carried (kind : ClusterKind) (turns : List Turn) : Option VnicAttachment :=
  (turns.filterMap fun turn => (turn.lookedUp kind).bind nullNamed).getLast?

/-- An instance with no attachment of null name is not given the address of the attachment before. -/
def Resolves (privateIp : String → String) (kind : ClusterKind) (before : Option VnicAttachment) (turn : Turn) : Prop :=
  ∀ attachments, turn.lookedUp kind = some attachments → nullNamed attachments = none →
    ∀ attachment, before = some attachment → turn.readable attachment.vnicId = true →
      ∃ own ∈ attachments, privateIp own.vnicId = privateIp attachment.vnicId

/-! ## The loop -/

section
variable {privateIp : String → String} {kind : ClusterKind}

theorem attachments_of_lookedUp {turn : Turn} {attachments : List VnicAttachment}
    (h : turn.lookedUp kind = some attachments) : turn.attachments = some attachments := by
  unfold Turn.lookedUp at h
  split at h
  · split at h
    · cases h
    · exact h
  all_goals
    split at h
    · exact h
    · cases h

theorem mem_of_nullNamed {attachments : List VnicAttachment} {attachment : VnicAttachment}
    (h : nullNamed attachments = some attachment) : attachment ∈ attachments :=
  List.mem_of_mem_filter (List.mem_of_getLast? h)

theorem entryOf_eq_some {previous : Option VnicAttachment} {turn : Turn} {node : Node}
    (h : entryOf privateIp kind previous turn = some node) :
    ∃ attachments attachment, turn.lookedUp kind = some attachments ∧
      vnicAttachmentAfter kind previous turn = some attachment ∧ turn.readable attachment.vnicId = true ∧
      node = ⟨turn.displayName, privateIp attachment.vnicId, turn.id⟩ := by
  unfold entryOf at h
  split at h
  · rename_i attachments attachment hlooked hafter
    split at h
    · rename_i hreadable
      exact ⟨attachments, attachment, hlooked, hafter, hreadable, (Option.some.inj h).symm⟩
    · cases h
  · cases h

/-- The variable before a turn is what the turns before it left. -/
theorem mem_getInstancesFrom {previous : Option VnicAttachment} {turns : List Turn} {node : Node} :
    node ∈ getInstancesFrom privateIp kind previous turns ↔ ∃ before turn after, turns = before ++ turn :: after ∧
      entryOf privateIp kind (before.foldl (vnicAttachmentAfter kind) previous) turn = some node := by
  induction turns generalizing previous with
  | nil =>
      constructor
      · intro hmem
        cases hmem
      · rintro ⟨before, turn, after, hsplit, -⟩
        simp at hsplit
  | cons head rest ih =>
      rw [getInstancesFrom, List.mem_append, Option.mem_toList, ih]
      constructor
      · rintro (hhead | ⟨before, turn, after, rfl, hentry⟩)
        · exact ⟨[], head, rest, rfl, hhead⟩
        · exact ⟨head :: before, turn, after, rfl, hentry⟩
      · rintro ⟨before, turn, after, hsplit, hentry⟩
        cases before with
        | nil =>
            obtain ⟨rfl, rfl⟩ := List.cons.inj hsplit
            exact .inl hentry
        | cons first before =>
            obtain ⟨rfl, rfl⟩ := List.cons.inj hsplit
            exact .inr ⟨before, turn, after, rfl, hentry⟩

theorem carried_cons (head : Turn) (rest : List Turn) :
    carried kind (head :: rest) = (carried kind rest).or ((head.lookedUp kind).bind nullNamed) := by
  rw [carried, List.filterMap_cons]
  cases (head.lookedUp kind).bind nullNamed with
  | none => exact (Option.or_none).symm
  | some attachment =>
      show (attachment :: _).getLast? = (carried kind rest).or (some attachment)
      rw [List.getLast?_cons, carried]
      cases (rest.filterMap fun turn => (turn.lookedUp kind).bind nullNamed).getLast? <;> rfl

theorem foldl_vnicAttachmentAfter (turns : List Turn) (previous : Option VnicAttachment) :
    turns.foldl (vnicAttachmentAfter kind) previous = (carried kind turns).or previous := by
  induction turns generalizing previous with
  | nil => rfl
  | cons head rest ih => rw [List.foldl_cons, ih, carried_cons, vnicAttachmentAfter, Option.or_assoc]

theorem mem_getInstances {turns : List Turn} {node : Node} :
    node ∈ getInstances privateIp kind turns ↔ ∃ before turn after, turns = before ++ turn :: after ∧
      entryOf privateIp kind (carried kind before) turn = some node := by
  simp only [getInstances, mem_getInstancesFrom, foldl_vnicAttachmentAfter, Option.or_none]

/-- An entry carries the name and the identifier of the instance of its turn. -/
theorem getInstancesFrom_sublist (previous : Option VnicAttachment) (turns : List Turn) :
    ((getInstancesFrom privateIp kind previous turns).map fun node => (node.ocid, node.displayName)).Sublist
      (turns.map fun turn => (turn.id, turn.displayName)) := by
  induction turns generalizing previous with
  | nil => exact List.Sublist.slnil
  | cons head rest ih =>
      rw [getInstancesFrom, List.map_append, List.map_cons]
      cases hentry : entryOf privateIp kind previous head with
      | none => exact (ih _).cons _
      | some node =>
          obtain ⟨-, attachment, -, -, -, rfl⟩ := entryOf_eq_some hentry
          exact (ih _).cons_cons _

/-- The entry of a turn is of its own instance when the attachment before is not taken over. -/
theorem attached_of_resolves {before : Option VnicAttachment} {turn : Turn} {node : Node}
    (hresolves : Resolves privateIp kind before turn) (h : entryOf privateIp kind before turn = some node) :
    turn.id = node.ocid ∧ turn.displayName = node.displayName ∧ Attached privateIp turn node.ip := by
  obtain ⟨attachments, attachment, hlooked, hafter, hreadable, rfl⟩ := entryOf_eq_some h
  refine ⟨rfl, rfl, attachments, attachments_of_lookedUp hlooked, ?_⟩
  rw [vnicAttachmentAfter, hlooked, Option.bind_some] at hafter
  cases hown : nullNamed attachments with
  | some own =>
      rw [hown, Option.some_or] at hafter
      obtain rfl := Option.some.inj hafter
      exact ⟨own, mem_of_nullNamed hown, rfl⟩
  | none =>
      rw [hown, Option.none_or] at hafter
      exact hresolves attachments hlooked hown attachment hafter hreadable

end

/-- **Nodes are not mixed up, exactly when no instance without an attachment of null name is given the VNIC of one
before it.** Every listed instance has an identifier of its own. -/
theorem neverMixed_iff (privateIp : String → String) (kind : ClusterKind) (turns : List Turn)
    (hlisted : (turns.map (·.id)).Nodup) :
    NeverMixed privateIp turns (getInstances privateIp kind turns) ↔
      ∀ before turn after, turns = before ++ turn :: after → Resolves privateIp kind (carried kind before) turn := by
  constructor
  · intro h before turn after hsplit attachments hlooked hnull attachment hbefore hreadable
    have hentry : entryOf privateIp kind (carried kind before) turn =
        some ⟨turn.displayName, privateIp attachment.vnicId, turn.id⟩ := by
      simp only [entryOf, vnicAttachmentAfter, hlooked, Option.bind_some, hnull, hbefore, Option.none_or, hreadable,
        if_true]
    have hmem : turn ∈ turns := hsplit ▸ List.mem_append_right _ List.mem_cons_self
    obtain ⟨turn', hmem', hid, -, attachments', hattachments', own, hown, hip⟩ :=
      h.own _ (mem_getInstances.mpr ⟨before, turn, after, hsplit, hentry⟩)
    obtain rfl : turn' = turn := List.inj_on_of_nodup_map hlisted hmem' hmem hid
    rw [attachments_of_lookedUp hlooked] at hattachments'
    obtain rfl := Option.some.inj hattachments'
    exact ⟨own, hown, hip⟩
  · intro h
    have hsub := @getInstancesFrom_sublist privateIp kind none turns
    refine ⟨fun node hnode => ?_, hsub, ?_⟩
    · obtain ⟨before, turn, after, hsplit, hentry⟩ := mem_getInstances.mp hnode
      exact ⟨turn, hsplit ▸ List.mem_append_right _ List.mem_cons_self,
        attached_of_resolves (h before turn after hsplit) hentry⟩
    · have hids := hsub.map Prod.fst
      simp only [List.map_map] at hids
      exact hlisted.sublist hids

def running (id displayName : String) (attachment : VnicAttachment) : Turn :=
  ⟨id, displayName, "RUNNING", true, some [attachment], fun _ => true⟩

def twoIps (vnicId : String) : String := if vnicId = "v1" then "10.0.0.1" else "10.0.0.2"

theorem neverMixed_iff_two :
    NeverMixed twoIps [running "i1" "hpc-node-1" ⟨none, "v1"⟩, running "i2" "hpc-node-2" ⟨none, "v2"⟩]
      (getInstances twoIps .computeCluster
        [running "i1" "hpc-node-1" ⟨none, "v1"⟩, running "i2" "hpc-node-2" ⟨none, "v2"⟩]) ↔
    ∀ before turn after,
      [running "i1" "hpc-node-1" ⟨none, "v1"⟩, running "i2" "hpc-node-2" ⟨none, "v2"⟩] = before ++ turn :: after →
        Resolves twoIps .computeCluster (carried .computeCluster before) turn :=
  neverMixed_iff twoIps .computeCluster _ (by decide)

/-- A node whose only VNIC attachment has a name. -/
def namedAttachment : List Turn :=
  [running "i1" "hpc-node-1" ⟨none, "v1"⟩, running "i2" "hpc-node-2" ⟨some "primary", "v2"⟩]

/-- **A node is given the address of the node before it.** -/
theorem named_attachment_mixes : ¬ NeverMixed twoIps namedAttachment
    (getInstances twoIps .computeCluster namedAttachment) := by
  intro h
  have hentry : (⟨"hpc-node-2", "10.0.0.1", "i2"⟩ : Node) ∈ getInstances twoIps .computeCluster namedAttachment := by
    decide
  obtain ⟨turn, hturn, hid, -, attachments, hattachments, own, hown, hip⟩ := h.own _ hentry
  simp only [namedAttachment, List.mem_cons, List.not_mem_nil, or_false] at hturn
  rcases hturn with rfl | rfl
  · exact absurd hid (by decide)
  · obtain rfl := Option.some.inj hattachments
    obtain rfl := List.mem_singleton.mp hown
    exact absurd hip (by decide)

end OciHpc.Resize
