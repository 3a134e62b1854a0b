import OciHpc.Resize.Instances
import OciHpc.Resize.Inventory

/-!
# Reconfiguring before nodes are removed

`destroy_unreachable_reconfigure` of `resize.py`, `update_cluster`, and the caller in the main program.

* `plan` : the inventory without the lines of the nodes, and what the playbook is run for;
* `updateCluster` : one run of the playbook;
* `destroyUnreachableReconfigure`, `removalLoop` : the function, and the names the caller goes on to remove;
* `doneOnlyIfAllSucceeded_iff` : a removal is reported done only if every run succeeded, exactly when all runs succeed
  or the last one does not.
-/

namespace OciHpc.Resize

/-! ## One run of the playbook -/

/-- How `ansible-playbook` ended; `raised` is where it cannot be started, or its leftovers not be put away. -/
inductive PlaybookRun
  | ended (rc : Int)
  | raised
  deriving DecidableEq, Repr

/-- `update_cluster` on an inventory file. `hostfile` is the status of `wait_for_hosts.sh`, where a host file is given.
`none` is an exception. -/
def updateCluster (inventory : Text) (hostfile : Option Int) (run : PlaybookRun) : Option Nat :=
  match computeUsername (parseInventory inventory) with
  | none => none
  | some _ =>
      if hostfile.getD 0 ≠ 0 then some 2
      else
        match run with
        | .ended rc => some (if rc = 0 then 0 else 1)
        | .raised => none

/-! ## Editing the inventory -/

/-- The turn of a host: the sections without its lines, and the addresses of the compute lines removed. -/
def removeHost (host : Text) (inventory : Inventory) : Option (Inventory × List Text) := do
  let configured ← (inventory.lines? "compute_configured".toList).map (removeHostLines host)
  let inventory := inventory.set "compute_configured".toList configured.1
  let ips ← configured.2.mapM ansibleHost
  let toAdd ← (inventory.lines? "compute_to_add".toList).map (removeHostLines host)
  let inventory := inventory.set "compute_to_add".toList toAdd.1
  let ips' ← toAdd.2.mapM ansibleHost
  let nfs ← (inventory.lines? "nfs".toList).map (removeHostLines host)
  some (inventory.set "nfs".toList nfs.1, ips ++ ips')

def removeHosts : List Text → Inventory → Option (Inventory × List Text)
  | [], inventory => some (inventory, [])
  | host :: rest, inventory => do
      let edited ← removeHost host inventory
      let result ← removeHosts rest edited.1
      some (result.1, edited.2 ++ result.2)

/-- The addresses of listed nodes that are to be removed and have none yet. -/
def completeIps (nodesToRemove : List Text) (instances : List Node) (ips : List Text) : List Text :=
  instances.foldl (fun ips node =>
    if node.displayName.toList ∈ nodesToRemove ∧ node.ip.toList ∉ ips then ips ++ [node.ip.toList] else ips) ips

structure Plan where
  inventory : Inventory
  targets : List Text

/-- `instances` is what `get_instances` returns, `none` where it raises. -/
def plan (nodesToRemove : List Text) (instances : Option (List Node)) (inventory : Text) : Option Plan := do
  let edited ← removeHosts nodesToRemove (parseInventory inventory)
  let ips ← if edited.2.length ≠ nodesToRemove.length then
      instances.map fun listed => completeIps nodesToRemove listed edited.2
    else some edited.2
  some ⟨edited.1, if ips.isEmpty then nodesToRemove else ips⟩

/-! ## The function and its caller -/

/-- What a removal finds: whether `/etc/ansible/hosts` is a file, the inventory, the copy a failed run left in
`/tmp`, what OCI lists, how the runs of the playbook end, and whether `sudo mv` works. -/
structure Removal where
  ansibleHosts : Bool
  inventory : Option Text
  doNotEdit : Option Text
  nodesToRemove : List Text
  instances : Option (List Node)
  run : Nat → PlaybookRun
  moved : Bool

/-- The inventory after `backup_inventory`, which puts a copy left by a failed run in its place. -/
def backupInventory (inventory doNotEdit : Option Text) : Option Text :=
  inventory.map fun text => doNotEdit.getD text

/-- The loop over the targets; `update_flag` keeps what the last run returned. -/
def runEach (inventory : Text) : Option Nat → List PlaybookRun → Option (Option Nat)
  | updateFlag, [] => some updateFlag
  | _, run :: rest =>
      match updateCluster inventory none run with
      | none => none
      | some updateFlag => runEach inventory (some updateFlag) rest

inductive Ending
  | returned (code : Nat)
  | exited
  | raised
  deriving DecidableEq, Repr

/-- How a reconfiguration ends, and the inventory file it leaves. -/
structure Reconfigured where
  ending : Ending
  inventory : Option Text
  deriving DecidableEq, Repr

namespace Removal

/-- The runs made for a plan, one for each target. -/
def runs (removal : Removal) (planned : Plan) : List PlaybookRun := (List.range planned.targets.length).map removal.run

def destroyUnreachableReconfigure (removal : Removal) : Reconfigured :=
  if !removal.ansibleHosts then ⟨.exited, removal.inventory⟩
  else
    match backupInventory removal.inventory removal.doNotEdit with
    | none => ⟨.raised, removal.inventory⟩
    | some text =>
        match plan removal.nodesToRemove removal.instances text with
        | none => ⟨.raised, some text⟩
        | some planned =>
            match runEach (writeInventory planned.inventory) none (removal.runs planned) with
            | none => ⟨.raised, some text⟩
            -- `update_flag` was never assigned
            | some none => ⟨.raised, some text⟩
            | some (some updateFlag) =>
                if updateFlag = 0 then
                  let inventory := planned.inventory.set "compute_to_destroy".toList []
                  ⟨.returned 0, some (if removal.moved then writeInventory inventory else text)⟩
                else ⟨.returned updateFlag, some text⟩

/-- The names the main program goes through to terminate their instances. -/
def removalLoop (noReconfigure force : Bool) (removal : Removal) : List Text :=
  if noReconfigure then removal.nodesToRemove
  else
    match removal.destroyUnreachableReconfigure.ending with
    | .returned code => if code ≠ 0 ∧ !force then [] else removal.nodesToRemove
    | .exited => []
    | .raised => []

/-! ## What is promised -/

/-- The plan, where the function gets as far as running the playbook. -/
def planned (removal : Removal) : Option Plan :=
  if removal.ansibleHosts then
    (backupInventory removal.inventory removal.doNotEdit).bind (plan removal.nodesToRemove removal.instances)
  else none

/-- What `update_cluster` answers for each target. -/
def answers (removal : Removal) (planned : Plan) : List (Option Nat) :=
  (removal.runs planned).map (updateCluster (writeInventory planned.inventory) none)

/-- The playbook succeeds for every node it is run for. -/
def EverySucceeds (removal : Removal) : Prop :=
  ∃ planned, removal.planned = some planned ∧ ∀ answer ∈ removal.answers planned, answer = some 0

/-- **What a removal promises.** It reports success, and changes the inventory, only if every run succeeded; else no
instance is terminated without `--force`. -/
structure DoneOnlyIfAllSucceeded (removal : Removal) : Prop where
  returns : removal.destroyUnreachableReconfigure.ending = .returned 0 → removal.EverySucceeds
  replaces : removal.destroyUnreachableReconfigure.inventory ≠ removal.inventory → removal.EverySucceeds
  stops : ¬ removal.EverySucceeds → removal.removalLoop false false = []

/-- No run raises, and the last one succeeds. -/
def LastSucceeds (removal : Removal) : Prop :=
  ∃ planned, removal.planned = some planned ∧ (∀ answer ∈ removal.answers planned, answer.isSome) ∧
    (removal.answers planned).getLast? = some (some 0)

/-- A copy left in `/tmp` takes the place of another inventory. -/
def Restores (removal : Removal) : Prop :=
  removal.ansibleHosts = true ∧ ∃ text copy, removal.inventory = some text ∧ removal.doNotEdit = some copy ∧ copy ≠ text

/-! ## The runs -/

/-- After the loop the variable holds the last answer, where none is an exception. -/
theorem runEach_eq_some {inventory : Text} {runs : List PlaybookRun} {flag result : Option Nat} :
    runEach inventory flag runs = some result ↔
      (∀ answer ∈ runs.map (updateCluster inventory none), answer.isSome) ∧
        ((runs.map (updateCluster inventory none)).getLast?.join).or flag = result := by
  induction runs generalizing flag with
  | nil => simp [runEach]
  | cons run rest ih =>
      rw [runEach, List.map_cons, List.forall_mem_cons, List.getLast?_cons]
      cases hrun : updateCluster inventory none run with
      | none => simp
      | some answer =>
          dsimp only
          rw [ih, Option.isSome_some]
          cases hlast : (rest.map (updateCluster inventory none)).getLast? with
          | none => simp
          | some last =>
              have hmem := List.mem_of_getLast? hlast
              constructor
              · rintro ⟨hsome, hresult⟩
                obtain ⟨value, rfl⟩ := Option.isSome_iff_exists.mp (hsome last hmem)
                exact ⟨⟨rfl, hsome⟩, hresult⟩
              · rintro ⟨⟨-, hsome⟩, hresult⟩
                obtain ⟨value, rfl⟩ := Option.isSome_iff_exists.mp (hsome last hmem)
                exact ⟨hsome, hresult⟩

variable {removal : Removal}

theorem runEach_eq_zero {planned : Plan} :
    runEach (writeInventory planned.inventory) none (removal.runs planned) = some (some 0) ↔
      (∀ answer ∈ removal.answers planned, answer.isSome) ∧ (removal.answers planned).getLast? = some (some 0) := by
  rw [runEach_eq_some, Option.or_none, Option.join_eq_some_iff]
  rfl

/-- Zero is returned exactly where the last run succeeds. -/
theorem returned_zero_iff :
    removal.destroyUnreachableReconfigure.ending = .returned 0 ↔ removal.LastSucceeds := by
  unfold destroyUnreachableReconfigure LastSucceeds planned
  cases removal.ansibleHosts with
  | false => simp
  | true =>
      cases backupInventory removal.inventory removal.doNotEdit with
      | none => simp
      | some text =>
          cases hplan : plan removal.nodesToRemove removal.instances text with
          | none => simp [hplan]
          | some planned =>
              simp only [Bool.not_true, Bool.false_eq_true, if_false, if_true, Option.bind_some, hplan,
                Option.some.injEq, exists_eq_left', ← runEach_eq_zero]
              cases hruns : runEach (writeInventory planned.inventory) none (removal.runs planned) with
              | none => simp
              | some flag =>
                  cases flag with
                  | none => simp
                  | some flag =>
                      dsimp only
                      by_cases hflag : flag = 0
                      · rw [if_pos hflag, hflag]
                        exact iff_of_true rfl rfl
                      · rw [if_neg hflag]
                        refine iff_of_false ?_ ?_
                        · rintro ⟨⟩
                          exact hflag rfl
                        · rintro ⟨⟩
                          exact hflag rfl

/-- Where zero is not returned, the inventory is what `backup_inventory` made of it. -/
theorem inventory_of_not_returned_zero (h : removal.destroyUnreachableReconfigure.ending ≠ .returned 0) :
    removal.destroyUnreachableReconfigure.inventory =
      if removal.ansibleHosts then backupInventory removal.inventory removal.doNotEdit else removal.inventory := by
  unfold destroyUnreachableReconfigure at h ⊢
  cases hhosts : removal.ansibleHosts with
  | false => rfl
  | true =>
      cases hbackup : backupInventory removal.inventory removal.doNotEdit with
      | none =>
          cases hinventory : removal.inventory with
          | none => rfl
          | some text => simp [backupInventory, hinventory] at hbackup
      | some text =>
          simp only [hhosts, hbackup, Bool.not_true, Bool.false_eq_true, if_false, if_true] at h ⊢
          cases hplan : plan removal.nodesToRemove removal.instances text with
          | none => rfl
          | some planned =>
              simp only [hplan] at h ⊢
              cases hruns : runEach (writeInventory planned.inventory) none (removal.runs planned) with
              | none => rfl
              | some flag =>
                  cases flag with
                  | none => rfl
                  | some flag =>
                      simp only [hruns] at h ⊢
                      by_cases hflag : flag = 0
                      · rw [if_pos hflag] at h
                        exact absurd rfl h
                      · rw [if_neg hflag]

theorem restores_iff :
    removal.Restores ↔ (if removal.ansibleHosts then backupInventory removal.inventory removal.doNotEdit
      else removal.inventory) ≠ removal.inventory := by
  unfold Restores
  cases removal.ansibleHosts <;> cases removal.inventory <;> cases removal.doNotEdit <;> simp [backupInventory]

/-- Without `--force` the caller goes on only after a zero. -/
theorem removalLoop_of_not_returned_zero (h : removal.destroyUnreachableReconfigure.ending ≠ .returned 0) :
    removal.removalLoop false false = [] := by
  unfold removalLoop
  rw [if_neg Bool.false_ne_true]
  cases hending : removal.destroyUnreachableReconfigure.ending with
  | exited => rfl
  | raised => rfl
  | returned code =>
      have hcode : code ≠ 0 := fun hzero => h (hzero ▸ hending)
      exact if_pos ⟨hcode, rfl⟩

/-- **A removal is reported done only if every run succeeded, and else changes nothing, exactly when every run
succeeds, or the last one does not and no copy left in `/tmp` takes the place of the inventory.** -/
theorem doneOnlyIfAllSucceeded_iff (removal : Removal) :
    removal.DoneOnlyIfAllSucceeded ↔ removal.EverySucceeds ∨ ¬ removal.LastSucceeds ∧ ¬ removal.Restores := by
  constructor
  · intro hdone
    by_cases hevery : removal.EverySucceeds
    · exact .inl hevery
    · have hlast : removal.destroyUnreachableReconfigure.ending ≠ .returned 0 := fun hzero =>
        hevery (hdone.returns hzero)
      refine .inr ⟨fun h => hlast (returned_zero_iff.mpr h), fun hrestores => hevery (hdone.replaces ?_)⟩
      rw [inventory_of_not_returned_zero hlast]
      exact restores_iff.mp hrestores
  · rintro (hevery | ⟨hlast, hrestores⟩)
    · exact ⟨fun _ => hevery, fun _ => hevery, fun h => absurd hevery h⟩
    · have hzero : removal.destroyUnreachableReconfigure.ending ≠ .returned 0 := fun h =>
        hlast (returned_zero_iff.mp h)
      refine ⟨fun h => absurd h hzero, fun hchanged => ?_, fun _ => removalLoop_of_not_returned_zero hzero⟩
      rw [inventory_of_not_returned_zero hzero] at hchanged
      exact absurd (restores_iff.mpr hchanged) hrestores

/-- Two nodes of a small inventory; the playbook fails for the first and succeeds for the second. -/
def firstRunFails : Removal where
  ansibleHosts := true
  inventory := some ("[compute_configured]\na ansible_host=1 ansible_user=u\nb ansible_host=2 ansible_user=u\n" ++
    "[compute_to_add]\n[nfs]\n[all:vars]\n").toList
  doNotEdit := none
  nodesToRemove := ["a".toList, "b".toList]
  instances := none
  run := fun i => .ended (if i = 0 then 4 else 0)
  moved := true

/-- The removal is reported done, the inventory is replaced, and both nodes are gone through. -/
theorem first_run_failure_is_forgotten : firstRunFails.nodesToRemove ≠ [] ∧
    firstRunFails.destroyUnreachableReconfigure.ending = .returned 0 ∧
      ¬ firstRunFails.EverySucceeds ∧ firstRunFails.removalLoop false false = firstRunFails.nodesToRemove ∧
        ¬ firstRunFails.DoneOnlyIfAllSucceeded := by
  have hending : firstRunFails.destroyUnreachableReconfigure.ending = .returned 0 := by decide +kernel
  have hevery : ¬ firstRunFails.EverySucceeds := by
    rintro ⟨planned, hplanned, hanswers⟩
    have hall : firstRunFails.planned.map firstRunFails.answers = some [some 1, some 0] := by decide +kernel
    rw [hplanned, Option.map_some, Option.some.injEq] at hall
    rw [hall] at hanswers
    exact absurd (hanswers (some 1) List.mem_cons_self) (by decide)
  refine ⟨by decide, hending, hevery, ?_, fun hdone => hevery (hdone.returns hending)⟩
  unfold removalLoop
  rw [hending]
  rfl

end Removal
end OciHpc.Resize
