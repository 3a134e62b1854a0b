import OciHpc.Resize.RemovedLines

/-!
# Reconfiguring before reachable nodes are removed

`getreachable` and `destroy_reconfigure` of `resize.py`.

* `getreachable` : the nodes that answer, and the others;
* `moveHost`, `dropInstance` : the edit of the inventory that the playbook is run with;
* `destroyReconfigure` : the function;
* `moveHosts_spec` : the turns of the hosts, where one may raise;
* `destroyReconfigure_edits` : the lines of the nodes are handed to the playbook and taken out, or a node that is still to be
  added stops the function.
-/

namespace OciHpc.Resize

/-! ## Reachable nodes -/

/-- The nodes with the addresses that `find_reachable_hosts.sh` writes, in the order of its lines, and the others. -/
def getreachable {α : Type} [DecidableEq α] (ip : α → Text) (answers : List Text) (instances : List α) : List α × List α :=
  let reachable := answers.flatMap fun answer => instances.filter fun node => ip node = strip answer
  (reachable, instances.filter fun node => node ∉ reachable)

/-! ## Editing the inventory -/

/-- `lines.remove(line)` for each of the lines; `none` is a `ValueError`. -/
def removeEach : List Text → List Text → Option (List Text)
  | [], lines => some lines
  | line :: rest, lines => if line ∈ lines then removeEach rest (lines.erase line) else none

/-- The turn of a host. Lines of `compute_to_add` are removed from `compute_configured`. -/
def moveHost (reachable : List Text) (host : Text) (inventory : Inventory) : Option Inventory := do
  let configured ← inventory.lines? "compute_configured".toList
  let toAdd ← inventory.lines? "compute_to_add".toList
  let nfs ← inventory.lines? "nfs".toList
  let toDestroy ← inventory.lines? "compute_to_destroy".toList
  let computeToRemove := configured.filter (isIn host) ++ toAdd.filter (isIn host)
  let nfsToRemove := if host ∈ reachable then nfs.filter (isIn host) else []
  let configured ← removeEach computeToRemove configured
  let nfs ← removeEach nfsToRemove nfs
  let toDestroy := toDestroy ++ if host ∈ reachable then computeToRemove else []
  let inventory := inventory.set "compute_to_destroy".toList toDestroy
  let inventory := inventory.set "compute_configured".toList configured
  some (inventory.set "nfs".toList nfs)

def moveHosts (reachable : List Text) : List Text → Inventory → Option Inventory
  | [], inventory => some inventory
  | host :: rest, inventory => do
      let inventory ← moveHost reachable host inventory
      moveHosts reachable rest inventory

def dropInstance (name : Text) (inventory : Inventory) : Option Inventory := do
  let configured ← inventory.lines? "compute_configured".toList
  let inventory := inventory.set "compute_configured".toList (removeHostLines name configured).1
  let toAdd ← inventory.lines? "compute_to_add".toList
  some (inventory.set "compute_to_add".toList (removeHostLines name toAdd).1)

def dropInstances : List Text → Inventory → Option Inventory
  | [], inventory => some inventory
  | name :: rest, inventory => do
      let inventory ← dropInstance name inventory
      dropInstances rest inventory

/-! ## The function -/

/-- What the function finds: whether `/etc/ansible/hosts` is a file, the inventory, the copy a failed run left in `/tmp`, what
OCI lists, what `find_reachable_hosts.sh` writes about these and about the named nodes, how the playbook ends, and whether
`sudo mv` works. -/
structure Destruction where
  ansibleHosts : Bool
  inventory : Option Text
  doNotEdit : Option Text
  nodesToRemove : List Text
  removeUnreachable : Bool
  instances : Option (List Node)
  listedAnswers : Option (List Text)
  namedAnswers : Option (List Text)
  run : PlaybookRun
  moved : Bool

namespace Destruction

/-- The named nodes that are reachable, and the instances that are not. A named node stands for its address too. -/
def sorted (destruction : Destruction) (instances : List Node) : Option (List Text × List Node) :=
  if destruction.removeUnreachable then do
    let listed ← destruction.listedAnswers
    let named ← destruction.namedAnswers
    some ((getreachable id named destruction.nodesToRemove).1, (getreachable (·.ip.toList) listed instances).2)
  else some (destruction.nodesToRemove, [])

/-- The inventory the playbook is run with; `none` is an exception. -/
def edited (destruction : Destruction) (text : Text) : Option Inventory := do
  let inventory := (parseInventory text).set "compute_to_destroy".toList []
  let instances ← destruction.instances
  let _ ← computeUsername inventory
  let sorted ← destruction.sorted instances
  let inventory ← moveHosts sorted.1 destruction.nodesToRemove inventory
  dropInstances (sorted.2.map (·.displayName.toList)) inventory

def destroyReconfigure (destruction : Destruction) : Reconfigured :=
  if !destruction.ansibleHosts then ⟨.exited, destruction.inventory⟩
  else
    match backupInventory destruction.inventory destruction.doNotEdit with
    | none => ⟨.raised, destruction.inventory⟩
    | some text =>
        match destruction.edited text with
        | none => ⟨.raised, some text⟩
        | some inventory =>
            match updateCluster (writeInventory inventory) none destruction.run with
            | none => ⟨.raised, some text⟩
            | some updateFlag =>
                if updateFlag = 0 then
                  let inventory := inventory.set "compute_to_destroy".toList []
                  ⟨.returned 0, some (if destruction.moved then writeInventory inventory else text)⟩
                else ⟨.returned updateFlag, some text⟩

end Destruction

/-! ## Lines removed one by one -/

theorem removeEach_append (first second lines : List Text) :
    removeEach (first ++ second) lines = (removeEach first lines).bind (removeEach second) := by
  induction first generalizing lines with
  | nil => rfl
  | cons line rest ih =>
      rw [List.cons_append, removeEach, removeEach]
      split
      · exact ih _
      · rfl

/-- All lines with a property can be removed, and the others are left. -/
theorem removeEach_filter (p : Text → Bool) (lines : List Text) :
    removeEach (lines.filter p) lines = some (lines.filter fun line => !p line) := by
  generalize hremoved : lines.filter p = removed
  induction removed generalizing lines with
  | nil =>
      rw [removeEach, List.filter_eq_self.mpr]
      intro line hline
      rw [Bool.not_eq_true', ← Bool.not_eq_true]
      exact List.filter_eq_nil_iff.mp hremoved line hline
  | cons line rest ih =>
      obtain ⟨hline, hp⟩ := List.mem_filter.mp (hremoved ▸ List.mem_cons_self : line ∈ lines.filter p)
      have hrest : (lines.erase line).filter p = rest := by
        rw [← List.erase_filter, hremoved, List.erase_cons_head]
      have hothers : (lines.erase line).filter (fun other => !p other) = lines.filter fun other => !p other := by
        rw [← List.erase_filter]
        refine List.erase_of_not_mem fun hmem => ?_
        have hnot := (List.mem_filter.mp hmem).2
        rw [hp] at hnot
        cases hnot
      rw [removeEach, if_pos hline, ih _ hrest, hothers]

theorem removeEach_eq_none {line : Text} {rest lines : List Text} (h : line ∉ lines) :
    removeEach (line :: rest) lines = none := by
  rw [removeEach, if_neg h]

/-! ## The turns of the hosts -/

/-- The line is handed to the playbook: the first of the hosts that it contains is reachable. -/
def goesToDestroy (reachable hosts : List Text) (line : Text) : Bool :=
  match hosts.find? fun host => isIn host line with
  | none => false
  | some host => host ∈ reachable

theorem goesToDestroy_cons (reachable rest : List Text) (host line : Text) :
    goesToDestroy reachable (host :: rest) line =
      if isIn host line then decide (host ∈ reachable) else goesToDestroy reachable rest line := by
  unfold goesToDestroy
  rw [List.find?_cons]
  cases isIn host line <;> rfl

structure MovedOut (reachable hosts : List Text) (before after : Inventory) : Prop where
  configured : after.lines? "compute_configured".toList =
    (before.lines? "compute_configured".toList).map fun lines => lines.filter fun line => !containsOne hosts line
  nfs : after.lines? "nfs".toList = (before.lines? "nfs".toList).map fun lines =>
    lines.filter fun line => !containsOne (hosts.filter (· ∈ reachable)) line
  toDestroy : ∀ configured, before.lines? "compute_configured".toList = some configured →
    ∃ destroyed moved, before.lines? "compute_to_destroy".toList = some destroyed ∧
      after.lines? "compute_to_destroy".toList = some (destroyed ++ moved) ∧
        moved.Perm (configured.filter (goesToDestroy reachable hosts))
  others : ∀ name, name ∉ ["compute_configured".toList, "nfs".toList, "compute_to_destroy".toList] →
    after.lines? name = before.lines? name
  wellFormed : before.WellFormed → after.WellFormed

structure HasSections (inventory : Inventory) : Prop where
  configured : (inventory.lines? "compute_configured".toList).isSome
  toAdd : (inventory.lines? "compute_to_add".toList).isSome
  nfs : (inventory.lines? "nfs".toList).isSome
  toDestroy : (inventory.lines? "compute_to_destroy".toList).isSome

section
variable {reachable rest : List Text} {host : Text} {inventory before after last : Inventory}

theorem containsOne_singleton (host line : Text) : containsOne [host] line = isIn host line := Bool.or_false _

/-- A node that is still to be added cannot be removed. -/
theorem moveHost_eq_none (h : HasSections inventory) {toAdd : List Text}
    (htoAdd : inventory.lines? "compute_to_add".toList = some toAdd) {line : Text} (hline : line ∈ toAdd)
    (hin : isIn host line = true) : moveHost reachable host inventory = none := by
  obtain ⟨configured, hconfigured⟩ := Option.isSome_iff_exists.mp h.configured
  obtain ⟨nfs, hnfs⟩ := Option.isSome_iff_exists.mp h.nfs
  obtain ⟨toDestroy, htoDestroy⟩ := Option.isSome_iff_exists.mp h.toDestroy
  have hmem : line ∈ toAdd.filter (isIn host) := List.mem_filter.mpr ⟨hline, hin⟩
  have hraises : removeEach (configured.filter (isIn host) ++ toAdd.filter (isIn host)) configured = none := by
    rw [removeEach_append, removeEach_filter, Option.bind_some]
    cases hadd : toAdd.filter (isIn host) with
    | nil =>
        rw [hadd] at hmem
        cases hmem
    | cons first more =>
        have hfirst : isIn host first = true := (List.mem_filter.mp (hadd ▸ List.mem_cons_self : first ∈ toAdd.filter _)).2
        refine removeEach_eq_none fun hkept => ?_
        have hnot := (List.mem_filter.mp hkept).2
        rw [hfirst] at hnot
        cases hnot
  simp only [moveHost, hconfigured, htoAdd, hnfs, htoDestroy, hraises, bind, Option.bind]

theorem moveHost_spec (h : HasSections inventory) (hclear : ∀ toAdd, inventory.lines? "compute_to_add".toList = some toAdd →
      ∀ line ∈ toAdd, isIn host line = false) :
    ∃ after, moveHost reachable host inventory = some after ∧ MovedOut reachable [host] inventory after := by
  obtain ⟨configured, hconfigured⟩ := Option.isSome_iff_exists.mp h.configured
  obtain ⟨toAdd, htoAdd⟩ := Option.isSome_iff_exists.mp h.toAdd
  obtain ⟨nfs, hnfs⟩ := Option.isSome_iff_exists.mp h.nfs
  obtain ⟨toDestroy, htoDestroy⟩ := Option.isSome_iff_exists.mp h.toDestroy
  have hnone : toAdd.filter (isIn host) = [] := by
    refine List.filter_eq_nil_iff.mpr fun line hline => ?_
    rw [hclear toAdd htoAdd line hline]
    exact Bool.false_ne_true
  have hkept := removeEach_filter (isIn host) configured
  have hkeptNfs : removeEach (if host ∈ reachable then nfs.filter (isIn host) else []) nfs =
      some (if host ∈ reachable then nfs.filter (fun line => !isIn host line) else nfs) := by
    split
    · exact removeEach_filter (isIn host) nfs
    · rfl
  refine ⟨((inventory.set "compute_to_destroy".toList
      (toDestroy ++ if host ∈ reachable then configured.filter (isIn host) else [])).set "compute_configured".toList
        (configured.filter fun line => !isIn host line)).set "nfs".toList
          (if host ∈ reachable then nfs.filter (fun line => !isIn host line) else nfs), ?_, ?_⟩
  · simp only [moveHost, hconfigured, htoAdd, hnfs, htoDestroy, hnone, List.append_nil, hkept, hkeptNfs, bind, Option.bind]
  · refine ⟨?_, ?_, fun lines hlines => ?_, fun name hname => ?_, fun hwell => ?_⟩
    · rw [Inventory.lines?_set_of_ne (by decide), Inventory.lines?_set_self, hconfigured, Option.map_some]
      simp only [containsOne_singleton]
    · rw [Inventory.lines?_set_self, hnfs, Option.map_some]
      by_cases hreachable : host ∈ reachable
      · simp [hreachable, containsOne]
      · simp [hreachable, containsOne]
    · obtain rfl := Option.some.inj (hconfigured.symm.trans hlines)
      refine ⟨toDestroy, if host ∈ reachable then configured.filter (isIn host) else [], htoDestroy, ?_, ?_⟩
      · rw [Inventory.lines?_set_of_ne (by decide), Inventory.lines?_set_of_ne (by decide), Inventory.lines?_set_self]
      · have hgoes : ∀ line, goesToDestroy reachable [host] line = (isIn host line && decide (host ∈ reachable)) := by
          intro line
          rw [goesToDestroy_cons]
          cases isIn host line <;> rfl
        rw [List.filter_congr fun line _ => hgoes line]
        by_cases hreachable : host ∈ reachable
        · simp [hreachable]
        · simp [hreachable]
    · have hne : name ≠ "compute_configured".toList ∧ name ≠ "nfs".toList ∧ name ≠ "compute_to_destroy".toList := by
        simpa using hname
      rw [Inventory.lines?_set_of_ne hne.2.1, Inventory.lines?_set_of_ne hne.1, Inventory.lines?_set_of_ne hne.2.2]
    · have hlines := fun {name lines} (h : inventory.lines? name = some lines) => hwell.lines _ (Inventory.mem_of_lines? h)
      refine ((hwell.set Removal.isName_compute_to_destroy fun line hline => ?_).set
        (hwell.names _ (Inventory.mem_of_lines? hconfigured)) fun line hline => ?_).set
          (hwell.names _ (Inventory.mem_of_lines? hnfs)) fun line hline => ?_
      · rcases List.mem_append.mp hline with hline | hline
        · exact hlines htoDestroy line hline
        · split at hline
          · exact hlines hconfigured line (List.mem_of_mem_filter hline)
          · cases hline
      · exact hlines hconfigured line (List.mem_of_mem_filter hline)
      · split at hline
        · exact hlines hnfs line (List.mem_of_mem_filter hline)
        · exact hlines hnfs line hline

theorem MovedOut.hasSections {hosts : List Text} (h : MovedOut reachable hosts before after) (hbefore : HasSections before) :
    HasSections after := by
  obtain ⟨configured, hconfigured⟩ := Option.isSome_iff_exists.mp hbefore.configured
  obtain ⟨destroyed, moved, -, htoDestroy, -⟩ := h.toDestroy configured hconfigured
  refine ⟨?_, ?_, ?_, ?_⟩
  · rw [h.configured, Option.isSome_map]
    exact hbefore.configured
  · rw [h.others _ (by decide)]
    exact hbefore.toAdd
  · rw [h.nfs, Option.isSome_map]
    exact hbefore.nfs
  · rw [htoDestroy]
    rfl

theorem MovedOut.cons (hfirst : MovedOut reachable [host] before after) (hrest : MovedOut reachable rest after last) :
    MovedOut reachable (host :: rest) before last := by
  refine ⟨?_, ?_, fun configured hconfigured => ?_, fun name hname => ?_, fun h => hrest.wellFormed (hfirst.wellFormed h)⟩
  · rw [hrest.configured, hfirst.configured, Option.map_map]
    refine congrArg (fun f => Option.map f _) (funext fun lines => ?_)
    simp only [Function.comp_apply, containsOne_singleton]
    exact filter_containsOne host rest lines
  · rw [hrest.nfs, hfirst.nfs, Option.map_map]
    refine congrArg (fun f => Option.map f _) (funext fun lines => ?_)
    rw [Function.comp_apply]
    by_cases hreachable : host ∈ reachable
    · rw [List.filter_cons_of_pos (by simpa using hreachable), List.filter_cons_of_pos (by simpa using hreachable),
        List.filter_nil]
      simp only [containsOne_singleton]
      exact filter_containsOne host _ lines
    · rw [List.filter_cons_of_neg (by simpa using hreachable), List.filter_cons_of_neg (by simpa using hreachable),
        List.filter_nil]
      have hall : lines.filter (fun line => !containsOne [] line) = lines := List.filter_eq_self.mpr fun _ _ => rfl
      rw [hall]
  · obtain ⟨destroyed, moved, hdestroyed, hmoved, hperm⟩ := hfirst.toDestroy configured hconfigured
    have hafter := hfirst.configured
    rw [hconfigured, Option.map_some] at hafter
    obtain ⟨destroyed', moved', hdestroyed', hmoved', hperm'⟩ := hrest.toDestroy _ hafter
    obtain rfl := Option.some.inj (hmoved.symm.trans hdestroyed')
    refine ⟨destroyed, moved ++ moved', hdestroyed, by rw [hmoved', List.append_assoc], ?_⟩
    refine (hperm.append hperm').trans ?_
    refine List.Perm.trans ?_ (List.filter_append_perm (isIn host) (configured.filter (goesToDestroy reachable (host :: rest))))
    rw [List.filter_filter, List.filter_filter, List.filter_filter]
    refine List.Perm.of_eq ?_
    congr 1
    · refine List.filter_congr fun line _ => ?_
      rw [goesToDestroy_cons, goesToDestroy_cons]
      cases isIn host line <;> simp [goesToDestroy]
    · refine List.filter_congr fun line _ => ?_
      rw [goesToDestroy_cons, containsOne_singleton]
      cases isIn host line <;> simp
  · rw [hrest.others name hname, hfirst.others name hname]

end

/-- **The turns raise exactly when one of the hosts is in a line that is still to be added**; else they leave the other
lines. -/
theorem moveHosts_spec {reachable hosts : List Text} {inventory : Inventory} (h : HasSections inventory) {toAdd : List Text}
    (htoAdd : inventory.lines? "compute_to_add".toList = some toAdd) :
    (moveHosts reachable hosts inventory = none ∧ ∃ line ∈ toAdd, containsOne hosts line = true) ∨
      ∃ after, moveHosts reachable hosts inventory = some after ∧ MovedOut reachable hosts inventory after ∧
        ∀ line ∈ toAdd, containsOne hosts line = false := by
  induction hosts generalizing inventory with
  | nil =>
      refine .inr ⟨inventory, rfl, ⟨?_, ?_, fun configured hconfigured => ?_, fun _ _ => rfl, id⟩, fun _ _ => rfl⟩
      · simp [containsOne]
      · simp [containsOne]
      · obtain ⟨destroyed, hdestroyed⟩ := Option.isSome_iff_exists.mp h.toDestroy
        refine ⟨destroyed, [], hdestroyed, by rw [hdestroyed, List.append_nil], ?_⟩
        rw [List.filter_eq_nil_iff.mpr fun line _ => by simp [goesToDestroy]]
  | cons host rest ih =>
      by_cases hclear : ∀ line ∈ toAdd, isIn host line = false
      · obtain ⟨first, hfirst, hmoved⟩ := @moveHost_spec reachable host inventory h fun lines hlines => by
          obtain rfl := Option.some.inj (htoAdd.symm.trans hlines)
          exact hclear
        have hstep : moveHosts reachable (host :: rest) inventory = moveHosts reachable rest first := by
          rw [moveHosts, hfirst]
          rfl
        have htoAdd' : first.lines? "compute_to_add".toList = some toAdd := (hmoved.others _ (by decide)).trans htoAdd
        rw [hstep]
        have hcontains : ∀ line ∈ toAdd, containsOne (host :: rest) line = containsOne rest line := fun line hline => by
          show (isIn host line || containsOne rest line) = containsOne rest line
          rw [hclear line hline, Bool.false_or]
        obtain ⟨hnone, line, hline, hin⟩ | ⟨after, hafter, hall, hout⟩ := ih (hmoved.hasSections h) htoAdd'
        · exact .inl ⟨hnone, line, hline, (hcontains line hline).trans hin⟩
        · exact .inr ⟨after, hafter, hmoved.cons hall, fun line hline => (hcontains line hline).trans (hout line hline)⟩
      · push Not at hclear
        obtain ⟨line, hline, hin⟩ := hclear
        rw [ne_eq, Bool.not_eq_false] at hin
        refine .inl ⟨?_, line, hline, ?_⟩
        · rw [moveHosts, moveHost_eq_none h htoAdd hline hin]
          rfl
        · show (isIn host line || containsOne rest line) = true
          rw [hin, Bool.true_or]

/-! ## Unreachable instances -/

structure Thinned (before after : Inventory) : Prop where
  configured : ∀ lines, before.lines? "compute_configured".toList = some lines →
    ∃ kept, after.lines? "compute_configured".toList = some kept ∧ kept.Sublist lines
  toAdd : ∀ lines, before.lines? "compute_to_add".toList = some lines →
    ∃ kept, after.lines? "compute_to_add".toList = some kept ∧ kept.Sublist lines
  others : ∀ name, name ∉ ["compute_configured".toList, "compute_to_add".toList] → after.lines? name = before.lines? name
  wellFormed : before.WellFormed → after.WellFormed

theorem removeLines_sublist (host : Text) (fuel i : Nat) (lines : List Text) :
    (removeLines host fuel i lines).1.Sublist lines := by
  induction fuel generalizing i lines with
  | zero => exact List.Sublist.refl _
  | succ fuel ih =>
      rw [removeLines]
      split
      · exact List.Sublist.refl _
      · split
        · exact (ih _ _).trans List.erase_sublist
        · exact ih _ _

theorem removeHostLines_sublist (host : Text) (lines : List Text) : (removeHostLines host lines).1.Sublist lines :=
  removeLines_sublist host _ _ lines

theorem dropInstance_spec {name : Text} {inventory after : Inventory} (h : dropInstance name inventory = some after) :
    Thinned inventory after := by
  obtain ⟨configured, hconfigured, h⟩ := Option.bind_eq_some_iff.mp h
  obtain ⟨toAdd, htoAdd, h⟩ := Option.bind_eq_some_iff.mp h
  obtain rfl := Option.some.inj h
  rw [Inventory.lines?_set_of_ne (by decide)] at htoAdd
  refine ⟨fun lines hlines => ?_, fun lines hlines => ?_, fun name hname => ?_, fun hwell => ?_⟩
  · obtain rfl := Option.some.inj (hconfigured.symm.trans hlines)
    refine ⟨_, ?_, removeHostLines_sublist name configured⟩
    rw [Inventory.lines?_set_of_ne (by decide), Inventory.lines?_set_self]
  · obtain rfl := Option.some.inj (htoAdd.symm.trans hlines)
    exact ⟨_, Inventory.lines?_set_self, removeHostLines_sublist name toAdd⟩
  · have hne : name ≠ "compute_configured".toList ∧ name ≠ "compute_to_add".toList := by simpa using hname
    rw [Inventory.lines?_set_of_ne hne.2, Inventory.lines?_set_of_ne hne.1]
  · refine (hwell.set (hwell.names _ (Inventory.mem_of_lines? hconfigured)) fun line hline => ?_).set
      (hwell.names _ (Inventory.mem_of_lines? htoAdd)) fun line hline => ?_
    · exact hwell.lines _ (Inventory.mem_of_lines? hconfigured) line ((removeHostLines_sublist name configured).subset hline)
    · exact hwell.lines _ (Inventory.mem_of_lines? htoAdd) line ((removeHostLines_sublist name toAdd).subset hline)

theorem Thinned.trans {a b c : Inventory} (h : Thinned a b) (h' : Thinned b c) : Thinned a c := by
  refine ⟨fun lines hlines => ?_, fun lines hlines => ?_, fun name hname => (h'.others name hname).trans (h.others name hname),
    fun hwell => h'.wellFormed (h.wellFormed hwell)⟩
  · obtain ⟨kept, hkept, hsub⟩ := h.configured lines hlines
    obtain ⟨kept', hkept', hsub'⟩ := h'.configured kept hkept
    exact ⟨kept', hkept', hsub'.trans hsub⟩
  · obtain ⟨kept, hkept, hsub⟩ := h.toAdd lines hlines
    obtain ⟨kept', hkept', hsub'⟩ := h'.toAdd kept hkept
    exact ⟨kept', hkept', hsub'.trans hsub⟩

theorem dropInstances_spec {names : List Text} {inventory after : Inventory} (h : dropInstances names inventory = some after) :
    Thinned inventory after := by
  induction names generalizing inventory with
  | nil =>
      obtain rfl := Option.some.inj h
      exact ⟨fun lines hlines => ⟨lines, hlines, List.Sublist.refl _⟩, fun lines hlines => ⟨lines, hlines, List.Sublist.refl _⟩,
        fun _ _ => rfl, id⟩
  | cons name rest ih =>
      obtain ⟨first, hfirst, h⟩ := Option.bind_eq_some_iff.mp h
      exact (dropInstance_spec hfirst).trans (ih h)

/-! ## What the function leaves -/

/-- The inventory without the lines of the nodes, which are to be destroyed. -/
structure TakesOut (hosts : List Text) (before after : Inventory) : Prop where
  configured : after.lines? "compute_configured".toList =
    (before.lines? "compute_configured".toList).map fun lines => lines.filter fun line => !containsOne hosts line
  nfs : after.lines? "nfs".toList =
    (before.lines? "nfs".toList).map fun lines => lines.filter fun line => !containsOne hosts line
  toDestroy : ∀ configured, before.lines? "compute_configured".toList = some configured → ∃ destroyed,
    after.lines? "compute_to_destroy".toList = some destroyed ∧ destroyed.Perm (configured.filter (containsOne hosts))
  others : ∀ name, name ∉ ["compute_configured".toList, "nfs".toList, "compute_to_destroy".toList] →
    after.lines? name = before.lines? name

namespace Destruction

/-- What is found lets the function begin: the sections are there, and OCI lists the instances. -/
structure Begins (destruction : Destruction) (text : Text) : Prop where
  ansibleHosts : destruction.ansibleHosts = true
  backup : backupInventory destruction.inventory destruction.doNotEdit = some text
  terminated : Terminated text
  instances : destruction.instances.isSome
  username : (computeUsername (parseInventory text)).isSome
  configured : ((parseInventory text).lines? "compute_configured".toList).isSome
  nfs : ((parseInventory text).lines? "nfs".toList).isSome

theorem goesToDestroy_self (hosts : List Text) (line : Text) : goesToDestroy hosts hosts line = containsOne hosts line := by
  unfold goesToDestroy containsOne
  cases hfind : hosts.find? fun host => isIn host line with
  | none =>
      refine (List.any_eq_false.mpr fun host hhost => ?_).symm
      exact List.find?_eq_none.mp hfind host hhost
  | some host =>
      have hin := List.find?_some hfind
      have hmem := List.mem_of_find?_eq_some hfind
      exact (decide_eq_true hmem).trans (List.any_eq_true.mpr ⟨host, hmem, hin⟩).symm

variable {destruction : Destruction} {text : Text}

theorem Begins.hasSections (h : destruction.Begins text) {toAdd : List Text}
    (htoAdd : (parseInventory text).lines? "compute_to_add".toList = some toAdd) :
    HasSections ((parseInventory text).set "compute_to_destroy".toList []) := by
  refine ⟨?_, ?_, ?_, ?_⟩
  · rw [Inventory.lines?_set_of_ne (by decide)]
    exact h.configured
  · rw [Inventory.lines?_set_of_ne (by decide), htoAdd]
    rfl
  · rw [Inventory.lines?_set_of_ne (by decide)]
    exact h.nfs
  · rw [Inventory.lines?_set_self]
    rfl

theorem computeUsername_set {inventory : Inventory} {name : Text} (h : name ≠ "all:vars".toList) (lines : List Text) :
    computeUsername (inventory.set name lines) = computeUsername inventory := by
  unfold computeUsername
  rw [Inventory.lines?_set_of_ne h.symm]

theorem computeUsername_congr {inventory other : Inventory}
    (h : other.lines? "all:vars".toList = inventory.lines? "all:vars".toList) :
    computeUsername other = computeUsername inventory := by
  unfold computeUsername
  rw [h]

/-- The edit of the inventory, where all nodes are taken to be reachable. -/
theorem edited_eq (h : destruction.Begins text) (hreachable : destruction.removeUnreachable = false) :
    destruction.edited text = moveHosts destruction.nodesToRemove destruction.nodesToRemove
      ((parseInventory text).set "compute_to_destroy".toList []) := by
  obtain ⟨listed, hlisted⟩ := Option.isSome_iff_exists.mp h.instances
  obtain ⟨username, husername⟩ := Option.isSome_iff_exists.mp h.username
  have hsorted : destruction.sorted listed = some (destruction.nodesToRemove, []) := by
    unfold sorted
    rw [hreachable, if_neg Bool.false_ne_true]
  unfold edited
  simp only [hlisted, computeUsername_set (show "compute_to_destroy".toList ≠ "all:vars".toList by decide), husername, hsorted,
    bind, Option.bind, List.map_nil]
  cases moveHosts destruction.nodesToRemove destruction.nodesToRemove
    ((parseInventory text).set "compute_to_destroy".toList []) <;> rfl

/-- **What the function does where it begins and takes every node for reachable.** Where one of the nodes is in a line that is
still to be added, it raises before the playbook is run. Else the playbook is run with the lines of the nodes in
`compute_to_destroy` and nowhere else, and where it succeeds that inventory, without them, is installed. -/
theorem destroyReconfigure_edits (h : destruction.Begins text) (hreachable : destruction.removeUnreachable = false)
    {toAdd : List Text} (htoAdd : (parseInventory text).lines? "compute_to_add".toList = some toAdd) :
    ((∃ line ∈ toAdd, containsOne destruction.nodesToRemove line = true) ∧
        destruction.destroyReconfigure = ⟨.raised, some text⟩) ∨
      (∀ line ∈ toAdd, containsOne destruction.nodesToRemove line = false) ∧ ∃ during,
        destruction.edited text = some during ∧ TakesOut destruction.nodesToRemove (parseInventory text) during ∧
          ((∃ rc, rc ≠ 0 ∧ destruction.run = .ended rc ∧ destruction.destroyReconfigure = ⟨.returned 1, some text⟩) ∨
            (destruction.run = .raised ∧ destruction.destroyReconfigure = ⟨.raised, some text⟩) ∨
            destruction.run = .ended 0 ∧ destruction.destroyReconfigure.ending = .returned 0 ∧
              ∃ installed, destruction.destroyReconfigure.inventory = some installed ∧
                (destruction.moved = false → installed = text) ∧
                (destruction.moved = true → parseInventory installed = during.set "compute_to_destroy".toList [])) := by
  have hne : "compute_to_add".toList ≠ "compute_to_destroy".toList := by decide
  have hspec := @moveHosts_spec destruction.nodesToRemove destruction.nodesToRemove _ (h.hasSections htoAdd) toAdd
    ((Inventory.lines?_set_of_ne hne).trans htoAdd)
  rw [← edited_eq h hreachable] at hspec
  obtain ⟨hnone, hin⟩ | ⟨during, hduring, hmoved, hout⟩ := hspec
  · refine .inl ⟨hin, ?_⟩
    unfold destroyReconfigure
    rw [h.ansibleHosts, h.backup]
    dsimp only
    rw [hnone]
    rfl
  · refine .inr ⟨hout, during, hduring, ?_, ?_⟩
    · have hself : destruction.nodesToRemove.filter (· ∈ destruction.nodesToRemove) = destruction.nodesToRemove :=
        List.filter_eq_self.mpr fun host hhost => decide_eq_true hhost
      refine ⟨?_, ?_, fun configured hconfigured => ?_, fun name hname => ?_⟩
      · rw [hmoved.configured, Inventory.lines?_set_of_ne (by decide)]
      · rw [hmoved.nfs, hself, Inventory.lines?_set_of_ne (by decide)]
      · obtain ⟨destroyed, moved, hdestroyed, hall, hperm⟩ :=
          hmoved.toDestroy configured ((Inventory.lines?_set_of_ne (by decide)).trans hconfigured)
        rw [Inventory.lines?_set_self] at hdestroyed
        obtain rfl := Option.some.inj hdestroyed
        exact ⟨moved, hall, hperm.trans (List.Perm.of_eq (List.filter_congr fun line _ => goesToDestroy_self _ line))⟩
      · rw [hmoved.others name hname, Inventory.lines?_set_of_ne]
        rintro rfl
        exact hname (by decide)
    · have hnone : ∀ line ∈ ([] : List Text), IsLine line ∧ isHeader line = false := fun line hline =>
        absurd hline List.not_mem_nil
      have hwell : during.WellFormed := hmoved.wellFormed
        ((wellFormed_parseInventory h.terminated).set Removal.isName_compute_to_destroy hnone)
      obtain ⟨username, husername⟩ := Option.isSome_iff_exists.mp h.username
      have hname : computeUsername (parseInventory (writeInventory during)) = some username := by
        rw [parse_write hwell, computeUsername_congr (hmoved.others _ (by decide)), computeUsername_set (by decide), husername]
      have hended : ∀ rc, destruction.run = .ended rc →
          updateCluster (writeInventory during) none destruction.run = some (if rc = 0 then 0 else 1) := by
        intro rc hrun
        unfold updateCluster
        rw [hname, hrun]
        rfl
      have hraised : destruction.run = .raised → updateCluster (writeInventory during) none destruction.run = none := by
        intro hrun
        unfold updateCluster
        rw [hname, hrun]
        rfl
      unfold destroyReconfigure
      rw [h.ansibleHosts, h.backup]
      dsimp only
      rw [hduring]
      dsimp only
      obtain hrun | ⟨rc, hrun⟩ : destruction.run = .raised ∨ ∃ rc, destruction.run = .ended rc := by
        cases destruction.run with
        | raised => exact .inl rfl
        | ended rc => exact .inr ⟨rc, rfl⟩
      · rw [hraised hrun]
        exact .inr (.inl ⟨hrun, rfl⟩)
      · rw [hended rc hrun]
        by_cases hzero : rc = 0
        · subst hzero
          refine .inr (.inr ⟨hrun, rfl, _, rfl, fun hmoved => ?_, fun hmoved => ?_⟩)
          · rw [hmoved]
            rfl
          · rw [hmoved]
            exact parse_write (hwell.set Removal.isName_compute_to_destroy hnone)
        · refine .inl ⟨rc, hzero, hrun, ?_⟩
          rw [if_neg hzero]
          rfl

def oneOfTwo : Destruction where
  ansibleHosts := true
  inventory := some Removal.twoLines
  doNotEdit := none
  nodesToRemove := ["inst-10".toList]
  removeUnreachable := false
  instances := some []
  listedAnswers := none
  namedAnswers := none
  run := .ended 0
  moved := true

theorem begins_oneOfTwo : oneOfTwo.Begins Removal.twoLines := by
  obtain ⟨hlast, husername, hconfigured, hnfs⟩ : (universalNewlines Removal.twoLines).getLast? = some '\n' ∧
      (computeUsername (parseInventory Removal.twoLines)).isSome = true ∧
      ((parseInventory Removal.twoLines).lines? "compute_configured".toList).isSome = true ∧
      ((parseInventory Removal.twoLines).lines? "nfs".toList).isSome = true := by decide +kernel
  exact ⟨rfl, rfl, fun c hc => Option.some.inj (hc.symm.trans hlast), rfl, husername, hconfigured, hnfs⟩

/-- The node is handed to the playbook and taken out. -/
theorem edits_oneOfTwo : ∃ during installed, TakesOut ["inst-10".toList] (parseInventory Removal.twoLines) during ∧
    oneOfTwo.destroyReconfigure.inventory = some installed ∧
      parseInventory installed = during.set "compute_to_destroy".toList [] := by
  have htoAdd : (parseInventory Removal.twoLines).lines? "compute_to_add".toList = some [] := by decide +kernel
  obtain ⟨⟨line, hline, -⟩, -⟩ | ⟨-, during, -, htakes, hruns⟩ :=
    destroyReconfigure_edits begins_oneOfTwo rfl htoAdd
  · cases hline
  · obtain ⟨rc, hrc, hrun, -⟩ | ⟨hrun, -⟩ | ⟨-, -, installed, hinstalled, -, hparsed⟩ := hruns
    · cases hrun
      exact absurd rfl hrc
    · cases hrun
    · exact ⟨during, installed, htakes, hinstalled, hparsed rfl⟩

end Destruction

end OciHpc.Resize
