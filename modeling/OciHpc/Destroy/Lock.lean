import Mathlib.Data.Fintype.Basic
import OciHpc.Base.Interleave

/-!
# The resize lock and the destroy marker of a cluster directory

`resize.py` holds `.oci-hpc-resize.lock` from `acquire_resize_lock` to its exit and tests
`currently_destroying` once, under the lock. `delete_cluster.sh` holds the same lock only while it tests
and creates the marker; the marker then stands for it until it fails (`rm currently_destroying`) or
succeeds (`rm -rf` of the directory).

* `resizeStep`, `deleteStep` : the atomic steps of the two programs;
* `Inv` : who may hold the lock, and what the marker says about the deleters;
* `exclusive_of_soleFinish` : while no deletion ends over another one's head, no resize runs during a deletion;
* `forced_deletion_drops_marker` : with FORCE the first of two deletions to fail takes the marker away.
-/

namespace OciHpc.Destroy

open Interleave

/-- The cluster directory: whether it is there, its `currently_destroying`, and whether some open file
description holds the lock of its `.oci-hpc-resize.lock`. -/
structure ClusterDir where
  present : Bool
  currentlyDestroying : Bool
  resizeLock : Bool
  deriving DecidableEq, Repr

/-- The atomic steps: the non-blocking `flock`, the test and the creation of the marker, the release of
the lock, the end of a deletion (its last `rm`), and the exit of a resize. -/
inductive Act
  | flock
  | markerTest
  | markerCreate
  | lockRelease
  | finish (success : Bool)
  | exit
  deriving DecidableEq, Repr

/-- Where a `resize.py` run stands; `running` is from its marker check to its exit. -/
inductive ResizePc
  | start | locked | running | exited
  deriving DecidableEq, Repr

/-- Where a `delete_cluster.sh` run stands; `marked` and `destroying` are from the creation of the marker
to the final success or failure. -/
inductive DeletePc
  | start | locked | tested | marked | destroying | ended
  deriving DecidableEq, Repr

inductive Proc
  | resize (pc : ResizePc)
  | delete (force : Bool) (pc : DeletePc)
  deriving DecidableEq, Repr

/-- `acquire_resize_lock`, `ensure_cluster_is_not_being_destroyed`, the run and its exit. -/
def resizeStep (d : ClusterDir) : ResizePc → Act → Option (ClusterDir × ResizePc)
  | .start, .flock =>
      -- `os.open` fails without the directory; a busy lock raises "Another resize operation"
      if d.present && !d.resizeLock then some ({ d with resizeLock := true }, .locked)
      else some (d, .exited)
  | .locked, .markerTest =>
      if d.currentlyDestroying then some ({ d with resizeLock := false }, .exited)
      else some (d, .running)
  | .running, .exit => some ({ d with resizeLock := false }, .exited)
  | _, _ => none

/-- Lines 26 to 41 and 131 to 165 of `delete_cluster.sh`, with `$2 == FORCE` as `force`. -/
def deleteStep (force : Bool) (d : ClusterDir) : DeletePc → Act → Option (ClusterDir × DeletePc)
  | .start, .flock =>
      if d.present && !d.resizeLock then some ({ d with resizeLock := true }, .locked)
      else some (d, .ended)
  | .locked, .markerTest =>
      if d.currentlyDestroying && !force then some ({ d with resizeLock := false }, .ended)
      else some (d, .tested)
  | .tested, .markerCreate =>
      -- the redirection fails when another deletion has removed the directory; the script goes on
      some ({ d with currentlyDestroying := d.currentlyDestroying || d.present }, .marked)
  | .marked, .lockRelease => some ({ d with resizeLock := false }, .destroying)
  | .destroying, .finish true => some ({ d with present := false, currentlyDestroying := false }, .ended)
  | .destroying, .finish false => some ({ d with currentlyDestroying := false }, .ended)
  | _, _ => none

def step (d : ClusterDir) : Proc → Act → Option (ClusterDir × Proc)
  | .resize pc, a => (resizeStep d pc a).map fun r => (r.1, .resize r.2)
  | .delete force pc, a => (deleteStep force d pc a).map fun r => (r.1, .delete force r.2)

def machine : Machine ClusterDir Proc Act := ⟨step⟩

def Proc.holds : Proc → Bool
  | .resize .locked | .resize .running => true
  | .delete _ .locked | .delete _ .tested | .delete _ .marked => true
  | _ => false

/-- A `resize.py` run that holds the lock. -/
def Proc.resizing : Proc → Bool
  | .resize .locked | .resize .running => true
  | _ => false

/-- A `resize.py` run between its marker check and its exit. -/
def Proc.running : Proc → Bool
  | .resize .running => true
  | _ => false

/-- A `delete_cluster.sh` run between creating the marker and its final success or failure. -/
def Proc.deleting : Proc → Bool
  | .delete _ .marked | .delete _ .destroying => true
  | _ => false

def Proc.unstarted : Proc → Bool
  | .resize .start | .delete _ .start => true
  | _ => false

abbrev Cluster (ι : Type) := Config ι ClusterDir Proc

/-- The directory of a live cluster with nothing going on, and runs that have not begun. -/
def idle {ι : Type} (procs : ι → Proc) : Cluster ι := ⟨⟨true, false, false⟩, procs⟩

/-- **Mutual exclusion.** -/
def Exclusive {ι : Type} (c : Cluster ι) : Prop :=
  ∀ i j, ¬ ((c.proc i).running = true ∧ (c.proc j).deleting = true)

/-- A deletion ends, and with it the marker, only when no other deletion is still going on. -/
def SoleFinish {ι : Type} : Machine.Guard ι ClusterDir Proc Act := fun c i a =>
  ∀ ok, a = .finish ok → ∀ j, j ≠ i → (c.proc j).deleting = false

/-! ## What a step does -/

/-- What a step can do to the directory, and where the process then stands. -/
inductive Effect (d : ClusterDir) (p : Proc) (a : Act) : ClusterDir → Proc → Prop
  | refused {p' : Proc} (hh : p'.holds = false) (hd : p'.deleting = false) : Effect d p a d p'
  | taken {p' : Proc} (hr : p'.running = false) (hd : p'.deleting = false) (here : d.present = true)
      (free : d.resizeLock = false) : Effect d p a { d with resizeLock := true } p'
  | released {p' : Proc} (held : p.holds = true) (hh : p'.holds = false) (hr : p'.running = false)
      (hd : p'.deleting = p.deleting) : Effect d p a { d with resizeLock := false } p'
  | cleared (held : p.holds = true) (hz : p.resizing = true) (hm : d.currentlyDestroying = false) :
      Effect d p a d (.resize .running)
  | tested {p' : Proc} (held : p.holds = true) (hz : p'.resizing = false) (hd : p'.deleting = false) :
      Effect d p a d p'
  | created {p' : Proc} (held : p.holds = true) (hz : p.resizing = false) (hz' : p'.resizing = false) :
      Effect d p a { d with currentlyDestroying := d.currentlyDestroying || d.present } p'
  | ended {d' : ClusterDir} {p' : Proc} (ok : Bool) (ha : a = .finish ok) (hh : p'.holds = false)
      (hd : p'.deleting = false) (hl : d'.resizeLock = d.resizeLock) : Effect d p a d' p'

theorem resizeStep_effect {d d' : ClusterDir} {pc pc' : ResizePc} {a : Act}
    (h : resizeStep d pc a = some (d', pc')) : Effect d (.resize pc) a d' (.resize pc') := by
  cases pc <;> cases a <;> simp only [resizeStep, reduceCtorEq] at h
  case start.flock =>
    split at h
    · rename_i hfree
      simp only [Bool.and_eq_true, Bool.not_eq_true'] at hfree
      cases h
      exact .taken rfl rfl hfree.1 hfree.2
    · cases h
      exact .refused rfl rfl
  case locked.markerTest =>
    split at h
    · cases h
      exact .released rfl rfl rfl rfl
    · rename_i hm
      cases h
      exact .cleared rfl rfl (by simpa using hm)
  case running.exit =>
    cases h
    exact .released rfl rfl rfl rfl

theorem deleteStep_effect {force : Bool} {d d' : ClusterDir} {pc pc' : DeletePc} {a : Act}
    (h : deleteStep force d pc a = some (d', pc')) :
    Effect d (.delete force pc) a d' (.delete force pc') := by
  cases pc <;> cases a <;> simp only [deleteStep, reduceCtorEq] at h
  case start.flock =>
    split at h
    · rename_i hfree
      simp only [Bool.and_eq_true, Bool.not_eq_true'] at hfree
      cases h
      exact .taken rfl rfl hfree.1 hfree.2
    · cases h
      exact .refused rfl rfl
  case locked.markerTest =>
    split at h
    · cases h
      exact .released rfl rfl rfl rfl
    · cases h
      exact .tested rfl rfl rfl
  case tested.markerCreate =>
    cases h
    exact .created rfl rfl rfl
  case marked.lockRelease =>
    cases h
    exact .released rfl rfl rfl rfl
  case destroying.finish ok =>
    cases ok <;> cases h <;> exact .ended _ rfl rfl rfl rfl

theorem step_effect {d d' : ClusterDir} {p p' : Proc} {a : Act} (h : step d p a = some (d', p')) :
    Effect d p a d' p' := by
  cases p with
  | resize pc =>
      obtain ⟨⟨d₁, pc₁⟩, h₁, h₂⟩ := Option.map_eq_some_iff.mp h
      cases h₂
      exact resizeStep_effect h₁
  | delete force pc =>
      obtain ⟨⟨d₁, pc₁⟩, h₁, h₂⟩ := Option.map_eq_some_iff.mp h
      cases h₂
      exact deleteStep_effect h₁

theorem Proc.holds_of_resizing {p : Proc} (h : p.resizing = true) : p.holds = true := by
  rcases p with pc | ⟨force, pc⟩ <;> cases pc <;> simp_all [Proc.resizing, Proc.holds]

theorem Proc.resizing_of_running {p : Proc} (h : p.running = true) : p.resizing = true := by
  rcases p with pc | ⟨force, pc⟩ <;> cases pc <;> simp_all [Proc.resizing, Proc.running]

theorem Proc.not_deleting_of_resizing {p : Proc} (h : p.resizing = true) : p.deleting = false := by
  rcases p with pc | ⟨force, pc⟩ <;> cases pc <;> simp_all [Proc.resizing, Proc.deleting]

/-! ## The invariant -/

/-- The lock has one holder; the marker stands for every deletion while the directory is there; a resize
that survives the directory, or has passed its marker check, has no deletion beside it. -/
structure Inv {ι : Type} (c : Cluster ι) : Prop where
  held : ∀ i, (c.proc i).holds = true → c.shared.resizeLock = true
  sole : ∀ i j, (c.proc i).holds = true → (c.proc j).holds = true → i = j
  marked : c.shared.present = true → ∀ i, (c.proc i).deleting = true → c.shared.currentlyDestroying = true
  gone : c.shared.present = false → ∀ i j, (c.proc i).resizing = true → (c.proc j).deleting = false
  excl : ∀ i j, (c.proc i).running = true → (c.proc j).deleting = false

theorem Proc.of_unstarted {p : Proc} (h : p.unstarted = true) :
    p.holds = false ∧ p.deleting = false ∧ p.running = false := by
  rcases p with pc | ⟨force, pc⟩ <;> cases pc <;>
    simp_all [Proc.unstarted, Proc.holds, Proc.deleting, Proc.running]

theorem inv_idle {ι : Type} {procs : ι → Proc} (hstart : ∀ i, (procs i).unstarted = true) :
    Inv (idle procs) := by
  have hu := fun i => Proc.of_unstarted (hstart i)
  constructor <;> intro i <;> simp [idle, hu]

/-- A resize that finds no marker has no deletion beside it, whether the directory is there or not. -/
theorem Inv.alone_of_unmarked {ι : Type} {c : Cluster ι} (hi : Inv c) {i : ι}
    (hz : (c.proc i).resizing = true) (hm : c.shared.currentlyDestroying = false) (j : ι) :
    (c.proc j).deleting = false := by
  cases hp : c.shared.present with
  | false => exact hi.gone hp i j hz
  | true =>
      by_contra hd
      rw [hi.marked hp j (by simpa using hd)] at hm
      cases hm

variable {ι : Type} [DecidableEq ι]

theorem inv_step {c : Cluster ι} {i : ι} {a : Act} {d : ClusterDir} {p : Proc} (hi : Inv c)
    (hg : SoleFinish c i a) (h : step c.shared (c.proc i) a = some (d, p)) :
    Inv ⟨d, Function.update c.proc i p⟩ := by
  have halone := fun hz hm => hi.alone_of_unmarked (i := i) hz hm
  obtain ⟨held, sole, marked, gone, excl⟩ := hi
  have hz := @Proc.holds_of_resizing
  have hr := @Proc.resizing_of_running
  have hn := @Proc.not_deleting_of_resizing
  cases step_effect h with
  | refused hh hd => constructor <;> grind [Function.update_apply]
  | taken hr' hd here free => constructor <;> grind [Function.update_apply]
  | released hp hh hr' hd => constructor <;> grind [Function.update_apply]
  | cleared hp hz' hm =>
      have hnone := halone hz' hm
      constructor <;> grind [Function.update_apply, Proc.deleting]
  | tested hp hz' hd => constructor <;> grind [Function.update_apply]
  | created hp hz' hz'' =>
      -- the new deletion holds the lock, so no resize does
      have hlone : ∀ j, (c.proc j).resizing = true → False := fun j hj => by
        rw [sole j i (hz hj) hp, hz'] at hj
        cases hj
      constructor <;> grind [Function.update_apply]
  | ended ok ha hh hd hl =>
      -- the guard: whatever happens to the marker, no other deletion needs it
      have hrest := hg ok ha
      constructor <;> grind [Function.update_apply]

/-- **While no deletion ends over another one's head, no resize runs during a deletion.** -/
theorem exclusive_of_soleFinish (procs : ι → Proc) (hstart : ∀ i, (procs i).unstarted = true)
    {c : Cluster ι} (h : machine.Reach SoleFinish (idle procs) c) : Exclusive c := by
  have hinv : Inv c := Machine.Reach.invariant Inv (inv_idle hstart)
    (fun c i a s l hi hg hstep => inv_step hi hg hstep) h
  rintro i j ⟨hr, hd⟩
  rw [hinv.excl i j hr] at hd
  cases hd

instance [Fintype ι] (c : Cluster ι) (i : ι) (a : Act) : Decidable (SoleFinish c i a) :=
  inferInstanceAs (Decidable (∀ ok, a = .finish ok → ∀ j, j ≠ i → (c.proc j).deleting = false))

def deletionAndResize : Fin 2 → Proc
  | 0 => .delete false .start
  | 1 => .resize .start

/-- The deletion fails, then the resize runs. -/
theorem exclusive_of_soleFinish_failed_deletion :
    ∃ c, (c.proc 1).running = true ∧ Exclusive (ι := Fin 2) c := by
  obtain ⟨c, hc, hr⟩ := Machine.Reach.exists_of_run (M := machine) (G := SoleFinish)
    (idle deletionAndResize)
    [(0, .flock), (0, .markerTest), (0, .markerCreate), (0, .lockRelease), (0, .finish false),
      (1, .flock), (1, .markerTest)] (fun c => (c.proc 1).running) (by decide)
  exact ⟨c, hr, exclusive_of_soleFinish deletionAndResize (by decide) hc⟩

/-- Two deletions of one cluster, the second with FORCE, and a resize. -/
def forcedDeletionAndResize : Fin 3 → Proc
  | 0 => .delete false .start
  | 1 => .delete true .start
  | 2 => .resize .start

/-- **With FORCE the first of two deletions to fail takes the marker away**, and a resize runs beside the
other one. -/
theorem forced_deletion_drops_marker :
    ¬ ∀ (procs : Fin 3 → Proc), (∀ i, (procs i).unstarted = true) →
      ∀ c, machine.Reach Machine.anyStep (idle procs) c → Exclusive c := by
  intro hclaim
  obtain ⟨c, hc, hbad⟩ := Machine.Reach.exists_of_run (M := machine) (G := Machine.anyStep)
    (idle forcedDeletionAndResize)
    [(0, .flock), (0, .markerTest), (0, .markerCreate), (0, .lockRelease),
      (1, .flock), (1, .markerTest), (1, .markerCreate), (1, .lockRelease),
      (0, .finish false), (2, .flock), (2, .markerTest)]
    (fun c => (c.proc 2).running && (c.proc 1).deleting) (by decide)
  exact hclaim forcedDeletionAndResize (by decide) c hc 2 1 (by simpa using hbad)

end OciHpc.Destroy
