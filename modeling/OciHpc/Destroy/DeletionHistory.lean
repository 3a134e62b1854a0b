import OciHpc.Base.Rely
import OciHpc.Destroy.DeleteCluster

/-!
# Histories of deletions

Any number of runs of `delete_cluster.sh` on one cluster, with `FORCE` and without, side by side, each of which may be
killed anywhere.

* `Kept`, `Onward` : what every run keeps, and what it lets the others do;
* `deletions_are_safe` : the directory goes last, and a cleanup that succeeds leaves to Terraform all that is left;
* `Stranded` : an instance that no run reaches any more;
* `removable_iff` : when a deletion can still be finished after Terraform has removed the inventory.
-/

namespace OciHpc.Deletion
open Prog Resize Interleave Locked

/-! ## Steps -/

section
variable {ended : Prop} {before after : Option String}

theorem LifeGoesOn.refl (before : Option String) : LifeGoesOn ended before before := by
  cases before with
  | none => rfl
  | some state => exact ⟨⟨id, .inl⟩, .inr⟩

theorem LifeGoesOn.left (h : LifeGoesOn ended before after) (hleft : ∃ state, after = some state ∧ state ≠ "TERMINATED") :
    ∃ state, before = some state ∧ state ≠ "TERMINATED" := by
  obtain ⟨state, rfl, hstate⟩ := hleft
  cases before with
  | none => cases h
  | some earlier => exact ⟨earlier, rfl, fun hearlier => hstate (h.1.1 hearlier)⟩

theorem LifeGoesOn.running (h : LifeGoesOn ended before after) (hended : ¬ ended)
    (hrunning : ∃ state, before = some state ∧ ¬ IsEnding state) : ∃ state, after = some state ∧ ¬ IsEnding state := by
  obtain ⟨state, rfl, hstate⟩ := hrunning
  cases after with
  | none => exact absurd h (not_or.mpr ⟨hended, hstate⟩)
  | some later => exact ⟨later, rfl, fun hlater => (not_or.mpr ⟨hended, hstate⟩) (h.2 hlater)⟩

end

variable {site : Site} {w w' w'' : World}

theorem World.Running.left {id : String} (h : w.Running id) : w.Left id := by
  obtain ⟨state, hstate, hrunning⟩ := h
  exact ⟨state, hstate, fun hterminated => hrunning (.inr hterminated)⟩

theorem World.tracked_congr (h : w'.state = w.state) (kind : TrackedKind) (key : String) :
    w'.Tracked kind key ↔ w.Tracked kind key := by
  rw [World.Tracked, World.Tracked, h]

/-- The directory is there as before, the compute cluster too, and the state tracks the same. -/
structure SamePlace (w w' : World) : Prop where
  present : w'.present = w.present
  inventory : w'.inventory = w.inventory
  hasCluster : w'.hasCluster = w.hasCluster
  tracked : ∀ kind key, w'.Tracked kind key ↔ w.Tracked kind key

theorem changes_cases {o : DeleteCall} {r : Except CallError o.Ans} (h : Changes site w w' o r) :
    (∃ status, o = .terraformDestroy ∧ Destroys site w status w') ∨
    (o = .removeDirectory ∧ w'.present = false) ∨
    SamePlace w w' ∧ (w'.cleaned = w.cleaned ∨ o = .exitCleanup 0) := by
  have hsame : w' = { w with instances := w'.instances } → SamePlace w w' ∧ (w'.cleaned = w.cleaned ∨ o = .exitCleanup 0) := by
    intro h
    rw [h]
    exact ⟨⟨rfl, rfl, rfl, World.tracked_congr rfl⟩, .inl rfl⟩
  cases o with
  | enter force =>
      cases r with
      | error e => exact .inr (.inr (hsame h))
      | ok entered =>
          cases entered with
          | false => exact .inr (.inr (hsame h))
          | true =>
              rw [h.2.2]
              exact .inr (.inr ⟨⟨rfl, rfl, rfl, World.tracked_congr rfl⟩, .inl rfl⟩)
  | exitCleanup status =>
      have h' : w' = { w with cleaned := w.cleaned || status == 0, instances := w'.instances } := h
      refine .inr (.inr ⟨?_, ?_⟩)
      · rw [h']
        exact ⟨rfl, rfl, rfl, World.tracked_congr rfl⟩
      · by_cases hstatus : status = 0
        · exact .inr (by rw [hstatus])
        · rw [h']
          exact .inl (by simp [hstatus])
  | terraformDestroy =>
      cases r with
      | error e => exact .inr (.inr (hsame h))
      | ok status => exact .inl ⟨status, rfl, h⟩
  | pushSize =>
      obtain ⟨h, htracked⟩ := h
      refine .inr (.inr ⟨⟨?_, ?_, ?_, htracked⟩, .inl ?_⟩)
      all_goals rw [h]
  | removeDirectory =>
      have h' : w' =
          { w with present := false, marker := false, inventory := false, state := .missing, instances := w'.instances } := h
      rw [h']
      exact .inr (.inl ⟨rfl, rfl⟩)
  | removeMarker =>
      have h' : w' = { w with marker := false, instances := w'.instances } := h
      rw [h']
      exact .inr (.inr ⟨⟨rfl, rfl, rfl, World.tracked_congr rfl⟩, .inl rfl⟩)
  | isInventory | cleanup | startCleanup | readState | resize | invalidIndex | topologyNodes | removeUnreachable =>
      exact .inr (.inr (hsame h))

/-! ## What every run keeps -/

/-- What is left is held, and tracked where a cleanup has succeeded. -/
structure Kept (site : Site) (w : World) : Prop where
  held : w.Held site
  cleaned : w.cleaned = true → w.AllTracked

structure Onward (site : Site) (w w' : World) : Prop where
  left : ∀ id, w'.Left id → w.Left id
  tracked : ∀ id, w'.Left id → w.Tracked .clusterInstance id → w'.Tracked .clusterInstance id
  kept : Kept site w → Kept site w'

theorem Onward.refl (site : Site) (w : World) : Onward site w w := ⟨fun _ => id, fun _ _ => id, id⟩

theorem Onward.trans (h : Onward site w w') (h' : Onward site w' w'') : Onward site w w'' :=
  ⟨fun id hleft => h.left id (h'.left id hleft),
    fun id hleft htracked => h'.tracked id hleft (h.tracked id (h'.left id hleft) htracked),
    fun hkept => h'.kept (h.kept hkept)⟩

theorem World.Empty.onward (hempty : w.Empty) (h : Onward site w w') : w'.Empty := fun id hleft => hempty id (h.left id hleft)

theorem World.AllTracked.onward (htracked : w.AllTracked) (h : Onward site w w') : w'.AllTracked := fun id hleft =>
  h.tracked id hleft (htracked id (h.left id hleft))

section
variable {o : DeleteCall} {r : Except CallError o.Ans}

theorem left_of_step (h : deleteStep site w o r w') (id : String) (hleft : w'.Left id) : w.Left id := (h.1 id).left hleft

theorem Destroys.tracks {status : Nat} (h : Destroys site w status w') (id : String) (hleft : w'.Left id)
    (htracked : w.Tracked .clusterInstance id) : w'.Tracked .clusterInstance id := by
  by_contra hnew
  exact h.instances id htracked hnew hleft

/-- Terraform keeps the cluster of what is left. -/
theorem Destroys.held {status : Nat} (h : Destroys site w status w') (hheld : w.Held site)
    (hleft : ∀ id, w'.Left id → w.Left id) : w'.Held site := by
  intro id hid
  obtain ⟨hpresent, hcluster, hstate⟩ := hheld id (hleft id hid)
  have hcluster' : w'.hasCluster ≠ false := fun hnone => (h.deletes hnone).elim
    (fun hnone => absurd (hcluster.symm.trans hnone) (by decide)) fun hempty => hempty id hid
  refine ⟨h.directory.1.trans hpresent, Bool.eq_true_of_not_eq_false hcluster', ?_⟩
  by_contra hnew
  exact hcluster' (h.cluster hstate hnew)

/-- **A command keeps it**, where the directory goes last and a cleanup succeeds for a reason. -/
theorem Kept.step (hkept : Kept site w) (h : deleteStep site w o r w') (hremove : o = .removeDirectory → w.Empty)
    (hexit : o = .exitCleanup 0 → w.AllTracked) : Kept site w' := by
  have hleft := left_of_step h
  rcases changes_cases h.2.1 with ⟨status, -, hdestroys⟩ | ⟨ho, -⟩ | ⟨hsame, hcleaned⟩
  · refine ⟨hdestroys.held hkept.held hleft, fun hcleaned id hid => hdestroys.tracks id hid ?_⟩
    exact hkept.cleaned (hdestroys.directory.2.2 ▸ hcleaned) id (hleft id hid)
  · have hempty : w'.Empty := fun id hid => hremove ho id (hleft id hid)
    exact ⟨fun id hid => (hempty id hid).elim, fun _ id hid => (hempty id hid).elim⟩
  · have hall : w'.cleaned = true → w.AllTracked := fun hnow =>
      hcleaned.elim (fun hold => hkept.cleaned (hold ▸ hnow)) hexit
    refine ⟨fun id hid => ?_, fun hnow id hid => (hsame.tracked _ _).mpr (hall hnow id (hleft id hid))⟩
    obtain ⟨hpresent, hcluster, hstate⟩ := hkept.held id (hleft id hid)
    exact ⟨hsame.present.trans hpresent, hsame.hasCluster.trans hcluster, (hsame.tracked _ _).mpr hstate⟩

theorem onward_of_step (hkept' : Kept site w') (h : deleteStep site w o r w') : Onward site w w' := by
  refine ⟨left_of_step h, fun id hleft htracked => ?_, fun _ => hkept'⟩
  rcases changes_cases h.2.1 with ⟨status, -, hdestroys⟩ | ⟨-, hpresent⟩ | ⟨hsame, -⟩
  · exact hdestroys.tracks id hleft htracked
  · exact absurd (hpresent.symm.trans (hkept'.held id hleft).1) (by decide)
  · exact (hsame.tracked _ _).mpr htracked

theorem Kept.after (hkept : Kept site w) (h : After (Onward site) (deleteStep site) w o r w')
    (hremove : o = .removeDirectory → w.Empty) (hexit : o = .exitCleanup 0 → w.AllTracked) :
    Kept site w' ∧ Onward site w w' := by
  obtain ⟨w₁, hothers, hstep⟩ := h
  have hkept' := (hothers.kept hkept).step hstep (fun ho => (hremove ho).onward hothers) fun ho => (hexit ho).onward hothers
  exact ⟨hkept', hothers.trans (onward_of_step hkept' hstep)⟩

end

/-! ## Programs among others -/

/-- The outside of a run: the commands, once the others have done something. -/
abbrev Among (site : Site) : Handler deleteSig CallError World := After (Onward site) (deleteStep site)

/-- The outside of a part of `resize.py`. -/
def AmongCloud (site : Site) : Handler resizeSig CallError World := fun w o r w' => Among site w (.resize o) r w'

theorem through_onCloud : Through (Among site) (fun o => sh (.resize o)) (AmongCloud site) := fun o Q w =>
  wp_perform (S := deleteSig) (.resize o) Q w

def Plain : DeleteCall → Prop
  | .removeDirectory | .exitCleanup _ => False
  | _ => True

theorem Kept.plain {o : DeleteCall} {r : Except CallError o.Ans} (hkept : Kept site w)
    (h : Among site w o r w') (ho : Plain o) : Kept site w' ∧ Onward site w w' :=
  hkept.after h (fun hremove => by rw [hremove] at ho; exact ho.elim) fun hexit => by rw [hexit] at ho; exact ho.elim

/-- Since `w₀`, the others and the run itself have gone on. -/
def Since (site : Site) (w₀ w : World) : Prop := Kept site w ∧ Onward site w₀ w

theorem Kept.since (hkept : Kept site w) : Since site w w := ⟨hkept, .refl site w⟩

theorem Since.plain {w₀ : World} {o : DeleteCall} {r : Except CallError o.Ans} (hsince : Since site w₀ w)
    (h : Among site w o r w') (ho : Plain o) : Since site w₀ w' :=
  ⟨(hsince.1.plain h ho).1, hsince.2.trans (hsince.1.plain h ho).2⟩

/-- A program of such commands. -/
theorem keeps_of_plain {α : Type} {p : Prog deleteSig CallError α} (hp : p.Calls Plain) (w₀ : World) :
    Keeps (Among site) (Since site w₀) p :=
  keeps_of_calls hp fun _ _ _ _ ho hsince h => hsince.plain h ho

theorem keeps_cloud {α : Type} (p : Prog resizeSig CallError α) (w₀ : World) : Keeps (AmongCloud site) (Since site w₀) p :=
  keeps_of_calls (calls_true p) fun _ o _ _ _ hsince h => hsince.plain (o := .resize o) h trivial

theorem plain_onCloud {α : Type} (p : Prog resizeSig CallError α) : (onCloud p).Calls Plain :=
  (calls_true p).via fun _ _ => calls_perform trivial

/-! ## The cleanup -/

theorem tracked_of_resources {document : Json} {computeClusterId : Option Json} {ids : List Json}
    (h : getTrackedComputeClusterResources (.document document) = .ok (some (computeClusterId, ids))) (id : String) :
    (Tracks .computeCluster document (.str id) → computeClusterId = some (.str id)) ∧
      (.str id ∈ ids → Tracks .clusterInstance document (.str id)) := by
  rw [getTrackedComputeClusterResources] at h
  cases hresources : trackResources document with
  | none =>
      rw [hresources] at h
      cases h
  | some found =>
      rw [hresources] at h
      dsimp only at h
      split at h
      · cases h
      · rename_i hlength
        cases h
        refine ⟨fun htracks => ?_, (mem_ids_iff hresources id).mp⟩
        obtain ⟨other, hother, hsame⟩ := (keyIn_trackResources hresources .computeCluster (.str id)).mpr ⟨_, htracks, .refl _⟩
        rw [sameValue_str.mp hsame] at hother
        have hmem : Json.str id ∈ found.computeClusterIds := hother
        cases hids : found.computeClusterIds with
        | nil =>
            rw [hids] at hmem
            cases hmem
        | cons first rest =>
            rw [hids, List.length_cons] at hlength
            rw [hids, List.length_eq_zero_iff.mp (show rest.length = 0 by omega), List.mem_singleton] at hmem
            rw [List.head?_cons, hmem]

/-- The identifier of the cluster, and those of the instances, as the state was read in `w₀`. -/
structure ReadFrom (site : Site) (w₀ : World) (computeClusterId : Option Json) (ids : List Json) : Prop where
  cluster : ∀ id, w₀.Left id → computeClusterId = some (.str site.computeClusterId)
  ids : ∀ id, .str id ∈ ids → w₀.Tracked .clusterInstance id

theorem readFrom_of_resources {w₀ : World} (hkept : Kept site w₀) {computeClusterId : Option Json} {ids : List Json}
    (h : getTrackedComputeClusterResources w₀.state = .ok (some (computeClusterId, ids))) :
    ReadFrom site w₀ computeClusterId ids := by
  constructor
  · intro id hleft
    obtain ⟨-, -, document, hdocument, htracks⟩ := hkept.held id hleft
    rw [hdocument] at h
    exact (tracked_of_resources h _).1 htracks
  · intro id hmem
    cases hstate : w₀.state with
    | missing =>
        rw [hstate] at h
        cases h
    | unreadable =>
        rw [hstate] at h
        cases h
    | document document =>
        rw [hstate] at h
        exact ⟨document, hstate, (tracked_of_resources h id).2 hmem⟩

section
variable {request : Request} {turns : Nat} {w₀ : World} {computeClusterId : Json} {ids : List Json}

/-- After the terminations the state tracks all that is left. -/
theorem terminateComputeClusterInstances_wp (hread : ReadFrom site w₀ (some computeClusterId) ids) (hsince : Since site w₀ w) :
    wp (AmongCloud site) (terminateComputeClusterInstances request turns computeClusterId ids)
      ⟨fun _ w' => Since site w₀ w' ∧ w'.AllTracked, fun _ => Since site w₀, Since site w₀⟩ w := by
  have hlist : ∀ {w w' : World} {r}, Since site w₀ w →
      AmongCloud site w (.listInstances request.compartmentId computeClusterId) r w' → Since site w₀ w' :=
    fun hsince h => hsince.plain (o := .resize _) h trivial
  refine wp_perform_seq hsince (fun first w₁ h₁ => ?_) fun _ _ h₁ => hlist hsince h₁
  have hturns : Keeps (AmongCloud site) (Since site w₀)
      (forEach (terminateCandidate request turns) (candidates ids first) []) := keeps_cloud _ w₀
  refine wp_seq (hturns w₁ (hlist hsince h₁)) fun cleanupErrors w₂ hsince₂ => ?_
  refine wp_perform_seq hsince₂ (fun last w₃ h₃ => ?_) fun _ _ h₃ => hlist hsince₂ h₃
  have hsince₃ := hlist hsince₂ h₃
  unfold endTerminations
  split
  · rename_i hnone
    refine ⟨hsince₃, fun id hleft => hsince₃.2.tracked id hleft (hread.ids id ?_)⟩
    obtain ⟨state, hstate, hnot⟩ := hleft
    -- it is in the listing, as the cluster is the one of the state
    obtain ⟨w₂', -, hstep⟩ := h₃
    have hcluster := Option.some.inj (hread.cluster id (hsince₃.2.left id ⟨state, hstate, hnot⟩))
    obtain ⟨listed, hlisted, rfl, rfl⟩ := hstep.2.2 hcluster id state hstate
    exact (candidates_eq_nil.mp hnone listed hlisted).resolve_right hnot
  · exact hsince₃

/-- Where the cleanup of the state in `w₀` returns, the state tracks all that is left. -/
theorem terminateUntracked_wp (hkept : Kept site w₀) :
    wp (AmongCloud site) (terminateUntracked request turns w₀.state)
      ⟨fun _ w' => Since site w₀ w' ∧ w'.AllTracked, fun _ => Since site w₀, Since site w₀⟩ w₀ := by
  refine wp_ofExcept_seq (fun resources hresources => ?_) fun _ _ => hkept.since
  rcases resources with _ | ⟨_ | computeClusterId, ids⟩
  · exact hkept.since
  · exact ⟨hkept.since, fun id hleft => by cases (readFrom_of_resources hkept hresources).cluster id hleft⟩
  · have hread := readFrom_of_resources hkept hresources
    refine wp_perform_attempt_seq hkept.since fun r w₁ h => ?_
    have hsince₁ : Since site w₀ w₁ := hkept.since.plain (o := .resize _) h trivial
    cases r with
    | error e =>
        dsimp only
        split
        · -- the cluster is gone, and so nothing is left
          rename_i herror
          cases herror
          refine ⟨hsince₁, fun id hleft => ?_⟩
          obtain ⟨w₁', -, hstep⟩ := h
          have hgone := hstep.2.2 (Option.some.inj (hread.cluster id (hsince₁.2.left id hleft)))
          exact absurd ((hsince₁.1.held id hleft).2.1.symm.trans hgone) (by decide)
        · exact hsince₁
        · rename_i hok
          cases hok
    | ok cluster =>
        dsimp only
        split
        · exact hsince₁
        · exact wp_seq (terminateComputeClusterInstances_wp hread hsince₁) fun _ _ h => h

end

/-! ## The script -/

theorem wp_of_plain {α : Type} {p : Prog deleteSig CallError α} (hp : p.Calls Plain) (hkept : Kept site w) :
    wp (Among site) p (always (Kept site)) w :=
  wp_mono (keeps_of_plain hp w w hkept.since) (fun _ _ h => h.1) (fun _ _ h => h.1) fun _ h => h.1

/-- The run of `resize.py`. Its status zero has a reason. -/
theorem cleanupCluster_wp (hkept : Kept site w) : wp (Among site) (cleanupCluster site) (always (Kept site)) w := by
  refine wp_perform_seq hkept (fun started w₁ h₁ => ?_) fun _ _ h₁ => (hkept.plain h₁ trivial).1
  have hkept₁ := (hkept.plain h₁ trivial).1
  cases started with
  | none => exact hkept₁
  | some readyPendingDeletions =>
      have hbranch : wp (Among site) (cleanupBranch site readyPendingDeletions)
          ⟨fun status w' => Kept site w' ∧ (status = 0 → w'.AllTracked), fun _ => Kept site, Kept site⟩ w₁ := by
        refine wp_seq_attempt (wp_of_plain (plain_onCloud _) hkept₁) (fun _ w₂ hkept₂ => ?_)
          fun _ _ hkept₂ => ⟨hkept₂, fun hone => absurd hone Nat.one_ne_zero⟩
        refine wp_perform_seq hkept₂ (fun state w₃ h₃ => ?_) fun _ _ h₃ => (hkept₂.plain h₃ trivial).1
        have hkept₃ := (hkept₂.plain h₃ trivial).1
        obtain ⟨w₂', -, hstep⟩ := h₃
        obtain rfl : state = w₃.state := hstep.2.2
        exact (wp_via through_onCloud _ _ _).mpr (wp_mono (terminateUntracked_wp hkept₃)
          (fun _ _ h => ⟨h.1.1, fun _ => h.2⟩) (fun _ _ h => h.1) fun _ h => h.1)
      have hexit : ∀ {w₂ : World} (status : Nat), Kept site w₂ → (status = 0 → w₂.AllTracked) →
          wp (Among site) ((sh (.exitCleanup status)).bind fun _ => .ret status) (always (Kept site)) w₂ := by
        intro w₂ status hkept₂ hall
        have hkept₃ : ∀ {r w₃}, Among site w₂ (.exitCleanup status) r w₃ → Kept site w₃ := fun h₃ =>
          (hkept₂.after h₃ (fun hremove => by cases hremove) fun hzero => hall (DeleteCall.exitCleanup.inj hzero)).1
        exact wp_perform_seq hkept₂ (fun _ _ h₃ => hkept₃ h₃) fun _ _ h₃ => hkept₃ h₃
      exact wp_seq_attempt hbranch (fun status _ h => hexit status h.1 h.2) fun _ _ hkept₂ =>
        hexit 1 hkept₂ fun hone => absurd hone Nat.one_ne_zero

theorem plain_initialDeletion (force : Bool) : (initialDeletion force).Calls Plain := by
  refine (calls_perform trivial).bind fun inventory => Calls.bind ?_ fun status => ?_
  · cases inventory with
    | false => trivial
    | true => exact calls_perform trivial
  · by_cases hforce : status ≠ 0 ∧ force = true
    · rw [if_pos hforce]
      exact calls_perform trivial
    · rw [if_neg hforce]
      trivial

theorem plain_repairState : repairState.Calls Plain := by
  refine (calls_perform trivial).bind fun indexerror => ?_
  cases indexerror with
  | false => trivial
  | true => exact calls_perform trivial

theorem ifInventory_wp {p q : Prog deleteSig CallError Nat}
    (hp : ∀ w, Kept site w → wp (Among site) p (always (Kept site)) w)
    (hq : ∀ w, Kept site w → wp (Among site) q (always (Kept site)) w) (hkept : Kept site w) :
    wp (Among site) ((sh .isInventory).bind fun (inventory : Bool) => if inventory then p else q) (always (Kept site)) w := by
  refine wp_perform_seq hkept (fun inventory w₁ h₁ => ?_) fun _ _ h₁ => (hkept.plain h₁ trivial).1
  have hkept₁ := (hkept.plain h₁ trivial).1
  cases inventory with
  | false => exact hq w₁ hkept₁
  | true => exact hp w₁ hkept₁

theorem firstCleanup_wp (hkept : Kept site w) : wp (Among site) (firstCleanup site) (always (Kept site)) w :=
  ifInventory_wp (fun _ => cleanupCluster_wp) (fun _ hkept => hkept) hkept

/-- What Terraform's status says of the instances. -/
def Gone (terraform : Nat) (w : World) : Prop := terraform = 0 → w.Empty

theorem keeps_gone {α : Type} (terraform : Nat) (p : Prog deleteSig CallError α) : Keeps (Among site) (Gone terraform) p :=
  keeps_of_calls (calls_true p) fun _ _ _ _ _ hgone h hzero => by
    obtain ⟨w₁, hothers, hstep⟩ := h
    exact fun id hleft => (hgone hzero).onward hothers id (left_of_step hstep id hleft)

theorem wp_gone {α : Type} {p : Prog deleteSig CallError α} {terraform : Nat} (hgone : Gone terraform w)
    (h : wp (Among site) p (always (Kept site)) w) :
    wp (Among site) p ⟨fun _ w' => Kept site w' ∧ Gone terraform w', fun _ => Kept site, Kept site⟩ w :=
  wp_mono (wp_and_keeps (keeps_gone terraform p) hgone h) (fun _ _ h => h) (fun _ _ h => h.1) fun _ h => h.1

theorem retryCleanup_wp (status : Nat) (hkept : Kept site w) :
    wp (Among site) (retryCleanup site status) (always (Kept site)) w := by
  unfold retryCleanup
  split
  · exact hkept
  · exact ifInventory_wp (fun _ => cleanupCluster_wp) (fun _ hkept => hkept) hkept

/-- Where Terraform succeeds nothing is left. -/
theorem Kept.gone {terraform : Nat} (hkept : Kept site w) (h : Among site w .terraformDestroy (.ok terraform) w') :
    Kept site w' ∧ Gone terraform w' := by
  have hkept' := (hkept.plain h trivial).1
  refine ⟨hkept', fun hzero id hleft => ?_⟩
  obtain ⟨w₁, -, hstep⟩ := h
  have hdestroys : Destroys site w₁ terraform w' := hstep.2.1
  exact (hdestroys.done hzero).2 _ _ (hkept'.held id hleft).2.2

theorem retryDestroy_wp (turns : Nat) {statuses : Statuses} (hkept : Kept site w) (hgone : Gone statuses.terraform w) :
    wp (Among site) (retryDestroy site turns statuses)
      ⟨fun statuses' w' => Kept site w' ∧ Gone statuses'.terraform w', fun _ => Kept site, Kept site⟩ w := by
  induction turns generalizing statuses w with
  | zero => exact ⟨hkept, hgone⟩
  | succ turns ih =>
      unfold retryDestroy
      split
      · exact ⟨hkept, hgone⟩
      · rename_i hfailed
        refine wp_seq (wp_of_plain plain_repairState hkept) fun _ w₁ hkept₁ => ?_
        refine wp_seq (retryCleanup_wp _ hkept₁) fun compute w₂ hkept₂ => ?_
        refine wp_perform_seq hkept₂ (fun terraform w₃ h₃ => ?_) fun _ _ h₃ => (hkept₂.plain h₃ trivial).1
        exact ih (hkept₂.gone h₃).1 (hkept₂.gone h₃).2

theorem finish_wp {statuses : Statuses} (hkept : Kept site w) (hgone : Gone statuses.terraform w) :
    wp (Among site) (finish statuses) (always (Kept site)) w := by
  unfold finish
  split
  · rename_i hzero
    have hloop : ∀ nodes : List String, (forEach (fun _ node => sh (.removeUnreachable node)) nodes ()).Calls Plain :=
      fun nodes => Calls.forEach (fun _ node => calls_perform (S := deleteSig) (o := .removeUnreachable node) trivial) nodes ()
    have hnodes : (sh .topologyNodes).Calls Plain := calls_perform trivial
    refine wp_seq (wp_gone hgone (wp_of_plain hnodes hkept)) fun nodes w₁ h₁ => ?_
    refine wp_seq (wp_gone h₁.2 (wp_of_plain (hloop nodes) h₁.1)) fun _ w₂ h₂ => ?_
    have hremoved : ∀ {r w₃}, Among site w₂ .removeDirectory r w₃ → Kept site w₃ := fun h₃ =>
      (h₂.1.after h₃ (fun _ => h₂.2 hzero.1) fun hexit => by cases hexit).1
    exact wp_perform_seq h₂.1 (fun _ _ h₃ => hremoved h₃) fun _ _ h₃ => hremoved h₃
  · exact wp_perform_seq hkept (fun _ _ h₁ => (hkept.plain h₁ trivial).1) fun _ _ h₁ => (hkept.plain h₁ trivial).1

theorem deleteCluster_wp (force : Bool) (hkept : Kept site w) :
    wp (Among site) (deleteCluster site force) (always (Kept site)) w := by
  refine wp_perform_seq hkept (fun entered w₁ h₁ => ?_) fun _ _ h₁ => (hkept.plain h₁ trivial).1
  have hkept₁ := (hkept.plain h₁ trivial).1
  cases entered with
  | false => exact hkept₁
  | true =>
      refine wp_seq (wp_of_plain (plain_initialDeletion force) hkept₁) fun _ w₂ hkept₂ => ?_
      refine wp_seq (firstCleanup_wp hkept₂) fun compute w₃ hkept₃ => ?_
      refine wp_perform_seq hkept₃ (fun terraform w₄ h₄ => ?_) fun _ _ h₄ => (hkept₃.plain h₄ trivial).1
      refine wp_seq (retryDestroy_wp 5 (hkept₃.gone h₄).1 (hkept₃.gone h₄).2) fun statuses w₅ h₅ => ?_
      exact wp_seq (wp_gone h₅.2 (retryCleanup_wp statuses.compute h₅.1)) fun compute w₆ h₆ => finish_wp h₆.1 h₆.2

/-! ## Histories -/

abbrev Reach (site : Site) (w : World) : Config (ℕ × Bool) World (Prog deleteSig CallError Nat) → Prop :=
  (programs deleteSig CallError World Nat).Reach (Answered (fun _ => deleteStep site) fun _ _ _ => True) ⟨w, runs site⟩

theorem kept_of_reach {c : Config (ℕ × Bool) World (Prog deleteSig CallError Nat)} (hkept : Kept site w)
    (h : Reach site w c) : Kept site c.shared := by
  have hstable : Stable (Onward site) (always (Kept site) : Post World CallError Nat) :=
    ⟨fun _ _ _ h => h.kept, fun _ _ _ h => h.kept, fun _ _ h => h.kept⟩
  exact (programs_wp (Onward.refl site) (fun _ _ _ h h' => h.trans h') hstable (fun _ _ h => h) (fun _ _ h => h)
    (fun _ _ _ _ _ => onward_of_step) hkept (fun run => deleteCluster_wp run.2 hkept) h).1

/-- **The directory goes last.** However many deletions run side by side, and wherever they are killed: where the directory
is gone nothing is left of the instances, what is left is in the cluster that the state tracks, and where a cleanup has
succeeded the state tracks all of it. -/
theorem deletions_are_safe (site : Site) {w : World} (hheld : w.Held site) (hcleaned : w.cleaned = false)
    {c : Config (ℕ × Bool) World (Prog deleteSig CallError Nat)} (h : Reach site w c) :
    (c.shared.present = false → c.shared.Empty) ∧ c.shared.Held site ∧ (c.shared.cleaned = true → c.shared.AllTracked) := by
  have hkept := kept_of_reach ⟨hheld, fun hyes => absurd (hcleaned.symm.trans hyes) (by decide)⟩ h
  refine ⟨fun hgone id hleft => ?_, hkept.held, hkept.cleaned⟩
  exact absurd (hgone.symm.trans (hkept.held id hleft).1) (by decide)

/-! ## Stranded instances -/

/-- The inventory is gone, and an instance runs on that the state does not track. -/
structure Stranded (site : Site) (id : String) (w : World) : Prop where
  present : w.present = true
  inventory : w.inventory = false
  hasCluster : w.hasCluster = true
  cluster : w.Tracked .computeCluster site.computeClusterId
  running : w.Running id
  untracked : ¬ w.Tracked .clusterInstance id

/-- The commands of a run that finds no inventory and does not succeed. -/
def Harmless : DeleteCall → Prop
  | .enter _ | .isInventory | .terraformDestroy | .invalidIndex | .pushSize | .removeMarker => True
  | _ => False

section
variable {id : String} {o : DeleteCall} {r : Except CallError o.Ans}

theorem Stranded.step (h : Stranded site id w) (hstep : deleteStep site w o r w') (ho : Harmless o) : Stranded site id w' := by
  have hended : ¬ Ends w id o := by
    cases o with
    | terraformDestroy => exact h.untracked
    | enter | isInventory | invalidIndex | pushSize | removeMarker => exact not_false
    | _ => exact ho.elim
  have hrunning : w'.Running id := (hstep.1 id).running hended h.running
  rcases changes_cases hstep.2.1 with ⟨status, -, hdestroys⟩ | ⟨hremove, -⟩ | ⟨hsame, -⟩
  · have hcluster : w'.hasCluster ≠ false := fun hnone => (hdestroys.deletes hnone).elim
      (fun hnone => absurd (h.hasCluster.symm.trans hnone) (by decide)) fun hempty => hempty id hrunning.left
    refine ⟨hdestroys.directory.1.trans h.present, ?_, Bool.eq_true_of_not_eq_false hcluster, ?_, hrunning,
      fun htracked => h.untracked (hdestroys.tracked _ _ htracked)⟩
    · exact Bool.eq_false_iff.mpr fun hyes => absurd (h.inventory.symm.trans (hdestroys.inventory hyes)) (by decide)
    · by_contra hnew
      exact hcluster (hdestroys.cluster h.cluster hnew)
  · rw [hremove] at ho
    exact ho.elim
  · exact ⟨hsame.present.trans h.present, hsame.inventory.trans h.inventory, hsame.hasCluster.trans h.hasCluster,
      (hsame.tracked _ _).mpr h.cluster, hrunning, fun htracked => h.untracked ((hsame.tracked _ _).mp htracked)⟩

/-- The outside of a run, where the others leave the instance stranded. -/
abbrev AmongStranded (site : Site) (id : String) : Handler deleteSig CallError World :=
  After (fun w w' => Stranded site id w → Stranded site id w') (deleteStep site)

theorem Stranded.among (h : Stranded site id w) (hr : AmongStranded site id w o r w') (ho : Harmless o) :
    Stranded site id w' := by
  obtain ⟨w₁, hothers, hstep⟩ := hr
  exact (hothers h).step hstep ho

theorem Stranded.noInventory (h : Stranded site id w) {inventory : Bool}
    (hr : AmongStranded site id w .isInventory (.ok inventory) w') : inventory = false ∧ Stranded site id w' := by
  have hstranded := h.among hr trivial
  obtain ⟨w₁, -, hstep⟩ := hr
  exact ⟨Eq.trans hstep.2.2 hstranded.inventory, hstranded⟩

/-- Terraform fails, as the cluster is not deleted with an instance in it. -/
theorem Stranded.destroyFails (h : Stranded site id w) {status : Nat}
    (hr : AmongStranded site id w .terraformDestroy (.ok status) w') : status ≠ 0 ∧ Stranded site id w' := by
  have hstranded := h.among hr trivial
  obtain ⟨w₁, -, hstep⟩ := hr
  have hdestroys : Destroys site w₁ status w' := hstep.2.1
  exact ⟨fun hzero => (hdestroys.done hzero).2 _ _ hstranded.cluster, hstranded⟩

end

section
variable {id : String}

/-- The state of the script while an instance is stranded. -/
abbrev strandedPost {α : Type} (site : Site) (id : String) (P : α → Prop) : Post World CallError α :=
  ⟨fun a w => P a ∧ Stranded site id w, fun _ => Stranded site id, Stranded site id⟩

theorem stranded_isInventory {α : Type} {P : α → Prop} {f : Bool → Prog deleteSig CallError α} (h : Stranded site id w)
    (hf : ∀ w, Stranded site id w → wp (AmongStranded site id) (f false) (strandedPost site id P) w) :
    wp (AmongStranded site id) ((sh .isInventory).bind f) (strandedPost site id P) w := by
  refine wp_perform_seq h (fun inventory w₁ h₁ => ?_) fun _ _ h₁ => h.among h₁ trivial
  obtain ⟨rfl, hstranded⟩ := h.noInventory h₁
  exact hf w₁ hstranded

theorem stranded_initialDeletion (force : Bool) (h : Stranded site id w) :
    wp (AmongStranded site id) (initialDeletion force) (strandedPost site id fun status => status = 0) w :=
  stranded_isInventory h fun _ hstranded => ⟨rfl, hstranded⟩

theorem stranded_firstCleanup (h : Stranded site id w) :
    wp (AmongStranded site id) (firstCleanup site) (strandedPost site id fun status => status = 0) w :=
  stranded_isInventory h fun _ hstranded => ⟨rfl, hstranded⟩

theorem stranded_repairState (h : Stranded site id w) :
    wp (AmongStranded site id) repairState (strandedPost site id fun _ => True) w := by
  refine wp_perform_seq h (fun indexerror w₁ h₁ => ?_) fun _ _ h₁ => h.among h₁ trivial
  have hstranded := h.among h₁ trivial
  cases indexerror with
  | false => exact ⟨trivial, hstranded⟩
  | true =>
      refine (wp_perform _ _ _).mpr ⟨hstranded, fun _ w₂ h₂ => ⟨trivial, hstranded.among h₂ trivial⟩, fun _ w₂ h₂ => ?_⟩
      exact hstranded.among h₂ trivial

theorem stranded_retryDestroy (turns : Nat) {statuses : Statuses} (hterraform : statuses.terraform ≠ 0)
    (hcompute : statuses.compute = 0) (h : Stranded site id w) :
    wp (AmongStranded site id) (retryDestroy site turns statuses)
      (strandedPost site id fun statuses' => statuses'.terraform ≠ 0 ∧ statuses'.compute = 0) w := by
  induction turns generalizing statuses w with
  | zero => exact ⟨⟨hterraform, hcompute⟩, h⟩
  | succ turns ih =>
      rw [retryDestroy, if_neg hterraform, hcompute]
      refine wp_seq (stranded_repairState h) fun _ w₁ h₁ => ?_
      refine wp_perform_seq h₁.2 (fun terraform w₂ h₂ => ?_) fun _ _ h₂ => h₁.2.among h₂ trivial
      obtain ⟨hfails, hstranded⟩ := h₁.2.destroyFails h₂
      exact ih hfails rfl hstranded

theorem stranded_deleteCluster (force : Bool) (h : Stranded site id w) :
    wp (AmongStranded site id) (deleteCluster site force) (strandedPost site id fun status => status ≠ 0) w := by
  refine wp_perform_seq h (fun entered w₁ h₁ => ?_) fun _ _ h₁ => h.among h₁ trivial
  have hstranded₁ := h.among h₁ trivial
  cases entered with
  | false => exact ⟨Nat.one_ne_zero, hstranded₁⟩
  | true =>
      refine wp_seq (stranded_initialDeletion force hstranded₁) fun _ w₂ h₂ => ?_
      refine wp_seq (stranded_firstCleanup h₂.2) fun compute w₃ h₃ => ?_
      refine wp_perform_seq h₃.2 (fun terraform w₄ h₄ => ?_) fun _ _ h₄ => h₃.2.among h₄ trivial
      obtain ⟨hfails, hstranded₄⟩ := h₃.2.destroyFails h₄
      refine wp_seq (stranded_retryDestroy 5 hfails h₃.1 hstranded₄) fun statuses w₅ h₅ => ?_
      obtain ⟨⟨hterraform, hcompute⟩, hstranded₅⟩ := h₅
      rw [hcompute]
      show wp _ (finish ⟨statuses.terraform, 0⟩) _ w₅
      rw [finish, if_neg fun hboth => hterraform hboth.1]
      refine wp_perform_seq hstranded₅ (fun _ w₆ h₆ => ?_) fun _ _ h₆ => hstranded₅.among h₆ trivial
      rw [if_pos hterraform]
      exact ⟨hterraform, hstranded₅.among h₆ trivial⟩

end

/-- A stranded instance stays, and no run ends with the status zero. -/
theorem stranded_of_reach {id : String} {c : Config (ℕ × Bool) World (Prog deleteSig CallError Nat)}
    (hstranded : Stranded site id w) (h : Reach site w c) :
    Stranded site id c.shared ∧ ∀ run status, c.proc run = .ret status → status ≠ 0 := by
  have hstable : Stable (fun w w' => Stranded site id w → Stranded site id w')
      (strandedPost site id fun status : Nat => status ≠ 0) :=
    ⟨fun _ _ _ hothers h => ⟨h.1, hothers h.2⟩, fun _ _ _ hothers h => hothers h, fun _ _ hothers h => hothers h⟩
  obtain ⟨hnow, hruns⟩ := programs_wp (fun _ h => h) (fun _ _ _ h h' h'' => h' (h h'')) hstable (fun _ _ h => h.2)
    (fun _ _ h => h) (fun _ _ _ _ _ h _ _ => h) hstranded (fun run => stranded_deleteCluster run.2 hstranded) h
  refine ⟨hnow, fun run status hrun => ?_⟩
  have hstatus := hruns run
  rw [hrun] at hstatus
  exact hstatus.1

/-- What is left when Terraform has destroyed everything. -/
def destroyed (w : World) : World :=
  { w with inventory := false, state := .document (.obj []), hasCluster := false, instances := fun _ => none }

theorem not_tracked_destroyed (kind : TrackedKind) (key : String) : ¬ (destroyed w).Tracked kind key := by
  rintro ⟨document, hdocument, resource, hresource, -⟩
  cases hdocument
  cases hresource

/-- Terraform can destroy everything where it tracks what runs. -/
theorem destroys_destroyed (htracked : ∀ id, w.Running id → w.Tracked .clusterInstance id) :
    deleteStep site w .terraformDestroy (.ok (0 : Nat)) (destroyed w) := by
  have hempty : (destroyed w).Empty := by
    rintro id ⟨state, hstate, -⟩
    cases hstate
  have hnone := not_tracked_destroyed (w := w)
  refine ⟨fun id => ?_, ⟨⟨rfl, rfl, rfl⟩, fun hyes => ?_, fun kind key h => (hnone kind key h).elim, fun id _ _ => hempty id,
    fun _ _ => rfl, fun _ => .inr hempty, fun hyes => ?_, fun _ => ⟨rfl, hnone⟩⟩, trivial⟩
  · cases hstate : w.instances id with
    | none => rfl
    | some state =>
        by_cases hending : IsEnding state
        · exact .inr hending
        · exact .inl (htracked id ⟨state, hstate, hending⟩)
  · cases hyes
  · cases hyes

/-- A forced run without an inventory, where Terraform destroys everything. -/
theorem exec_deleteCluster (site : Site) (hpresent : w.present = true) (hinventory : w.inventory = false)
    (htracked : ∀ id, w.Running id → w.Tracked .clusterInstance id) :
    ∃ w', Exec (deleteStep site) (deleteCluster site true) w (.done 0) w' ∧ w'.present = false := by
  have hsame : ∀ {o : DeleteCall} {w : World} (id : String), LifeGoesOn (Ends w id o) (w.instances id) (w.instances id) :=
    fun _ => .refl _
  let marked : World := { w with marker := true }
  let removed : World := { destroyed marked with present := false, marker := false, inventory := false, state := .missing }
  have henter : deleteStep site w (.enter true) (.ok true) marked := ⟨hsame, ⟨hpresent, fun _ => rfl, rfl⟩, trivial⟩
  have hnone : deleteStep site marked .isInventory (.ok false) marked := ⟨hsame, rfl, hinventory.symm⟩
  have hdestroys : deleteStep site marked .terraformDestroy (.ok (0 : Nat)) (destroyed marked) := destroys_destroyed htracked
  have hnodes : deleteStep site (destroyed marked) .topologyNodes (.ok ([] : List String)) (destroyed marked) :=
    ⟨hsame, rfl, trivial⟩
  have hremoves : deleteStep site (destroyed marked) .removeDirectory (.ok ()) removed := ⟨hsame, rfl, trivial⟩
  have hinitial : Exec (deleteStep site) (initialDeletion true) marked (.done 0) marked := .bind (.perform hnone) .ret
  have hfirst : Exec (deleteStep site) (firstCleanup site) marked (.done 0) marked := .bind (.perform hnone) .ret
  have hretry : Exec (deleteStep site) (retryDestroy site 5 ⟨0, 0⟩) (destroyed marked) (.done ⟨0, 0⟩) (destroyed marked) := .ret
  have hcleanup : Exec (deleteStep site) (retryCleanup site 0) (destroyed marked) (.done 0) (destroyed marked) := .ret
  have hfinish : Exec (deleteStep site) (finish ⟨0, 0⟩) (destroyed marked) (.done 0) removed :=
    .bind (.perform hnodes) (.bind .ret (.bind (.perform hremoves) .ret))
  exact ⟨removed, .bind (.perform henter) (.bind hinitial (.bind hfirst (.bind (.perform hdestroys) (.bind hretry
    (.bind hcleanup hfinish))))), rfl⟩

/-- **When a deletion can still be finished**: after Terraform has removed the inventory, the directory can be removed where
the state tracks every instance that runs, and else no run of any history removes it. -/
theorem removable_iff (site : Site) {w : World} (hheld : w.Held site) (hpresent : w.present = true)
    (hinventory : w.inventory = false) :
    (∃ c, Reach site w c ∧ c.shared.present = false) ↔ ∀ id, w.Running id → w.Tracked .clusterInstance id := by
  constructor
  · rintro ⟨c, hreach, hgone⟩ id hrunning
    by_contra huntracked
    obtain ⟨-, hcluster, hstate⟩ := hheld id hrunning.left
    have hstranded : Stranded site id w := ⟨hpresent, hinventory, hcluster, hstate, hrunning, huntracked⟩
    exact absurd (hgone.symm.trans (stranded_of_reach hstranded hreach).1.present) (by decide)
  · intro htracked
    obtain ⟨w', hexec, hgone⟩ := exec_deleteCluster site hpresent hinventory htracked
    obtain ⟨last, hlast⟩ := reach_of_exec (.runtime "") hexec (0, true) (runs site) rfl
    exact ⟨_, hlast, hgone⟩

/-! ## A cluster with two nodes -/

def hpcSite : Site := ⟨hpcRequest, 3, "ocid1.cluster"⟩

/-- The instances run, of which the state tracks a, and Terraform has removed the inventory. -/
def hpcWorld (ids : List String) : World :=
  ⟨true, true, false, .document hpcState, true, fun id => if id ∈ ids then some "RUNNING" else none, false⟩

theorem hpc_tracked (ids : List String) (id : String) : (hpcWorld ids).Tracked .clusterInstance id ↔ id = "ocid1.a" := by
  have hread : (trackResources hpcState).map Resize.Tracked.ids = some [.str "ocid1.a"] := by decide +kernel
  obtain ⟨resources, hresources, hread⟩ := Option.map_eq_some_iff.mp hread
  have hids := mem_ids_iff hresources id
  rw [hread, List.mem_singleton, Json.str.injEq] at hids
  refine ⟨?_, fun hid => ⟨hpcState, rfl, hids.mp hid⟩⟩
  rintro ⟨document, hdocument, htracks⟩
  cases hdocument
  exact hids.mpr htracks

theorem hpc_held (ids : List String) : (hpcWorld ids).Held hpcSite := by
  refine fun id _ => ⟨rfl, rfl, hpcState, rfl, ?_⟩
  exact ⟨_, List.mem_cons_self, by decide +kernel, by decide +kernel, by decide +kernel, _, List.mem_cons_self,
    by decide +kernel, by decide +kernel⟩

theorem hpc_running {ids : List String} {id : String} : (hpcWorld ids).Running id ↔ id ∈ ids := by
  constructor
  · rintro ⟨state, hstate, -⟩
    by_contra hnone
    cases (if_neg hnone).symm.trans hstate
  · exact fun hmem => ⟨"RUNNING", if_pos hmem, by decide⟩

theorem deletions_are_safe_one_node :
    ∃ c, Reach hpcSite (hpcWorld ["ocid1.a"]) c ∧ c.shared.present = false ∧ c.shared.Empty := by
  obtain ⟨w', hexec, hgone⟩ := exec_deleteCluster (w := hpcWorld ["ocid1.a"]) hpcSite rfl rfl fun id hrunning =>
    (hpc_tracked _ id).mpr (List.mem_singleton.mp (hpc_running.mp hrunning))
  obtain ⟨last, hlast⟩ := reach_of_exec (.runtime "") hexec (0, true) (runs hpcSite) rfl
  exact ⟨_, hlast, hgone, (deletions_are_safe hpcSite (hpc_held _) rfl hlast).1 hgone⟩

theorem removable_iff_two_nodes :
    (∃ c, Reach hpcSite (hpcWorld ["ocid1.a"]) c ∧ c.shared.present = false) ∧
    ¬ ∃ c, Reach hpcSite (hpcWorld ["ocid1.a", "ocid1.b"]) c ∧ c.shared.present = false := by
  constructor
  · exact (removable_iff hpcSite (hpc_held _) rfl rfl).mpr fun id hrunning =>
      (hpc_tracked _ id).mpr (List.mem_singleton.mp (hpc_running.mp hrunning))
  · intro hremovable
    have htracked := (removable_iff hpcSite (hpc_held _) rfl rfl).mp hremovable "ocid1.b" (hpc_running.mpr (by decide))
    exact absurd ((hpc_tracked _ _).mp htracked) (by decide)

end OciHpc.Deletion
