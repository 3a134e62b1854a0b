import Mathlib.Data.Set.Basic
import OciHpc.Resize.PendingReached
import OciHpc.Resize.UpdateTFState

/-!
# What finalizing leaves

What `finalize_pending_local_block_volume_deletions` does to the DNS records, the Terraform state and the journal.

* `FinalSite`, `finalStep` : these three, and what the calls do to them; in `smoothStep` the calls succeed;
* `ChecksPass` : the checks before anything is changed;
* `untilCommitted`, `afterCommit` : the function up to the rename of the journal, and after it;
* `untilCommitted_spec` : what a run leaves, wherever it ends;
* `Halfway.again` : a run that is repeated leaves what one run leaves;
* `calm_finalizePending` : nothing is raised where the checks pass and the calls succeed.
-/

namespace OciHpc.Resize
open Prog Files

/-! ## The cluster -/

/-- The files beside the inventory, the zones by compartment and name, the record sets by zone and domain, and the files of
Terraform. -/
structure FinalSite where
  disk : PendingDisk
  zones : String → Text → List String
  rrsets : Set (String × Text)
  terraform : Terraform

def FinalSite.without (w : FinalSite) (removed : Set (String × Text)) : FinalSite :=
  { w with rrsets := w.rrsets \ removed }

/-- A 404 is about a record set that is not there; a deletion that raises otherwise may have happened. -/
def DeletionRaised (w : FinalSite) (zoneId : String) (domain : Text) : CallError → FinalSite → Prop
  | .service 404 _, w' => (zoneId, domain) ∉ w.rrsets ∧ w' = w
  | _, w' => w' = w ∨ w' = w.without {(zoneId, domain)}

/-- What the calls do; the size of a pool is no less than 0. -/
def finalStep (isWord : Char → Bool) (inventoryPath : String) : Handler resizeSig CallError FinalSite
  | w, .file o, answer, w' => step w.disk o answer w'.disk ∧ w' = { w with disk := w'.disk }
  | w, .listZones compartmentId name, .ok zones, w' => zones = w.zones compartmentId name ∧ w' = w
  | w, .deleteRrSet zoneId domain, .ok _, w' => w' = w.without {(zoneId, domain)}
  | w, .deleteRrSet zoneId domain, .error e, w' => DeletionRaised w zoneId domain e w'
  | w, .updateTFState size, .ok _, w' => w' = { w with terraform := w'.terraform } ∧ ∃ updated,
      Exec terraformStep (updateTFState isWord inventoryPath size.toNat) w.terraform (.done updated) w'.terraform
  | w, .updateTFState size, .error _, w' => w' = { w with terraform := w'.terraform } ∧ ∃ e,
      Exec terraformStep (updateTFState isWord inventoryPath size.toNat) w.terraform (.raised e) w'.terraform
  | w, _, _, w' => w' = w

/-- The call succeeds, or finds nothing to delete. -/
def Smooth : (o : ResizeCall) → Except CallError o.Ans → Prop
  | _, .ok _ => True
  | .deleteRrSet .., .error e => ∃ text, e = .service 404 text
  | _, .error _ => False

def smoothStep (isWord : Char → Bool) (inventoryPath : String) : Handler resizeSig CallError FinalSite :=
  fun w o answer w' => finalStep isWord inventoryPath w o answer w' ∧ Smooth o answer

/-! ## The checks -/

/-- The record is the one in the journal, and of this cluster. -/
def IsPending (request : Request) (pending : List Record) (record : Record) : Prop :=
  (record.clusterName = request.clusterName ∧ record.compartmentId = request.compartmentId) ∧
    ∃ stored, storedRecord pending record.volumeId = some stored ∧ stored.Same record

/-- No active member has the name or the address of the record, which is in the private subnet. -/
def Inactive (dns : DnsSite) (names ips : List String) (record : Record) : Prop :=
  (∃ address, ipAddress record.instancePrivateIp.toList = some address ∧ record.instanceDisplayName ∉ names ∧
    String.ofList (dotted address) ∉ ips) ∧ ∃ slurmName, dns.slurmDomain record.instancePrivateIp.toList = some slurmName

/-- The checks that come before anything is changed. -/
structure ChecksPass (request : Request) (readyDeletions : List Record) (pool : PoolState) (w : FinalSite) : Prop where
  records : ∃ pending, journalOf w.disk = some pending ∧ ∀ record ∈ readyDeletions, IsPending request pending record
  poolIdentity : ∃ poolId, pool.instancePoolId = some poolId ∧ poolId ≠ "" ∧
    ∀ record ∈ readyDeletions, record.instancePoolId = poolId
  poolSize : ∃ size, pool.size = some size ∧ ∀ record ∈ readyDeletions, size < record.instancePoolSizeBeforeRemoval
  zone : request.dnsEntries = true → w.zones request.compartmentId request.dns.zoneName ≠ [] ∧
    request.dns.queue.isSome ∧ request.dns.privateSubnet.isSome
  activeIdentity : request.dnsEntries = true → ∃ names ips, pool.activeDisplayNames = some names ∧
    pool.activePrivateIps = some ips ∧ ∀ record ∈ readyDeletions, Inactive request.dns names ips record

def rrsetsOf (zoneId : String) (domains : List Text) : Set (String × Text) :=
  {rrset | rrset.1 = zoneId ∧ rrset.2 ∈ domains}

/-- The record sets that are to go, where the checks for them pass. -/
def dnsRemovals (request : Request) (readyDeletions : List Record) (pool : PoolState) (zones : List String) :
    Option (Set (String × Text)) :=
  if !request.dnsEntries then some ∅
  else
    match pool.activeDisplayNames, pool.activePrivateIps, zones with
    | some names, some ips, zoneId :: _ =>
        if request.dns.queue.isNone || request.dns.privateSubnet.isNone then none
        else
          match domainsToDelete request.dns names ips readyDeletions with
          | .error _ => none
          | .ok domains => some (rrsetsOf zoneId domains)
    | _, _, _ => none

/-- What a run makes of a cluster where the checks pass. -/
structure Planned (request : Request) (readyDeletions : List Record) (pool : PoolState) (w : FinalSite)
    (pending : List Record) (size : Int) (removed : Set (String × Text)) : Prop where
  journal : journalOf w.disk = some pending
  checked : checkFinalize request pending readyDeletions pool = .ok size
  removals : dnsRemovals request readyDeletions pool (w.zones request.compartmentId request.dns.zoneName) = some removed

section
variable {request : Request} {pending readyDeletions : List Record} {pool : PoolState} {w w' : FinalSite}

theorem readyError_eq_none {foreign changed : String} {record : Record} :
    readyError request pending foreign changed record = none ↔ IsPending request pending record := by
  unfold readyError
  split
  · rename_i hforeign
    constructor
    · intro h
      cases h
    · intro ⟨⟨hcluster, hcompartment⟩, _⟩
      exact absurd hforeign (not_or.mpr ⟨not_not.mpr hcluster, not_not.mpr hcompartment⟩)
  · rename_i hforeign
    obtain ⟨hcluster, hcompartment⟩ := not_or.mp hforeign
    have hours := And.intro (not_not.mp hcluster) (not_not.mp hcompartment)
    rw [IsPending, and_iff_right hours]
    cases storedRecord pending record.volumeId with
    | none => simp
    | some stored => simp

theorem checkFinalize_eq_ok {size : Int} : checkFinalize request pending readyDeletions pool = .ok size ↔
    (∀ record ∈ readyDeletions, IsPending request pending record) ∧
    (∃ poolId, pool.instancePoolId = some poolId ∧ poolId ≠ "" ∧
      ∀ record ∈ readyDeletions, record.instancePoolId = poolId) ∧ pool.size = some size ∧ ∀ record ∈ readyDeletions, size < record.instancePoolSizeBeforeRemoval := by
  unfold checkFinalize
  split
  · rename_i message hfound
    constructor
    · intro h
      cases h
    · intro ⟨hpending, _⟩
      obtain ⟨record, hmem, herror⟩ := List.exists_of_findSome?_eq_some hfound
      rw [readyError_eq_none.mpr (hpending record hmem)] at herror
      cases herror
  · rename_i hnone
    have hpending := fun record hmem => readyError_eq_none.mp (List.findSome?_eq_none_iff.mp hnone record hmem)
    rw [and_iff_right hpending]
    split
    · rename_i hsize
      constructor
      · intro h
        cases h
      · intro ⟨_, hsome, _⟩
        cases hsize.symm.trans hsome
    · rename_i hfilter
      constructor
      · intro h
        cases h
      · intro ⟨⟨poolId, hid, hne, _⟩, _⟩
        rw [hid, Option.filter_some, if_pos (bne_iff_ne.mpr hne)] at hfilter
        cases hfilter
    · rename_i found poolId hsize hfilter
      obtain ⟨hid, hne⟩ := Option.filter_eq_some_iff.mp hfilter
      split
      · rename_i hany
        constructor
        · intro h
          cases h
        · intro ⟨⟨other, hother, _, hall⟩, _⟩
          obtain rfl := Option.some.inj (hid.symm.trans hother)
          obtain ⟨record, hmem, hrecord⟩ := List.any_eq_true.mp hany
          exact absurd (hall record hmem) (bne_iff_ne.mp hrecord)
      · rename_i hall
        split
        · rename_i hany
          constructor
          · intro h
            cases h
          · intro ⟨_, hsome, hless⟩
            obtain rfl := Option.some.inj (hsize.symm.trans hsome)
            obtain ⟨record, hmem, hrecord⟩ := List.any_eq_true.mp hany
            exact absurd (hless record hmem) (not_lt.mpr (of_decide_eq_true hrecord))
        · rename_i hless
          have hsame : ∀ record ∈ readyDeletions, record.instancePoolId = poolId := fun record hmem => by
            by_contra hdiffers
            exact hall (List.any_eq_true.mpr ⟨record, hmem, bne_iff_ne.mpr hdiffers⟩)
          have hsmaller : ∀ record ∈ readyDeletions, found < record.instancePoolSizeBeforeRemoval := fun record hmem => by
            by_contra hlarger
            exact hless (List.any_eq_true.mpr ⟨record, hmem, decide_eq_true (not_lt.mp hlarger)⟩)
          constructor
          · intro h
            obtain rfl := Except.ok.inj h
            exact ⟨⟨poolId, hid, bne_iff_ne.mp hne, hsame⟩, hsize, hsmaller⟩
          · intro ⟨_, hsome, _⟩
            obtain rfl := Option.some.inj (hsize.symm.trans hsome)
            rfl

/-! ### The domains -/

theorem getPendingNodeDnsDomains_eq_ok {dns : DnsSite} {record : Record} {domains : List Text} :
    getPendingNodeDnsDomains dns record = .ok domains ↔ (dns.queue.isSome ∧ dns.privateSubnet.isSome) ∧
      ∃ slurmName, dns.slurmDomain record.instancePrivateIp.toList = some slurmName ∧
        domains = [dns.instanceDomain record.instanceDisplayName.toList, slurmName] := by
  cases hqueue : dns.queue with
  | none => simp [getPendingNodeDnsDomains, hqueue]
  | some queue =>
    cases hsubnet : dns.privateSubnet with
    | none => simp [getPendingNodeDnsDomains, hqueue, hsubnet]
    | some subnet =>
      cases hslurm : dns.slurmDomain record.instancePrivateIp.toList with
      | none => simp [getPendingNodeDnsDomains, DnsSite.pendingDomains, hqueue, hsubnet, hslurm]
      | some slurmName => simp [getPendingNodeDnsDomains, DnsSite.pendingDomains, hqueue, hsubnet, hslurm, eq_comm]

/-- The domains are those of the records, none of which is active. -/
theorem domainsToDelete_spec {dns : DnsSite} {names ips : List String} {domains : List Text}
    (h : domainsToDelete dns names ips readyDeletions = .ok domains) :
    (∀ record ∈ readyDeletions, Inactive dns names ips record) ∧ ∀ domain ∈ domains, ∃ record ∈ readyDeletions,
      domain = dns.instanceDomain record.instanceDisplayName.toList ∨
        dns.slurmDomain record.instancePrivateIp.toList = some domain := by
  induction readyDeletions generalizing domains with
  | nil =>
    cases h
    exact ⟨fun _ hmem => absurd hmem List.not_mem_nil, fun _ hmem => absurd hmem List.not_mem_nil⟩
  | cons record rest ih =>
    rw [domainsToDelete] at h
    split at h
    · cases h
    · rename_i address haddress
      split at h
      · cases h
      · rename_i hfree
        obtain ⟨own, hown, h⟩ := bind_eq_ok h
        obtain ⟨others, hothers, h⟩ := bind_eq_ok h
        obtain rfl := Except.ok.inj h
        obtain ⟨-, slurmName, hslurm, rfl⟩ := getPendingNodeDnsDomains_eq_ok.mp hown
        obtain ⟨hinactive, hdomains⟩ := ih hothers
        obtain ⟨hname, hip⟩ := not_or.mp hfree
        refine ⟨fun other hother => ?_, fun domain hdomain => ?_⟩
        · rcases List.mem_cons.mp hother with rfl | hother
          · exact ⟨⟨address, haddress, hname, hip⟩, slurmName, hslurm⟩
          · exact hinactive other hother
        · rcases List.mem_append.mp hdomain with hdomain | hdomain
          · simp only [List.mem_cons, List.not_mem_nil, or_false] at hdomain
            refine ⟨record, List.mem_cons_self, hdomain.imp id fun hslurmName => ?_⟩
            rw [hslurmName]
            exact hslurm
          · obtain ⟨other, hother, hdomain⟩ := hdomains domain hdomain
            exact ⟨other, List.mem_cons_of_mem record hother, hdomain⟩

theorem exists_domainsToDelete {dns : DnsSite} {names ips : List String}
    (hinventory : dns.queue.isSome ∧ dns.privateSubnet.isSome)
    (h : ∀ record ∈ readyDeletions, Inactive dns names ips record) :
    ∃ domains, domainsToDelete dns names ips readyDeletions = .ok domains := by
  induction readyDeletions with
  | nil => exact ⟨[], rfl⟩
  | cons record rest ih =>
    obtain ⟨others, hothers⟩ := ih fun other hother => h other (List.mem_cons_of_mem record hother)
    obtain ⟨⟨address, haddress, hname, hip⟩, slurmName, hslurm⟩ := h record List.mem_cons_self
    have hown := getPendingNodeDnsDomains_eq_ok.mpr ⟨hinventory, slurmName, hslurm, rfl⟩
    refine ⟨[dns.instanceDomain record.instanceDisplayName.toList, slurmName] ++ others, ?_⟩
    rw [domainsToDelete, haddress]
    dsimp only
    rw [if_neg (not_or.mpr ⟨hname, hip⟩), hown, hothers]
    rfl

theorem isNone_or_isNone {α β : Type} {a : Option α} {b : Option β} :
    (a.isNone || b.isNone) = false ↔ a.isSome = true ∧ b.isSome = true := by
  cases a <;> cases b <;> simp

/-- **The checks pass where the function has a plan.** -/
theorem checksPass_iff : ChecksPass request readyDeletions pool w ↔
    ∃ pending size removed, Planned request readyDeletions pool w pending size removed := by
  constructor
  · intro ⟨⟨pending, hjournal, hrecords⟩, hidentity, ⟨size, hsize, hsmaller⟩, hzone, hactive⟩
    have hchecked := checkFinalize_eq_ok.mpr ⟨hrecords, hidentity, hsize, hsmaller⟩
    cases hdns : request.dnsEntries with
    | false =>
      refine ⟨pending, size, ∅, hjournal, hchecked, ?_⟩
      unfold dnsRemovals
      rw [hdns, Bool.not_false, if_pos rfl]
    | true =>
      obtain ⟨hzones, hinventory⟩ := hzone hdns
      obtain ⟨names, ips, hnames, hips, hinactive⟩ := hactive hdns
      obtain ⟨zoneId, rest, hzoneId⟩ := List.exists_cons_of_ne_nil hzones
      obtain ⟨domains, hdomains⟩ := exists_domainsToDelete hinventory hinactive
      refine ⟨pending, size, rrsetsOf zoneId domains, hjournal, hchecked, ?_⟩
      simp [dnsRemovals, hdns, hnames, hips, hzoneId, hdomains, isNone_or_isNone.mpr hinventory]
  · intro ⟨pending, size, removed, hjournal, hchecked, hremovals⟩
    obtain ⟨hrecords, hidentity, hsize, hsmaller⟩ := checkFinalize_eq_ok.mp hchecked
    have hzoned : request.dnsEntries = true → (w.zones request.compartmentId request.dns.zoneName ≠ [] ∧
        request.dns.queue.isSome ∧ request.dns.privateSubnet.isSome) ∧ ∃ names ips, pool.activeDisplayNames = some names ∧
          pool.activePrivateIps = some ips ∧ ∀ record ∈ readyDeletions, Inactive request.dns names ips record := by
      intro hdns
      unfold dnsRemovals at hremovals
      rw [hdns, Bool.not_true, if_neg Bool.false_ne_true] at hremovals
      split at hremovals
      · rename_i names ips zoneId rest hnames hips hzones
        split at hremovals
        · cases hremovals
        · rename_i hinventory
          split at hremovals
          · cases hremovals
          · rename_i domains hdomains
            have hsome := isNone_or_isNone.mp (Bool.not_eq_true _ ▸ hinventory)
            have hzoned : w.zones request.compartmentId request.dns.zoneName ≠ [] := by
              rw [hzones]
              exact List.cons_ne_nil _ _
            exact ⟨⟨hzoned, hsome⟩, names, ips, hnames, hips, (domainsToDelete_spec hdomains).1⟩
      · cases hremovals
    exact ⟨⟨pending, hjournal, hrecords⟩, hidentity, ⟨size, hsize, hsmaller⟩, fun hdns => (hzoned hdns).1,
      fun hdns => (hzoned hdns).2⟩

end

/-! ## What the parts leave -/

/-- The postcondition of a program on the files, with the rest as it was. -/
def besideFiles {α : Type} (Q : Post PendingDisk CallError α) (w : FinalSite) : Post FinalSite CallError α :=
  ⟨fun a w' => Q.ret a w'.disk ∧ w' = { w with disk := w'.disk },
    fun e w' => Q.exc e w'.disk ∧ w' = { w with disk := w'.disk },
    fun w' => Q.cut w'.disk ∧ w' = { w with disk := w'.disk }⟩

/-- A program on the files, where calls on files act on them alone. -/
theorem wp_beside {α : Type} {H : Handler resizeSig CallError FinalSite} {H' : Handler fileSig CallError PendingDisk}
    (hH : ∀ {w : FinalSite} {o : FileCall} {answer : Except CallError o.Ans} {w' : FinalSite}, H w (.file o) answer w' →
      H' w.disk o answer w'.disk ∧ w' = { w with disk := w'.disk }) {p : Prog fileSig CallError α}
    {Q : Post PendingDisk CallError α} {w : FinalSite} (h : wp H' p Q w.disk) : wp H (onFiles p) (besideFiles Q w) w := by
  induction p generalizing w with
  | ret a => exact ⟨h, rfl⟩
  | throw e => exact ⟨h, rfl⟩
  | call o k ih =>
    refine wp_perform_attempt_seq ⟨h.1, rfl⟩ fun answer w' hstep => ?_
    obtain ⟨hfile, hw'⟩ := hH hstep
    have hsame : ∀ w'' : FinalSite, { w' with disk := w''.disk } = { w with disk := w''.disk } := fun w'' => by rw [hw']
    refine wp_mono (ih answer (h.2 answer w'.disk hfile)) ?_ ?_ ?_
    · intro a w'' ⟨hret, hw''⟩
      exact ⟨hret, hw''.trans (hsame w'')⟩
    · intro e w'' ⟨hexc, hw''⟩
      exact ⟨hexc, hw''.trans (hsame w'')⟩
    · intro w'' ⟨hcut, hw''⟩
      exact ⟨hcut, hw''.trans (hsame w'')⟩

section
variable {isWord : Char → Bool} {inventoryPath : String} {request : Request} {pending readyDeletions : List Record}
  {pool : PoolState} {w w' : FinalSite}

theorem wp_beside_final {α : Type} {p : Prog fileSig CallError α} {Q : Post PendingDisk CallError α}
    (h : wp step p Q w.disk) : wp (finalStep isWord inventoryPath) (onFiles p) (besideFiles Q w) w :=
  wp_beside (fun hstep => hstep) h

@[simp] theorem FinalSite.without_empty : w.without ∅ = w := by
  rw [FinalSite.without, Set.sdiff_empty]

theorem FinalSite.without_without (removed others : Set (String × Text)) :
    (w.without removed).without others = w.without (removed ∪ others) := by
  rw [FinalSite.without, FinalSite.without, FinalSite.without, Set.sdiff_sdiff]

theorem FinalSite.without_of_not_mem {zoneId : String} {domain : Text} (h : (zoneId, domain) ∉ w.rrsets) :
    w.without {(zoneId, domain)} = w := by
  rw [FinalSite.without, Set.sdiff_singleton_eq_self h]

theorem rrsetsOf_nil (zoneId : String) : rrsetsOf zoneId [] = ∅ := by
  ext rrset
  simp [rrsetsOf]

theorem rrsetsOf_cons (zoneId : String) (domain : Text) (rest : List Text) :
    rrsetsOf zoneId (domain :: rest) = {(zoneId, domain)} ∪ rrsetsOf zoneId rest := by
  ext ⟨zone, other⟩
  simp only [rrsetsOf, List.mem_cons, Set.mem_union, Set.mem_singleton_iff, Prod.mk.injEq, Set.mem_ofPred_eq]
  tauto

/-- One record set is gone, or was not there; where the deletion raises it may be gone. -/
theorem deleteRrSet_spec (zoneId : String) (domain : Text) :
    wp (finalStep isWord inventoryPath) (deletePrivateDnsRrsetIfPresent zoneId domain)
      ⟨fun _ w' => w' = w.without {(zoneId, domain)}, fun _ w' => w' = w ∨ w' = w.without {(zoneId, domain)},
        fun w' => w' = w⟩ w := by
  refine wp_perform_attempt_seq rfl fun answer w' hstep => ?_
  split
  · exact hstep
  · obtain ⟨habsent, rfl⟩ := hstep
    exact (FinalSite.without_of_not_mem habsent).symm
  · rename_i e hother
    have hraised : DeletionRaised w zoneId domain e w' := hstep
    unfold DeletionRaised at hraised
    split at hraised
    · exact absurd rfl (hother _)
    · exact hraised

/-- **The record sets are gone**, or some of them where the loop does not come to its end. -/
theorem deleteDomains_spec (zoneId : String) (domains : List Text) :
    wp (finalStep isWord inventoryPath) (deleteDomains zoneId domains)
      ⟨fun _ w' => w' = w.without (rrsetsOf zoneId domains),
        fun _ w' => ∃ part ⊆ rrsetsOf zoneId domains, w' = w.without part,
        fun w' => ∃ part ⊆ rrsetsOf zoneId domains, w' = w.without part⟩ w := by
  induction domains generalizing w with
  | nil =>
    show w = w.without (rrsetsOf zoneId [])
    rw [rrsetsOf_nil, FinalSite.without_empty]
  | cons domain rest ih =>
    rw [rrsetsOf_cons]
    have hnothing : ∃ part ⊆ {(zoneId, domain)} ∪ rrsetsOf zoneId rest, w = w.without part :=
      ⟨∅, Set.empty_subset _, FinalSite.without_empty.symm⟩
    have hlater : ∀ w'' : FinalSite, (∃ part ⊆ rrsetsOf zoneId rest, w'' = (w.without {(zoneId, domain)}).without part) →
        ∃ part ⊆ {(zoneId, domain)} ∪ rrsetsOf zoneId rest, w'' = w.without part := by
      intro w'' ⟨part, hpart, hw''⟩
      exact ⟨{(zoneId, domain)} ∪ part, Set.union_subset_union_right _ hpart, hw''.trans (FinalSite.without_without _ _)⟩
    refine wp_seq (R := fun _ w' => w' = w.without {(zoneId, domain)}) ?_ fun _ w' hw' => ?_
    · refine wp_mono (deleteRrSet_spec zoneId domain) (fun _ _ h => h) (fun _ w' h => ?_) fun w' h => h ▸ hnothing
      obtain rfl | rfl := h
      · exact hnothing
      · exact ⟨{(zoneId, domain)}, Set.subset_union_left, rfl⟩
    · subst hw'
      refine wp_mono ih (fun _ w'' h => ?_) (fun _ w'' h => hlater w'' h) fun w'' h => hlater w'' h
      exact h.trans (FinalSite.without_without _ _)

/-- What is left of the record sets where the function does not come past them. -/
def Begun (request : Request) (readyDeletions : List Record) (pool : PoolState) (w w' : FinalSite) : Prop :=
  w' = w ∨ ∃ removed,
    dnsRemovals request readyDeletions pool (w.zones request.compartmentId request.dns.zoneName) = some removed ∧
      ∃ part ⊆ removed, w' = w.without part

theorem finalizeDns_spec : wp (finalStep isWord inventoryPath) (finalizeDns request readyDeletions pool)
    ⟨fun _ w' => ∃ removed, dnsRemovals request readyDeletions pool (w.zones request.compartmentId request.dns.zoneName) =
        some removed ∧ w' = w.without removed,
      fun _ w' => Begun request readyDeletions pool w w', fun w' => Begun request readyDeletions pool w w'⟩ w := by
  unfold finalizeDns
  split
  · rename_i hdns
    refine ⟨∅, ?_, FinalSite.without_empty.symm⟩
    unfold dnsRemovals
    rw [if_pos hdns]
  · rename_i hdns
    split
    · rename_i names ips hnames hips
      refine wp_perform_seq (.inl rfl) (fun zones w' hstep => ?_) fun e w' hstep => .inl hstep
      obtain ⟨hzones, rfl⟩ := hstep
      split
      · exact .inl rfl
      · rename_i zoneId rest
        split
        · exact .inl rfl
        · rename_i hinventory
          split
          · exact .inl rfl
          · rename_i domains hdomains
            have hremovals : dnsRemovals request readyDeletions pool
                (w'.zones request.compartmentId request.dns.zoneName) = some (rrsetsOf zoneId domains) := by
              unfold dnsRemovals
              rw [if_neg hdns, hnames, hips, ← hzones]
              dsimp only
              rw [if_neg hinventory, hdomains]
            have hbegun : ∀ w'' : FinalSite, (∃ part ⊆ rrsetsOf zoneId domains, w'' = w'.without part) →
                Begun request readyDeletions pool w' w'' := fun w'' h => .inr ⟨_, hremovals, h⟩
            exact wp_mono (deleteDomains_spec zoneId domains) (fun _ _ h => ⟨_, hremovals, h⟩) (fun _ w'' h => hbegun w'' h)
              fun w'' h => hbegun w'' h
    · exact .inl rfl

theorem updateTFState_returned {size : Int} (h : finalStep isWord inventoryPath w (.updateTFState size) (.ok ()) w') :
    w' = { w with terraform := w'.terraform } ∧
      Recounted isWord inventoryPath size.toNat w.terraform.variablesTf w'.terraform.variablesTf := by
  obtain ⟨hw', updated, hexec⟩ := h
  exact ⟨hw', hexec.of_wp (updateTFState_variables isWord inventoryPath size.toNat w.terraform)⟩

theorem updateTFState_raised {size : Int} {e : CallError}
    (h : finalStep isWord inventoryPath w (.updateTFState size) (.error e) w') :
    w' = { w with terraform := w'.terraform } ∧ (w'.terraform.variablesTf = w.terraform.variablesTf ∨
      Recounted isWord inventoryPath size.toNat w.terraform.variablesTf w'.terraform.variablesTf) := by
  obtain ⟨hw', raised, hexec⟩ := h
  exact ⟨hw', hexec.of_wp (updateTFState_variables isWord inventoryPath size.toNat w.terraform)⟩

end

/-! ## Up to the journal -/

/-- The function up to the rename or the removal of the journal; `true` where the directory has changed. -/
def untilCommitted (request : Request) (readyDeletions : List Record) (pool : PoolState) : Prog resizeSig CallError Bool :=
  if readyDeletions.isEmpty then .ret false
  else
    (onFiles loadPending).bind fun pendingDeletions =>
      match checkFinalize request pendingDeletions readyDeletions pool with
      | .error message => .throw (.runtime message)
      | .ok size =>
          (finalizeDns request readyDeletions pool).bind fun _ =>
            (oci (.updateTFState size)).bind fun _ => onFiles (commitPending (remaining pendingDeletions readyDeletions))

def afterCommit (readyDeletions : List Record) (changed : Bool) : Prog resizeSig CallError Nat :=
  (onFiles (if changed then fsyncDirectory else .ret ())).bind fun _ => .ret readyDeletions.length

theorem onFiles_bind {α β : Type} (p : Prog fileSig CallError α) (f : α → Prog fileSig CallError β) :
    onFiles (p.bind f) = (onFiles p).bind fun a => onFiles (f a) := by
  induction p with
  | ret a => rfl
  | throw e => rfl
  | call o k ih =>
    show (oci (.file o)).attempt.bind (fun answer => onFiles ((k answer).bind f)) =
      ((oci (.file o)).attempt.bind fun answer => onFiles (k answer)).bind fun a => onFiles (f a)
    rw [Prog.bind_assoc]
    exact congrArg _ (funext fun answer => ih answer)

/-- The two parts are the function. -/
theorem finalizePending_eq (request : Request) (readyDeletions : List Record) (pool : PoolState) :
    finalizePending request readyDeletions pool =
      (untilCommitted request readyDeletions pool).bind (afterCommit readyDeletions) := by
  unfold finalizePending untilCommitted
  split
  · rename_i hempty
    rw [List.isEmpty_iff.mp hempty]
    rfl
  · rw [Prog.bind_assoc]
    refine congrArg _ (funext fun pendingDeletions => ?_)
    cases checkFinalize request pendingDeletions readyDeletions pool with
    | error message => rfl
    | ok size =>
      dsimp only
      rw [Prog.bind_assoc]
      refine congrArg _ (funext fun _ => ?_)
      rw [Prog.bind_assoc]
      refine congrArg _ (funext fun _ => ?_)
      rw [writePending, onFiles_bind, Prog.bind_assoc]
      rfl

/-- What a run leaves that does not come to the journal. -/
structure Halfway (isWord : Char → Bool) (inventoryPath : String) (request : Request) (readyDeletions : List Record)
    (pool : PoolState) (w w' : FinalSite) : Prop where
  disk : SameNamed w.disk w'.disk
  zones : w'.zones = w.zones
  effects : w'.rrsets = w.rrsets ∧ w'.terraform = w.terraform ∨ ∃ pending size removed,
    Planned request readyDeletions pool w pending size removed ∧ (∃ part ⊆ removed, w'.rrsets = w.rrsets \ part) ∧
      (w'.terraform.variablesTf = w.terraform.variablesTf ∨
        Recounted isWord inventoryPath size.toNat w.terraform.variablesTf w'.terraform.variablesTf)

/-- What a run leaves that comes past the journal. -/
def Committed (isWord : Char → Bool) (inventoryPath : String) (request : Request) (readyDeletions : List Record)
    (pool : PoolState) (w w' : FinalSite) : Prop :=
  ∃ pending size removed, Planned request readyDeletions pool w pending size removed ∧ w'.zones = w.zones ∧
    w'.rrsets = w.rrsets \ removed ∧
      Recounted isWord inventoryPath size.toNat w.terraform.variablesTf w'.terraform.variablesTf ∧
        Written w.disk (remaining pending readyDeletions) w'.disk

section
variable {isWord : Char → Bool} {inventoryPath : String} {request : Request} {readyDeletions : List Record}
  {pool : PoolState} {w w' : FinalSite}

theorem Halfway.refl : Halfway isWord inventoryPath request readyDeletions pool w w :=
  ⟨SameNamed.refl _, rfl, .inl ⟨rfl, rfl⟩⟩

/-- **What a run leaves**, wherever it ends. -/
theorem untilCommitted_spec (hready : readyDeletions ≠ []) :
    wp (finalStep isWord inventoryPath) (untilCommitted request readyDeletions pool)
      ⟨fun _ => Committed isWord inventoryPath request readyDeletions pool w,
        fun _ => Halfway isWord inventoryPath request readyDeletions pool w,
        Halfway isWord inventoryPath request readyDeletions pool w⟩ w := by
  unfold untilCommitted
  rw [if_neg (fun hempty => hready (List.isEmpty_iff.mp hempty))]
  have hloaded : ∀ w' : FinalSite, w'.disk = w.disk → w' = { w with disk := w'.disk } → w' = w := fun w' hdisk hw' => by
    rw [hw', hdisk]
  refine wp_seq (R := fun pending w' => w' = w ∧ journalOf w.disk = some pending) ?_ fun pending w₁ hload => ?_
  · refine wp_mono (wp_beside_final (loadPending_spec w.disk)) (fun pending w' h => ?_) (fun _ w' h => ?_) fun w' h => ?_
    · exact ⟨hloaded w' h.1.1 h.2, h.1.2⟩
    · rw [hloaded w' h.1 h.2]
      exact Halfway.refl
    · rw [hloaded w' h.1 h.2]
      exact Halfway.refl
  obtain ⟨rfl, hjournal⟩ := hload
  split
  · exact Halfway.refl
  rename_i size hchecked
  have hbegun : ∀ w', Begun request readyDeletions pool w₁ w' →
      Halfway isWord inventoryPath request readyDeletions pool w₁ w' := by
    rintro w' (rfl | ⟨removed, hremovals, part, hpart, rfl⟩)
    · exact Halfway.refl
    · exact ⟨SameNamed.refl _, rfl, .inr ⟨pending, size, removed, ⟨hjournal, hchecked, hremovals⟩, ⟨part, hpart, rfl⟩,
        .inl rfl⟩⟩
  refine wp_seq (wp_mono finalizeDns_spec (fun _ _ h => h) (fun _ w' h => hbegun w' h) fun w' h => hbegun w' h)
    fun _ w₂ hdns => ?_
  obtain ⟨removed, hremovals, rfl⟩ := hdns
  have hplanned : Planned request readyDeletions pool w₁ pending size removed := ⟨hjournal, hchecked, hremovals⟩
  refine wp_perform_seq (hbegun _ (.inr ⟨removed, hremovals, removed, subset_rfl, rfl⟩)) (fun _ w₃ hstep => ?_)
    fun e w₃ hstep => ?_
  · obtain ⟨hw₃, hcount⟩ := updateTFState_returned hstep
    have hrrsets : w₃.rrsets = w₁.rrsets \ removed := by rw [hw₃]; rfl
    have hzones : w₃.zones = w₁.zones := by rw [hw₃]; rfl
    have hdisk : w₃.disk = w₁.disk := by rw [hw₃]; rfl
    have hhalf : ∀ w' : FinalSite, SameNamed w₃.disk w'.disk → w' = { w₃ with disk := w'.disk } →
        Halfway isWord inventoryPath request readyDeletions pool w₁ w' := by
      intro w' hsame hw'
      refine ⟨hdisk ▸ hsame, by rw [hw']; exact hzones, .inr ⟨pending, size, removed, hplanned,
        ⟨removed, subset_rfl, by rw [hw']; exact hrrsets⟩, .inr ?_⟩⟩
      rw [hw']
      exact hcount
    refine wp_mono (wp_beside_final (commitPending_spec (remaining pending readyDeletions) w₃.disk)) (fun _ w' h => ?_)
      (fun _ w' h => hhalf w' h.1 h.2) fun w' h => hhalf w' h.1 h.2
    obtain ⟨hwritten, hw'⟩ := h
    refine ⟨pending, size, removed, hplanned, by rw [hw']; exact hzones, by rw [hw']; exact hrrsets, ?_, hdisk ▸ hwritten⟩
    rw [hw']
    exact hcount
  · obtain ⟨hw₃, hcount⟩ := updateTFState_raised hstep
    have hrrsets : w₃.rrsets = w₁.rrsets \ removed := by rw [hw₃]; rfl
    have hzones : w₃.zones = w₁.zones := by rw [hw₃]; rfl
    have hdisk : w₃.disk = w₁.disk := by rw [hw₃]; rfl
    refine ⟨hdisk ▸ SameNamed.refl _, hzones, .inr ⟨pending, size, removed, hplanned, ?_, hcount⟩⟩
    exact ⟨removed, subset_rfl, hrrsets⟩

theorem afterCommit_spec (changed : Bool) :
    Keeps (finalStep isWord inventoryPath) (· = w) (afterCommit readyDeletions changed) := by
  intro w' hw'
  subst hw'
  have hsame : ∀ w'' : FinalSite, w''.disk = w'.disk → w'' = { w' with disk := w''.disk } → w'' = w' := by
    intro w'' hdisk hw''
    rw [hw'', hdisk]
  have hcalls : (if changed then fsyncDirectory else .ret () : Prog fileSig CallError Unit).Calls Call.Harmless := by
    cases changed with
    | true => exact calls_fsyncDirectory
    | false => trivial
  refine wp_seq (R := fun _ w'' => w'' = w') ?_ fun _ w'' hw'' => hw''
  exact wp_mono (wp_beside_final (keeps_of_harmless hcalls w'.disk w'.disk rfl)) (fun _ w'' h => hsame w'' h.1 h.2)
    (fun _ w'' h => hsame w'' h.1 h.2) fun w'' h => hsame w'' h.1 h.2

theorem finalizePending_effects (hready : readyDeletions ≠ []) :
    wp (finalStep isWord inventoryPath) (finalizePending request readyDeletions pool)
      ⟨fun _ => Committed isWord inventoryPath request readyDeletions pool w,
        fun _ w' => Halfway isWord inventoryPath request readyDeletions pool w w' ∨
          Committed isWord inventoryPath request readyDeletions pool w w',
        fun w' => Halfway isWord inventoryPath request readyDeletions pool w w' ∨
          Committed isWord inventoryPath request readyDeletions pool w w'⟩ w := by
  rw [finalizePending_eq]
  refine wp_seq (wp_mono (untilCommitted_spec hready) (fun _ _ h => h) (fun _ _ h => .inl h) fun _ h => .inl h)
    fun changed w' hcommitted => ?_
  exact wp_mono (afterCommit_spec changed w' rfl) (fun _ _ h => h ▸ hcommitted) (fun _ _ h => .inr (h ▸ hcommitted))
    fun _ h => .inr (h ▸ hcommitted)

end

/-! ## A run that is repeated -/

section
variable {isWord : Char → Bool} {inventoryPath : String} {request : Request} {readyDeletions : List Record}
  {pool : PoolState} {w w' w'' direct : FinalSite} {pending others : List Record} {size another : Int}
  {removed gone : Set (String × Text)}

theorem Planned.unique (h : Planned request readyDeletions pool w pending size removed)
    (h' : Planned request readyDeletions pool w others another gone) :
    pending = others ∧ size = another ∧ removed = gone := by
  obtain rfl := Option.some.inj (h.journal.symm.trans h'.journal)
  exact ⟨rfl, Except.ok.inj (h.checked.symm.trans h'.checked), Option.some.inj (h.removals.symm.trans h'.removals)⟩

/-- A run that does not come to the journal leaves the plan. -/
theorem Halfway.planned_iff (h : Halfway isWord inventoryPath request readyDeletions pool w w') :
    Planned request readyDeletions pool w' pending size removed ↔
      Planned request readyDeletions pool w pending size removed := by
  have hjournal : journalOf w'.disk = journalOf w.disk := journalOf_of_sameNamed h.disk
  constructor
  · intro hplanned
    exact ⟨hjournal ▸ hplanned.journal, hplanned.checked, h.zones ▸ hplanned.removals⟩
  · intro hplanned
    exact ⟨hjournal ▸ hplanned.journal, hplanned.checked, h.zones ▸ hplanned.removals⟩

/-- **A run that is repeated leaves what one run leaves.** -/
theorem Halfway.again (h : Halfway isWord inventoryPath request readyDeletions pool w w')
    (hrerun : Committed isWord inventoryPath request readyDeletions pool w' w'')
    (hdirect : Committed isWord inventoryPath request readyDeletions pool w direct) :
    w''.rrsets = direct.rrsets ∧ w''.terraform.variablesTf = direct.terraform.variablesTf ∧
      w''.disk journalFile = direct.disk journalFile := by
  obtain ⟨pending, size, removed, hplanned, -, hrrsets, hcount, hwritten⟩ := hdirect
  obtain ⟨others, another, gone, hagain, -, hrrsets', hcount', hwritten'⟩ := hrerun
  obtain ⟨rfl, rfl, rfl⟩ := hplanned.unique (h.planned_iff.mp hagain)
  have hjournal : w''.disk journalFile = direct.disk journalFile := by
    rw [hwritten' .journal, hwritten .journal, Function.update_self, Function.update_self]
  obtain ⟨hsame, hterraform⟩ | ⟨others, another, gone, hbegun, ⟨part, hpart, hsome⟩, hcount₁⟩ := h.effects
  · refine ⟨by rw [hrrsets', hsame, hrrsets], ?_, hjournal⟩
    rw [hterraform] at hcount'
    exact Recounted.again (.inl rfl) hcount' hcount
  · obtain ⟨rfl, rfl, rfl⟩ := hplanned.unique hbegun
    refine ⟨?_, Recounted.again hcount₁ hcount' hcount, hjournal⟩
    rw [hrrsets', hsome, hrrsets, Set.sdiff_sdiff, Set.union_eq_self_of_subset_left hpart]

end

/-! ### Where every call succeeds nothing is raised -/

/-- The calls on files where all of them succeed. -/
def smoothFiles : Handler fileSig CallError PendingDisk := fun d o answer d' => step d o answer d' ∧ ∃ a, answer = .ok a

/-- The postcondition of a program that does not raise. -/
def calm {W α : Type} : Post W CallError α := ⟨fun _ _ => True, fun _ _ => False, fun _ => True⟩

/-- The program does not raise where the calls succeed. -/
def Calm {α : Type} (p : Prog fileSig CallError α) : Prop := ∀ d, wp smoothFiles p calm d

section
variable {α β : Type} {p : Prog fileSig CallError α}

theorem calm_ret (a : α) : Calm (.ret a) := fun _ => trivial

theorem calm_ask (o : FileCall) : Calm (ask o) := fun _ =>
  (wp_perform ..).mpr ⟨trivial, fun _ _ _ => trivial, fun e _ hstep => by
    obtain ⟨a, ha⟩ := hstep.2
    cases ha⟩

theorem Calm.bind {f : α → Prog fileSig CallError β} (hp : Calm p) (hf : ∀ a, Calm (f a)) : Calm (p.bind f) := fun d =>
  wp_seq (hp d) fun a d' _ => hf a d'

theorem Calm.attempt_bind {f : Except CallError α → Prog fileSig CallError β} (hp : Calm p) (hf : ∀ a, Calm (f (.ok a))) :
    Calm (p.attempt.bind f) := fun d =>
  wp_seq_attempt (hp d) (fun a d' _ => hf a d') fun _ _ hfalse => hfalse.elim

end

theorem calm_chown (path owner : Files.Path PendingFile) : Calm (chown CallError.isPermission path owner) :=
  (calm_ask _).attempt_bind fun _ => calm_ret ()

theorem calm_preparePending (temp : Files.Path PendingFile) : Calm (preparePending temp) := by
  refine (calm_ask _).bind fun _ => (calm_ask _).bind fun _ => (calm_ask _).bind fun (present : Bool) => ?_
  cases present with
  | true => exact (calm_ask _).bind fun _ => calm_chown temp (.named .inventory)
  | false => exact calm_ret ()

theorem calm_commitPending (pendingDeletions : List Record) : Calm (commitPending pendingDeletions) := by
  unfold commitPending
  split
  · exact (calm_ask _).bind fun present => calm_ret present
  · refine Calm.bind ?_ fun _ => calm_ret true
    refine (calm_ask _).bind fun temp => Calm.attempt_bind ?_ fun _ => calm_ret ()
    exact (calm_ask _).bind fun _ => (calm_preparePending temp).bind fun _ => calm_ask _

theorem calm_fsyncDirectory : Calm fsyncDirectory := by
  refine (calm_ask _).bind fun _ => (calm_ask _).attempt_bind fun result => ?_
  exact (calm_ask _).bind fun _ => calm_ret _

theorem loadPending_calm {d : PendingDisk} {pending : List Record} (h : journalOf d = some pending) :
    wp smoothFiles loadPending ⟨fun found d' => found = pending ∧ d' = d, fun _ _ => False, fun _ => True⟩ d := by
  have hfails : ∀ {o : FileCall} {e : CallError} {d' : PendingDisk}, ¬ smoothFiles d o (.error e) d' := fun hstep => by
    obtain ⟨a, ha⟩ := hstep.2
    cases ha
  refine wp_perform_seq trivial (fun (present : Bool) d' hstep => ?_) fun e d' hstep => hfails hstep
  obtain ⟨⟨hpresent, rfl⟩, -⟩ := hstep
  cases hfile : d' journalFile with
  | none =>
    rw [journalOf, hfile] at h
    rw [hpresent, hfile]
    exact ⟨Option.some.inj h, rfl⟩
  | some content =>
    rw [hpresent, hfile]
    refine wp_perform_attempt_seq trivial fun answer d'' hread => ?_
    cases answer with
    | error e => exact (hfails hread).elim
    | ok found =>
      obtain ⟨⟨hfound, rfl⟩, -⟩ := hread
      obtain rfl := Option.some.inj (hfile.symm.trans hfound)
      cases content with
      | none =>
        rw [journalOf, hfile] at h
        cases h
      | some document =>
        rw [journalOf, hfile] at h
        have haccepted : (decode document).toOption = some pending := h
        show wp smoothFiles (decodePending document) _ d''
        unfold decodePending
        cases hdecode : decode document with
        | error message =>
          rw [hdecode] at haccepted
          cases haccepted
        | ok records =>
          rw [hdecode] at haccepted
          exact ⟨Option.some.inj haccepted, rfl⟩

section
variable {isWord : Char → Bool} {inventoryPath : String} {request : Request} {pending readyDeletions : List Record}
  {pool : PoolState} {w w' : FinalSite} {size : Int} {removed : Set (String × Text)}

theorem wp_beside_smooth {α : Type} {p : Prog fileSig CallError α} {Q : Post PendingDisk CallError α}
    (h : wp smoothFiles p Q w.disk) : wp (smoothStep isWord inventoryPath) (onFiles p) (besideFiles Q w) w := by
  refine wp_beside (fun {w o answer w'} hstep => ?_) h
  obtain ⟨⟨hfile, hw'⟩, hsmooth⟩ := hstep
  cases answer with
  | ok a => exact ⟨⟨hfile, a, rfl⟩, hw'⟩
  | error e => exact False.elim hsmooth

theorem calm_onFiles {α : Type} {p : Prog fileSig CallError α} (hp : Calm p) :
    wp (smoothStep isWord inventoryPath) (onFiles p) calm w :=
  wp_mono (wp_beside_smooth (hp w.disk)) (fun _ _ _ => trivial) (fun _ _ h => h.1) fun _ _ => trivial

theorem calm_deleteDomains (zoneId : String) (domains : List Text) :
    wp (smoothStep isWord inventoryPath) (deleteDomains zoneId domains) calm w := by
  induction domains generalizing w with
  | nil => trivial
  | cons domain rest ih =>
    refine wp_seq (R := fun _ _ => True) ?_ fun _ w' _ => ih
    refine wp_perform_attempt_seq trivial fun answer w' hstep => ?_
    split
    · trivial
    · trivial
    · rename_i e hother
      obtain ⟨text, hnotFound⟩ := hstep.2
      exact hother text hnotFound

theorem calm_finalizeDns (h : dnsRemovals request readyDeletions pool (w.zones request.compartmentId request.dns.zoneName) =
    some removed) : wp (smoothStep isWord inventoryPath) (finalizeDns request readyDeletions pool) calm w := by
  unfold finalizeDns
  unfold dnsRemovals at h
  split
  · trivial
  · rename_i hdns
    rw [if_neg hdns] at h
    split
    · rename_i names ips hnames hips
      refine wp_perform_seq trivial (fun zones w' hstep => ?_) fun e w' hstep => hstep.2
      obtain ⟨⟨hzones, rfl⟩, -⟩ := hstep
      rw [hnames, hips, ← hzones] at h
      cases zones with
      | nil => cases h
      | cons zoneId rest =>
        dsimp only at h ⊢
        split
        · rename_i hinventory
          rw [if_pos hinventory] at h
          cases h
        · rename_i hinventory
          rw [if_neg hinventory] at h
          split
          · rename_i hdomains
            rw [hdomains] at h
            cases h
          · exact calm_deleteDomains zoneId _
    · rename_i hnone
      split at h
      · exact (hnone _ _ ‹_› ‹_›).elim
      · cases h

/-- **Where the checks pass and the calls succeed nothing is raised.** -/
theorem calm_finalizePending (h : Planned request readyDeletions pool w pending size removed) :
    wp (smoothStep isWord inventoryPath) (finalizePending request readyDeletions pool) calm w := by
  unfold finalizePending
  split
  · trivial
  · refine wp_seq (R := fun found w' => found = pending ∧ w'.zones = w.zones) ?_ fun found w₁ hload => ?_
    · refine wp_mono (wp_beside_smooth (loadPending_calm h.journal)) (fun _ w' hload => ⟨hload.1.1, ?_⟩)
        (fun _ _ hfalse => hfalse.1) fun _ _ => trivial
      rw [hload.2]
    · obtain ⟨rfl, hzones⟩ := hload
      rw [h.checked]
      dsimp only
      refine wp_seq (calm_finalizeDns (hzones ▸ h.removals)) fun _ w₂ _ => ?_
      refine wp_perform_seq trivial (fun _ w₃ _ => ?_) fun e w₃ hstep => hstep.2
      refine wp_seq (calm_onFiles ((calm_commitPending _).bind fun changed => ?_)) fun _ _ _ => trivial
      cases changed with
      | true => exact calm_fsyncDirectory
      | false => exact calm_ret ()

end

end OciHpc.Resize
