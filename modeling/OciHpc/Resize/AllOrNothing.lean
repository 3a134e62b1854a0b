import Mathlib.Data.List.Induction
import OciHpc.Resize.FinalizePending
import OciHpc.Resize.MountPoint

/-!
# Finalizing is all or nothing

The DNS records that `finalize_pending_local_block_volume_deletions` spares, and what is promised of it.

* `dotted_of_ipAddress` : an address has one text;
* `sparesActive_of_domainsToDelete` : the domains that go are no active member's;
* `finalize_all_or_nothing` : nothing changes unless the checks pass, the journal loses the records that are ready, a run
  that raised can be repeated, and the DNS records of active members stay.
-/

namespace OciHpc.Resize
open Prog Files

/-! ## Active members -/

theorem exists_digitChar {c : Char} (h : c.isDigit = true) : ∃ d < 10, d.digitChar = c := by
  have hrange := PyStr.isDigit_range h
  have hall : ∀ d : Fin 10, d.val.digitChar.toNat = d.val + 48 := by decide
  have hsame := hall ⟨c.toNat - 48, by omega⟩
  refine ⟨c.toNat - 48, by omega, Char.toNat_inj.mp ?_⟩
  rw [hsame]
  show c.toNat - 48 + 48 = c.toNat
  omega

/-- A number without leading zeros is written as it was read. -/
theorem toDigits_ofDigitChars {s : Text} (hne : s ≠ []) (hdigits : ∀ c ∈ s, c.isDigit = true)
    (hhead : s = ['0'] ∨ s.head? ≠ some '0') : Nat.toDigits 10 (Nat.ofDigitChars 10 s 0) = s := by
  induction s using List.reverseRecOn with
  | nil => exact absurd rfl hne
  | append_singleton init c ih =>
    obtain ⟨d, hd, hchar⟩ := exists_digitChar (hdigits c (by simp))
    rw [← hchar, Nat.ofDigitChars_append, Nat.ofDigitChars_cons_digitChar_of_lt_ten hd, Nat.ofDigitChars_nil]
    cases init with
    | nil =>
      rw [Nat.ofDigitChars_nil, Nat.mul_zero, Nat.zero_add, Nat.toDigits_of_lt_base hd]
      rfl
    | cons first rest =>
      have hfirst : (first :: rest).head? ≠ some '0' := by
        rcases hhead with heq | hhead
        · simp at heq
        · exact hhead
      have hinit := ih (List.cons_ne_nil _ _) (fun c hc => hdigits c (List.mem_append_left _ hc)) (.inr hfirst)
      have hpos : 0 < Nat.ofDigitChars 10 (first :: rest) 0 := by
        by_contra hzero
        rw [Nat.eq_zero_of_not_pos hzero] at hinit
        exact hfirst (by rw [← hinit]; rfl)
      rw [← Nat.toDigits_append_toDigits (by decide) hpos hd, hinit, Nat.toDigits_of_lt_base hd]

theorem parseOctet_eq_some {s : Text} {n : Nat} (h : parseOctet s = some n) : n < 256 ∧ (Nat.repr n).toList = s := by
  unfold parseOctet at h
  split at h
  · cases h
  · rename_i hform
    split at h
    · cases h
    · rename_i hsmall
      obtain rfl := Option.some.inj h
      simp only [Bool.or_eq_true, Bool.not_eq_true', Bool.and_eq_true, not_or, not_and, decide_eq_true_eq] at hform
      obtain ⟨⟨⟨hne, hdigits⟩, -⟩, hhead⟩ := hform
      refine ⟨by omega, ?_⟩
      rw [Nat.toList_repr]
      refine toDigits_ofDigitChars (by simpa using hne) (by simpa using hdigits) ?_
      by_cases hzero : s = ['0']
      · exact .inl hzero
      · exact .inr (hhead hzero)

/-- **An address has one text.** -/
theorem dotted_of_ipAddress {s : Text} {address : Nat} (h : ipAddress s = some address) : dotted address = s := by
  unfold ipAddress at h
  split at h
  · rename_i a b c d hpieces
    simp only [Option.bind_eq_bind, Option.bind_eq_some_iff, Option.some.injEq] at h
    obtain ⟨a', ha, b', hb, c', hc, d', hd, rfl⟩ := h
    obtain ⟨halt, ha⟩ := parseOctet_eq_some ha
    obtain ⟨hblt, hb⟩ := parseOctet_eq_some hb
    obtain ⟨hclt, hc⟩ := parseOctet_eq_some hc
    obtain ⟨hdlt, hd⟩ := parseOctet_eq_some hd
    have hjoined := joinWith_splitAt '.' s
    rw [hpieces] at hjoined
    have h₁ : (((a' * 256 + b') * 256 + c') * 256 + d') / 16777216 % 256 = a' := by omega
    have h₂ : (((a' * 256 + b') * 256 + c') * 256 + d') / 65536 % 256 = b' := by omega
    have h₃ : (((a' * 256 + b') * 256 + c') * 256 + d') / 256 % 256 = c' := by omega
    have h₄ : (((a' * 256 + b') * 256 + c') * 256 + d') % 256 = d' := by omega
    rw [dotted, h₁, h₂, h₃, h₄, ha, hb, hc, hd, ← hjoined]
    simp [joinWith]
  · cases h

/-- The name has the form of the names that Slurm gives. -/
def DnsSite.SlurmNamed (site : DnsSite) (name : String) : Prop :=
  ∃ queue number, site.queue = some queue ∧
    name.toList = queue ++ '-' :: site.instanceType ++ '-' :: (Nat.repr number).toList

section
variable {site : DnsSite} {ip other domain : Text}

theorem DnsSite.slurmDomain_eq_some (h : site.slurmDomain ip = some domain) :
    ∃ subnet address index queue, site.privateSubnet = some subnet ∧ ipAddress ip = some address ∧
      subnet.hosts.idxOf? address = some index ∧ site.queue = some queue ∧
        domain = queue ++ '-' :: site.instanceType ++ '-' :: (Nat.repr (index + 2)).toList ++ '.' :: site.zoneName := by
  simp only [DnsSite.slurmDomain, Subnet.hostIndex, Option.bind_eq_bind, Option.bind_eq_some_iff, Option.map_eq_some_iff,
    Option.some.injEq] at h
  obtain ⟨subnet, hsubnet, _, ⟨address, haddress, index, hindex, rfl⟩, queue, hqueue, rfl⟩ := h
  exact ⟨subnet, address, index, queue, hsubnet, haddress, hindex, hqueue, rfl⟩

/-- The domain of an address is no other address's. -/
theorem DnsSite.slurmDomain_inj (h : site.slurmDomain ip = some domain) (h' : site.slurmDomain other = some domain) :
    ip = other := by
  obtain ⟨subnet, address, index, queue, hsubnet, haddress, hindex, hqueue, rfl⟩ := DnsSite.slurmDomain_eq_some h
  obtain ⟨subnet', address', index', queue', hsubnet', haddress', hindex', hqueue', heq⟩ := DnsSite.slurmDomain_eq_some h'
  obtain rfl := Option.some.inj (hsubnet.symm.trans hsubnet')
  obtain rfl := Option.some.inj (hqueue.symm.trans hqueue')
  have hnumber : (Nat.repr (index + 2)).toList = (Nat.repr (index' + 2)).toList := by simpa using heq
  have hsame := (tonumber_repr (index + 2)).symm.trans ((congrArg tonumber hnumber).trans (tonumber_repr (index' + 2)))
  obtain rfl : index = index' := by simpa using hsame
  obtain ⟨_, hat, -⟩ := List.idxOf?_eq_some_iff.mp hindex
  obtain ⟨_, hat', -⟩ := List.idxOf?_eq_some_iff.mp hindex'
  rw [← dotted_of_ipAddress haddress, ← dotted_of_ipAddress haddress', ← hat, ← hat']

theorem DnsSite.slurmDomain_ne_instanceDomain {name : String} (hname : ¬ site.SlurmNamed name)
    (h : site.slurmDomain ip = some domain) : domain ≠ site.instanceDomain name.toList := by
  obtain ⟨subnet, address, index, queue, -, -, -, hqueue, rfl⟩ := DnsSite.slurmDomain_eq_some h
  intro heq
  rw [DnsSite.instanceDomain] at heq
  exact hname ⟨queue, index + 2, hqueue, (List.append_cancel_right heq).symm⟩

end

/-- No record of an active member has this domain. -/
def SparesActive (dns : DnsSite) (names ips : List String) (domain : Text) : Prop :=
  (∀ name ∈ names, domain ≠ dns.instanceDomain name.toList) ∧ ∀ ip ∈ ips, dns.slurmDomain ip.toList ≠ some domain

section
variable {request : Request} {readyDeletions : List Record} {pool : PoolState} {dns : DnsSite} {names ips : List String}

/-- **The domains that go are no active member's**, unless a name has the form of those that Slurm gives. -/
theorem sparesActive_of_domainsToDelete {domains : List Text}
    (hforms : ∀ name, name ∈ names ∨ name ∈ readyDeletions.map (·.instanceDisplayName) → ¬ dns.SlurmNamed name)
    (h : domainsToDelete dns names ips readyDeletions = .ok domains) :
    ∀ domain ∈ domains, SparesActive dns names ips domain := by
  intro domain hdomain
  obtain ⟨hinactive, hdomains⟩ := domainsToDelete_spec h
  obtain ⟨record, hmem, hrecord⟩ := hdomains domain hdomain
  obtain ⟨⟨address, haddress, hname, hip⟩, -⟩ := hinactive record hmem
  have hform : ¬ dns.SlurmNamed record.instanceDisplayName := hforms _ (.inr (List.mem_map_of_mem hmem))
  rcases hrecord with rfl | hslurm
  · refine ⟨fun name hactive heq => ?_, fun ip _ hslurm => DnsSite.slurmDomain_ne_instanceDomain hform hslurm rfl⟩
    have hsame : record.instanceDisplayName.toList = name.toList := List.append_cancel_right heq
    exact hname (String.toList_inj.mp hsame ▸ hactive)
  · refine ⟨fun name hactive => DnsSite.slurmDomain_ne_instanceDomain (hforms name (.inl hactive)) hslurm,
      fun ip hactive hother => ?_⟩
    have hsame := DnsSite.slurmDomain_inj hslurm hother
    rw [hsame] at haddress
    apply hip
    rw [dotted_of_ipAddress haddress, String.ofList_toList]
    exact hactive

/-- The calls of a run: the domains of record sets that are deleted are no active member's. -/
def SparingCall (dns : DnsSite) (names ips : List String) : ResizeCall → Prop
  | .deleteRrSet _ domain => SparesActive dns names ips domain
  | _ => True

theorem calls_finalizePending_sparing (hnames : pool.activeDisplayNames = some names)
    (hips : pool.activePrivateIps = some ips)
    (hforms : ∀ name, name ∈ names ∨ name ∈ readyDeletions.map (·.instanceDisplayName) → ¬ request.dns.SlurmNamed name) :
    (finalizePending request readyDeletions pool).Calls (SparingCall request.dns names ips) := by
  have hdelete : ∀ zoneId domains, (∀ domain ∈ domains, SparesActive request.dns names ips domain) →
      (deleteDomains zoneId domains).Calls (SparingCall request.dns names ips) := by
    intro zoneId domains hdomains
    refine Calls.forEach_of_mem (fun domain hdomain _ => ?_) ()
    refine Calls.bind (calls_perform (hdomains domain hdomain)).attempt fun answer => ?_
    split <;> trivial
  have hdns : (finalizeDns request readyDeletions pool).Calls (SparingCall request.dns names ips) := by
    unfold finalizeDns
    split
    · trivial
    · rw [hnames, hips]
      refine Calls.bind (calls_perform trivial) fun zones => ?_
      split
      · trivial
      · split
        · trivial
        · split
          · trivial
          · rename_i domains hdomains
            exact hdelete _ domains (sparesActive_of_domainsToDelete hforms hdomains)
  unfold finalizePending
  split
  · trivial
  · refine (calls_onFiles (fun _ => trivial) loadPending).bind fun pending => ?_
    split
    · trivial
    · refine hdns.bind fun _ => Calls.bind (calls_perform trivial) fun _ => ?_
      exact (calls_onFiles (fun _ => trivial) _).bind fun _ => trivial

end

/-! ## All or nothing -/

/-- What is promised of finalizing these records in a cluster. -/
structure AllOrNothing (isWord : Char → Bool) (inventoryPath : String) (request : Request) (readyDeletions : List Record)
    (pool : PoolState) (w : FinalSite) : Prop where
  /-- Where a check fails nothing is changed, and the function does not return unless there is nothing to do. -/
  unchanged : ¬ ChecksPass request readyDeletions pool w → ∀ out w',
    Exec (finalStep isWord inventoryPath) (finalizePending request readyDeletions pool) w out w' →
      w'.rrsets = w.rrsets ∧ w'.terraform = w.terraform ∧ w'.disk journalFile = w.disk journalFile ∧
        ∀ n, out = .done n → readyDeletions = []
  /-- Where it returns the journal has lost the records that are ready, and no other. -/
  finalized : ∀ n w', Exec (finalStep isWord inventoryPath) (finalizePending request readyDeletions pool) w (.done n) w' →
    ∀ pending, journalOf w.disk = some pending → ∃ left, journalOf w'.disk = some left ∧ List.Forall₂ Record.Same left
      (pending.filter fun record => record.volumeId ∉ readyDeletions.map (·.volumeId))
  /-- What raises raises before the rename or the removal of the journal, or after it. -/
  parts : finalizePending request readyDeletions pool =
    (untilCommitted request readyDeletions pool).bind (afterCommit readyDeletions)
  /-- Where it raises before, the journal is the old one. Where the checks passed it can be repeated, and then leaves
  what one run leaves. -/
  repeatable : ∀ e w', Exec (finalStep isWord inventoryPath) (untilCommitted request readyDeletions pool) w (.raised e) w' →
    w'.disk journalFile = w.disk journalFile ∧
      (ChecksPass request readyDeletions pool w → ∀ out w'',
        Exec (smoothStep isWord inventoryPath) (finalizePending request readyDeletions pool) w' out w'' →
          ∀ e, out ≠ .raised e) ∧
      ∀ n m w'' direct,
        Exec (finalStep isWord inventoryPath) (finalizePending request readyDeletions pool) w' (.done n) w'' →
        Exec (finalStep isWord inventoryPath) (finalizePending request readyDeletions pool) w (.done m) direct →
          w''.rrsets = direct.rrsets ∧ w''.terraform.variablesTf = direct.terraform.variablesTf ∧
            w''.disk journalFile = direct.disk journalFile
  /-- No record of an active member is deleted, unless a name has the form of those that Slurm gives. -/
  spares : ∀ names ips, pool.activeDisplayNames = some names → pool.activePrivateIps = some ips →
    (∀ name, name ∈ names ∨ name ∈ readyDeletions.map (·.instanceDisplayName) → ¬ request.dns.SlurmNamed name) →
      ∀ out events, Trace (finalizePending request readyDeletions pool) out events →
        ∀ zoneId domain answer, (⟨.deleteRrSet zoneId domain, answer⟩ : Event resizeSig CallError) ∈ events →
          SparesActive request.dns names ips domain

section
variable {isWord : Char → Bool} {inventoryPath : String} {request : Request} {readyDeletions : List Record}
  {pool : PoolState} {w w' : FinalSite}

theorem same_refl (record : Record) : record.Same record := Json.SameValue.refl _

theorem eq_of_exec_ret {α : Type} {a : α} {out : Outcome CallError α}
    (h : Exec (finalStep isWord inventoryPath) (.ret a) w out w') : w' = w := by
  cases h
  rfl

theorem effects_of_exec {out : Outcome CallError Nat} (hready : readyDeletions ≠ [])
    (h : Exec (finalStep isWord inventoryPath) (finalizePending request readyDeletions pool) w out w') :
    Committed isWord inventoryPath request readyDeletions pool w w' ∨
      Halfway isWord inventoryPath request readyDeletions pool w w' ∧ ∀ n, out ≠ .done n := by
  have hspec := h.of_wp (finalizePending_effects hready)
  cases out with
  | done n => exact .inl hspec
  | raised e => exact hspec.elim (fun h => .inr ⟨h, by simp⟩) .inl
  | cut => exact hspec.elim (fun h => .inr ⟨h, by simp⟩) .inl

/-- **Finalizing is all or nothing.** -/
theorem finalize_all_or_nothing (isWord : Char → Bool) (inventoryPath : String) (request : Request)
    (readyDeletions : List Record) (pool : PoolState) (w : FinalSite) :
    AllOrNothing isWord inventoryPath request readyDeletions pool w where
  unchanged hfails out w' h := by
    by_cases hready : readyDeletions = []
    · subst hready
      obtain rfl := eq_of_exec_ret h
      exact ⟨rfl, rfl, rfl, fun _ _ => rfl⟩
    · obtain ⟨pending, size, removed, hplanned, -⟩ | ⟨hhalf, hends⟩ := effects_of_exec hready h
      · exact absurd (checksPass_iff.mpr ⟨pending, size, removed, hplanned⟩) hfails
      · obtain ⟨hrrsets, hterraform⟩ | ⟨pending, size, removed, hplanned, -⟩ := hhalf.effects
        · exact ⟨hrrsets, hterraform, hhalf.disk .journal, fun n hdone => absurd hdone (hends n)⟩
        · exact absurd (checksPass_iff.mpr ⟨pending, size, removed, hplanned⟩) hfails
  finalized n w' h pending hpending := by
    by_cases hready : readyDeletions = []
    · subst hready
      obtain rfl := eq_of_exec_ret h
      refine ⟨pending, hpending, ?_⟩
      simpa using List.forall₂_same.mpr fun record _ => same_refl record
    · obtain ⟨others, size, removed, hplanned, -, -, -, hwritten⟩ | ⟨-, hends⟩ := effects_of_exec hready h
      · obtain rfl := Option.some.inj (hplanned.journal.symm.trans hpending)
        have hnodup := nodup_remaining (nodup_of_journalOf hpending) readyDeletions
        exact ⟨_, journalOf_of_written hwritten hnodup, forall₂_written _⟩
      · exact absurd rfl (hends n)
  parts := finalizePending_eq request readyDeletions pool
  repeatable e w' h := by
    by_cases hready : readyDeletions = []
    · subst hready
      cases h
    · have hhalf : Halfway isWord inventoryPath request readyDeletions pool w w' := h.of_wp (untilCommitted_spec hready)
      refine ⟨hhalf.disk .journal, fun hpass out w'' hrerun e' hraised => ?_, fun n m w'' direct hrerun hdirect => ?_⟩
      · obtain ⟨pending, size, removed, hplanned⟩ := checksPass_iff.mp hpass
        have hcalm := hrerun.of_wp (calm_finalizePending (hhalf.planned_iff.mpr hplanned))
        rw [hraised] at hcalm
        exact hcalm
      · obtain hrerun | ⟨-, hends⟩ := effects_of_exec hready hrerun
        · obtain hdirect | ⟨-, hends⟩ := effects_of_exec hready hdirect
          · exact hhalf.again hrerun hdirect
          · exact absurd rfl (hends m)
        · exact absurd rfl (hends n)
  spares names ips hnames hips hforms out events h zoneId domain answer hmem :=
    h.calls (calls_finalizePending_sparing hnames hips hforms) _ hmem

end

end OciHpc.Resize
