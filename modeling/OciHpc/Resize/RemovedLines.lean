import Mathlib.Data.List.Chain
import OciHpc.Resize.DestroyUnreachable
import OciHpc.Resize.HostLine
import OciHpc.Resize.UnterminatedLine

/-!
# The lines a removal takes out of the inventory

What `destroy_unreachable_reconfigure` of `resize.py` makes of the inventory when it succeeds.

* `named` : a line of a host that is to be removed;
* `EditsExactly` : the lines of those hosts are gone, all others are kept, and the playbook was run for their addresses;
* `exactEdit` : the inventory edited so;
* `removeHostLines_eq` : the loop removes the lines that contain a host, where no two neighbours do;
* `editsExactly_of_findsEach` : where the text of a line tells whose it is, the edit is exact.
-/

namespace OciHpc.Resize

/-! ## What a line contains -/

theorem infix_of_mem_reSplitFrom {blank : Bool} {s piece word : Text} (hblank : blank = true → piece = [])
    (h : word ∈ PyStr.reSplitFrom blank piece s) : word <:+: piece.reverse ++ s := by
  induction s generalizing blank piece with
  | nil =>
      rw [PyStr.reSplitFrom, List.mem_singleton] at h
      subst h
      exact ⟨[], [], rfl⟩
  | cons c rest ih =>
      rw [PyStr.reSplitFrom] at h
      have hlater : ∀ {word : Text}, word <:+: [].reverse ++ rest → word <:+: piece.reverse ++ c :: rest := fun hinfix =>
        hinfix.trans ((List.suffix_cons c rest).trans (List.suffix_append _ _)).isInfix
      split at h
      · split at h
        · rename_i hb
          rw [hblank hb] at h
          exact hlater (ih (fun _ => rfl) h)
        · rcases List.mem_cons.mp h with rfl | h
          · exact (List.prefix_append _ _).isInfix
          · exact hlater (ih (fun _ => rfl) h)
      · have hnext := ih (fun hfalse => absurd hfalse Bool.false_ne_true) h
        rw [List.reverse_cons, List.append_assoc, List.singleton_append] at hnext
        exact hnext

theorem infix_of_mem_words {s word : Text} (h : word ∈ words s) : word <:+: s :=
  infix_of_mem_reSplitFrom (fun hfalse => absurd hfalse Bool.false_ne_true) (List.mem_filter.mp h).1

theorem infix_of_mem_tokens {line token : Text} {parsed : HostLine} (h : splitInventoryHostLine line = some parsed)
    (htoken : token ∈ parsed.tokens) : token <:+: line := by
  rw [splitInventoryHostLine] at h
  split at h
  · cases h
  · obtain rfl := Option.some.inj h
    have hfront : rstrip (splitComment (strip (rstripNewlines line))).1 <+: strip (rstripNewlines line) :=
      List.IsPrefix.trans ⟨_, append_rstrip _⟩ (splitComment_isPrefix _)
    exact (infix_of_mem_words htoken).trans (hfront.isInfix.trans ((strip_isInfix _).trans
      (rstripNewlines_isPrefix line).isInfix))

theorem isIn_of_hostName {line host : Text} (h : hostName line = some host) : isIn host line = true := by
  obtain ⟨parsed, hparsed, hhead⟩ := Option.bind_eq_some_iff.mp h
  exact hasInfix_iff.mpr (infix_of_mem_tokens hparsed (List.mem_of_head? hhead))

theorem isIn_of_hostAddress {line host : Text} (h : hostAddress line = some host) : isIn host line = true := by
  obtain ⟨parsed, hparsed, hlast⟩ := Option.bind_eq_some_iff.mp h
  obtain ⟨token, htoken, hvalue⟩ := List.mem_filterMap.mp (List.mem_of_getLast? hlast)
  rw [tokenValue] at hvalue
  split at hvalue
  · obtain rfl := Option.some.inj hvalue
    exact hasInfix_iff.mpr ((List.drop_suffix _ token).isInfix.trans
      (infix_of_mem_tokens hparsed (List.mem_of_mem_drop htoken)))
  · cases hvalue

/-! ## The loop that removes from the list it goes through -/

/-- No two neighbouring lines both contain the host. -/
def Apart (host : Text) (lines : List Text) : Prop :=
  lines.IsChain fun line next => ¬ (isIn host line = true ∧ isIn host next = true)

theorem removeLines_eq {host : Text} (fuel : Nat) (front rest : List Text) (hfuel : rest.length ≤ fuel)
    (hfront : ∀ line ∈ front, isIn host line = false) (hapart : Apart host rest) :
    removeLines host fuel front.length (front ++ rest) =
      (front ++ rest.filter (fun line => !isIn host line), rest.filter fun line => isIn host line) := by
  induction fuel generalizing front rest with
  | zero =>
      rw [List.length_eq_zero_iff.mp (Nat.le_zero.mp hfuel), removeLines]
      simp
  | succ fuel ih =>
      cases rest with
      | nil => simp [removeLines]
      | cons line more =>
          have hget : (front ++ line :: more)[front.length]? = some line := by simp
          rw [removeLines, hget]
          dsimp only
          cases hline : isIn host line with
          | false =>
              have hnext := ih (front ++ [line]) more (Nat.le_of_succ_le_succ hfuel)
                (fun other hother => (List.mem_append.mp hother).elim (hfront other)
                  fun h => List.mem_singleton.mp h ▸ hline) hapart.tail
              rw [List.length_append, List.length_singleton, List.append_assoc, List.singleton_append,
                List.append_assoc, List.singleton_append] at hnext
              rw [if_neg Bool.false_ne_true, hnext]
              simp [hline]
          | true =>
              -- the line is the first one equal to it, since none before it contains the host
              have hnot : line ∉ front := fun hmem => by
                rw [hfront line hmem] at hline
                cases hline
              rw [if_pos rfl, List.erase_append_right _ hnot, List.erase_cons_head]
              cases more with
              | nil =>
                  have hend : removeLines host fuel (front.length + 1) (front ++ []) = (front ++ [], []) := by
                    cases fuel <;> simp [removeLines]
                  rw [hend]
                  simp [hline]
              | cons next more =>
                  -- the line after it is passed over, and does not contain the host
                  have hpassed : isIn host next = false := by
                    have hpair := (List.isChain_cons_cons.mp hapart).1
                    rw [hline] at hpair
                    simpa using hpair
                  have hlength : more.length ≤ fuel := by
                    simp only [List.length_cons] at hfuel
                    omega
                  have hnext := ih (front ++ [next]) more hlength
                    (fun other hother => (List.mem_append.mp hother).elim (hfront other)
                      fun h => List.mem_singleton.mp h ▸ hpassed) hapart.tail.tail
                  rw [List.length_append, List.length_singleton, List.append_assoc, List.singleton_append,
                    List.append_assoc, List.singleton_append] at hnext
                  rw [hnext]
                  simp [hline, hpassed]

/-- **Where no two neighbours contain the host, the loop removes the lines that do.** -/
theorem removeHostLines_eq {host : Text} {lines : List Text} (h : Apart host lines) :
    removeHostLines host lines =
      (lines.filter (fun line => !isIn host line), lines.filter fun line => isIn host line) :=
  removeLines_eq lines.length [] lines (Nat.le_refl _) (fun _ hmem => absurd hmem List.not_mem_nil) h

/-! ## The turns of the hosts -/

/-- The sections the function removes lines from. -/
def editedSections : List Text := ["compute_configured".toList, "compute_to_add".toList, "nfs".toList]

def containsOne (hosts : List Text) (line : Text) : Bool := hosts.any fun host => isIn host line

/-- At the turn of each host no two neighbours contain it; the lines that contain a host before it are gone. -/
def AlwaysApart (hosts lines : List Text) : Prop :=
  ∀ before host after, hosts = before ++ host :: after →
    Apart host (lines.filter fun line => !containsOne before line)

theorem AlwaysApart.head {host : Text} {rest lines : List Text} (h : AlwaysApart (host :: rest) lines) :
    Apart host lines := by
  have hfirst := h [] host rest rfl
  have hall : lines.filter (fun line => !containsOne [] line) = lines := List.filter_eq_self.mpr fun _ _ => rfl
  rwa [hall] at hfirst

theorem filter_containsOne (host : Text) (rest lines : List Text) :
    (lines.filter fun line => !isIn host line).filter (fun line => !containsOne rest line) =
      lines.filter fun line => !containsOne (host :: rest) line := by
  rw [List.filter_filter]
  refine List.filter_congr fun line _ => ?_
  show (!containsOne rest line && !isIn host line) = !(isIn host line || containsOne rest line)
  rw [Bool.not_or, Bool.and_comm]

theorem AlwaysApart.tail {host : Text} {rest lines : List Text} (h : AlwaysApart (host :: rest) lines) :
    AlwaysApart rest (lines.filter fun line => !isIn host line) := by
  rintro before other after rfl
  rw [filter_containsOne]
  exact h (host :: before) other after rfl

/-- What is left of the sections, and the compute lines whose addresses were read. -/
structure Removed (hosts : List Text) (before after : Inventory) (ips : List Text) : Prop where
  edited : ∀ name ∈ editedSections, after.lines? name =
    (before.lines? name).map fun lines => lines.filter fun line => !containsOne hosts line
  others : ∀ name, name ∉ editedSections → after.lines? name = before.lines? name
  keys : after.map (·.1) = before.map (·.1)
  ips : (ips.map some).Perm (((computeLines before).filter (containsOne hosts)).map ansibleHost)

theorem mapM_eq_some {f : Text → Option Text} {lines ips : List Text} (h : lines.mapM f = some ips) :
    ips.map some = lines.map f := by
  induction lines generalizing ips with
  | nil =>
      rw [List.mapM_nil] at h
      obtain rfl := Option.some.inj h
      rfl
  | cons line rest ih =>
      rw [List.mapM_cons] at h
      obtain ⟨ip, hip, h⟩ := Option.bind_eq_some_iff.mp h
      obtain ⟨more, hmore, h⟩ := Option.bind_eq_some_iff.mp h
      obtain rfl := Option.some.inj h
      rw [List.map_cons, List.map_cons, hip, ih hmore]

theorem removeHost_spec {host : Text} {inventory : Inventory}
    (hapart : ∀ name ∈ editedSections, ∀ lines, inventory.lines? name = some lines → Apart host lines)
    {edited : Inventory × List Text} (h : removeHost host inventory = some edited) :
    Removed [host] inventory edited.1 edited.2 := by
  obtain ⟨configured, hconfigured, h⟩ := Option.bind_eq_some_iff.mp h
  obtain ⟨configuredLines, hconfiguredLines, rfl⟩ := Option.map_eq_some_iff.mp hconfigured
  obtain ⟨ips, hips, h⟩ := Option.bind_eq_some_iff.mp h
  obtain ⟨toAdd, htoAdd, h⟩ := Option.bind_eq_some_iff.mp h
  obtain ⟨toAddLines, htoAddLines, rfl⟩ := Option.map_eq_some_iff.mp htoAdd
  obtain ⟨ips', hips', h⟩ := Option.bind_eq_some_iff.mp h
  obtain ⟨nfs, hnfs, h⟩ := Option.bind_eq_some_iff.mp h
  obtain ⟨nfsLines, hnfsLines, rfl⟩ := Option.map_eq_some_iff.mp hnfs
  obtain rfl := Option.some.inj h
  rw [Inventory.lines?_set_of_ne (by decide)] at htoAddLines hnfsLines
  rw [Inventory.lines?_set_of_ne (by decide)] at hnfsLines
  have hone : ∀ line, containsOne [host] line = isIn host line := fun line => Bool.or_false _
  have hfirst := removeHostLines_eq (hapart _ (by decide) _ hconfiguredLines)
  have hsecond := removeHostLines_eq (hapart _ (by decide) _ htoAddLines)
  have hthird := removeHostLines_eq (hapart _ (by decide) _ hnfsLines)
  rw [hfirst] at hips
  rw [hsecond] at hips'
  refine ⟨fun name hname => ?_, fun name hname => ?_, ?_, ?_⟩
  · simp only [hone]
    simp only [editedSections, List.mem_cons, List.not_mem_nil, or_false] at hname
    rcases hname with rfl | rfl | rfl
    · rw [Inventory.lines?_set_of_ne (by decide), Inventory.lines?_set_of_ne (by decide), Inventory.lines?_set_self,
        hconfiguredLines, hfirst]
      rfl
    · rw [Inventory.lines?_set_of_ne (by decide), Inventory.lines?_set_self, htoAddLines, hsecond]
      rfl
    · rw [Inventory.lines?_set_self, hnfsLines, hthird]
      rfl
  · have hne : name ≠ "compute_configured".toList ∧ name ≠ "compute_to_add".toList ∧ name ≠ "nfs".toList := by
      simpa [editedSections] using hname
    rw [Inventory.lines?_set_of_ne hne.2.2, Inventory.lines?_set_of_ne hne.2.1, Inventory.lines?_set_of_ne hne.1]
  · have htoAdd : (inventory.set "compute_configured".toList (removeHostLines host configuredLines).1).lines?
        "compute_to_add".toList = some toAddLines := (Inventory.lines?_set_of_ne (by decide)).trans htoAddLines
    have hnfs : ((inventory.set "compute_configured".toList (removeHostLines host configuredLines).1).set
        "compute_to_add".toList (removeHostLines host toAddLines).1).lines? "nfs".toList = some nfsLines :=
      (Inventory.lines?_set_of_ne (by decide)).trans ((Inventory.lines?_set_of_ne (by decide)).trans hnfsLines)
    rw [keys_set hnfs, keys_set htoAdd, keys_set hconfiguredLines]
  · have hfilter : (containsOne [host]) = fun line => isIn host line := funext hone
    rw [computeLines, hconfiguredLines, htoAddLines, Option.getD_some, Option.getD_some, List.map_append, mapM_eq_some hips, mapM_eq_some hips', ← List.map_append, hfilter, List.filter_append]

/-- The lines that contain one of the hosts: those of the first host, and those of the others. -/
theorem perm_containsOne (host : Text) (rest lines : List Text) :
    (lines.filter (containsOne [host]) ++ (lines.filter fun line => !isIn host line).filter (containsOne rest)).Perm
      (lines.filter (containsOne (host :: rest))) := by
  have hsplit := List.filter_append_perm (containsOne [host]) (lines.filter (containsOne (host :: rest)))
  rw [List.filter_filter, List.filter_filter] at hsplit
  have hfirst : lines.filter (fun line => containsOne [host] line && containsOne (host :: rest) line) =
      lines.filter (containsOne [host]) := by
    refine List.filter_congr fun line _ => ?_
    show ((isIn host line || false) && (isIn host line || containsOne rest line)) = (isIn host line || false)
    cases isIn host line <;> rfl
  have hsecond : lines.filter (fun line => (!containsOne [host] line) && containsOne (host :: rest) line) =
      (lines.filter fun line => !isIn host line).filter (containsOne rest) := by
    rw [List.filter_filter]
    refine List.filter_congr fun line _ => ?_
    show ((!(isIn host line || false)) && (isIn host line || containsOne rest line)) =
      (containsOne rest line && !isIn host line)
    cases isIn host line <;> cases containsOne rest line <;> rfl
  rw [hfirst, hsecond] at hsplit
  exact hsplit

theorem removeHosts_spec {hosts : List Text} {inventory : Inventory}
    (hapart : ∀ name ∈ editedSections, ∀ lines, inventory.lines? name = some lines → AlwaysApart hosts lines)
    {edited : Inventory × List Text} (h : removeHosts hosts inventory = some edited) :
    Removed hosts inventory edited.1 edited.2 := by
  induction hosts generalizing inventory edited with
  | nil =>
      obtain rfl := Option.some.inj h
      have hnone : ∀ line, containsOne [] line = false := fun _ => rfl
      refine ⟨fun name _ => ?_, fun _ _ => rfl, rfl, ?_⟩
      · simp [hnone]
      · simp [hnone]
  | cons host rest ih =>
      obtain ⟨first, hfirst, h⟩ := Option.bind_eq_some_iff.mp h
      obtain ⟨more, hmore, h⟩ := Option.bind_eq_some_iff.mp h
      obtain rfl := Option.some.inj h
      have hone := removeHost_spec (fun name hname lines hlines => (hapart name hname lines hlines).head) hfirst
      have hleft : ∀ name ∈ editedSections, first.1.lines? name =
          (inventory.lines? name).map fun lines => lines.filter fun line => !isIn host line := fun name hname => by
        rw [hone.edited name hname]
        simp [containsOne]
      have hall := ih (fun name hname lines hlines => by
        rw [hleft name hname] at hlines
        obtain ⟨whole, hwhole, rfl⟩ := Option.map_eq_some_iff.mp hlines
        exact (hapart name hname whole hwhole).tail) hmore
      refine ⟨fun name hname => ?_, fun name hname => ?_, ?_, ?_⟩
      · rw [hall.edited name hname, hleft name hname, Option.map_map]
        refine congrArg (fun f => Option.map f _) (funext fun lines => ?_)
        exact filter_containsOne host rest lines
      · rw [hall.others name hname, hone.others name hname]
      · rw [hall.keys, hone.keys]
      · have hcompute : computeLines first.1 = (computeLines inventory).filter fun line => !isIn host line := by
          rw [computeLines, hleft _ (by decide), hleft _ (by decide), computeLines, List.filter_append]
          cases inventory.lines? "compute_configured".toList <;> cases inventory.lines? "compute_to_add".toList <;> rfl
        have hrest := hall.ips
        rw [hcompute] at hrest
        rw [List.map_append]
        refine (hone.ips.append hrest).trans ?_
        rw [← List.map_append]
        exact (perm_containsOne host rest (computeLines inventory)).map ansibleHost

/-! ## What is promised -/

/-- A line whose host name or `ansible_host` is one of the hosts. -/
def named (hosts : List Text) (line : Text) : Bool :=
  hosts.any fun host => hostName line == some host || hostAddress line == some host

/-- The sections, without these lines in those that are edited. -/
def withoutLines (drop : Text → Bool) (inventory : Inventory) : Inventory :=
  inventory.map fun entry =>
    (entry.1, if entry.1 ∈ editedSections then entry.2.filter fun line => !drop line else entry.2)

def preamble (text : Text) : List Text := (fileLines text).takeWhile fun line => !isHeader line

namespace Removal

/-- The addresses of the compute lines that are to be removed. -/
def addresses (removal : Removal) (inventory : Inventory) : List Text :=
  ((computeLines inventory).filter (named removal.nodesToRemove)).filterMap hostAddress

def listedToRemove (removal : Removal) : List Node :=
  (removal.instances.getD []).filter fun node => node.displayName.toList ∈ removal.nodesToRemove

/-- The addresses OCI has for those without a compute line. -/
def completed (removal : Removal) (inventory : Inventory) : List Text :=
  (removal.listedToRemove.filter fun node =>
    !(computeLines inventory).any fun line => hostName line == some node.displayName.toList).map fun node => node.ip.toList

/-- The sections without the lines of the nodes to be removed, and with nothing left to destroy. -/
def exactEdit (removal : Removal) (inventory : Inventory) : Inventory :=
  (withoutLines (named removal.nodesToRemove) inventory).set "compute_to_destroy".toList []

/-- The lines of the nodes to be removed are gone, all others are there in their order, and the playbook is run for the
addresses of the nodes. -/
structure EditsExactly (removal : Removal) (before after : Inventory) (targets : List Text) : Prop where
  removed : ∀ name ∈ editedSections, after.lines? name =
    (before.lines? name).map fun lines => lines.filter fun line => !named removal.nodesToRemove line
  kept : ∀ name, name ∉ editedSections → (after.lines? name).getD [] = (before.lines? name).getD []
  order : after.map (·.1) = (before.set "compute_to_destroy".toList []).map (·.1)
  targets : ∀ ip, ip ∈ targets ↔ ip ∈ removal.addresses before ∨ ip ∈ removal.completed before

/-- **What a removal promises of the inventory** it installs when it succeeds. -/
def InstallsExactEdit (removal : Removal) : Prop :=
  removal.destroyUnreachableReconfigure.ending = .returned 0 → removal.moved = true →
    ∃ text installed planned, backupInventory removal.inventory removal.doNotEdit = some text ∧
      removal.destroyUnreachableReconfigure.inventory = some installed ∧ removal.planned = some planned ∧
        removal.EditsExactly (parseInventory text) (parseInventory installed) planned.targets ∧
          preamble installed = preamble text

/-- The text of a line tells whether it is to be removed, and no neighbour of such a line is passed over. -/
structure FindsEach (removal : Removal) (text : Text) : Prop where
  own : ∀ name ∈ editedSections, ∀ lines, (parseInventory text).lines? name = some lines → ∀ line ∈ lines,
    containsOne removal.nodesToRemove line = true → named removal.nodesToRemove line = true
  apart : ∀ name ∈ editedSections, ∀ lines, (parseInventory text).lines? name = some lines →
    AlwaysApart removal.nodesToRemove lines
  address : ∀ line ∈ computeLines (parseInventory text), named removal.nodesToRemove line = true →
    ansibleHost line = hostAddress line

/-- OCI agrees with the inventory on the addresses, nothing lies in `compute_to_destroy` or before the first section,
and no line that is kept is run together with the next. -/
structure Completes (removal : Removal) (text : Text) : Prop where
  unlisted : ((computeLines (parseInventory text)).filter (named removal.nodesToRemove)).length =
    removal.nodesToRemove.length → ∀ ip ∈ removal.completed (parseInventory text),
      ip ∈ removal.addresses (parseInventory text)
  listed : ((computeLines (parseInventory text)).filter (named removal.nodesToRemove)).length ≠
    removal.nodesToRemove.length → ∀ node ∈ removal.listedToRemove,
      node.ip.toList ∈ removal.addresses (parseInventory text) ∨ node.ip.toList ∈ removal.completed (parseInventory text)
  reached : removal.addresses (parseInventory text) ≠ [] ∨ removal.completed (parseInventory text) ≠ []
  nothingToDestroy : ((parseInventory text).lines? "compute_to_destroy".toList).getD [] = []
  noPreamble : preamble text = []
  unmerged : (removal.exactEdit (parseInventory text)).Unmerged

end Removal

/-! ## The plan -/

theorem mem_completeIps {hosts : List Text} {instances : List Node} {ips : List Text} {ip : Text} :
    ip ∈ completeIps hosts instances ips ↔
      ip ∈ ips ∨ ∃ node ∈ instances, node.displayName.toList ∈ hosts ∧ node.ip.toList = ip := by
  unfold completeIps
  induction instances generalizing ips with
  | nil => simp
  | cons node rest ih =>
      rw [List.foldl_cons, ih, List.exists_mem_cons_iff]
      by_cases hnew : node.displayName.toList ∈ hosts ∧ node.ip.toList ∉ ips
      · rw [if_pos hnew, List.mem_append, List.mem_singleton]
        constructor
        · rintro ((h | h) | h)
          · exact .inl h
          · exact .inr (.inl ⟨hnew.1, h.symm⟩)
          · exact .inr (.inr h)
        · rintro (h | ⟨-, h⟩ | h)
          · exact .inl (.inl h)
          · exact .inl (.inr h.symm)
          · exact .inr h
      · rw [if_neg hnew]
        constructor
        · rintro (h | h)
          · exact .inl h
          · exact .inr (.inr h)
        · rintro (h | ⟨hhost, rfl⟩ | h)
          · exact .inl h
          · exact .inl (Decidable.not_not.mp fun hnot => hnew ⟨hhost, hnot⟩)
          · exact .inr h

namespace Removal
variable {removal : Removal} {text : Text}

theorem containsOne_of_named {hosts : List Text} {line : Text} (h : named hosts line = true) :
    containsOne hosts line = true := by
  obtain ⟨host, hhost, hline⟩ := List.any_eq_true.mp h
  rw [Bool.or_eq_true, beq_iff_eq, beq_iff_eq] at hline
  refine List.any_eq_true.mpr ⟨host, hhost, ?_⟩
  rcases hline with hline | hline
  · exact isIn_of_hostName hline
  · exact isIn_of_hostAddress hline

theorem FindsEach.containsOne_eq (h : removal.FindsEach text) {name line : Text} {lines : List Text}
    (hname : name ∈ editedSections) (hlines : (parseInventory text).lines? name = some lines) (hline : line ∈ lines) :
    containsOne removal.nodesToRemove line = named removal.nodesToRemove line :=
  Bool.eq_iff_iff.mpr ⟨h.own name hname lines hlines line hline, containsOne_of_named⟩

theorem mem_computeLines {inventory : Inventory} {line : Text} (h : line ∈ computeLines inventory) :
    ∃ name ∈ editedSections, ∃ lines, inventory.lines? name = some lines ∧ line ∈ lines := by
  rcases List.mem_append.mp h with h | h
  · cases hlines : inventory.lines? "compute_configured".toList with
    | none => rw [hlines] at h; cases h
    | some lines => rw [hlines] at h; exact ⟨_, by decide, lines, hlines, h⟩
  · cases hlines : inventory.lines? "compute_to_add".toList with
    | none => rw [hlines] at h; cases h
    | some lines => rw [hlines] at h; exact ⟨_, by decide, lines, hlines, h⟩

theorem FindsEach.filter_computeLines (h : removal.FindsEach text) :
    (computeLines (parseInventory text)).filter (containsOne removal.nodesToRemove) =
      (computeLines (parseInventory text)).filter (named removal.nodesToRemove) :=
  List.filter_congr fun line hline => by
    obtain ⟨name, hname, lines, hlines, hmem⟩ := mem_computeLines hline
    exact h.containsOne_eq hname hlines hmem

theorem FindsEach.removed (h : removal.FindsEach text) {edited : Inventory × List Text}
    (hedited : removeHosts removal.nodesToRemove (parseInventory text) = some edited) :
    Removed removal.nodesToRemove (parseInventory text) edited.1 edited.2 := removeHosts_spec h.apart hedited

/-- The addresses that were read are those of the lines to be removed. -/
theorem FindsEach.mem_ips (h : removal.FindsEach text) {edited : Inventory × List Text}
    (hedited : removeHosts removal.nodesToRemove (parseInventory text) = some edited) (ip : Text) :
    ip ∈ edited.2 ↔ ip ∈ removal.addresses (parseInventory text) := by
  have hperm := (h.removed hedited).ips
  rw [h.filter_computeLines] at hperm
  have hmem : ip ∈ edited.2 ↔ some ip ∈ edited.2.map some := by simp
  rw [hmem, hperm.mem_iff, List.mem_map, addresses, List.mem_filterMap]
  refine exists_congr fun line => and_congr_right fun hline => ?_
  obtain ⟨hline, hnamed⟩ := List.mem_filter.mp hline
  rw [h.address line hline hnamed]

theorem FindsEach.length_ips (h : removal.FindsEach text) {edited : Inventory × List Text}
    (hedited : removeHosts removal.nodesToRemove (parseInventory text) = some edited) :
    edited.2.length = ((computeLines (parseInventory text)).filter (named removal.nodesToRemove)).length := by
  have hlength := (h.removed hedited).ips.length_eq
  rw [h.filter_computeLines, List.length_map, List.length_map] at hlength
  exact hlength

theorem plan_eq_some {hosts : List Text} {instances : Option (List Node)} {planned : Plan}
    (h : plan hosts instances text = some planned) :
    ∃ edited ips, removeHosts hosts (parseInventory text) = some edited ∧
      (if edited.2.length ≠ hosts.length then instances.map fun listed => completeIps hosts listed edited.2
        else some edited.2) = some ips ∧
      planned = ⟨edited.1, if ips.isEmpty then hosts else ips⟩ := by
  obtain ⟨edited, hedited, h⟩ := Option.bind_eq_some_iff.mp h
  dsimp only at h
  by_cases hlength : edited.2.length ≠ hosts.length
  · rw [if_pos hlength] at h
    obtain ⟨ips, hips, h⟩ := Option.bind_eq_some_iff.mp h
    exact ⟨edited, ips, hedited, by rw [if_pos hlength]; exact hips, (Option.some.inj h).symm⟩
  · rw [if_neg hlength] at h
    exact ⟨edited, edited.2, hedited, if_neg hlength, (Option.some.inj h).symm⟩

/-- An address that is completed is that of a listed node. -/
theorem exists_listed_of_completed {inventory : Inventory} {ip : Text} (h : ip ∈ removal.completed inventory) :
    ∃ node ∈ removal.listedToRemove, node.ip.toList = ip := by
  obtain ⟨node, hnode, rfl⟩ := List.mem_map.mp h
  exact ⟨node, List.mem_of_mem_filter hnode, rfl⟩

/-- What the loop and the completion leave. -/
theorem FindsEach.mem_completedIps (h : removal.FindsEach text) {edited : Inventory × List Text}
    (hedited : removeHosts removal.nodesToRemove (parseInventory text) = some edited) {ips : List Text}
    (hips : (if edited.2.length ≠ removal.nodesToRemove.length then
      removal.instances.map fun listed => completeIps removal.nodesToRemove listed edited.2 else some edited.2) = some ips)
    (ip : Text) : ip ∈ ips ↔ ip ∈ removal.addresses (parseInventory text) ∨
      (edited.2.length ≠ removal.nodesToRemove.length ∧ ∃ node ∈ removal.listedToRemove, node.ip.toList = ip) := by
  by_cases hlength : edited.2.length ≠ removal.nodesToRemove.length
  · rw [if_pos hlength] at hips
    obtain ⟨listed, hlisted, rfl⟩ := Option.map_eq_some_iff.mp hips
    rw [mem_completeIps, h.mem_ips hedited, listedToRemove, hlisted, Option.getD_some]
    simp only [List.mem_filter, decide_eq_true_eq, hlength, ne_eq, not_false_eq_true, true_and, and_assoc]
  · rw [if_neg hlength] at hips
    obtain rfl := Option.some.inj hips
    rw [h.mem_ips hedited]
    simp only [hlength, false_and, or_false]

/-- The playbook is run for the addresses of the nodes, exactly when OCI agrees with the inventory on them. -/
theorem targets_iff (h : removal.FindsEach text) {planned : Plan}
    (hplan : plan removal.nodesToRemove removal.instances text = some planned) (hne : planned.targets ≠ []) :
    (∀ ip, ip ∈ planned.targets ↔
        ip ∈ removal.addresses (parseInventory text) ∨ ip ∈ removal.completed (parseInventory text)) ↔
      (((computeLines (parseInventory text)).filter (named removal.nodesToRemove)).length =
          removal.nodesToRemove.length → ∀ ip ∈ removal.completed (parseInventory text),
            ip ∈ removal.addresses (parseInventory text)) ∧
        (((computeLines (parseInventory text)).filter (named removal.nodesToRemove)).length ≠
          removal.nodesToRemove.length → ∀ node ∈ removal.listedToRemove,
            node.ip.toList ∈ removal.addresses (parseInventory text) ∨
              node.ip.toList ∈ removal.completed (parseInventory text)) ∧
          (removal.addresses (parseInventory text) ≠ [] ∨ removal.completed (parseInventory text) ≠ []) := by
  obtain ⟨edited, ips, hedited, hips, rfl⟩ := plan_eq_some hplan
  have hmem := h.mem_ips hedited
  rw [← h.length_ips hedited]
  have hall := h.mem_completedIps hedited hips
  have htargets : ips ≠ [] → (if ips.isEmpty then removal.nodesToRemove else ips) = ips := fun hips => by
    rw [if_neg (by simpa using hips)]
  dsimp only at hne ⊢
  constructor
  · intro hexact
    have hreached : removal.addresses (parseInventory text) ≠ [] ∨ removal.completed (parseInventory text) ≠ [] := by
      obtain ⟨ip, hip⟩ := List.exists_mem_of_ne_nil _ hne
      exact ((hexact ip).mp hip).imp List.ne_nil_of_mem List.ne_nil_of_mem
    have hipsNe : ips ≠ [] := by
      rintro rfl
      have haddresses : removal.addresses (parseInventory text) = [] :=
        List.eq_nil_iff_forall_not_mem.mpr fun ip hip => List.not_mem_nil ((hall ip).mpr (.inl hip))
      obtain ⟨ip, hip⟩ := List.exists_mem_of_ne_nil _ (hreached.resolve_left (not_not_intro haddresses))
      obtain ⟨node, hnode, hnodeIp⟩ := exists_listed_of_completed hip
      by_cases hlength : edited.2.length = removal.nodesToRemove.length
      · have hedited2 : edited.2 = [] := List.eq_nil_iff_forall_not_mem.mpr fun ip hip =>
          List.not_mem_nil (haddresses ▸ (hmem ip).mp hip)
        have hnone : removal.nodesToRemove = [] := List.length_eq_zero_iff.mp (by rw [← hlength, hedited2]; rfl)
        exact hne hnone
      · exact List.not_mem_nil ((hall ip).mpr (.inr ⟨hlength, node, hnode, hnodeIp⟩))
    rw [htargets hipsNe] at hexact
    refine ⟨fun hlength ip hip => ?_, fun hlength node hnode => ?_, hreached⟩
    · rcases (hall ip).mp ((hexact ip).mpr (.inr hip)) with haddress | ⟨hdiffers, -⟩
      · exact haddress
      · exact absurd hlength hdiffers
    · exact (hexact _).mp ((hall _).mpr (.inr ⟨hlength, node, hnode, rfl⟩))
  · rintro ⟨hunlisted, hlisted, hreached⟩
    have hiff : ∀ ip, ip ∈ ips ↔
        ip ∈ removal.addresses (parseInventory text) ∨ ip ∈ removal.completed (parseInventory text) := by
      intro ip
      rw [hall]
      constructor
      · rintro (haddress | ⟨hlength, node, hnode, rfl⟩)
        · exact .inl haddress
        · exact hlisted hlength node hnode
      · rintro (haddress | hcomplete)
        · exact .inl haddress
        · by_cases hlength : edited.2.length = removal.nodesToRemove.length
          · exact .inl (hunlisted hlength ip hcomplete)
          · exact .inr ⟨hlength, exists_listed_of_completed hcomplete⟩
    have hipsNe : ips ≠ [] := by
      rcases hreached with hsome | hsome
      · obtain ⟨ip, hip⟩ := List.exists_mem_of_ne_nil _ hsome
        exact List.ne_nil_of_mem ((hiff ip).mpr (.inl hip))
      · obtain ⟨ip, hip⟩ := List.exists_mem_of_ne_nil _ hsome
        exact List.ne_nil_of_mem ((hiff ip).mpr (.inr hip))
    rw [htargets hipsNe]
    exact hiff

/-! ## The inventory that is installed -/

theorem inventory_of_returned_zero (h : removal.destroyUnreachableReconfigure.ending = .returned 0)
    (hmoved : removal.moved = true) :
    ∃ text planned, backupInventory removal.inventory removal.doNotEdit = some text ∧
      removal.planned = some planned ∧ plan removal.nodesToRemove removal.instances text = some planned ∧
        removal.destroyUnreachableReconfigure.inventory =
          some (writeInventory (planned.inventory.set "compute_to_destroy".toList [])) := by
  unfold destroyUnreachableReconfigure planned at *
  cases hhosts : removal.ansibleHosts with
  | false => simp [hhosts] at h
  | true =>
      cases hbackup : backupInventory removal.inventory removal.doNotEdit with
      | none => simp [hhosts, hbackup] at h
      | some text =>
          simp only [hhosts, hbackup, Bool.not_true, Bool.false_eq_true, if_false, if_true, Option.bind_some] at h ⊢
          cases hplan : plan removal.nodesToRemove removal.instances text with
          | none => simp [hplan] at h
          | some planned =>
              refine ⟨text, planned, rfl, rfl, hplan, ?_⟩
              simp only [hplan] at h ⊢
              cases hruns : runEach (writeInventory planned.inventory) none (removal.runs planned) with
              | none => simp [hruns] at h
              | some flag =>
                  cases flag with
                  | none => simp [hruns] at h
                  | some flag =>
                      simp only [hruns] at h ⊢
                      by_cases hflag : flag = 0
                      · rw [if_pos hflag, if_pos hmoved]
                      · rw [if_neg hflag] at h
                        exact absurd (by injection h) hflag

/-- The playbook has been run for something. -/
theorem targets_ne_nil (h : removal.LastSucceeds) {planned : Plan} (hplanned : removal.planned = some planned) :
    planned.targets ≠ [] := by
  obtain ⟨planned', hplanned', -, hlast⟩ := h
  obtain rfl := Option.some.inj (hplanned.symm.trans hplanned')
  intro hnil
  rw [answers, runs, hnil] at hlast
  cases hlast

theorem lines?_withoutLines (drop : Text → Bool) (inventory : Inventory) (name : Text) :
    (withoutLines drop inventory).lines? name = (inventory.lines? name).map fun lines =>
      if name ∈ editedSections then lines.filter fun line => !drop line else lines := by
  induction inventory with
  | nil => rfl
  | cons entry rest ih =>
      rw [withoutLines, List.map_cons, Inventory.lines?, List.lookup_cons, Inventory.lines?, List.lookup_cons]
      by_cases hname : name = entry.1
      · rw [hname, beq_self_eq_true]
        rfl
      · rw [beq_false_of_ne hname]
        exact ih

theorem keys_withoutLines (drop : Text → Bool) (inventory : Inventory) :
    (withoutLines drop inventory).map (·.1) = inventory.map (·.1) := by
  rw [withoutLines, List.map_map]
  rfl

theorem sectioned_withoutLines {drop : Text → Bool} {inventory : Inventory} (h : inventory.Sectioned) :
    (withoutLines drop inventory).Sectioned := by
  have hmem : ∀ entry ∈ withoutLines drop inventory, ∃ whole, (entry.1, whole) ∈ inventory ∧
      ∀ line ∈ entry.2, line ∈ whole := by
    intro entry hentry
    obtain ⟨whole, hwhole, rfl⟩ := List.mem_map.mp hentry
    refine ⟨whole.2, hwhole, fun line hline => ?_⟩
    dsimp only at hline
    split at hline
    · exact List.mem_of_mem_filter hline
    · exact hline
  refine ⟨⟨?_, fun entry hentry => ?_, fun entry hentry line hline => ?_⟩, fun entry hentry line hline => ?_⟩
  · rw [keys_withoutLines]
    exact h.separate.nodup
  · obtain ⟨whole, hwhole, -⟩ := hmem entry hentry
    exact h.separate.names (entry.1, whole) hwhole
  · obtain ⟨whole, hwhole, hsub⟩ := hmem entry hentry
    exact h.separate.noHeader _ hwhole line (hsub line hline)
  · obtain ⟨whole, hwhole, hsub⟩ := hmem entry hentry
    exact h.lines _ hwhole line (hsub line hline)

theorem isName_compute_to_destroy : IsName "compute_to_destroy".toList := ⟨by decide, by decide, by decide, by decide⟩

theorem preamble_writeInventory {inventory : Inventory} (h : inventory.Sectioned) :
    preamble (writeInventory inventory) = [] := by
  rw [preamble, fileLines, writeInventory_eq, universalNewlines_eq_self (return_not_mem_flatten fun piece => h.isPiece)]
  cases inventory with
  | nil => rfl
  | cons entry rest =>
      -- the first header is a line of its own, whatever follows it
      have hheader : ∀ line ∈ [header entry.1], IsLine line := fun line hline =>
        List.mem_singleton.mp hline ▸ isLine_header (h.separate.names entry List.mem_cons_self)
      have hfirst := linesFrom_lines hheader (entry.2 ++ Inventory.pieces rest).flatten
      rw [List.flatten_singleton, List.singleton_append] at hfirst
      rw [Inventory.pieces, List.flatMap_cons, List.cons_append, List.flatten_cons]
      refine (congrArg (List.takeWhile _) hfirst).trans (List.takeWhile_cons_of_neg ?_)
      rw [isHeader_header]
      exact Bool.false_ne_true

/-- An inventory edited so is the one described, but for what was to be destroyed. -/
theorem EditsExactly.eq_set {before after : Inventory} {targets : List Text}
    (h : removal.EditsExactly before after targets) (hnodup : (after.map (·.1)).Nodup) :
    after = (withoutLines (named removal.nodesToRemove) before).set "compute_to_destroy".toList
      ((before.lines? "compute_to_destroy".toList).getD []) := by
  have hkeys : ((withoutLines (named removal.nodesToRemove) before).set "compute_to_destroy".toList
      ((before.lines? "compute_to_destroy".toList).getD [])).map (·.1) = after.map (·.1) := by
    rw [h.order, Inventory.set, Inventory.set, keys_setKey, keys_setKey, keys_withoutLines]
  have hdestroy : ("compute_to_destroy".toList : Text) ∉ editedSections := by decide
  refine (Inventory.eq_of_lines? hnodup hkeys fun name => ?_).symm
  by_cases hname : name = "compute_to_destroy".toList
  · subst hname
    have hsome : (after.lines? "compute_to_destroy".toList).isSome := by
      rw [lines?_isSome_iff, ← hkeys, ← lines?_isSome_iff, Inventory.lines?_set_self]
      rfl
    obtain ⟨lines, hlines⟩ := Option.isSome_iff_exists.mp hsome
    rw [Inventory.lines?_set_self, ← h.kept _ hdestroy, hlines, Option.getD_some]
  · rw [Inventory.lines?_set_of_ne hname, lines?_withoutLines]
    by_cases hedited : name ∈ editedSections
    · rw [h.removed name hedited]
      simp only [if_pos hedited]
    · have hkept := h.kept name hedited
      have hsame : (after.lines? name).isSome = (before.lines? name).isSome := by
        rw [Bool.eq_iff_iff, lines?_isSome_iff, lines?_isSome_iff, h.order, Inventory.set, keys_setKey]
        split
        · rfl
        · rw [List.mem_append, List.mem_singleton]
          exact or_iff_left hname
      simp only [if_neg hedited]
      cases hafter : after.lines? name with
      | none =>
          rw [hafter, Option.isSome_none] at hsame
          rw [Option.isNone_iff_eq_none.mp (Option.isSome_eq_false_iff.mp hsame.symm)]
          rfl
      | some lines =>
          rw [hafter, Option.isSome_some] at hsame
          obtain ⟨whole, hwhole⟩ := Option.isSome_iff_exists.mp hsame.symm
          rw [hafter, hwhole, Option.getD_some, Option.getD_some] at hkept
          rw [hwhole, hkept]
          rfl

/-- What was to be destroyed is not written, and so not read back. -/
theorem EditsExactly.parse_write {before : Inventory} {targets : List Text}
    (hsectioned : (removal.exactEdit before).Sectioned)
    (h : removal.EditsExactly before (parseInventory (writeInventory (removal.exactEdit before))) targets) :
    parseInventory (writeInventory (removal.exactEdit before)) = removal.exactEdit before := by
  have heq := h.eq_set (read_parseInventory _).separate.nodup
  have hcounts := counts_parse_write_le fun _ => hsectioned.isPiece
  have hset := (withoutLines (named removal.nodesToRemove) before).counts_set "compute_to_destroy".toList
    ((before.lines? "compute_to_destroy".toList).getD [])
  rw [heq, hset.1, hset.2, ← exactEdit] at hcounts
  have hnil : (before.lines? "compute_to_destroy".toList).getD [] = [] := List.length_eq_zero_iff.mp (by omega)
  rw [heq, hnil, exactEdit]

theorem FindsEach.exactEdit_eq (h : removal.FindsEach text) {edited : Inventory × List Text}
    (hedited : removeHosts removal.nodesToRemove (parseInventory text) = some edited) :
    edited.1.set "compute_to_destroy".toList [] = removal.exactEdit (parseInventory text) := by
  have hremoved := h.removed hedited
  refine congrArg (fun inventory : Inventory => inventory.set "compute_to_destroy".toList []) ?_
  refine Inventory.eq_of_lines? ?_ (by rw [keys_withoutLines, hremoved.keys]) fun name => ?_
  · rw [keys_withoutLines]
    exact (read_parseInventory text).separate.nodup
  rw [lines?_withoutLines]
  by_cases hname : name ∈ editedSections
  · rw [hremoved.edited name hname]
    cases hlines : (parseInventory text).lines? name with
    | none => rfl
    | some lines =>
        rw [Option.map_some, Option.map_some, if_pos hname]
        refine congrArg some (List.filter_congr fun line hline => ?_)
        rw [h.containsOne_eq hname hlines hline]
  · rw [hremoved.others name hname]
    cases (parseInventory text).lines? name with
    | none => rfl
    | some lines => rw [Option.map_some, if_neg hname]

/-- The lines are edited exactly; what remains to be seen is the addresses, and `compute_to_destroy`. -/
theorem editsExactly_iff (h : removal.FindsEach text) {edited : Inventory × List Text}
    (hedited : removeHosts removal.nodesToRemove (parseInventory text) = some edited) (targets : List Text) :
    removal.EditsExactly (parseInventory text) (edited.1.set "compute_to_destroy".toList []) targets ↔
      (∀ ip, ip ∈ targets ↔
        ip ∈ removal.addresses (parseInventory text) ∨ ip ∈ removal.completed (parseInventory text)) ∧
        ((parseInventory text).lines? "compute_to_destroy".toList).getD [] = [] := by
  have hremoved := h.removed hedited
  constructor
  · intro hexact
    refine ⟨hexact.targets, ?_⟩
    rw [← hexact.kept _ (by decide), Inventory.lines?_set_self, Option.getD_some]
  · rintro ⟨htargets, hnothing⟩
    refine ⟨fun name hname => ?_, fun name hname => ?_, ?_, htargets⟩
    · have hne : name ≠ "compute_to_destroy".toList := by
        rintro rfl
        exact absurd hname (by decide)
      rw [Inventory.lines?_set_of_ne hne, hremoved.edited name hname]
      cases hlines : (parseInventory text).lines? name with
      | none => rfl
      | some lines =>
          refine congrArg some (List.filter_congr fun line hline => ?_)
          rw [h.containsOne_eq hname hlines hline]
    · by_cases hdestroy : name = "compute_to_destroy".toList
      · rw [hdestroy, Inventory.lines?_set_self, hnothing, Option.getD_some]
      · rw [Inventory.lines?_set_of_ne hdestroy, hremoved.others name hname]
    · rw [Inventory.set, Inventory.set, keys_setKey, keys_setKey, hremoved.keys]

/-- Two nodes with similar names, on neighbouring lines. -/
def twoLines : Text := ("[compute_configured]\ninst-10 ansible_host=10.0.0.10 ansible_user=opc\n" ++
  "inst-1 ansible_host=10.0.0.1 ansible_user=opc\n[compute_to_add]\n[nfs]\n[all:vars]\n").toList

def twoNodes (nodesToRemove : List Text) : Removal where
  ansibleHosts := true
  inventory := some twoLines
  doNotEdit := none
  nodesToRemove := nodesToRemove
  instances := some []
  run := fun _ => .ended 0
  moved := true

theorem findsEach_twoNodes (text : Text)
    (htext : backupInventory (twoNodes ["inst-10".toList]).inventory (twoNodes ["inst-10".toList]).doNotEdit = some text) :
    (twoNodes ["inst-10".toList]).FindsEach text := by
  obtain rfl : twoLines = text := Option.some.inj htext
  obtain ⟨hown, hapart, haddress⟩ : (∀ name ∈ editedSections, ∀ line ∈ ((parseInventory twoLines).lines? name).getD [],
        containsOne ["inst-10".toList] line = true → named ["inst-10".toList] line = true) ∧
      (∀ name ∈ editedSections, (((parseInventory twoLines).lines? name).getD []).IsChain
        fun line next => ¬ (isIn "inst-10".toList line = true ∧ isIn "inst-10".toList next = true)) ∧
      ∀ line ∈ computeLines (parseInventory twoLines), named ["inst-10".toList] line = true →
        ansibleHost line = hostAddress line := by decide +kernel
  refine ⟨fun name hname lines hlines line hline => ?_, fun name hname lines hlines => ?_, haddress⟩
  · exact hown name hname line (hlines ▸ hline)
  · rintro before host after hsplit
    obtain ⟨rfl, rfl, -⟩ : before = [] ∧ host = "inst-10".toList ∧ after = [] := by
      cases before with
      | nil => exact ⟨rfl, (List.cons.inj hsplit).1.symm, (List.cons.inj hsplit).2.symm⟩
      | cons first before => exact absurd (List.cons.inj hsplit).2 (by simp)
    have hall : lines.filter (fun line => !containsOne [] line) = lines := List.filter_eq_self.mpr fun _ _ => rfl
    have hchain := hapart name hname
    rw [hlines, Option.getD_some] at hchain
    rw [hall]
    exact hchain

end Removal

end OciHpc.Resize
