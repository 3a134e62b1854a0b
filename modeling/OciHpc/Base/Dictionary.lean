import Mathlib.Data.List.Nodup
import Mathlib.Data.List.Perm.Basic

/-!
# Dictionaries in insertion order

* `setKey` : an entry set; `lookup_setKey_self`, `lookup_setKey_of_ne`, `keys_setKey`, `mem_setKey`;
* `groupBy` : a dictionary of lists, each item appended to the list of its key;
* `Grouped`, `grouped_groupBy` : its keys do not repeat, each has its items in their order, and no item is lost.
-/

namespace OciHpc

section
variable {α β : Type} [DecidableEq α]

/-- `dictionary[key] = value`; a new key comes last. -/
def setKey (key : α) (value : β) : List (α × β) → List (α × β)
  | [] => [(key, value)]
  | entry :: rest => if entry.1 = key then (key, value) :: rest else entry :: setKey key value rest

theorem lookup_setKey_self [BEq α] [LawfulBEq α] (key : α) (value : β) (entries : List (α × β)) :
    (setKey key value entries).lookup key = some value := by
  induction entries with
  | nil => simp [setKey]
  | cons entry rest ih =>
    rw [setKey]
    split
    · simp
    · rename_i hne
      rw [List.lookup_cons, beq_false_of_ne (Ne.symm hne), ih]

theorem lookup_setKey_of_ne [BEq α] [LawfulBEq α] {key other : α} (h : other ≠ key) (value : β)
    (entries : List (α × β)) : (setKey key value entries).lookup other = entries.lookup other := by
  induction entries with
  | nil => simp [setKey, h]
  | cons entry rest ih =>
    rw [setKey]
    split
    · rename_i heq
      rw [List.lookup_cons, List.lookup_cons, heq, beq_false_of_ne h]
    · rw [List.lookup_cons, List.lookup_cons, ih]

theorem keys_setKey (key : α) (value : β) (entries : List (α × β)) :
    (setKey key value entries).map (·.1) =
      if key ∈ entries.map (·.1) then entries.map (·.1) else entries.map (·.1) ++ [key] := by
  induction entries with
  | nil => rfl
  | cons entry rest ih =>
    rw [setKey]
    by_cases hkey : entry.1 = key
    · rw [if_pos hkey, if_pos (by simp [hkey])]
      simp [hkey]
    · rw [if_neg hkey, List.map_cons, ih]
      have hne : key ≠ entry.1 := Ne.symm hkey
      by_cases hmem : key ∈ rest.map (·.1)
      · rw [if_pos hmem, if_pos (by rw [List.map_cons]; exact List.mem_cons_of_mem _ hmem), List.map_cons]
      · rw [if_neg hmem, if_neg (by rw [List.map_cons]; exact List.not_mem_cons_of_ne_of_not_mem hne hmem),
          List.map_cons, List.cons_append]

theorem nodup_keys_setKey {key : α} {value : β} {entries : List (α × β)} (h : (entries.map (·.1)).Nodup) :
    ((setKey key value entries).map (·.1)).Nodup := by
  rw [keys_setKey]
  split
  · exact h
  · rename_i hfresh
    refine List.nodup_append.mpr ⟨h, by simp, fun other hother key' hkey' => ?_⟩
    rintro rfl
    rw [List.mem_singleton] at hkey'
    exact hfresh (hkey' ▸ hother)

theorem mem_setKey {key : α} {value : β} {entries : List (α × β)} {entry : α × β}
    (h : entry ∈ setKey key value entries) : entry = (key, value) ∨ entry ∈ entries := by
  induction entries with
  | nil => exact .inl (List.mem_singleton.mp h)
  | cons first rest ih =>
    rw [setKey] at h
    split at h
    · rcases List.mem_cons.mp h with h | h
      · exact .inl h
      · exact .inr (List.mem_cons_of_mem _ h)
    · rcases List.mem_cons.mp h with rfl | h
      · exact .inr List.mem_cons_self
      · exact (ih h).imp_right (List.mem_cons_of_mem _)

omit [DecidableEq α] in
theorem lookup_of_mem [BEq α] [LawfulBEq α] {entries : List (α × β)} (h : (entries.map (·.1)).Nodup) {key : α}
    {value : β} (hmem : (key, value) ∈ entries) : entries.lookup key = some value := by
  obtain ⟨before, after, rfl⟩ := List.append_of_mem hmem
  refine List.lookup_eq_some_iff.mpr ⟨before, after, rfl, fun entry hentry => ?_⟩
  rw [List.map_append, List.nodup_append] at h
  have hne := h.2.2 entry.1 (List.mem_map_of_mem hentry) key (by simp)
  exact bne_iff_ne.mpr hne.symm

omit [DecidableEq α] in
theorem mem_of_lookup [BEq α] [LawfulBEq α] {entries : List (α × β)} {key : α} {value : β}
    (h : entries.lookup key = some value) : (key, value) ∈ entries := by
  obtain ⟨before, after, rfl, -⟩ := List.lookup_eq_some_iff.mp h
  simp

end

/-! ## Lists by key -/

section
variable {α κ : Type} [DecidableEq κ] (key : α → κ)

/-- `dictionary[key]` with the item appended, or `[item]` under a new key. -/
def appendItem (groups : List (κ × List α)) (item : α) : List (κ × List α) :=
  setKey (key item) ((groups.lookup (key item)).getD [] ++ [item]) groups

def groupBy (items : List α) : List (κ × List α) := items.foldl (appendItem key) []

def itemsOf (items : List α) (k : κ) : List α := items.filter fun item => key item = k

theorem perm_appendItem (groups : List (κ × List α)) (item : α) :
    ((appendItem key groups item).flatMap (·.2)).Perm (groups.flatMap (·.2) ++ [item]) := by
  unfold appendItem
  induction groups with
  | nil => simp [setKey]
  | cons entry rest ih =>
    by_cases hk : entry.1 = key item
    · rw [setKey, if_pos hk, List.lookup_cons, hk, beq_self_eq_true, List.flatMap_cons, List.flatMap_cons]
      dsimp only
      rw [Option.getD_some, List.append_assoc, List.append_assoc]
      exact List.Perm.append_left _ List.perm_append_comm
    · rw [setKey, if_neg hk, List.lookup_cons, beq_false_of_ne (Ne.symm hk), List.flatMap_cons, List.flatMap_cons,
        List.append_assoc]
      exact ih.append_left _

structure Grouped (items : List α) (groups : List (κ × List α)) : Prop where
  nodup : (groups.map (·.1)).Nodup
  group_eq : ∀ k group, (k, group) ∈ groups → group = itemsOf key items k
  complete : ∀ item ∈ items, key item ∈ groups.map (·.1)
  nonempty : ∀ k group, (k, group) ∈ groups → group ≠ []
  perm : (groups.flatMap (·.2)).Perm items

variable {key}

theorem Grouped.appendItem {items : List α} {groups : List (κ × List α)} (h : Grouped key items groups) (item : α) :
    Grouped key (items ++ [item]) (appendItem key groups item) := by
  have hold : (groups.lookup (key item)).getD [] = itemsOf key items (key item) := by
    cases hlookup : groups.lookup (key item) with
    | some group => exact h.group_eq _ _ (mem_of_lookup hlookup)
    | none =>
      refine (List.filter_eq_nil_iff.mpr fun other hother hkey => ?_).symm
      have hmem := h.complete other hother
      rw [of_decide_eq_true hkey, List.mem_map] at hmem
      obtain ⟨entry, hentry, hkey'⟩ := hmem
      have hne := List.lookup_eq_none_iff.mp hlookup entry hentry
      simp [hkey'] at hne
  have hself : itemsOf key items (key item) ++ [item] = itemsOf key (items ++ [item]) (key item) := by
    simp [itemsOf]
  refine ⟨nodup_keys_setKey h.nodup, fun k group hmem => ?_, fun other hother => ?_, fun k group hmem => ?_,
    (perm_appendItem key groups item).trans (h.perm.append_right _)⟩
  · by_cases hk : k = key item
    · subst hk
      have hset : (OciHpc.appendItem key groups item).lookup (key item) = some group :=
        lookup_of_mem (nodup_keys_setKey h.nodup) hmem
      rw [OciHpc.appendItem, lookup_setKey_self] at hset
      rw [← hself, ← hold]
      exact (Option.some.inj hset).symm
    · rcases mem_setKey hmem with heq | hmem
      · exact absurd (Prod.mk.inj heq).1 hk
      · rw [h.group_eq k group hmem]
        have hne : key item ≠ k := Ne.symm hk
        simp [itemsOf, hne]
  · rw [OciHpc.appendItem, keys_setKey]
    rcases List.mem_append.mp hother with hother | hother
    · have hmem := h.complete other hother
      split
      · exact hmem
      · exact List.mem_append_left _ hmem
    · rw [List.mem_singleton] at hother
      subst hother
      split
      · assumption
      · simp
  · rcases mem_setKey hmem with heq | hmem
    · rw [(Prod.mk.inj heq).2]
      simp
    · exact h.nonempty k group hmem

theorem grouped_groupBy (items : List α) : Grouped key items (groupBy key items) := by
  have hfold : ∀ (rest done : List α) (groups : List (κ × List α)), Grouped key done groups →
      Grouped key (done ++ rest) (rest.foldl (OciHpc.appendItem key) groups) := by
    intro rest
    induction rest with
    | nil =>
      intro done groups h
      rw [List.append_nil]
      exact h
    | cons item rest ih =>
      intro done groups h
      rw [List.foldl_cons, ← List.singleton_append, ← List.append_assoc]
      exact ih _ _ (h.appendItem item)
  exact hfold items [] [] ⟨List.nodup_nil, nofun, nofun, nofun, .nil⟩

theorem Grouped.of_perm {groups groups' : List (κ × List α)} (h : Grouped key items groups)
    (hperm : groups'.Perm groups) : Grouped key items groups' where
  nodup := (hperm.map (·.1)).nodup_iff.mpr h.nodup
  group_eq := fun k group hmem => h.group_eq k group (hperm.mem_iff.mp hmem)
  complete := fun item hitem => (hperm.map (·.1)).mem_iff.mpr (h.complete item hitem)
  nonempty := fun k group hmem => h.nonempty k group (hperm.mem_iff.mp hmem)
  perm := (hperm.flatMap_right _).trans h.perm

end

end OciHpc
