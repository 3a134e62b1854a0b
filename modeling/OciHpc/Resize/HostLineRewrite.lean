import OciHpc.Resize.HostLine

/-!
# A host line rewritten

`rewrite_compute_inventory_line` of `resize.py` for any line and any settings of the local Block Volume.

* `IsSetting` : a setting that is one token of a line;
* `RewritesTo` : what a rewritten line has in common with the line, and what it has of its own;
* `rewritten_read_back` : every rewritten line is so, and the last rewriting counts;
* `spaced_key_splits` : a key with a space in it is not read back as it was written.
-/

namespace OciHpc.Resize

/-! ## Settings -/

/-- `key == "use_local_block_volume" or key.startswith("local_block_volume_")`. -/
def aboutKey (key : Text) : Bool :=
  key == "use_local_block_volume".toList || "local_block_volume_".toList.isPrefixOf key

structure IsSetting (entry : Text × Text) : Prop where
  about : aboutKey entry.1 = true
  key : NoSpace entry.1
  value : NoSpace entry.2

theorem aboutKey_takeWhile {key : Text} (h : aboutKey key = true) : aboutKey (key.takeWhile (· ≠ '=')) = true := by
  rw [aboutKey, Bool.or_eq_true, beq_iff_eq, List.isPrefixOf_iff_prefix] at h
  obtain rfl | ⟨rest, rfl⟩ := h
  · decide
  · have hplain : "local_block_volume_".toList.all (· ≠ '=') = true := by decide
    rw [List.takeWhile_append_of_pos (List.all_eq_true.mp hplain), aboutKey, Bool.or_eq_true,
      List.isPrefixOf_iff_prefix]
    exact .inr (List.prefix_append _ _)

theorem takeWhile_append_cons (c : Char) (s rest : Text) :
    (s ++ c :: rest).takeWhile (· ≠ c) = s.takeWhile (· ≠ c) := by
  induction s with
  | nil => simp
  | cons d s ih =>
      by_cases h : d = c
      · simp [h]
      · rw [List.cons_append, List.takeWhile_cons_of_pos (by simpa using h), List.takeWhile_cons_of_pos (by simpa using h),
          ih]

/-- The key of a token may be cut at an `=` of its own. -/
theorem tokenKey_valueToken (entry : Text × Text) :
    tokenKey (valueToken entry) = some (entry.1.takeWhile (· ≠ '=')) := by
  rw [tokenKey, if_pos (by simp [valueToken]), valueToken, takeWhile_append_cons]

namespace IsSetting
variable {entry : Text × Text}

theorem aboutBlockVolume (h : IsSetting entry) : aboutBlockVolume (valueToken entry) = true := by
  rw [OciHpc.Resize.aboutBlockVolume, tokenKey_valueToken]
  exact aboutKey_takeWhile h.about

theorem isWord (h : IsSetting entry) : IsWord (valueToken entry) := by
  refine ⟨by simp [valueToken], noSpace_append h.key fun c hc => ?_⟩
  rcases List.mem_cons.mp hc with rfl | hc
  · decide
  · exact h.value c hc

theorem noComment (h : IsSetting entry) : startsComment (valueToken entry) = false := by
  have habout := h.about
  rw [aboutKey, Bool.or_eq_true, beq_iff_eq, List.isPrefixOf_iff_prefix] at habout
  rw [valueToken]
  obtain hkey | ⟨rest, hkey⟩ := habout
  · rw [hkey]
    rfl
  · rw [← hkey]
    rfl

end IsSetting

theorem eq_of_tokenValue {key token value : Text} (h : tokenValue key token = some value) :
    token = key ++ '=' :: value := by
  rw [tokenValue] at h
  split at h
  · rename_i hkey
    obtain ⟨rest, rfl⟩ := List.isPrefixOf_iff_prefix.mp hkey
    have hvalue := Option.some.inj h
    rw [List.drop_left' (by simp)] at hvalue
    rw [← hvalue, List.append_assoc, List.singleton_append]
  · cases h

/-- A token with another key is not about the local Block Volume. -/
theorem aboutBlockVolume_eq_false {key token value : Text} (hkey : aboutKey (key.takeWhile (· ≠ '=')) = false)
    (h : tokenValue key token = some value) : aboutBlockVolume token = false := by
  have hkeyOf := tokenKey_valueToken (key, value)
  rw [eq_of_tokenValue h]
  show aboutBlockVolume (valueToken (key, value)) = false
  unfold aboutBlockVolume
  rw [hkeyOf]
  exact hkey

/-- Settings in place of others leave the values of another key as they are. -/
theorem filterMap_settings {key : Text} (hkey : aboutKey (key.takeWhile (· ≠ '=')) = false) (tokens : List Text)
    {values : List (Text × Text)} (hvalues : ∀ entry ∈ values, IsSetting entry) :
    ((tokens.filter fun token => !aboutBlockVolume token) ++ values.map valueToken).filterMap (tokenValue key) =
      tokens.filterMap (tokenValue key) := by
  have hnone : (values.map valueToken).filterMap (tokenValue key) = [] := by
    rw [List.filterMap_eq_nil_iff]
    intro token htoken
    obtain ⟨entry, hentry, rfl⟩ := List.mem_map.mp htoken
    cases hvalue : tokenValue key (valueToken entry) with
    | none => rfl
    | some value =>
        have hfalse := aboutBlockVolume_eq_false hkey hvalue
        rw [(hvalues entry hentry).aboutBlockVolume] at hfalse
        cases hfalse
  rw [List.filterMap_append, hnone, List.append_nil, List.filterMap_filter]
  refine List.filterMap_congr fun token _ => ?_
  cases hvalue : tokenValue key token with
  | none => split <;> rfl
  | some value => rw [aboutBlockVolume_eq_false hkey hvalue]; rfl

theorem HostLine.Parts.withValues {parsed : HostLine} (h : parsed.Parts) {values : List (Text × Text)}
    (hvalues : ∀ entry ∈ values, IsSetting entry) : (parsed.withValues values).Parts := by
  have htokens : ∀ token ∈ (parsed.withValues values).tokens, IsWord token ∧ startsComment token = false := by
    intro token htoken
    rcases List.mem_append.mp htoken with htoken | htoken
    · have hmem := List.mem_of_mem_filter htoken
      exact ⟨h.words token hmem, h.noComment token hmem⟩
    · obtain ⟨entry, hentry, rfl⟩ := List.mem_map.mp htoken
      exact ⟨(hvalues entry hentry).isWord, (hvalues entry hentry).noComment⟩
  exact ⟨h.leading, fun token htoken => (htokens token htoken).1, fun token htoken => (htokens token htoken).2, h.comment⟩

theorem withValues_withValues (parsed : HostLine) {values : List (Text × Text)}
    (hvalues : ∀ entry ∈ values, IsSetting entry) (others : List (Text × Text)) :
    (parsed.withValues values).withValues others = parsed.withValues others := by
  have hnone : (values.map valueToken).filter (fun token => !aboutBlockVolume token) = [] := by
    rw [List.filter_eq_nil_iff]
    intro token htoken
    obtain ⟨entry, hentry, rfl⟩ := List.mem_map.mp htoken
    simp [(hvalues entry hentry).aboutBlockVolume]
  simp only [HostLine.withValues, List.filter_append, List.filter_filter, Bool.and_self, hnone, List.append_nil]

/-! ## A line rewritten -/

theorem filter_reSplitFrom_ne_nil (s : Text) {piece : Text} (hpiece : piece ≠ []) :
    (PyStr.reSplitFrom false piece s).filter (· ≠ []) ≠ [] := by
  induction s generalizing piece with
  | nil =>
      rw [PyStr.reSplitFrom, List.filter_cons_of_pos (by simpa using hpiece)]
      exact List.cons_ne_nil _ _
  | cons c rest ih =>
      rw [PyStr.reSplitFrom]
      split
      · rw [if_neg Bool.false_ne_true, List.filter_cons_of_pos (by simpa using hpiece)]
        exact List.cons_ne_nil _ _
      · exact ih (List.cons_ne_nil c piece)

theorem words_ne_nil {c : Char} (hc : PyStr.isSpace c = false) (rest : Text) : words (c :: rest) ≠ [] := by
  rw [words, PyStr.reSplitFrom, hc, if_neg Bool.false_ne_true]
  exact filter_reSplitFrom_ne_nil rest (List.cons_ne_nil c [])

/-- What is stripped at the end begins with the same character, unless that is white space. -/
theorem exists_rstrip_cons {c : Char} (hc : PyStr.isSpace c = false) (rest : Text) :
    ∃ more, rstrip (c :: rest) = c :: more := by
  have hwhole := append_rstrip (c :: rest)
  cases hs : rstrip (c :: rest) with
  | nil =>
      rw [hs, List.nil_append] at hwhole
      have hmem : c ∈ (c :: rest).reverse.takeWhile PyStr.isSpace := by
        rw [← List.mem_reverse, hwhole]
        exact List.mem_cons_self
      rw [List.mem_takeWhile_imp hmem] at hc
      cases hc
  | cons d more =>
      rw [hs] at hwhole
      exact ⟨more, by rw [(List.cons.inj hwhole).1]⟩

/-- The first token of a line, where it has one, has no `=`. -/
def PlainHost (line : Text) : Prop := ∀ host, hostName line = some host → '=' ∉ host

/-- What the line `other`, rewritten from `line` with these settings, is read as. -/
structure RewritesTo (line : Text) (values : List (Text × Text)) (other : Text) : Prop where
  unchanged : splitInventoryHostLine line = none → other = line
  parts : ∀ parsed, splitInventoryHostLine line = some parsed →
    splitInventoryHostLine other = some ⟨parsed.leadingWhitespace,
      (parsed.tokens.filter fun token => !aboutBlockVolume token) ++ values.map valueToken, parsed.comment⟩
  instanceId : getInventoryInstanceId other = getInventoryInstanceId line

section
variable {line : Text} {values others : List (Text × Text)}

theorem tokens_ne_nil_of_splitInventoryHostLine {parsed : HostLine} (h : splitInventoryHostLine line = some parsed) :
    parsed.tokens ≠ [] := by
  rw [splitInventoryHostLine] at h
  split at h
  · cases h
  · rename_i hstripped
    rw [not_or] at hstripped
    obtain rfl := Option.some.inj h
    obtain ⟨c, rest, hc⟩ := List.exists_cons_of_ne_nil hstripped.1
    have hspace : PyStr.isSpace c = false := by
      have hwhole := append_rstrip (lstrip (rstripNewlines line))
      rw [show rstrip (lstrip (rstripNewlines line)) = c :: rest from hc] at hwhole
      refine @head?_dropWhile_isSpace (rstripNewlines line) c ?_
      show (lstrip (rstripNewlines line)).head? = some c
      rw [← hwhole]
      rfl
    have hfront : (splitComment (c :: rest)).1 = c :: (splitComment rest).1 := by
      rw [splitComment, hspace, Bool.false_and, if_neg Bool.false_ne_true]
    obtain ⟨more, hmore⟩ := exists_rstrip_cons hspace (splitComment rest).1
    dsimp only
    rw [hc, hfront, hmore]
    exact words_ne_nil hspace more

/-- The rewritten line is read as the parts it was written from. -/
theorem split_rewritten (hhost : PlainHost line) (hvalues : ∀ entry ∈ values, IsSetting entry) {parsed : HostLine}
    (h : splitInventoryHostLine line = some parsed) :
    splitInventoryHostLine (rewriteComputeInventoryLine line values) = some (parsed.withValues values) := by
  obtain ⟨host, rest, htokens⟩ := List.exists_cons_of_ne_nil (tokens_ne_nil_of_splitInventoryHostLine h)
  have hplain : '=' ∉ host := hhost host (by rw [hostName, h, Option.bind_some, htokens]; rfl)
  have hne : (parsed.withValues values).tokens ≠ [] := by
    rw [withValues_tokens htokens hplain]
    exact List.cons_ne_nil _ _
  rw [rewriteComputeInventoryLine, h]
  exact ((parts_of_splitInventoryHostLine h).withValues hvalues).split_write hne

theorem rewrite_of_none (h : splitInventoryHostLine line = none) : rewriteComputeInventoryLine line values = line := by
  rw [rewriteComputeInventoryLine, h]

theorem instanceId_rewritten (hhost : PlainHost line) (hvalues : ∀ entry ∈ values, IsSetting entry) :
    getInventoryInstanceId (rewriteComputeInventoryLine line values) = getInventoryInstanceId line := by
  cases h : splitInventoryHostLine line with
  | none => rw [rewrite_of_none h]
  | some parsed =>
      obtain ⟨host, rest, htokens⟩ := List.exists_cons_of_ne_nil (tokens_ne_nil_of_splitInventoryHostLine h)
      have hplain : '=' ∉ host := hhost host (by rw [hostName, h, Option.bind_some, htokens]; rfl)
      have hids : (parsed.withValues values).tokens.filterMap (tokenValue "oci_instance_id".toList) =
          parsed.tokens.filterMap (tokenValue "oci_instance_id".toList) :=
        filterMap_settings (by decide) parsed.tokens hvalues
      have hhead : (parsed.withValues values).tokens.headD [] = parsed.tokens.headD [] ∧
          (parsed.withValues values).tokens.headD "<unknown>".toList = parsed.tokens.headD "<unknown>".toList := by
        rw [withValues_tokens htokens hplain, htokens]
        exact ⟨rfl, rfl⟩
      rw [getInventoryInstanceId, getInventoryInstanceId, split_rewritten hhost hvalues h, h]
      dsimp only
      rw [hids, hhead.1, getInventoryInstanceId.notOne, getInventoryInstanceId.notOne, hhead.2]

theorem rewrite_rewritten (hhost : PlainHost line) (hvalues : ∀ entry ∈ values, IsSetting entry) :
    rewriteComputeInventoryLine (rewriteComputeInventoryLine line values) others =
      rewriteComputeInventoryLine line others := by
  cases h : splitInventoryHostLine line with
  | none => rw [rewrite_of_none h]
  | some parsed =>
      have hsplit := split_rewritten hhost hvalues h
      rw [rewriteComputeInventoryLine, hsplit]
      dsimp only
      rw [withValues_withValues parsed hvalues, rewriteComputeInventoryLine, h]

end

/-- **A rewritten line is read back** with the parts of the line and the given settings, has the same instance, and
only the last rewriting counts. -/
theorem rewritten_read_back {line : Text} (hhost : PlainHost line) {values : List (Text × Text)}
    (hvalues : ∀ entry ∈ values, IsSetting entry) :
    RewritesTo line values (rewriteComputeInventoryLine line values) ∧
      rewriteComputeInventoryLine (rewriteComputeInventoryLine line values) values =
        rewriteComputeInventoryLine line values ∧
      ∀ others : List (Text × Text), rewriteComputeInventoryLine (rewriteComputeInventoryLine line values) others =
        rewriteComputeInventoryLine line others :=
  ⟨⟨rewrite_of_none, fun _ h => split_rewritten hhost hvalues h, instanceId_rewritten hhost hvalues⟩,
    rewrite_rewritten hhost hvalues, fun _ => rewrite_rewritten hhost hvalues⟩

def preparedLine : Text := "node-1 oci_instance_id=ocid1 use_local_block_volume=true  # first\n".toList

theorem hostName_preparedLine : hostName preparedLine = some "node-1".toList := by decide +kernel

theorem rewritten_read_back_prepared :
    RewritesTo preparedLine [("use_local_block_volume".toList, "false".toList)]
      (rewriteComputeInventoryLine preparedLine [("use_local_block_volume".toList, "false".toList)]) :=
  (rewritten_read_back
    (fun host hhost => by
      obtain rfl := Option.some.inj (hostName_preparedLine.symm.trans hhost)
      decide)
    fun entry hentry => by
      rw [List.mem_singleton.mp hentry]
      exact ⟨by decide, noSpace_of_all (by decide), noSpace_of_all (by decide)⟩).1

/-- A key with a space in it makes two tokens. -/
theorem spaced_key_splits : ¬ ∀ (line : Text) (values : List (Text × Text)), PlainHost line →
    (∀ entry ∈ values, aboutKey entry.1 = true ∧ NoSpace entry.2) →
      RewritesTo line values (rewriteComputeInventoryLine line values) := by
  intro h
  have hsplit := (h "node-1 ansible_host=10.0.0.2 oci_instance_id=ocid1\n".toList
    [("local_block_volume_a b".toList, "1".toList)] ?_ ?_).parts
      ⟨[], ["node-1".toList, "ansible_host=10.0.0.2".toList, "oci_instance_id=ocid1".toList], []⟩ (by decide +kernel)
  · exact absurd hsplit (by decide +kernel)
  · intro host hhost
    have hname : hostName "node-1 ansible_host=10.0.0.2 oci_instance_id=ocid1\n".toList = some "node-1".toList := by
      decide +kernel
    obtain rfl := Option.some.inj (hname.symm.trans hhost)
    decide
  · intro entry hentry
    rw [List.mem_singleton.mp hentry]
    exact ⟨by decide, noSpace_of_all (by decide)⟩

end OciHpc.Resize
