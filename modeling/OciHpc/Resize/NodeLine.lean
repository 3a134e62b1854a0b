import OciHpc.Resize.AddReconfigure
import OciHpc.Resize.InventoryPreparation

/-!
# The line made for a node

What is read in `compute_inventory_line`, whatever the name of the node and of the user, and in such a line once it has
been rewritten.

* `hostName_eq_some_iff` : the host of a line is what stands before its first white space;
* `hostName_computeInventoryLine` : the line of a node is of the node, where its name can be that of a host;
* `Node.Plain`, `isLine_computeInventoryLine` : what OCI answers makes one line, and no header;
* `isHeader_of_bracketed` : a line that is rewritten as a header was one;
* `describes_of_turned` : a rewritten line is of the nodes it was of.
-/

namespace OciHpc.Resize

/-! ## White space at the ends -/

theorem rstrip_append_space {s : Text} {c : Char} (hc : PyStr.isSpace c = true) : rstrip (s ++ [c]) = rstrip s := by
  rw [rstrip, List.reverse_append, List.reverse_singleton, List.singleton_append, List.dropWhile_cons_of_pos hc, rstrip]

/-- What stands before the first white space, before white space is appended. -/
theorem takeWhile_append_space {s back : Text} (hback : ∀ c ∈ back, PyStr.isSpace c = true) :
    (s ++ back).takeWhile (fun c => !PyStr.isSpace c) = s.takeWhile fun c => !PyStr.isSpace c := by
  have hnone : back.takeWhile (fun c => !PyStr.isSpace c) = [] := by
    cases back with
    | nil => rfl
    | cons c back => exact List.takeWhile_cons_of_neg (by rw [hback c List.mem_cons_self]; exact Bool.false_ne_true)
  induction s with
  | nil => exact hnone
  | cons c s ih => rw [List.cons_append, List.takeWhile_cons, List.takeWhile_cons, ih]

theorem takeWhile_rstrip (s : Text) :
    (rstrip s).takeWhile (fun c => !PyStr.isSpace c) = s.takeWhile fun c => !PyStr.isSpace c := by
  obtain ⟨back, heq, hback⟩ := exists_rstrip s
  conv_rhs => rw [heq, takeWhile_append_space hback]

/-- `rstrip("\r\n")` leaves out white space. -/
theorem exists_rstripNewlines (s : Text) : ∃ back, s = rstripNewlines s ++ back ∧ ∀ c ∈ back, PyStr.isSpace c = true := by
  refine ⟨(s.reverse.takeWhile fun c => c = '\r' || c = '\n').reverse, ?_, fun c hc => ?_⟩
  · rw [rstripNewlines, ← List.reverse_append, List.takeWhile_append_dropWhile, List.reverse_reverse]
  · have hnewline := List.mem_takeWhile_imp (List.mem_reverse.mp hc)
    rw [Bool.or_eq_true, decide_eq_true_eq, decide_eq_true_eq] at hnewline
    rcases hnewline with rfl | rfl
    · exact isSpace_return
    · exact isSpace_newline

theorem takeWhile_rstripNewlines (s : Text) :
    (rstripNewlines s).takeWhile (fun c => !PyStr.isSpace c) = s.takeWhile fun c => !PyStr.isSpace c := by
  obtain ⟨back, heq, hback⟩ := exists_rstripNewlines s
  conv_rhs => rw [heq, takeWhile_append_space hback]

theorem strip_append_space {s back : Text} (hback : ∀ c ∈ back, PyStr.isSpace c = true) : strip (s ++ back) = strip s := by
  induction back generalizing s with
  | nil => rw [List.append_nil]
  | cons c back ih =>
      have hc := hback c List.mem_cons_self
      have hone : strip (s ++ [c]) = strip s := by
        rw [strip, strip, lstrip, lstrip, List.dropWhile_append]
        split
        · rename_i hnil
          rw [List.isEmpty_iff.mp hnil, List.dropWhile_cons_of_pos hc, List.dropWhile_nil]
        · exact rstrip_append_space hc
      have hrest := @ih (s ++ [c]) fun d hd => hback d (List.mem_cons_of_mem _ hd)
      rw [List.append_assoc, List.singleton_append] at hrest
      rw [hrest, hone]

theorem strip_rstripNewlines (s : Text) : strip (rstripNewlines s) = strip s := by
  obtain ⟨back, heq, hback⟩ := exists_rstripNewlines s
  conv_rhs => rw [heq, strip_append_space hback]

theorem takeWhile_splitComment (s : Text) :
    (splitComment s).1.takeWhile (fun c => !PyStr.isSpace c) = s.takeWhile fun c => !PyStr.isSpace c := by
  induction s with
  | nil => rfl
  | cons c s ih =>
      rw [splitComment]
      split
      · rename_i hcomment
        have hspace := (Bool.and_eq_true_iff.mp hcomment).1
        rw [List.takeWhile_cons_of_neg (by rw [hspace]; exact Bool.false_ne_true)]
        rfl
      · rw [List.takeWhile_cons, List.takeWhile_cons, ih]

/-- The last character but for white space stays the last. -/
theorem getLast?_strip_of_append {front back : Text} {c : Char} (hc : PyStr.isSpace c = false)
    (hback : ∀ d ∈ back, PyStr.isSpace d = true) : (strip (front ++ c :: back)).getLast? = some c := by
  obtain ⟨lead, hlead⟩ : ∃ lead, lstrip (front ++ c :: back) = lead ++ c :: back := by
    rw [lstrip]
    induction front with
    | nil =>
        refine ⟨[], ?_⟩
        exact List.dropWhile_cons_of_neg (by rw [hc]; exact Bool.false_ne_true)
    | cons d front ih =>
        rw [List.cons_append, List.dropWhile_cons]
        split
        · exact ih
        · exact ⟨d :: front, rfl⟩
  have hdrop : (back.reverse ++ c :: lead.reverse).dropWhile PyStr.isSpace = c :: lead.reverse := by
    rw [List.dropWhile_append_of_pos fun d hd => hback d (List.mem_reverse.mp hd),
      List.dropWhile_cons_of_neg (by rw [hc]; exact Bool.false_ne_true)]
  rw [strip, hlead, rstrip, List.reverse_append, List.reverse_cons, List.append_assoc, List.singleton_append, hdrop,
    List.getLast?_reverse, List.head?_cons]

/-! ## The host of a line -/

theorem head?_reSplitFrom (piece s : Text) : (PyStr.reSplitFrom false piece s).head? =
    some (piece.reverse ++ s.takeWhile fun c => !PyStr.isSpace c) := by
  induction s generalizing piece with
  | nil => rw [PyStr.reSplitFrom, List.takeWhile_nil, List.append_nil, List.head?_cons]
  | cons c s ih =>
      rw [PyStr.reSplitFrom]
      split
      · rename_i hspace
        rw [if_neg Bool.false_ne_true, List.takeWhile_cons_of_neg (by rw [hspace]; exact Bool.false_ne_true),
          List.append_nil, List.head?_cons]
      · rename_i hspace
        rw [ih, List.takeWhile_cons_of_pos (by simpa using hspace), List.reverse_cons, List.append_assoc,
          List.singleton_append]

/-- The first word of a text that begins with none of the white space. -/
theorem head?_words {s : Text} (h : s.takeWhile (fun c => !PyStr.isSpace c) ≠ []) :
    (words s).head? = some (s.takeWhile fun c => !PyStr.isSpace c) := by
  have hfirst := head?_reSplitFrom [] s
  rw [List.reverse_nil, List.nil_append] at hfirst
  rw [words]
  obtain ⟨rest, hsplit⟩ := List.head?_eq_some_iff.mp hfirst
  rw [hsplit, List.filter_cons_of_pos (by simpa using h), List.head?_cons]

/-- **The host of a line is what stands before its first white space.** -/
theorem hostName_eq_some_iff {line host : Text} :
    hostName line = some host ↔
      startsComment (strip (rstripNewlines line)) = false ∧ host ≠ [] ∧
        host = (strip (rstripNewlines line)).takeWhile fun c => !PyStr.isSpace c := by
  have hfront : (rstrip (splitComment (strip (rstripNewlines line))).1).takeWhile (fun c => !PyStr.isSpace c) =
      (strip (rstripNewlines line)).takeWhile fun c => !PyStr.isSpace c := by
    rw [takeWhile_rstrip, takeWhile_splitComment]
  have hne : strip (rstripNewlines line) ≠ [] →
      (strip (rstripNewlines line)).takeWhile (fun c => !PyStr.isSpace c) ≠ [] := by
    intro hstripped
    obtain ⟨c, rest, hcons⟩ := List.exists_cons_of_ne_nil hstripped
    have hspace : PyStr.isSpace c = false := by
      obtain ⟨_, _, hparts⟩ : ∃ front back : Text, lstrip (rstripNewlines line) = c :: rest ++ back := by
        obtain ⟨back, heq, -⟩ := exists_rstrip (lstrip (rstripNewlines line))
        exact ⟨[], back, by rw [← hcons]; exact heq⟩
      refine @head?_dropWhile_isSpace (rstripNewlines line) c ?_
      rw [← lstrip, hparts, List.cons_append, List.head?_cons]
    rw [hcons, List.takeWhile_cons_of_pos (by rw [hspace]; rfl)]
    exact List.cons_ne_nil _ _
  rw [hostName, splitInventoryHostLine]
  split
  · rename_i hnone
    refine iff_of_false (by rw [Option.bind_none]; exact (Option.some_ne_none host).symm) ?_
    rintro ⟨hcomment, hhost, rfl⟩
    rcases hnone with hnil | hstart
    · rw [hnil] at hhost
      exact hhost rfl
    · rw [hcomment] at hstart
      cases hstart
  · rename_i hsome
    rw [not_or] at hsome
    have hword := head?_words (hfront ▸ hne hsome.1)
    rw [Option.bind_some, hword, hfront, Option.some.injEq]
    constructor
    · rintro rfl
      exact ⟨Bool.not_eq_true _ ▸ hsome.2, hne hsome.1, rfl⟩
    · rintro ⟨-, -, rfl⟩
      rfl

theorem isWord_of_hostName {line host : Text} (h : hostName line = some host) :
    IsWord host ∧ startsComment host = false := by
  obtain ⟨parsed, rest, hparsed, htokens⟩ := tokens_of_hostName h
  have hparts := parts_of_splitInventoryHostLine hparsed
  have hmem : host ∈ parsed.tokens := htokens ▸ List.mem_cons_self
  exact ⟨hparts.words host hmem, hparts.noComment host hmem⟩

/-! ## The line of a node -/

/-- A name on one line, an address and an identifier without white space or bracket, as OCI answers them. -/
structure Node.Plain (node : Node) : Prop where
  name : ∀ c ∈ node.displayName.toList, c ≠ '\n' ∧ c ≠ '\r'
  ip : IsPlain node.ip.toList
  ocid : IsPlain node.ocid.toList

section
variable {node : Node} {username : Text}

/-- The line, without its newline. -/
theorem computeInventoryLine_eq_append (node : Node) (username : Text) : computeInventoryLine node username =
    node.displayName.toList ++ ' ' :: ("ansible_host=".toList ++ node.ip.toList ++ " ansible_user=".toList ++ username ++
      " role=compute oci_instance_id".toList ++ '=' :: node.ocid.toList) ++ ['\n'] := by
  simp [computeInventoryLine]

/-- **The line made for a node is of that node**, where its name can be that of a host. -/
theorem hostName_computeInventoryLine (hword : IsWord node.displayName.toList)
    (hcomment : startsComment node.displayName.toList = false) :
    hostName (computeInventoryLine node username) = some node.displayName.toList := by
  have hfirst : (computeInventoryLine node username).takeWhile (fun c => !PyStr.isSpace c) = node.displayName.toList := by
    rw [computeInventoryLine_eq_append, List.append_assoc,
      List.takeWhile_append_of_pos fun c hc => by rw [hword.noSpace c hc]; rfl, List.cons_append,
      List.takeWhile_cons_of_neg (by decide), List.append_nil]
  generalize computeInventoryLine node username = line at hfirst ⊢
  have hcut := takeWhile_rstripNewlines line
  rw [hfirst] at hcut
  have hleft : lstrip (rstripNewlines line) = rstripNewlines line := by
    cases hcase : rstripNewlines line with
    | nil =>
        rw [hcase] at hcut
        exact absurd hcut.symm hword.nonempty
    | cons c more =>
        refine List.dropWhile_cons_of_neg fun hspace => ?_
        rw [hcase, List.takeWhile_cons_of_neg (by rw [hspace]; exact Bool.false_ne_true)] at hcut
        exact hword.nonempty hcut.symm
  have hwhole : (strip (rstripNewlines line)).takeWhile (fun c => !PyStr.isSpace c) = node.displayName.toList := by
    rw [strip, hleft, takeWhile_rstrip, hcut]
  refine hostName_eq_some_iff.mpr ⟨?_, hword.nonempty, hwhole.symm⟩
  obtain ⟨more, hmore⟩ : node.displayName.toList <+: strip (rstripNewlines line) := hwhole ▸ List.takeWhile_prefix _
  rw [← hmore, startsComment_append hword.nonempty]
  exact hcomment

theorem oneLine_of_all {s : Text} (h : s.all (fun c => c != '\n' && c != '\r') = true) :
    ∀ c ∈ s, c ≠ '\n' ∧ c ≠ '\r' := by
  intro c hc
  have hchar := List.all_eq_true.mp h c hc
  rwa [Bool.and_eq_true, bne_iff_ne, bne_iff_ne] at hchar

theorem IsPlain.oneLine {s : Text} (h : IsPlain s) : ∀ c ∈ s, c ≠ '\n' ∧ c ≠ '\r' := by
  intro c hc
  have hspace := (h c hc).1
  refine ⟨?_, ?_⟩
  · rintro rfl
    exact absurd (isSpace_newline.symm.trans hspace) (by decide)
  · rintro rfl
    exact absurd (isSpace_return.symm.trans hspace) (by decide)

/-- **What OCI answers makes one line, and no header.** -/
theorem isLine_computeInventoryLine (hnode : node.Plain) (husername : ∀ c ∈ username, c ≠ '\n' ∧ c ≠ '\r') :
    IsLine (computeInventoryLine node username) ∧ isHeader (computeInventoryLine node username) = false := by
  have hfixed : ∀ s ∈ ["ansible_host=", " ansible_user=", " role=compute oci_instance_id"],
      s.toList.all (fun c => c != '\n' && c != '\r') = true := by decide
  have hbody : ∀ c ∈ node.displayName.toList ++ ' ' :: ("ansible_host=".toList ++ node.ip.toList ++
      " ansible_user=".toList ++ username ++ " role=compute oci_instance_id".toList ++ '=' :: node.ocid.toList),
      c ≠ '\n' ∧ c ≠ '\r' := by
    intro c hc
    simp only [List.mem_append, List.mem_cons] at hc
    rcases hc with hc | rfl | ((((hc | hc) | hc) | hc) | hc) | rfl | hc
    · exact hnode.name c hc
    · decide
    · exact oneLine_of_all (hfixed _ (by simp)) c hc
    · exact hnode.ip.oneLine c hc
    · exact oneLine_of_all (hfixed _ (by simp)) c hc
    · exact husername c hc
    · exact oneLine_of_all (hfixed _ (by simp)) c hc
    · decide
    · exact hnode.ocid.oneLine c hc
  -- the line ends with the identifier, or with the sign before it
  obtain ⟨front, c, hsplit, hspace, hbracket⟩ : ∃ front c, '=' :: node.ocid.toList = front ++ [c] ∧
      PyStr.isSpace c = false ∧ c ≠ ']' := by
    rcases List.eq_nil_or_concat node.ocid.toList with hnil | ⟨init, c, hconcat⟩
    · exact ⟨[], '=', by rw [hnil]; rfl, by decide, by decide⟩
    · rw [List.concat_eq_append] at hconcat
      have hc := hnode.ocid c (by rw [hconcat]; simp)
      exact ⟨'=' :: init, c, by rw [hconcat, List.cons_append], hc.1, hc.2⟩
  rw [computeInventoryLine_eq_append]
  refine ⟨⟨⟨_, rfl, fun hmem => (hbody _ hmem).1 rfl⟩, fun hmem => ?_⟩, ?_⟩
  · rcases List.mem_append.mp hmem with hmem | hmem
    · exact (hbody _ hmem).2 rfl
    · exact absurd hmem (by decide)
  · refine Bool.eq_false_iff.mpr fun hheader => hbracket ?_
    have hlast := (isHeader_iff.mp hheader).2
    have hshape : ∀ name fixed : Text, name ++ ' ' :: (fixed ++ '=' :: node.ocid.toList) ++ ['\n'] =
        (name ++ ' ' :: (fixed ++ front)) ++ c :: ['\n'] := by
      intro name fixed
      rw [hsplit]
      simp
    rw [hshape, getLast?_strip_of_append hspace fun d hd => by rw [List.mem_singleton.mp hd]; exact isSpace_newline,
      Option.some.injEq] at hlast
    exact hlast

end

/-! ## A line rewritten -/

/-- A line that begins with a bracket and whose comment ends with one is a header. -/
theorem isHeader_of_bracketed {line host : Text} {parsed : HostLine} (hparsed : splitInventoryHostLine line = some parsed)
    (hhost : hostName line = some host) (hopen : host.head? = some '[') (hclose : parsed.comment.getLast? = some ']') :
    isHeader line = true := by
  obtain ⟨-, hne, heq⟩ := hostName_eq_some_iff.mp hhost
  rw [isHeader_iff, ← strip_rstripNewlines]
  constructor
  · obtain ⟨more, hmore⟩ : host <+: strip (rstripNewlines line) := heq ▸ List.takeWhile_prefix _
    rw [← hmore, List.head?_append_of_ne_nil _ hne]
    exact hopen
  · rw [splitInventoryHostLine] at hparsed
    split at hparsed
    · cases hparsed
    · obtain rfl := Option.some.inj hparsed
      have hcomment : (splitComment (strip (rstripNewlines line))).2 ≠ [] := by
        intro hnil
        rw [hnil] at hclose
        cases hclose
      obtain ⟨front, hwhole⟩ := (splitComment_comment hcomment).2
      rw [← hwhole, List.getLast?_append_of_ne_nil _ hcomment]
      exact hclose

section
variable {cloud : Cloud} {inventory : Inventory} {line other : Text} {values : List (Text × Text)}

theorem tokenValue_valueToken {entry : Text × Text} (h : aboutKey entry.1 = true) :
    tokenValue "ansible_host".toList (valueToken entry) = none := by
  have hfirst : ∃ c rest, entry.1 = c :: rest ∧ c ≠ 'a' := by
    rw [aboutKey, Bool.or_eq_true, beq_iff_eq, List.isPrefixOf_iff_prefix] at h
    obtain h | ⟨rest, h⟩ := h
    · exact ⟨_, _, h, by decide⟩
    · exact ⟨_, _, h.symm, by decide⟩
  obtain ⟨c, rest, hkey, hc⟩ := hfirst
  refine if_neg fun hprefix => hc ?_
  obtain ⟨more, hmore⟩ := List.isPrefixOf_iff_prefix.mp hprefix
  rw [valueToken, hkey] at hmore
  exact ((List.cons.inj hmore).1).symm

/-- A rewritten line has the host and the address it had, unless its host is named like a setting. -/
theorem sameHost_of_given (h : IsGiven values) {host : Text} (hhost : hostName line = some host)
    (habout : aboutBlockVolume host = false) :
    hostName (rewriteComputeInventoryLine line values) = some host ∧
      hostAddress (rewriteComputeInventoryLine line values) = hostAddress line := by
  obtain ⟨parsed, rest, hparsed, htokens⟩ := tokens_of_hostName hhost
  have hwith : (parsed.withValues values).tokens =
      host :: ((rest.filter fun token => !aboutBlockVolume token) ++ values.map valueToken) := by
    rw [HostLine.withValues, htokens, List.filter_cons_of_pos (by rw [habout]; rfl), List.cons_append]
  have hread := split_rewritten_of_isGiven h hparsed
  constructor
  · rw [hostName, hread, Option.bind_some, hwith, List.head?_cons]
  · rw [hostAddress, hostAddress, hread, hparsed, Option.bind_some, Option.bind_some, hwith, htokens, List.drop_one,
      List.drop_one, List.tail_cons, List.tail_cons, filterMap_withValues rest fun entry hentry =>
        tokenValue_valueToken (h.about entry hentry).1]

/-- It reads as a header only if it was one. -/
theorem isHeader_of_given (h : IsGiven values) {host : Text} (hhost : hostName line = some host)
    (habout : aboutBlockVolume host = false) (hheader : isHeader (rewriteComputeInventoryLine line values) = true) :
    isHeader line = true := by
  obtain ⟨parsed, rest, hparsed, htokens⟩ := tokens_of_hostName hhost
  obtain ⟨hopen, hclose⟩ := (isHeader_rewritten_iff h hparsed).mp hheader
  rw [htokens, List.filter_cons_of_pos (by rw [habout]; rfl), List.head?_cons, Option.bind_some] at hopen
  exact isHeader_of_bracketed hparsed hhost hopen hclose

/-- **A line before and after is of the same nodes**, unless its host is named like a setting. -/
theorem describes_of_turned {name : Text} (h : Turned cloud inventory name line other)
    (habout : ∀ host, hostName line = some host → aboutBlockVolume host = false) (node : Node) :
    describes node other = describes node line := by
  rcases h.2 with ⟨-, rfl⟩ | ⟨-, hhost, values, hgiven, rfl⟩
  · rfl
  · obtain ⟨host, hhost⟩ := Option.ne_none_iff_exists'.mp hhost
    obtain ⟨hname, haddress⟩ := sameHost_of_given hgiven hhost (habout host hhost)
    rw [describes, describes, hname, haddress, hhost]

end

end OciHpc.Resize
