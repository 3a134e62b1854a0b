import OciHpc.Base.PyText

/-!
# Searching for a lazy group between two texts

`re.findall` of a pattern `header(.*?)stop`, where `header` and `stop` stand for themselves.

* `lazyUntil`, `findall` : the shortest group, and the groups of all matches from left to right;
* `afterHeader` : what follows the first occurrence of `header`;
* `findall_of_afterHeader` : in a line, the first match is at the first `header`, if there is one;
* `findall_eq_lines` : the matches of a text are those of its lines.
-/

namespace OciHpc

/-! ## The search -/

/-- The shortest text without a newline that is followed by `stop`. -/
def lazyUntil (stop : List Char) : List Char → Option (List Char)
  | [] => none
  | c :: rest =>
    if stop.isPrefixOf (c :: rest) then some []
    else if c = '\n' then none
    else (lazyUntil stop rest).map (c :: ·)

section
variable (header stop : List Char)

/-- The group of a match at the beginning of the text. -/
def matchAt (s : List Char) : Option (List Char) :=
  if header.isPrefixOf s then lazyUntil stop (s.drop header.length) else none

/-- The search, with the characters of the last match still to pass over. -/
def findallFrom : Nat → List Char → List (List Char)
  | _, [] => []
  | skip + 1, _ :: rest => findallFrom skip rest
  | 0, c :: rest =>
    match matchAt header stop (c :: rest) with
    | some group => group :: findallFrom (header.length + group.length + stop.length - 1) rest
    | none => findallFrom 0 rest

def findall (s : List Char) : List (List Char) := findallFrom header stop 0 s

/-- What follows the first occurrence of `header`. -/
def afterHeader : List Char → Option (List Char)
  | [] => none
  | c :: rest => if header.isPrefixOf (c :: rest) then some ((c :: rest).drop header.length) else afterHeader rest

def textLines (s : List Char) : List (List Char) := PyStr.splitFrom ['\n'] 0 [] s

end

/-! ## The group -/

section
variable {header stop : List Char}

theorem lazyUntil_eq_some {s group : List Char} (h : lazyUntil stop s = some group) :
    ∃ rest, s = group ++ (stop ++ rest) := by
  induction s generalizing group with
  | nil => cases h
  | cons c s ih =>
    rw [lazyUntil] at h
    split at h
    case isTrue hprefix =>
      cases h
      obtain ⟨rest, hrest⟩ := List.isPrefixOf_iff_prefix.mp hprefix
      exact ⟨rest, hrest.symm⟩
    case isFalse =>
      split at h
      · cases h
      · obtain ⟨group', hgroup, rfl⟩ := Option.map_eq_some_iff.mp h
        obtain ⟨rest, rfl⟩ := ih hgroup
        exact ⟨rest, rfl⟩

/-- Where there is no group there is no `stop` in the line. -/
theorem infix_iff_lazyUntil {s : List Char} (hstop : stop ≠ []) (hline : '\n' ∉ s) :
    stop <:+: s ↔ ∃ group, lazyUntil stop s = some group := by
  constructor
  · intro h
    induction s with
    | nil => exact absurd (List.infix_nil.mp h) hstop
    | cons c s ih =>
      rw [lazyUntil]
      split
      case isTrue => exact ⟨[], rfl⟩
      case isFalse hprefix =>
        have hc : c ≠ '\n' := Ne.symm (List.ne_of_not_mem_cons hline)
        rw [if_neg hc]
        rcases List.infix_cons_iff.mp h with h | h
        · exact absurd (List.isPrefixOf_iff_prefix.mpr h) hprefix
        · obtain ⟨group, hgroup⟩ := ih (List.not_mem_of_not_mem_cons hline) h
          exact ⟨c :: group, by rw [hgroup]; rfl⟩
  · rintro ⟨group, hgroup⟩
    obtain ⟨rest, rfl⟩ := lazyUntil_eq_some hgroup
    exact ⟨group, rest, by rw [List.append_assoc]⟩

theorem drop_match {s group : List Char} (h : lazyUntil stop s = some group) :
    ∃ rest, s = group ++ (stop ++ rest) ∧ s.drop (group.length + stop.length) = rest := by
  obtain ⟨rest, rfl⟩ := lazyUntil_eq_some h
  refine ⟨rest, rfl, ?_⟩
  rw [← List.append_assoc, ← List.length_append, List.drop_left]

/-! ## The matches -/

theorem findallFrom_drop (skip : Nat) (s : List Char) :
    findallFrom header stop skip s = findall header stop (s.drop skip) := by
  induction s generalizing skip with
  | nil =>
    rw [List.drop_nil]
    cases skip <;> rfl
  | cons c s ih =>
    cases skip with
    | zero => rfl
    | succ skip =>
      rw [List.drop_succ_cons]
      exact ih skip

theorem findall_of_match {s group : List Char} (hheader : header ≠ []) (h : lazyUntil stop s = some group) :
    findall header stop (header ++ s) = group :: findall header stop (s.drop (group.length + stop.length)) := by
  cases header with
  | nil => exact absurd rfl hheader
  | cons c rest =>
    have hmatch : matchAt (c :: rest) stop (c :: rest ++ s) = some group := by
      rw [matchAt, if_pos (List.isPrefixOf_iff_prefix.mpr (List.prefix_append _ _)), List.drop_left]
      exact h
    have hskip : (c :: rest).length + group.length + stop.length - 1 = rest.length + (group.length + stop.length) := by
      rw [List.length_cons]
      omega
    rw [findall, List.cons_append, findallFrom, ← List.cons_append, hmatch]
    dsimp only
    rw [findallFrom_drop, hskip, ← List.drop_drop, List.drop_left]

theorem findall_cons_of_none {c : Char} {s : List Char} (h : matchAt header stop (c :: s) = none) :
    findall header stop (c :: s) = findall header stop s := by
  rw [findall, findallFrom, h]
  rfl

theorem matchAt_of_not_header {s : List Char} (h : header.isPrefixOf s = false) : matchAt header stop s = none := by
  rw [matchAt, h]
  rfl

/-- Nothing is found where no `header` is followed by `stop`. -/
theorem findall_eq_nil {s : List Char} (h : ∀ tail, header ++ tail <:+ s → lazyUntil stop tail = none) :
    findall header stop s = [] := by
  induction s with
  | nil => rfl
  | cons c s ih =>
    have hmatch : matchAt header stop (c :: s) = none := by
      rw [matchAt]
      split
      case isTrue hprefix =>
        obtain ⟨tail, htail⟩ := List.isPrefixOf_iff_prefix.mp hprefix
        rw [← htail, List.drop_left]
        exact h tail (htail ▸ List.suffix_refl _)
      case isFalse => rfl
    rw [findall_cons_of_none hmatch]
    exact ih fun tail htail => h tail (htail.trans (List.suffix_cons c s))

/-! ## The first header -/

theorem suffix_of_afterHeader {s tail : List Char} (h : afterHeader header s = some tail) : tail <:+ s := by
  induction s with
  | nil => cases h
  | cons c s ih =>
    rw [afterHeader] at h
    split at h
    · cases h
      exact List.drop_suffix _ _
    · exact (ih h).trans (List.suffix_cons c s)

/-- Every `header` is at the first one, or follows it. -/
theorem suffix_of_header {s tail : List Char} (hheader : header ≠ []) (h : header ++ tail <:+ s) :
    ∃ first, afterHeader header s = some first ∧ tail <:+ first := by
  induction s with
  | nil =>
    rw [List.suffix_nil, List.append_eq_nil_iff] at h
    exact absurd h.1 hheader
  | cons c s ih =>
    rw [afterHeader]
    split
    case isTrue =>
      refine ⟨_, rfl, ?_⟩
      refine List.suffix_of_suffix_length_le ((List.suffix_append _ _).trans h) (List.drop_suffix _ _) ?_
      have hlength := h.length_le
      rw [List.length_append] at hlength
      rw [List.length_drop]
      omega
    case isFalse hnot =>
      rcases List.suffix_cons_iff.mp h with heq | h
      · exact absurd (List.isPrefixOf_iff_prefix.mpr (heq ▸ List.prefix_append _ _)) hnot
      · exact ih h

theorem findall_of_no_header {s : List Char} (hheader : header ≠ []) (h : afterHeader header s = none) :
    findall header stop s = [] := by
  refine findall_eq_nil fun tail htail => ?_
  obtain ⟨first, hfirst, -⟩ := suffix_of_header hheader htail
  cases h.symm.trans hfirst

/-- The first match of a line is at the first `header`. -/
theorem findall_of_afterHeader {s tail group : List Char} (hheader : header ≠ [])
    (h : afterHeader header s = some tail) (hgroup : lazyUntil stop tail = some group) :
    findall header stop s = group :: findall header stop (tail.drop (group.length + stop.length)) := by
  induction s with
  | nil => cases h
  | cons c s ih =>
    rw [afterHeader] at h
    split at h
    case isTrue hprefix =>
      cases h
      obtain ⟨rest, hrest⟩ := List.isPrefixOf_iff_prefix.mp hprefix
      rw [← hrest, List.drop_left] at hgroup ⊢
      exact findall_of_match hheader hgroup
    case isFalse hnot =>
      rw [findall_cons_of_none (matchAt_of_not_header (Bool.eq_false_iff.mpr hnot))]
      exact ih h

/-- If `stop` does not follow the first `header`, nothing is found. -/
theorem findall_of_no_stop {s tail : List Char} (hheader : header ≠ []) (hstop : stop ≠ []) (hline : '\n' ∉ s)
    (h : afterHeader header s = some tail) (hnot : ¬ stop <:+: tail) : findall header stop s = [] := by
  refine findall_eq_nil fun later hlater => ?_
  obtain ⟨first, hfirst, hsuffix⟩ := suffix_of_header hheader hlater
  cases h.symm.trans hfirst
  have hlater' : '\n' ∉ later := fun hmem =>
    hline ((suffix_of_afterHeader h).mem (hsuffix.mem hmem))
  rw [Option.eq_none_iff_forall_ne_some]
  exact fun group hgroup => hnot (((infix_iff_lazyUntil hstop hlater').mpr ⟨group, hgroup⟩).trans hsuffix.isInfix)

/-! ## Lines -/

theorem isPrefixOf_newline {part : List Char} (hpart : '\n' ∉ part) (s rest : List Char) :
    part.isPrefixOf (s ++ '\n' :: rest) = part.isPrefixOf s := by
  induction part generalizing s with
  | nil => simp
  | cons c part ih =>
    have hc : c ≠ '\n' := Ne.symm (List.ne_of_not_mem_cons hpart)
    cases s with
    | nil => simp [List.isPrefixOf, hc]
    | cons d s =>
      rw [List.cons_append, List.isPrefixOf, List.isPrefixOf, ih (List.not_mem_of_not_mem_cons hpart)]

theorem lazyUntil_newline (hstop : stop ≠ []) (hline : '\n' ∉ stop) (s rest : List Char) :
    lazyUntil stop (s ++ '\n' :: rest) = lazyUntil stop s := by
  induction s with
  | nil =>
    have hnot : stop.isPrefixOf ([] ++ '\n' :: rest) = false := by
      rw [isPrefixOf_newline hline]
      cases stop with
      | nil => exact absurd rfl hstop
      | cons => rfl
    rw [List.nil_append] at hnot ⊢
    show (if stop.isPrefixOf ('\n' :: rest) then some [] else if '\n' = '\n' then none else _) = none
    rw [hnot]
    rfl
  | cons c s ih =>
    have hsame := isPrefixOf_newline hline (c :: s) rest
    rw [List.cons_append] at hsame ⊢
    rw [lazyUntil, lazyUntil, hsame, ih]

theorem findall_newline (hheader : header ≠ []) (hstop : stop ≠ []) (hheader_line : '\n' ∉ header)
    (hstop_line : '\n' ∉ stop) (line rest : List Char) :
    findall header stop (line ++ '\n' :: rest) = findall header stop line ++ findall header stop rest := by
  induction hlength : line.length using Nat.strong_induction_on generalizing line with
  | h n ih =>
    cases line with
    | nil =>
      have hnot : header.isPrefixOf ('\n' :: rest) = false := by
        have hsame := isPrefixOf_newline hheader_line [] rest
        rw [List.nil_append] at hsame
        rw [hsame]
        cases header with
        | nil => exact absurd rfl hheader
        | cons => rfl
      rw [List.nil_append, findall_cons_of_none (matchAt_of_not_header hnot)]
      rfl
    | cons c s =>
      have hprefix := isPrefixOf_newline hheader_line (c :: s) rest
      by_cases hheads : header.isPrefixOf (c :: s) = true
      · obtain ⟨tail, htail⟩ := List.isPrefixOf_iff_prefix.mp hheads
        have hlazy := lazyUntil_newline hstop hstop_line tail rest
        cases hgroup : lazyUntil stop tail with
        | some group =>
          obtain ⟨after, hafter, hdrop⟩ := drop_match hgroup
          have hshort : after.length < n := by
            have hpos := List.length_pos_iff.mpr hheader
            rw [← hlength, ← htail, hafter]
            simp only [List.length_append]
            omega
          have hdrop' : (tail ++ '\n' :: rest).drop (group.length + stop.length) = after ++ '\n' :: rest := by
            rw [hafter, ← List.append_assoc, List.append_assoc _ after, ← List.length_append, List.drop_left]
          rw [← htail, List.append_assoc, findall_of_match hheader (hlazy.trans hgroup), hdrop',
            findall_of_match hheader hgroup, hdrop, ih _ hshort after rfl, List.cons_append]
        | none =>
          have hmatch : matchAt header stop (c :: s) = none := by
            rw [matchAt, if_pos hheads, ← htail, List.drop_left, hgroup]
          have hmatch' : matchAt header stop (c :: (s ++ '\n' :: rest)) = none := by
            rw [← List.cons_append, matchAt, hprefix, if_pos hheads, ← htail, List.append_assoc, List.drop_left, hlazy,
              hgroup]
          rw [List.cons_append, findall_cons_of_none hmatch, findall_cons_of_none hmatch']
          exact ih s.length (hlength ▸ Nat.lt_succ_self _) s rfl
      · rw [Bool.not_eq_true] at hheads
        rw [hheads, List.cons_append] at hprefix
        rw [List.cons_append, findall_cons_of_none (matchAt_of_not_header hheads),
          findall_cons_of_none (matchAt_of_not_header hprefix)]
        exact ih s.length (hlength ▸ Nat.lt_succ_self _) s rfl

theorem newline_not_mem_of_mem_textLines {s line : List Char} (h : line ∈ textLines s) : '\n' ∉ line :=
  PyStr.sep_not_mem_of_mem_splitFrom List.not_mem_nil h

/-- **The matches of a text are those of its lines.** -/
theorem findall_eq_lines (hheader : header ≠ []) (hstop : stop ≠ []) (hheader_line : '\n' ∉ header)
    (hstop_line : '\n' ∉ stop) (s : List Char) :
    findall header stop s = (textLines s).flatMap (findall header stop) := by
  induction hlength : s.length using Nat.strong_induction_on generalizing s with
  | h n ih =>
    by_cases hmem : '\n' ∈ s
    · obtain ⟨line, rest, rfl, hline⟩ := List.eq_append_cons_of_mem hmem
      have hshort : rest.length < n := by
        rw [← hlength, List.length_append, List.length_cons]
        omega
      have hsplit : textLines (line ++ '\n' :: rest) = line :: textLines rest := by
        rw [textLines, PyStr.splitFrom_append hline]
        rfl
      rw [findall_newline hheader hstop hheader_line hstop_line, hsplit, List.flatMap_cons, ih _ hshort rest rfl]
    · have hsplit : textLines s = [s] := by
        rw [textLines, PyStr.splitFrom_of_not_mem hmem]
        rfl
      rw [hsplit, List.flatMap_cons, List.flatMap_nil, List.append_nil]

end

end OciHpc
