import OciHpc.Resize.InventoryRoundTrip

/-!
# A host line of the inventory

`split_inventory_host_line`, `rewrite_compute_inventory_line` and `get_inventory_instance_id` of `resize.py`, and what
Ansible reads in such a line.

* `splitComment` : the search for a comment;
* `splitInventoryHostLine`, `rewriteComputeInventoryLine`, `getInventoryInstanceId`;
* `hostName`, `hostAddress` : the host of a line, and its `ansible_host`;
* `splitInventoryHostLine_writeHostLine` : a host line written from its parts is read back;
* `Rewritten` : what a rewritten line has in common with the line.
-/

namespace OciHpc.Resize

/-! ## Reading a line -/

/-- The text begins with `#` or `;`. -/
def startsComment : Text → Bool
  | [] => false
  | c :: _ => c = '#' || c = ';'

/-- What stands before the first white space that is followed by `#` or `;`, and what follows it. -/
def splitComment : Text → Text × Text
  | [] => ([], [])
  | c :: rest =>
      if PyStr.isSpace c && startsComment rest then ([], rest)
      else (c :: (splitComment rest).1, (splitComment rest).2)

/-- `s.rstrip("\r\n")`. -/
def rstripNewlines (s : Text) : Text := (s.reverse.dropWhile fun c => c = '\r' || c = '\n').reverse

structure HostLine where
  leadingWhitespace : Text
  tokens : List Text
  comment : Text
  deriving DecidableEq, Repr

def splitInventoryHostLine (line : Text) : Option HostLine :=
  let lineWithoutNewline := rstripNewlines line
  let strippedLine := strip lineWithoutNewline
  if strippedLine = [] ∨ startsComment strippedLine then none
  else
    some ⟨lineWithoutNewline.takeWhile PyStr.isSpace, words (rstrip (splitComment strippedLine).1),
      (splitComment strippedLine).2⟩

/-! ## Rewriting a line -/

/-- `token.split("=", 1)[0]` where there is an `=`. -/
def tokenKey (token : Text) : Option Text := if '=' ∈ token then some (token.takeWhile (· ≠ '=')) else none

def aboutBlockVolume (token : Text) : Bool :=
  match tokenKey token with
  | none => false
  | some key => key == "use_local_block_volume".toList || "local_block_volume_".toList.isPrefixOf key

def writeHostLine (parsed : HostLine) : Text :=
  parsed.leadingWhitespace ++ joinWith ' ' parsed.tokens ++
    (if parsed.comment = [] then [] else ' ' :: parsed.comment) ++ ['\n']

def valueToken (entry : Text × Text) : Text := entry.1 ++ '=' :: entry.2

/-- The parts of the line with the values in place of those it has. -/
def HostLine.withValues (parsed : HostLine) (values : List (Text × Text)) : HostLine :=
  { parsed with tokens := (parsed.tokens.filter fun token => !aboutBlockVolume token) ++ values.map valueToken }

def rewriteComputeInventoryLine (line : Text) (localBlockVolumeValues : List (Text × Text)) : Text :=
  match splitInventoryHostLine line with
  | none => line
  | some parsed => writeHostLine (parsed.withValues localBlockVolumeValues)

def tokenValue (key token : Text) : Option Text :=
  if (key ++ ['=']).isPrefixOf token then some (token.drop (key.length + 1)) else none

/-- `get_inventory_instance_id`; the value `none` is `(None, None)`. -/
def getInventoryInstanceId (line : Text) : Except String (Option (Text × Text)) :=
  match splitInventoryHostLine line with
  | none => .ok none
  | some parsed =>
      match parsed.tokens.filterMap (tokenValue "oci_instance_id".toList) with
      | [instanceId] =>
          if instanceId = [] then .error (notOne parsed.tokens) else .ok (some (parsed.tokens.headD [], instanceId))
      | _ => .error (notOne parsed.tokens)
where
  notOne (tokens : List Text) : String :=
    "Inventory host " ++ String.ofList (tokens.headD "<unknown>".toList) ++ " must have exactly one oci_instance_id"

/-! ## What Ansible reads -/

def hostName (line : Text) : Option Text := (splitInventoryHostLine line).bind fun parsed => parsed.tokens.head?

/-- The `ansible_host` of a line; the last one counts. -/
def hostAddress (line : Text) : Option Text :=
  (splitInventoryHostLine line).bind fun parsed =>
    ((parsed.tokens.drop 1).filterMap (tokenValue "ansible_host".toList)).getLast?

/-! ## Words -/

theorem words_joinWith {tokens : List Text} (h : ∀ token ∈ tokens, IsWord token) :
    words (joinWith ' ' tokens) = tokens := by
  induction tokens with
  | nil => rfl
  | cons token rest ih =>
      have htoken := h token List.mem_cons_self
      cases rest with
      | nil => exact words_of_isWord htoken
      | cons next rest =>
          rw [joinWith, words_append htoken, ih fun other hother => h other (List.mem_cons_of_mem _ hother)]
          exact List.cons_ne_nil _ _

theorem noSpace_of_mem_reSplitFrom {blank : Bool} {s piece word : Text} (hpiece : NoSpace piece)
    (h : word ∈ PyStr.reSplitFrom blank piece s) : NoSpace word := by
  induction s generalizing blank piece with
  | nil =>
      rw [PyStr.reSplitFrom, List.mem_singleton] at h
      rw [h]
      exact fun c hc => hpiece c (List.mem_reverse.mp hc)
  | cons c rest ih =>
      rw [PyStr.reSplitFrom] at h
      split at h
      · split at h
        · exact ih hpiece h
        · rcases List.mem_cons.mp h with rfl | h
          · exact fun c hc => hpiece c (List.mem_reverse.mp hc)
          · exact ih noSpace_nil h
      · rename_i hc
        refine ih (fun d hd => ?_) h
        rcases List.mem_cons.mp hd with rfl | hd
        · exact Bool.not_eq_true _ ▸ hc
        · exact hpiece d hd

theorem isWord_of_mem_words {s word : Text} (h : word ∈ words s) : IsWord word :=
  have hmem := List.mem_filter.mp h
  ⟨by simpa using hmem.2, noSpace_of_mem_reSplitFrom noSpace_nil hmem.1⟩

/-! ## Comments -/

theorem splitComment_cons (c : Char) (rest : Text) (h : (splitComment (c :: rest)).2 = []) :
    (PyStr.isSpace c = true → startsComment rest = false) ∧ (splitComment rest).2 = [] := by
  rw [splitComment] at h
  split at h
  · rename_i hcomment
    dsimp only at h
    rw [h] at hcomment
    exact absurd hcomment (by simp [startsComment])
  · rename_i hcomment
    refine ⟨fun hspace => ?_, h⟩
    rw [hspace, Bool.true_and] at hcomment
    exact Bool.not_eq_true _ ▸ hcomment

/-- A text that begins with `#` or `;` begins so however short it is cut. -/
theorem startsComment_of_prefix {s t : Text} (h : t <+: s) (hs : startsComment s = false) : startsComment t = false := by
  cases t with
  | nil => rfl
  | cons c rest =>
      obtain ⟨more, rfl⟩ := h
      exact hs

theorem splitComment_of_prefix {s t : Text} (h : t <+: s) (hs : (splitComment s).2 = []) : splitComment t = (t, []) := by
  induction s generalizing t with
  | nil => rw [List.prefix_nil.mp h, splitComment]
  | cons c rest ih =>
      cases t with
      | nil => rfl
      | cons d t =>
          obtain ⟨rfl, ht⟩ := List.cons_prefix_cons.mp h
          obtain ⟨hspace, hrest⟩ := splitComment_cons d rest hs
          have hcomment : (PyStr.isSpace d && startsComment t) = false := by
            cases hd : PyStr.isSpace d with
            | false => rfl
            | true => exact startsComment_of_prefix ht (hspace hd)
          rw [splitComment, hcomment, if_neg Bool.false_ne_true, ih ht hrest]

theorem splitComment_isPrefix (s : Text) : (splitComment s).1 <+: s := by
  induction s with
  | nil => exact List.nil_prefix
  | cons c rest ih =>
      rw [splitComment]
      split
      · exact List.nil_prefix
      · exact List.cons_prefix_cons.mpr ⟨rfl, ih⟩

/-- What stands before a comment has no comment. -/
theorem splitComment_front (s : Text) : (splitComment (splitComment s).1).2 = [] := by
  induction s with
  | nil => rfl
  | cons c rest ih =>
      rw [splitComment]
      split
      · rfl
      · rename_i hcomment
        have hfront : (PyStr.isSpace c && startsComment (splitComment rest).1) = false := by
          cases hspace : PyStr.isSpace c with
          | false => rfl
          | true =>
              rw [hspace, Bool.true_and] at hcomment
              exact startsComment_of_prefix (splitComment_isPrefix rest) (Bool.not_eq_true _ ▸ hcomment)
        dsimp only
        rw [splitComment, hfront, if_neg Bool.false_ne_true]
        exact ih

/-- A comment begins with `#` or `;`, and ends where the text ends. -/
theorem splitComment_comment {s : Text} (h : (splitComment s).2 ≠ []) :
    startsComment (splitComment s).2 = true ∧ (splitComment s).2 <:+ s := by
  induction s with
  | nil => exact absurd rfl h
  | cons c rest ih =>
      rw [splitComment] at h ⊢
      split
      · rename_i hcomment
        exact ⟨(Bool.and_eq_true_iff.mp hcomment).2, List.suffix_cons c rest⟩
      · rename_i hcomment
        rw [if_neg hcomment] at h
        obtain ⟨hstart, hsuffix⟩ := ih h
        exact ⟨hstart, hsuffix.trans (List.suffix_cons c rest)⟩

theorem startsComment_append {s : Text} (h : s ≠ []) (more : Text) : startsComment (s ++ more) = startsComment s := by
  cases s with
  | nil => exact absurd rfl h
  | cons c rest => rfl

theorem startsComment_of_mem_reSplitFrom {blank : Bool} {s piece word : Text} (hs : (splitComment s).2 = [])
    (hpiece : startsComment piece.reverse = false) (hstart : piece = [] → startsComment s = false)
    (h : word ∈ PyStr.reSplitFrom blank piece s) : startsComment word = false := by
  induction s generalizing blank piece with
  | nil =>
      rw [PyStr.reSplitFrom, List.mem_singleton] at h
      exact h ▸ hpiece
  | cons c rest ih =>
      obtain ⟨hspace, hrest⟩ := splitComment_cons c rest hs
      rw [PyStr.reSplitFrom] at h
      split at h
      · rename_i hc
        split at h
        · exact ih hrest hpiece (fun _ => hspace hc) h
        · rcases List.mem_cons.mp h with rfl | h
          · exact hpiece
          · exact ih hrest rfl (fun _ => hspace hc) h
      · refine ih hrest ?_ (fun hnil => absurd hnil (List.cons_ne_nil _ _)) h
        rw [List.reverse_cons]
        by_cases hnil : piece = []
        · subst hnil
          exact hstart rfl
        · rw [startsComment_append (mt List.reverse_eq_nil_iff.mp hnil), hpiece]

/-- No word begins a comment where the text has none. -/
theorem startsComment_of_mem_words {s word : Text} (hs : (splitComment s).2 = []) (hstart : startsComment s = false)
    (h : word ∈ words s) : startsComment word = false :=
  startsComment_of_mem_reSplitFrom hs rfl (fun _ => hstart) (List.mem_filter.mp h).1

theorem splitComment_of_noSpace {word : Text} (h : NoSpace word) (rest : Text) :
    splitComment (word ++ rest) = (word ++ (splitComment rest).1, (splitComment rest).2) := by
  induction word with
  | nil => rfl
  | cons c word ih =>
      have hc : PyStr.isSpace c = false := h c List.mem_cons_self
      rw [List.cons_append, splitComment, hc, Bool.false_and, if_neg Bool.false_ne_true,
        ih fun d hd => h d (List.mem_cons_of_mem _ hd), List.cons_append]

theorem joinWith_cons_cons (sep : Char) (piece next : Text) (rest : List Text) :
    joinWith sep (piece :: next :: rest) = piece ++ sep :: joinWith sep (next :: rest) := rfl

theorem exists_joinWith_cons (sep : Char) (piece : Text) (rest : List Text) :
    ∃ more, joinWith sep (piece :: rest) = piece ++ more := by
  cases rest with
  | nil => exact ⟨[], (List.append_nil _).symm⟩
  | cons next rest => exact ⟨_, rfl⟩

theorem splitComment_joinWith {tokens : List Text} (h : ∀ token ∈ tokens, IsWord token)
    (hcomment : ∀ token ∈ tokens, startsComment token = false) (tail : Text) :
    splitComment (joinWith ' ' tokens ++ tail) = (joinWith ' ' tokens ++ (splitComment tail).1, (splitComment tail).2) := by
  induction tokens with
  | nil => rfl
  | cons token rest ih =>
      have htoken := h token List.mem_cons_self
      cases rest with
      | nil => exact splitComment_of_noSpace htoken.noSpace tail
      | cons next rest =>
          obtain ⟨more, hmore⟩ := exists_joinWith_cons ' ' next rest
          have hnext : startsComment (joinWith ' ' (next :: rest) ++ tail) = false := by
            rw [hmore, List.append_assoc, startsComment_append (h next (by simp)).nonempty]
            exact hcomment next (by simp)
          have hrest := ih (fun other hother => h other (List.mem_cons_of_mem _ hother))
            fun other hother => hcomment other (List.mem_cons_of_mem _ hother)
          rw [joinWith_cons_cons, List.append_assoc, splitComment_of_noSpace htoken.noSpace, List.cons_append,
            splitComment, hnext, Bool.and_false, if_neg Bool.false_ne_true, hrest, List.append_assoc, List.cons_append]

/-! ## A host line written and read back -/

structure HostLine.Valid (parsed : HostLine) : Prop where
  leading : ∀ c ∈ parsed.leadingWhitespace, PyStr.isSpace c = true
  words : ∀ token ∈ parsed.tokens, IsWord token
  noComment : ∀ token ∈ parsed.tokens, startsComment token = false
  comment : parsed.comment ≠ [] → startsComment parsed.comment = true ∧
    ∀ c, parsed.comment.getLast? = some c → PyStr.isSpace c = false
  oneLine : ∀ c ∈ parsed.leadingWhitespace ++ parsed.comment, c ≠ '\n' ∧ c ≠ '\r'

/-- The parts can be written one after the other and told apart. -/
structure HostLine.Parts (parsed : HostLine) : Prop where
  leading : ∀ c ∈ parsed.leadingWhitespace, PyStr.isSpace c = true
  words : ∀ token ∈ parsed.tokens, IsWord token
  noComment : ∀ token ∈ parsed.tokens, startsComment token = false
  comment : parsed.comment ≠ [] → startsComment parsed.comment = true ∧
    ∀ c, parsed.comment.getLast? = some c → PyStr.isSpace c = false

theorem HostLine.Valid.parts {parsed : HostLine} (h : parsed.Valid) : parsed.Parts :=
  ⟨h.leading, h.words, h.noComment, h.comment⟩

/-- The line without its white space at both ends. -/
def HostLine.stripped (parsed : HostLine) : Text :=
  joinWith ' ' parsed.tokens ++ if parsed.comment = [] then [] else ' ' :: parsed.comment

theorem writeHostLine_eq (parsed : HostLine) :
    writeHostLine parsed = parsed.leadingWhitespace ++ parsed.stripped ++ ['\n'] := by
  rw [writeHostLine, HostLine.stripped, List.append_assoc parsed.leadingWhitespace]

theorem rstrip_eq_self {s : Text} (h : ∀ c, s.getLast? = some c → PyStr.isSpace c = false) : rstrip s = s := by
  rw [rstrip, ← List.head?_reverse] at *
  cases hs : s.reverse with
  | nil => rw [List.reverse_eq_nil_iff.mp hs]; rfl
  | cons c rest =>
      have hc : PyStr.isSpace c = false := h c (by rw [hs]; rfl)
      rw [List.dropWhile_cons_of_neg (by rw [hc]; exact Bool.false_ne_true), ← hs, List.reverse_reverse]

/-- White space in front of a text that begins with none. -/
theorem lstrip_append {front s : Text} (hfront : ∀ c ∈ front, PyStr.isSpace c = true)
    (hs : ∀ c, s.head? = some c → PyStr.isSpace c = false) : lstrip (front ++ s) = s := by
  rw [lstrip, List.dropWhile_append_of_pos hfront]
  cases s with
  | nil => rfl
  | cons c rest => exact List.dropWhile_cons_of_neg (by rw [hs c rfl]; exact Bool.false_ne_true)

theorem getLast?_joinWith {tokens : List Text} (h : ∀ token ∈ tokens, IsWord token) {c : Char}
    (hc : (joinWith ' ' tokens).getLast? = some c) : PyStr.isSpace c = false := by
  induction tokens with
  | nil => cases hc
  | cons token rest ih =>
      cases rest with
      | nil => exact (h token List.mem_cons_self).noSpace c (List.mem_of_getLast? hc)
      | cons next rest =>
          have hne : joinWith ' ' (next :: rest) ≠ [] := by
            obtain ⟨more, hmore⟩ := exists_joinWith_cons ' ' next rest
            rw [hmore]
            exact List.append_ne_nil_of_left_ne_nil (h next (by simp)).nonempty _
          rw [joinWith_cons_cons, List.getLast?_append_of_ne_nil _ (List.cons_ne_nil _ _),
            List.getLast?_cons_of_ne_nil hne] at hc
          exact ih (fun other hother => h other (List.mem_cons_of_mem _ hother)) hc

namespace HostLine
variable {parsed : HostLine}

theorem Parts.getLast?_stripped (h : parsed.Parts) {c : Char} (hc : parsed.stripped.getLast? = some c) :
    PyStr.isSpace c = false := by
  unfold stripped at hc
  split at hc
  · rw [List.append_nil] at hc
    exact getLast?_joinWith h.words hc
  · rename_i hcomment
    rw [List.getLast?_append_of_ne_nil _ (List.cons_ne_nil _ _), List.getLast?_cons_of_ne_nil hcomment] at hc
    exact (h.comment hcomment).2 c hc

theorem exists_stripped_cons {token : Text} {rest : List Text} (htokens : parsed.tokens = token :: rest) :
    ∃ more, parsed.stripped = token ++ more := by
  obtain ⟨more, hmore⟩ := exists_joinWith_cons ' ' token rest
  rw [stripped, htokens, hmore, List.append_assoc]
  exact ⟨_, rfl⟩

theorem head?_stripped {token : Text} {rest : List Text} (htokens : parsed.tokens = token :: rest)
    (hne : token ≠ []) : parsed.stripped.head? = token.head? := by
  obtain ⟨more, hmore⟩ := exists_stripped_cons htokens
  rw [hmore, List.head?_append_of_ne_nil _ hne]

theorem Parts.head?_isSpace (h : parsed.Parts) (hne : parsed.tokens ≠ []) {c : Char}
    (hc : parsed.stripped.head? = some c) : PyStr.isSpace c = false := by
  obtain ⟨token, rest, htokens⟩ := List.exists_cons_of_ne_nil hne
  have htoken := h.words token (htokens ▸ List.mem_cons_self)
  rw [head?_stripped htokens htoken.nonempty] at hc
  exact htoken.noSpace c (List.mem_of_head? hc)

theorem Parts.strip_eq (h : parsed.Parts) (hne : parsed.tokens ≠ []) :
    strip (parsed.leadingWhitespace ++ parsed.stripped) = parsed.stripped := by
  rw [strip, lstrip_append h.leading fun c hc => h.head?_isSpace hne hc,
    rstrip_eq_self fun c hc => h.getLast?_stripped hc]

theorem Parts.splitComment_stripped (h : parsed.Parts) :
    splitComment parsed.stripped = (joinWith ' ' parsed.tokens, parsed.comment) := by
  rw [stripped, splitComment_joinWith h.words h.noComment]
  split
  · rename_i hcomment
    rw [hcomment, splitComment, List.append_nil]
  · rename_i hcomment
    have hspace : PyStr.isSpace ' ' = true := by decide
    rw [splitComment, hspace, (h.comment hcomment).1, Bool.true_and, if_pos rfl, List.append_nil]

end HostLine

theorem rstripNewlines_append {s : Text} (h : ∀ c, s.getLast? = some c → PyStr.isSpace c = false) :
    rstripNewlines (s ++ ['\n']) = s := by
  rw [rstripNewlines, List.reverse_append, List.reverse_singleton, List.singleton_append,
    List.dropWhile_cons_of_pos (by decide)]
  rw [← List.head?_reverse] at h
  cases hs : s.reverse with
  | nil => rw [List.reverse_eq_nil_iff.mp hs]; rfl
  | cons c rest =>
      have hc : PyStr.isSpace c = false := h c (by rw [hs]; rfl)
      have hnot : (decide (c = '\r') || decide (c = '\n')) = false := by
        rw [Bool.or_eq_false_iff, decide_eq_false_iff_not, decide_eq_false_iff_not]
        refine ⟨fun hr => ?_, fun hn => ?_⟩
        · rw [hr] at hc
          exact absurd hc (by decide)
        · rw [hn] at hc
          exact absurd hc (by decide)
      rw [List.dropWhile_cons_of_neg (by rw [hnot]; exact Bool.false_ne_true), ← hs, List.reverse_reverse]

/-- **A host line written from its parts is read back.** -/
theorem HostLine.Parts.split_write {parsed : HostLine} (h : parsed.Parts) (hne : parsed.tokens ≠ []) :
    splitInventoryHostLine (writeHostLine parsed) = some parsed := by
  obtain ⟨token, rest, htokens⟩ := List.exists_cons_of_ne_nil hne
  have htoken := h.words token (htokens ▸ List.mem_cons_self)
  obtain ⟨more, hmore⟩ := HostLine.exists_stripped_cons htokens
  have hstripped : parsed.stripped ≠ [] := hmore ▸ List.append_ne_nil_of_left_ne_nil htoken.nonempty _
  have hstart : startsComment parsed.stripped = false := by
    rw [hmore, startsComment_append htoken.nonempty]
    exact h.noComment token (htokens ▸ List.mem_cons_self)
  have hlast : ∀ c, (parsed.leadingWhitespace ++ parsed.stripped).getLast? = some c → PyStr.isSpace c = false := by
    intro c hc
    rw [List.getLast?_append_of_ne_nil _ hstripped] at hc
    exact h.getLast?_stripped hc
  have hleading : (parsed.leadingWhitespace ++ parsed.stripped).takeWhile PyStr.isSpace = parsed.leadingWhitespace := by
    rw [List.takeWhile_append_of_pos h.leading]
    obtain ⟨c, rest, hc⟩ := List.exists_cons_of_ne_nil hstripped
    rw [hc, List.takeWhile_cons_of_neg (by rw [h.head?_isSpace hne (hc ▸ rfl)]; exact Bool.false_ne_true),
      List.append_nil]
  rw [splitInventoryHostLine, writeHostLine_eq, rstripNewlines_append hlast, h.strip_eq hne,
    if_neg (by simp [hstripped, hstart]), hleading, h.splitComment_stripped]
  dsimp only
  rw [rstrip_eq_self fun c hc => getLast?_joinWith h.words hc, words_joinWith h.words]

theorem splitInventoryHostLine_writeHostLine {parsed : HostLine} (h : parsed.Valid) (hne : parsed.tokens ≠ []) :
    splitInventoryHostLine (writeHostLine parsed) = some parsed := h.parts.split_write hne

/-! ## The parts that are read -/

theorem rstripNewlines_isPrefix (s : Text) : rstripNewlines s <+: s := by
  rw [rstripNewlines, ← List.reverse_suffix, List.reverse_reverse]
  exact List.dropWhile_suffix _

theorem IsLine.of_mem_rstripNewlines {line : Text} (h : IsLine line) {c : Char} (hc : c ∈ rstripNewlines line) :
    c ≠ '\n' ∧ c ≠ '\r' := by
  obtain ⟨body, rfl, hbody⟩ := h.newline
  have hdrop : rstripNewlines (body ++ ['\n']) = rstripNewlines body := by
    rw [rstripNewlines, List.reverse_append, List.reverse_singleton, List.singleton_append,
      List.dropWhile_cons_of_pos (by decide), rstripNewlines]
  rw [hdrop] at hc
  have hmem := (rstripNewlines_isPrefix body).subset hc
  refine ⟨fun hn => hbody (hn ▸ hmem), fun hr => h.noReturn (List.mem_append_left _ (hr ▸ hmem))⟩

theorem strip_isInfix (s : Text) : strip s <:+: s := by
  obtain ⟨front, back, hs, -⟩ := exists_strip s
  exact ⟨front, back, hs.symm⟩

theorem head?_dropWhile_isSpace {s : Text} {c : Char} (h : (s.dropWhile PyStr.isSpace).head? = some c) :
    PyStr.isSpace c = false := by
  have hnot := List.head?_dropWhile_not PyStr.isSpace s
  rw [h] at hnot
  exact hnot

theorem getLast?_strip {s : Text} {c : Char} (h : (strip s).getLast? = some c) : PyStr.isSpace c = false := by
  rw [strip, rstrip, List.getLast?_reverse] at h
  exact head?_dropWhile_isSpace h

theorem parts_of_splitInventoryHostLine {line : Text} {parsed : HostLine}
    (h : splitInventoryHostLine line = some parsed) : parsed.Parts := by
  rw [splitInventoryHostLine] at h
  split at h
  · cases h
  · rename_i hstripped
    rw [not_or] at hstripped
    obtain rfl := Option.some.inj h
    have hstart : startsComment (strip (rstripNewlines line)) = false := Bool.not_eq_true _ ▸ hstripped.2
    have hfront : rstrip (splitComment (strip (rstripNewlines line))).1 <+: (splitComment (strip (rstripNewlines line))).1 :=
      ⟨_, append_rstrip _⟩
    have hplain := splitComment_of_prefix hfront (splitComment_front _)
    have hfrontStart := startsComment_of_prefix (hfront.trans (splitComment_isPrefix _)) hstart
    refine ⟨fun c hc => List.mem_takeWhile_imp hc, fun token htoken => isWord_of_mem_words htoken, fun token htoken =>
      startsComment_of_mem_words (by rw [hplain]) hfrontStart htoken, fun hcomment => ?_⟩
    obtain ⟨hstarts, hsuffix⟩ := splitComment_comment hcomment
    refine ⟨hstarts, fun c hc => ?_⟩
    obtain ⟨front, hwhole⟩ := hsuffix
    refine @getLast?_strip (rstripNewlines line) c ?_
    rw [← hwhole, List.getLast?_append_of_ne_nil _ hcomment]
    exact hc

/-- What is read of a line fits together. -/
theorem valid_of_splitInventoryHostLine {line : Text} {parsed : HostLine} (hline : IsLine line)
    (h : splitInventoryHostLine line = some parsed) : parsed.Valid := by
  have hparts := parts_of_splitInventoryHostLine h
  refine ⟨hparts.leading, hparts.words, hparts.noComment, hparts.comment, fun c hc => hline.of_mem_rstripNewlines ?_⟩
  rw [splitInventoryHostLine] at h
  split at h
  · cases h
  · obtain rfl := Option.some.inj h
    rcases List.mem_append.mp hc with hc | hc
    · exact (List.takeWhile_prefix _).subset hc
    · have hne : (splitComment (strip (rstripNewlines line))).2 ≠ [] := List.ne_nil_of_mem hc
      exact (strip_isInfix _).subset ((splitComment_comment hne).2.subset hc)

/-! ## A line rewritten -/

theorem isSpace_newline : PyStr.isSpace '\n' = true := by decide

theorem isSpace_return : PyStr.isSpace '\r' = true := by decide

theorem mem_joinWith {sep : Char} {pieces : List Text} {c : Char} (h : c ∈ joinWith sep pieces) :
    c = sep ∨ ∃ piece ∈ pieces, c ∈ piece := by
  induction pieces with
  | nil => cases h
  | cons piece rest ih =>
      cases rest with
      | nil => exact .inr ⟨piece, List.mem_cons_self, h⟩
      | cons next rest =>
          rw [joinWith_cons_cons] at h
          rcases List.mem_append.mp h with h | h
          · exact .inr ⟨piece, List.mem_cons_self, h⟩
          · rcases List.mem_cons.mp h with h | h
            · exact .inl h
            · rcases ih h with h | ⟨other, hother, h⟩
              · exact .inl h
              · exact .inr ⟨other, List.mem_cons_of_mem _ hother, h⟩

theorem HostLine.Valid.isLine {parsed : HostLine} (h : parsed.Valid) : IsLine (writeHostLine parsed) := by
  have hchars : ∀ c ∈ parsed.leadingWhitespace ++ parsed.stripped, c ≠ '\n' ∧ c ≠ '\r' := by
    intro c hc
    rw [HostLine.stripped, List.mem_append, List.mem_append] at hc
    rcases hc with hc | hc | hc
    · exact h.oneLine c (List.mem_append_left _ hc)
    · rcases mem_joinWith hc with rfl | ⟨token, htoken, hc⟩
      · decide
      · have hspace := (h.words token htoken).noSpace c hc
        refine ⟨?_, ?_⟩
        · rintro rfl
          exact absurd isSpace_newline (by rw [hspace]; exact Bool.false_ne_true)
        · rintro rfl
          exact absurd isSpace_return (by rw [hspace]; exact Bool.false_ne_true)
    · split at hc
      · cases hc
      · rcases List.mem_cons.mp hc with rfl | hc
        · decide
        · exact h.oneLine c (List.mem_append_right _ hc)
  rw [writeHostLine_eq]
  refine ⟨⟨_, rfl, fun hmem => (hchars _ hmem).1 rfl⟩, fun hmem => ?_⟩
  rcases List.mem_append.mp hmem with hmem | hmem
  · exact (hchars _ hmem).2 rfl
  · exact absurd hmem (by decide)

structure IsHostName (name : Text) : Prop where
  word : IsWord name
  noComment : startsComment name = false
  noBracket : name.head? ≠ some '['
  noEquals : '=' ∉ name

theorem HostLine.Parts.strip_write {parsed : HostLine} (h : parsed.Parts) (hne : parsed.tokens ≠ []) :
    strip (writeHostLine parsed) = parsed.stripped := by
  obtain ⟨token, rest, htokens⟩ := List.exists_cons_of_ne_nil hne
  have htoken := h.words token (htokens ▸ List.mem_cons_self)
  have hhead : ∀ c, (parsed.stripped ++ ['\n']).head? = some c → PyStr.isSpace c = false := by
    obtain ⟨more, hmore⟩ := exists_stripped_cons htokens
    intro c hc
    rw [hmore, List.append_assoc, List.head?_append_of_ne_nil _ htoken.nonempty] at hc
    exact htoken.noSpace c (List.mem_of_head? hc)
  rw [writeHostLine_eq, List.append_assoc, strip, lstrip_append h.leading hhead, rstrip, List.reverse_append,
    List.reverse_singleton, List.singleton_append, List.dropWhile_cons_of_pos isSpace_newline]
  exact rstrip_eq_self fun c hc => h.getLast?_stripped hc

theorem HostLine.Valid.isHeader_eq {parsed : HostLine} (h : parsed.Valid) {name : Text} {rest : List Text}
    (htokens : parsed.tokens = name :: rest) (hname : IsHostName name) : isHeader (writeHostLine parsed) = false := by
  have hstrip := h.parts.strip_write (htokens ▸ List.cons_ne_nil _ _)
  have hopen : "[".toList.isPrefixOf parsed.stripped = false := by
    have hhead := head?_stripped htokens hname.word.nonempty
    cases hs : parsed.stripped with
    | nil => rfl
    | cons c rest =>
        have hc : '[' ≠ c := fun heq => hname.noBracket (by rw [← hhead, hs, heq]; rfl)
        simp [List.isPrefixOf, hc]
  rw [isHeader, hstrip, hopen, Bool.false_and]

/-! ## Values in place of others -/

def valueKeys : List Text :=
  ["use_local_block_volume".toList, "local_block_volume_size".toList, "local_block_volume_mount_point".toList,
    "local_block_volume_iscsi_ip".toList, "local_block_volume_iscsi_port".toList, "local_block_volume_iqn".toList]

def IsValues (values : List (Text × Text)) : Prop := ∀ entry ∈ values, entry.1 ∈ valueKeys ∧ NoSpace entry.2

theorem noSpace_append {s t : Text} (hs : NoSpace s) (ht : NoSpace t) : NoSpace (s ++ t) := fun c hc =>
  (List.mem_append.mp hc).elim (hs c) (ht c)

theorem noSpace_of_mem_valueKeys {key : Text} (h : key ∈ valueKeys) : NoSpace key := by
  have hall : valueKeys.all (fun key => key.all fun c => !PyStr.isSpace c) = true := by decide
  exact noSpace_of_all (List.all_eq_true.mp hall key h)

/-- A value is a word of the line that is neither a comment nor an address. -/
theorem valueToken_spec {entry : Text × Text} (hkey : entry.1 ∈ valueKeys) (hvalue : NoSpace entry.2) :
    IsWord (valueToken entry) ∧ startsComment (valueToken entry) = false ∧
      tokenValue "ansible_host".toList (valueToken entry) = none := by
  have hword : IsWord (valueToken entry) := by
    refine ⟨by simp [valueToken], noSpace_append (noSpace_of_mem_valueKeys hkey) fun c hc => ?_⟩
    rcases List.mem_cons.mp hc with rfl | hc
    · decide
    · exact hvalue c hc
  obtain ⟨key, value⟩ := entry
  refine ⟨hword, ?_⟩
  simp only [valueKeys, List.mem_cons, List.not_mem_nil, or_false] at hkey
  rcases hkey with rfl | rfl | rfl | rfl | rfl | rfl <;> exact ⟨rfl, rfl⟩

theorem aboutBlockVolume_of_noEquals {token : Text} (h : '=' ∉ token) : aboutBlockVolume token = false := by
  rw [aboutBlockVolume, tokenKey, if_neg h]

/-- The tokens left out give no address. -/
theorem aboutBlockVolume_of_tokenValue {token value : Text} (h : tokenValue "ansible_host".toList token = some value) :
    aboutBlockVolume token = false := by
  rw [tokenValue] at h
  split at h
  · rename_i hprefix
    obtain ⟨rest, rfl⟩ := List.isPrefixOf_iff_prefix.mp hprefix
    have hkey : tokenKey ("ansible_host".toList ++ ['='] ++ rest) = some "ansible_host".toList := by
      rw [tokenKey, if_pos (by simp), List.append_assoc]
      exact congrArg some (takeWhile_of_not_mem (by decide) rest)
    rw [aboutBlockVolume, hkey]
    decide
  · cases h

theorem HostLine.Valid.withValues {parsed : HostLine} (h : parsed.Valid) {values : List (Text × Text)}
    (hvalues : IsValues values) : (parsed.withValues values).Valid := by
  have htokens : ∀ token ∈ (parsed.withValues values).tokens, IsWord token ∧ startsComment token = false := by
    intro token htoken
    rcases List.mem_append.mp htoken with htoken | htoken
    · have hmem := List.mem_of_mem_filter htoken
      exact ⟨h.words token hmem, h.noComment token hmem⟩
    · obtain ⟨entry, hentry, rfl⟩ := List.mem_map.mp htoken
      have hspec := valueToken_spec (hvalues entry hentry).1 (hvalues entry hentry).2
      exact ⟨hspec.1, hspec.2.1⟩
  exact ⟨h.leading, fun token htoken => (htokens token htoken).1, fun token htoken => (htokens token htoken).2,
    h.comment, h.oneLine⟩

/-- The tokens of a host, with values in place of those it has. -/
theorem withValues_tokens {parsed : HostLine} {name : Text} {rest : List Text} (htokens : parsed.tokens = name :: rest)
    (hname : '=' ∉ name) (values : List (Text × Text)) : (parsed.withValues values).tokens =
      name :: ((rest.filter fun token => !aboutBlockVolume token) ++ values.map valueToken) := by
  rw [HostLine.withValues, htokens, List.filter_cons_of_pos (by rw [aboutBlockVolume_of_noEquals hname]; rfl),
    List.cons_append]

theorem filterMap_withValues (rest : List Text) {values : List (Text × Text)}
    (hvalues : ∀ entry ∈ values, tokenValue "ansible_host".toList (valueToken entry) = none) :
    ((rest.filter fun token => !aboutBlockVolume token) ++ values.map valueToken).filterMap
      (tokenValue "ansible_host".toList) = rest.filterMap (tokenValue "ansible_host".toList) := by
  have hnone : (values.map valueToken).filterMap (tokenValue "ansible_host".toList) = [] := by
    rw [List.filterMap_eq_nil_iff]
    intro token htoken
    obtain ⟨entry, hentry, rfl⟩ := List.mem_map.mp htoken
    exact hvalues entry hentry
  rw [List.filterMap_append, hnone, List.append_nil, List.filterMap_filter]
  refine List.filterMap_congr fun token _ => ?_
  cases hvalue : tokenValue "ansible_host".toList token with
  | none => split <;> rfl
  | some value => rw [aboutBlockVolume_of_tokenValue hvalue]; rfl

structure SameHost (line other : Text) : Prop where
  isLine : IsLine other
  noHeader : isHeader other = false
  hostName : hostName other = hostName line
  hostAddress : hostAddress other = hostAddress line

/-- **A rewritten line is of the same host.** -/
theorem sameHost_rewritten {line : Text} {parsed : HostLine} {name : Text} {rest : List Text} (hline : IsLine line)
    (hsplit : splitInventoryHostLine line = some parsed) (htokens : parsed.tokens = name :: rest)
    (hname : IsHostName name) {values : List (Text × Text)} (hvalues : IsValues values) :
    SameHost line (rewriteComputeInventoryLine line values) := by
  have hvalid := (valid_of_splitInventoryHostLine hline hsplit).withValues hvalues
  have hwith := withValues_tokens htokens hname.noEquals values
  have hread := splitInventoryHostLine_writeHostLine hvalid (hwith ▸ List.cons_ne_nil _ _)
  rw [rewriteComputeInventoryLine, hsplit]
  refine ⟨hvalid.isLine, hvalid.isHeader_eq hwith hname, ?_, ?_⟩
  · rw [OciHpc.Resize.hostName, OciHpc.Resize.hostName, hread, hsplit, Option.bind_some, Option.bind_some, hwith, htokens]
    rfl
  · rw [OciHpc.Resize.hostAddress, OciHpc.Resize.hostAddress, hread, hsplit, Option.bind_some, Option.bind_some, hwith,
      htokens, List.drop_one, List.drop_one, List.tail_cons, List.tail_cons, filterMap_withValues rest fun entry hentry =>
        (valueToken_spec (hvalues entry hentry).1 (hvalues entry hentry).2).2.2]

end OciHpc.Resize
