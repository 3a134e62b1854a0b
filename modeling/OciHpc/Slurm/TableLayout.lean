import OciHpc.Slurm.MailProg

/-!
# The table of a notification

Whatever the texts of a job, the lines of the table in its notification have one width and three bars each.

* `Python.Tables` : what the Unicode tables say of ASCII and of line breaks;
* `splitLines`, `tableLines` : the lines of a body, and those of its table;
* `displayChunks_spec` : the pieces of a value are narrow enough, and joined they are the value;
* `TableLayout` : the layout; `table_layout` : every body has it.
-/

namespace OciHpc.Slurm
open PyText (ofString join)

/-! ## What the Unicode tables say -/

/-- The characters at which `str.splitlines` breaks a line. -/
def isLineBreak : PyChar → Bool
  | .scalar c => (10 ≤ c.toNat && c.toNat ≤ 13) || (28 ≤ c.toNat && c.toNat ≤ 30) || c.toNat == 0x85 ||
      c.toNat == 0x2028 || c.toNat == 0x2029
  | .surrogate _ => false

def isPrintable (c : Char) : Bool := 32 ≤ c.toNat && c.toNat ≤ 126

/-- Printable ASCII is narrow and no control character, its one space is the blank, and line breaks are spaces. -/
structure Tables (py : Python) : Prop where
  space : ∀ c, isPrintable c = true → (py.isSpace (.scalar c) = true ↔ c = ' ')
  narrow : ∀ c, isPrintable c = true → py.combining (.scalar c) = false ∧ py.wide (.scalar c) = false
  noControl : ∀ c, isPrintable c = true → py.otherCategory (.scalar c) = false
  lineBreak : ∀ c, isLineBreak c = true → py.isSpace c = true

/-! ## Lines -/

/-- `s.split("\n")`, with the reversed line read so far. -/
def linesOf : PyText → PyText → List PyText
  | line, [] => [line.reverse]
  | line, c :: rest => if c = .scalar '\n' then line.reverse :: linesOf [] rest else linesOf (c :: line) rest

def splitLines (body : PyText) : List PyText := linesOf [] body

def isTableLine (line : PyText) : Bool := line.head? == some (.scalar '+') || line.head? == some (.scalar '|')

def tableLines (body : PyText) : List PyText := (splitLines body).filter isTableLine

theorem linesOf_append {line : PyText} (h : PyChar.scalar '\n' ∉ line) (start rest : PyText) :
    linesOf start (line ++ .scalar '\n' :: rest) = (start.reverse ++ line) :: linesOf [] rest := by
  induction line generalizing start with
  | nil => rw [List.nil_append, linesOf, if_pos rfl, List.append_nil]
  | cons c line ih =>
    have hc : c ≠ .scalar '\n' := Ne.symm (List.ne_of_not_mem_cons h)
    rw [List.cons_append, linesOf, if_neg hc, ih (List.not_mem_of_not_mem_cons h), List.reverse_cons, List.append_assoc,
      List.singleton_append]

theorem linesOf_of_not_mem {line : PyText} (h : PyChar.scalar '\n' ∉ line) (start : PyText) :
    linesOf start line = [start.reverse ++ line] := by
  induction line generalizing start with
  | nil => rw [linesOf, List.append_nil]
  | cons c line ih =>
    have hc : c ≠ .scalar '\n' := Ne.symm (List.ne_of_not_mem_cons h)
    rw [linesOf, if_neg hc, ih (List.not_mem_of_not_mem_cons h), List.reverse_cons, List.append_assoc,
      List.singleton_append]

theorem join_cons_cons (line next : PyText) (rest : List PyText) :
    join "\n" (line :: next :: rest) = line ++ .scalar '\n' :: join "\n" (next :: rest) := by
  show (ofString "\n").intercalate (line :: next :: rest) = _
  rw [List.intercalate_cons_cons, List.append_assoc]
  rfl

theorem splitLines_join {lines : List PyText} (hne : lines ≠ []) (h : ∀ line ∈ lines, PyChar.scalar '\n' ∉ line) :
    splitLines (join "\n" lines) = lines := by
  induction lines with
  | nil => exact absurd rfl hne
  | cons line rest ih =>
    have hline := h line List.mem_cons_self
    cases rest with
    | nil =>
      have hjoin : join "\n" [line] = line := by simp [join, List.intercalate]
      rw [hjoin, splitLines, linesOf_of_not_mem hline]
      rfl
    | cons next rest =>
      have hrest := ih (List.cons_ne_nil _ _) fun other hother => h other (List.mem_cons_of_mem _ hother)
      rw [join_cons_cons, splitLines, linesOf_append hline, ← splitLines, hrest]
      rfl

/-! ## Widths -/

section
variable {py : Python}

theorem displayWidth_singleton_le (c : PyChar) : displayWidth py [c] ≤ 2 := by
  simp only [displayWidth, List.map_cons, List.map_nil, List.sum_cons, List.sum_nil]
  split
  · omega
  · split <;> omega

theorem displayWidth_append (s t : PyText) : displayWidth py (s ++ t) = displayWidth py s + displayWidth py t := by
  simp [displayWidth]

theorem displayWidth_cons (c : PyChar) (t : PyText) : displayWidth py (c :: t) = displayWidth py [c] + displayWidth py t :=
  displayWidth_append [c] t

theorem displayWidth_reverse (s : PyText) : displayWidth py s.reverse = displayWidth py s := by
  rw [displayWidth, List.map_reverse, List.sum_reverse, displayWidth]

theorem displayWidth_ofString (h : Tables py) {s : String} (hs : s.toList.all isPrintable = true) :
    displayWidth py (ofString s) = s.length := by
  have hlist : ∀ l : List Char, l.all isPrintable = true → displayWidth py (l.map PyChar.scalar) = l.length := by
    intro l hl
    induction l with
    | nil => rfl
    | cons c rest ih =>
      rw [List.all_cons, Bool.and_eq_true] at hl
      have hc := h.narrow c hl.1
      have hone : displayWidth py [.scalar c] = 1 := by simp [displayWidth, hc.1, hc.2]
      rw [List.map_cons, displayWidth_cons, ih hl.2, hone, List.length_cons, Nat.add_comm]
  rw [ofString, hlist _ hs, String.length_toList]

theorem displayWidth_replicate (h : Tables py) {c : Char} (hc : isPrintable c = true) (n : Nat) :
    displayWidth py (List.replicate n (.scalar c)) = n := by
  have hnarrow := h.narrow c hc
  induction n with
  | zero => rfl
  | succ n ih =>
    rw [List.replicate_succ, displayWidth_cons, ih]
    simp [displayWidth, hnarrow.1, hnarrow.2, Nat.add_comm]

theorem displayWidth_padTableValue (h : Tables py) {value : PyText} {width : Nat} (hvalue : displayWidth py value ≤ width) :
    displayWidth py (padTableValue py value width) = width := by
  rw [padTableValue, displayWidth_append, displayWidth_replicate h (by decide)]
  omega

/-! ## The pieces of a value -/

/-- **The pieces are narrow enough, and joined they are the value.** -/
theorem displayChunks_spec {width : Nat} (hwidth : 2 ≤ width) (value current : PyText) {currentWidth : Nat}
    (hcurrent : currentWidth = displayWidth py current) (hfits : currentWidth ≤ width) :
    (displayChunks py width current currentWidth value).flatten = current.reverse ++ value ∧
      ∀ chunk ∈ displayChunks py width current currentWidth value, displayWidth py chunk ≤ width := by
  induction value generalizing current currentWidth with
  | nil =>
    rw [displayChunks]
    split
    · rename_i hempty
      rw [List.isEmpty_iff.mp hempty]
      exact ⟨rfl, fun chunk hchunk => absurd hchunk List.not_mem_nil⟩
    · refine ⟨by simp, fun chunk hchunk => ?_⟩
      rw [List.mem_singleton.mp hchunk, displayWidth_reverse, ← hcurrent]
      exact hfits
  | cons c rest ih =>
    have hone := @displayWidth_singleton_le py c
    rw [displayChunks]
    split
    · obtain ⟨hflatten, hnarrow⟩ := ih [c] rfl (by omega)
      refine ⟨by rw [List.flatten_cons, hflatten, List.reverse_singleton, List.singleton_append], fun chunk hchunk => ?_⟩
      rcases List.mem_cons.mp hchunk with rfl | hchunk
      · rw [displayWidth_reverse, ← hcurrent]
        exact hfits
      · exact hnarrow chunk hchunk
    · rename_i hroom
      have hroom' : currentWidth + displayWidth py [c] ≤ width := by
        by_cases hempty : current = []
        · subst hempty
          rw [hcurrent, show displayWidth py [] = 0 from rfl]
          omega
        · have hfalse : current.isEmpty = false := List.isEmpty_eq_false_iff.mpr hempty
          simp only [hfalse, Bool.not_false, Bool.true_and, decide_eq_true_eq] at hroom
          omega
      have hcons := @displayWidth_cons py c current
      obtain ⟨hflatten, hnarrow⟩ := ih (c :: current) (by omega) hroom'
      exact ⟨by rw [hflatten, List.reverse_cons, List.append_assoc, List.singleton_append], hnarrow⟩

theorem wrapTableValue_spec {width : Nat} (hwidth : 2 ≤ width) (value : PyText) :
    wrapTableValue py value width ≠ [] ∧ (wrapTableValue py value width).flatten = value ∧
      ∀ chunk ∈ wrapTableValue py value width, displayWidth py chunk ≤ width := by
  obtain ⟨hflatten, hnarrow⟩ := @displayChunks_spec py width hwidth value [] 0 rfl (Nat.zero_le _)
  rw [wrapTableValue]
  split
  · rename_i hnil
    rw [hnil] at hflatten
    refine ⟨List.cons_ne_nil _ _, hflatten, fun chunk hchunk => ?_⟩
    rw [List.mem_singleton.mp hchunk]
    exact Nat.zero_le _
  · rename_i hne
    exact ⟨hne, hflatten, hnarrow⟩

/-! ## The characters of a value -/

/-- The blank, or a character that breaks nothing. -/
def Plain (py : Python) (c : PyChar) : Prop :=
  c = .scalar ' ' ∨ (py.isSpace c = false ∧ c ≠ .scalar '|' ∧ py.otherCategory c = false)

/-- Neither a line break nor a control character. -/
def Clean (py : Python) (c : PyChar) : Prop := isLineBreak c = false ∧ py.otherCategory c = false

theorem clean_of_isPrintable (h : Tables py) {c : Char} (hc : isPrintable c = true) : Clean py (.scalar c) := by
  refine ⟨?_, h.noControl c hc⟩
  simp only [isPrintable, Bool.and_eq_true, decide_eq_true_eq] at hc
  simp only [isLineBreak, Bool.or_eq_false_iff, Bool.and_eq_false_iff, decide_eq_false_iff_not, beq_eq_false_iff_ne]
  omega

theorem Plain.clean (h : Tables py) {c : PyChar} (hc : Plain py c) : Clean py c := by
  rcases hc with rfl | ⟨hspace, -, hother⟩
  · exact clean_of_isPrintable h (by decide)
  · refine ⟨Bool.eq_false_iff.mpr fun hbreak => ?_, hother⟩
    rw [h.lineBreak c hbreak] at hspace
    cases hspace

theorem Plain.ne_bar {c : PyChar} (hc : Plain py c) : c ≠ .scalar '|' := by
  rcases hc with rfl | ⟨-, hbar, -⟩
  · decide
  · exact hbar

theorem plain_of_isPrintable (h : Tables py) {c : Char} (hc : isPrintable c = true) (hbar : c ≠ '|') :
    Plain py (.scalar c) := by
  by_cases hblank : c = ' '
  · exact .inl (by rw [hblank])
  · refine .inr ⟨Bool.eq_false_iff.mpr fun hspace => hblank ((h.space c hc).mp hspace), ?_, h.noControl c hc⟩
    exact fun heq => hbar (PyChar.scalar.inj heq)

theorem mem_ofString {s : String} {c : PyChar} (h : c ∈ ofString s) : ∃ d ∈ s.toList, c = .scalar d := by
  obtain ⟨d, hd, hc⟩ := List.mem_map.mp h
  exact ⟨d, hd, hc.symm⟩

theorem plain_of_mem_ofString (h : Tables py) {s : String}
    (hs : s.toList.all (fun c => isPrintable c && c != '|') = true) {c : PyChar} (hc : c ∈ ofString s) : Plain py c := by
  obtain ⟨d, hd, rfl⟩ := mem_ofString hc
  have hd := List.all_eq_true.mp hs d hd
  rw [Bool.and_eq_true, bne_iff_ne] at hd
  exact plain_of_isPrintable h hd.1 hd.2

theorem noSpace_of_mem_words {text word piece : PyText} (hpiece : ∀ c ∈ piece, py.isSpace c = false)
    (h : word ∈ PyText.words py.isSpace piece text) :
    ∀ c ∈ word, (c ∈ piece ∨ c ∈ text) ∧ py.isSpace c = false := by
  induction text generalizing piece with
  | nil =>
    rw [PyText.words] at h
    split at h
    · cases h
    · rw [List.mem_singleton.mp h]
      intro c hc
      have hc := List.mem_reverse.mp hc
      exact ⟨.inl hc, hpiece c hc⟩
  | cons d rest ih =>
    rw [PyText.words] at h
    split at h
    · have hrest : word ∈ PyText.words py.isSpace [] rest → ∀ c ∈ word,
          (c ∈ piece ∨ c ∈ d :: rest) ∧ py.isSpace c = false := fun hword c hc => by
        obtain ⟨hmem | hmem, hspace⟩ := ih (fun c hc => absurd hc List.not_mem_nil) hword c hc
        · cases hmem
        · exact ⟨.inr (List.mem_cons_of_mem _ hmem), hspace⟩
      split at h
      · exact hrest h
      · rcases List.mem_cons.mp h with rfl | h
        · intro c hc
          have hc := List.mem_reverse.mp hc
          exact ⟨.inl hc, hpiece c hc⟩
        · exact hrest h
    · rename_i hd
      have hnext : ∀ c ∈ d :: piece, py.isSpace c = false := fun c hc => by
        rcases List.mem_cons.mp hc with rfl | hc
        · exact Bool.not_eq_true _ ▸ hd
        · exact hpiece c hc
      intro c hc
      obtain ⟨hmem | hmem, hspace⟩ := ih hnext h c hc
      · rcases List.mem_cons.mp hmem with rfl | hmem
        · exact ⟨.inr List.mem_cons_self, hspace⟩
        · exact ⟨.inl hmem, hspace⟩
      · exact ⟨.inr (List.mem_cons_of_mem _ hmem), hspace⟩

theorem mem_join {parts : List PyText} {c : PyChar} (h : c ∈ join " " parts) :
    c = .scalar ' ' ∨ ∃ part ∈ parts, c ∈ part := by
  induction parts with
  | nil => cases h
  | cons part rest ih =>
    cases rest with
    | nil =>
      refine .inr ⟨part, List.mem_cons_self, ?_⟩
      simpa [join, List.intercalate] using h
    | cons next rest =>
      have h : c ∈ (ofString " ").intercalate (part :: next :: rest) := h
      rw [List.intercalate_cons_cons] at h
      rcases List.mem_append.mp h with h | h
      · rcases List.mem_append.mp h with h | h
        · exact .inr ⟨part, List.mem_cons_self, h⟩
        · exact .inl (List.mem_singleton.mp h)
      · rcases ih h with h | ⟨other, hother, h⟩
        · exact .inl h
        · exact .inr ⟨other, List.mem_cons_of_mem _ hother, h⟩

/-- **A normalised value breaks nothing.** -/
theorem plain_of_mem_normalizeTableValue (h : Tables py) {value : Option PyText} {c : PyChar}
    (hc : c ∈ normalizeTableValue py value) : Plain py c := by
  cases value with
  | none => exact plain_of_mem_ofString h (by decide) hc
  | some value =>
    simp only [normalizeTableValue, orElse] at hc
    split at hc
    · exact plain_of_mem_ofString h (by decide) hc
    · rcases mem_join hc with rfl | ⟨word, hword, hc⟩
      · exact .inl rfl
      · obtain ⟨hmem | hmem, hspace⟩ :=
          noSpace_of_mem_words (fun c hc => absurd hc List.not_mem_nil) hword c hc
        · cases hmem
        · obtain ⟨d, -, hd⟩ := List.mem_flatMap.mp hmem
          split at hd
          · exact plain_of_mem_ofString h (by decide) hd
          · split at hd
            · exact plain_of_mem_ofString h (by decide) hd
            · split at hd
              · exact plain_of_mem_ofString h (by decide) hd
              · rename_i hbar hother
                obtain rfl := List.mem_singleton.mp hd
                exact .inr ⟨hspace, hbar, Bool.not_eq_true _ ▸ hother⟩

theorem plain_of_mem_limitTableValue (h : Tables py) {value : Option PyText} {limit : Option Nat} {c : PyChar}
    (hc : c ∈ limitTableValue py value limit) : Plain py c := by
  refine @plain_of_mem_normalizeTableValue py h value c ?_
  cases limit with
  | none => exact hc
  | some maximum =>
    simp only [limitTableValue] at hc
    split at hc
    · exact hc
    · exact List.mem_of_mem_take hc

/-! ## The lines of the table -/

/-- The pieces of a field under one another; only the first line has the label. -/
def rowsOf (py : Python) (label : String) : List PyText → List PyText
  | [] => []
  | first :: rest => tableLine py label first :: rest.map (tableLine py "")

def isLabel (label : String) : Bool :=
  label.toList.all (fun c => isPrintable c && c != '|') && label.length ≤ tableLabelWidth

theorem displayWidth_label (h : Tables py) {label : String} (hlabel : isLabel label = true) :
    displayWidth py (ofString label) ≤ tableLabelWidth := by
  rw [isLabel, Bool.and_eq_true, decide_eq_true_eq, List.all_eq_true] at hlabel
  rw [displayWidth_ofString h]
  · exact hlabel.2
  · exact List.all_eq_true.mpr fun c hc => (Bool.and_eq_true_iff.mp (hlabel.1 c hc)).1

/-- A line of the table has the width of the border. -/
theorem displayWidth_tableLine (h : Tables py) {label : String} {value : PyText} (hlabel : isLabel label = true)
    (hvalue : displayWidth py value ≤ tableValueWidth) : displayWidth py (tableLine py label value) = 77 := by
  rw [tableLine, displayWidth_append, displayWidth_append, displayWidth_append, displayWidth_append,
    displayWidth_padTableValue h (displayWidth_label h hlabel), displayWidth_padTableValue h hvalue,
    displayWidth_ofString h (by decide), displayWidth_ofString h (by decide), displayWidth_ofString h (by decide)]
  rfl

theorem count_bar_eq_zero {value : PyText} (h : ∀ c ∈ value, c ≠ .scalar '|') : value.count (.scalar '|') = 0 :=
  List.count_eq_zero.mpr fun hmem => h _ hmem rfl

theorem count_bar_padTableValue {value : PyText} {width : Nat} (h : ∀ c ∈ value, c ≠ .scalar '|') :
    (padTableValue py value width).count (.scalar '|') = 0 := by
  rw [padTableValue, List.count_append, count_bar_eq_zero h, List.count_replicate]
  rfl

/-- A line of the table has three bars. -/
theorem count_bar_tableLine (h : Tables py) {label : String} {value : PyText} (hlabel : isLabel label = true)
    (hvalue : ∀ c ∈ value, Plain py c) : (tableLine py label value).count (.scalar '|') = 3 := by
  rw [isLabel, Bool.and_eq_true] at hlabel
  have hlabelBars : ∀ c ∈ ofString label, c ≠ .scalar '|' := fun c hc => (plain_of_mem_ofString h hlabel.1 hc).ne_bar
  rw [tableLine, List.count_append, List.count_append, List.count_append, List.count_append,
    count_bar_padTableValue hlabelBars, count_bar_padTableValue fun c hc => (hvalue c hc).ne_bar]
  decide

theorem clean_of_mem_ofString (h : Tables py) {s : String} (hs : s.toList.all isPrintable = true) {c : PyChar}
    (hc : c ∈ ofString s) : Clean py c := by
  obtain ⟨d, hd, rfl⟩ := mem_ofString hc
  exact clean_of_isPrintable h (List.all_eq_true.mp hs d hd)

theorem clean_of_mem_padTableValue (h : Tables py) {value : PyText} {width : Nat} (hvalue : ∀ c ∈ value, Clean py c)
    {c : PyChar} (hc : c ∈ padTableValue py value width) : Clean py c := by
  rcases List.mem_append.mp hc with hc | hc
  · exact hvalue c hc
  · rw [List.eq_of_mem_replicate hc]
    exact clean_of_isPrintable h (by decide)

theorem clean_of_mem_tableLine (h : Tables py) {label : String} {value : PyText} (hlabel : isLabel label = true)
    (hvalue : ∀ c ∈ value, Plain py c) {c : PyChar} (hc : c ∈ tableLine py label value) : Clean py c := by
  rw [isLabel, Bool.and_eq_true] at hlabel
  simp only [tableLine, List.mem_append] at hc
  obtain (((hc | hc) | hc) | hc) | hc := hc
  · exact clean_of_mem_ofString h (by decide) hc
  · exact clean_of_mem_padTableValue h (fun c hc => (plain_of_mem_ofString h hlabel.1 hc).clean h) hc
  · exact clean_of_mem_ofString h (by decide) hc
  · exact clean_of_mem_padTableValue h (fun c hc => (hvalue c hc).clean h) hc
  · exact clean_of_mem_ofString h (by decide) hc

structure IsRow (py : Python) (line : PyText) : Prop where
  width : displayWidth py line = 77
  bars : line.count (.scalar '|') = 3
  clean : ∀ c ∈ line, Clean py c
  head : line.head? = some (.scalar '|')

theorem isRow_tableLine (h : Tables py) {label : String} {value : PyText} (hlabel : isLabel label = true)
    (hvalue : ∀ c ∈ value, Plain py c) (hwidth : displayWidth py value ≤ tableValueWidth) :
    IsRow py (tableLine py label value) :=
  ⟨displayWidth_tableLine h hlabel hwidth, count_bar_tableLine h hlabel hvalue,
    fun _ hc => clean_of_mem_tableLine h hlabel hvalue hc, rfl⟩

theorem isRow_of_mem_rowsOf (h : Tables py) {label : String} {pieces : List PyText} (hlabel : isLabel label = true)
    (hpieces : ∀ piece ∈ pieces, (∀ c ∈ piece, Plain py c) ∧ displayWidth py piece ≤ tableValueWidth) {line : PyText}
    (hline : line ∈ rowsOf py label pieces) : IsRow py line := by
  cases pieces with
  | nil => cases hline
  | cons first rest =>
    rcases List.mem_cons.mp hline with rfl | hline
    · have hfirst := hpieces first List.mem_cons_self
      exact isRow_tableLine h hlabel hfirst.1 hfirst.2
    · obtain ⟨piece, hpiece, rfl⟩ := List.mem_map.mp hline
      have hpiece := hpieces piece (List.mem_cons_of_mem _ hpiece)
      exact isRow_tableLine h (by decide) hpiece.1 hpiece.2

/-! ## The body -/

def piecesOf (py : Python) (limit : Option Nat) (field : String × Option PyText) : List PyText :=
  wrapTableValue py (limitTableValue py field.2 limit) tableValueWidth

def headerLine (py : Python) : PyText := tableLine py "Item" (ofString "Value")

def footerLine (py : Python) (job : Job) (limit : Option Nat) : PyText :=
  ofString "This message was generated automatically by Slurm on cluster \"" ++ limitTableValue py job.clusterName limit ++
    ofString "\"."

def fieldRows (py : Python) (job : Job) (limit : Option Nat) : List PyText :=
  (notificationFields job).flatMap fun field => rowsOf py field.1 (piecesOf py limit field)

def bodyLines (py : Python) (job : Job) (limit : Option Nat) : List PyText :=
  [ofString "Slurm Job Notification", [], tableBorder, headerLine py, tableBorder] ++ fieldRows py job limit ++
    [tableBorder, [], footerLine py job limit]

theorem fieldLines_eq (label : String) (value : PyText) :
    fieldLines py label value = rowsOf py label (wrapTableValue py value tableValueWidth) := by
  rw [fieldLines]
  cases wrapTableValue py value tableValueWidth <;> rfl

theorem buildNotificationBody_eq (job : Job) (limit : Option Nat) :
    buildNotificationBody py job limit = join "\n" (bodyLines py job limit) := by
  simp only [buildNotificationBody, bodyLines, fieldRows, List.flatMap_map, fieldLines_eq]
  rfl

def fieldLabels : List String :=
  ["Cluster", "Job ID", "Job name", "User", "Event", "State", "Partition", "Nodes", "Queued time", "Run time",
    "Exit code", "Termination signal", "Working directory", "Standard output", "Standard error"]

theorem isLabel_of_mem {job : Job} {field : String × Option PyText} (h : field ∈ notificationFields job) :
    isLabel field.1 = true := by
  have hlabel : field.1 ∈ fieldLabels := List.mem_map_of_mem (f := Prod.fst) h
  have hall : fieldLabels.all isLabel = true := by decide +kernel
  exact List.all_eq_true.mp hall _ hlabel

theorem piecesOf_spec (h : Tables py) (limit : Option Nat) (field : String × Option PyText) :
    piecesOf py limit field ≠ [] ∧ (piecesOf py limit field).flatten = limitTableValue py field.2 limit ∧
      ∀ piece ∈ piecesOf py limit field, (∀ c ∈ piece, Plain py c) ∧ displayWidth py piece ≤ tableValueWidth := by
  obtain ⟨hne, hflatten, hnarrow⟩ :=
    @wrapTableValue_spec py tableValueWidth (by decide) (limitTableValue py field.2 limit)
  refine ⟨hne, hflatten, fun piece hpiece => ⟨fun c hc => ?_, hnarrow piece hpiece⟩⟩
  have hmem : c ∈ limitTableValue py field.2 limit := by
    rw [← hflatten]
    exact List.mem_flatten.mpr ⟨piece, hpiece, hc⟩
  exact plain_of_mem_limitTableValue h hmem

theorem isRow_of_mem_fieldRows (h : Tables py) {job : Job} {limit : Option Nat} {line : PyText}
    (hline : line ∈ fieldRows py job limit) : IsRow py line := by
  obtain ⟨field, hfield, hline⟩ := List.mem_flatMap.mp hline
  exact isRow_of_mem_rowsOf h (isLabel_of_mem hfield) (piecesOf_spec h limit field).2.2 hline

theorem isRow_headerLine (h : Tables py) : IsRow py (headerLine py) := by
  refine isRow_tableLine h (by decide) (fun c hc => plain_of_mem_ofString h (by decide) hc) ?_
  rw [displayWidth_ofString h (by decide)]
  decide

theorem clean_of_mem_tableBorder (h : Tables py) {c : PyChar} (hc : c ∈ tableBorder) : Clean py c := by
  have hall : tableBorder.all (fun c => c = .scalar '+' || c = .scalar '-') = true := by decide
  have hc := List.all_eq_true.mp hall c hc
  rw [Bool.or_eq_true, decide_eq_true_eq, decide_eq_true_eq] at hc
  rcases hc with rfl | rfl
  · exact clean_of_isPrintable h (by decide)
  · exact clean_of_isPrintable h (by decide)

theorem displayWidth_tableBorder (h : Tables py) : displayWidth py tableBorder = 77 := by
  rw [tableBorder, displayWidth_append, displayWidth_append, displayWidth_append, displayWidth_append,
    displayWidth_replicate h (by decide), displayWidth_replicate h (by decide), displayWidth_ofString h (by decide)]
  rfl

theorem clean_of_mem_bodyLines (h : Tables py) {job : Job} {limit : Option Nat} {line : PyText}
    (hline : line ∈ bodyLines py job limit) : ∀ c ∈ line, Clean py c := by
  simp only [bodyLines, List.mem_append, List.mem_cons, List.not_mem_nil, or_false] at hline
  obtain ((rfl | rfl | rfl | rfl | rfl) | hline) | (rfl | rfl | rfl) := hline
  · exact fun c hc => clean_of_mem_ofString h (by decide) hc
  · exact fun c hc => absurd hc List.not_mem_nil
  · exact fun c hc => clean_of_mem_tableBorder h hc
  · exact (isRow_headerLine h).clean
  · exact fun c hc => clean_of_mem_tableBorder h hc
  · exact (isRow_of_mem_fieldRows h hline).clean
  · exact fun c hc => clean_of_mem_tableBorder h hc
  · exact fun c hc => absurd hc List.not_mem_nil
  · intro c hc
    rcases List.mem_append.mp hc with hc | hc
    · rcases List.mem_append.mp hc with hc | hc
      · exact clean_of_mem_ofString h (by decide +kernel) hc
      · exact (plain_of_mem_limitTableValue h hc).clean h
    · exact clean_of_mem_ofString h (by decide) hc

theorem splitLines_buildNotificationBody (h : Tables py) (job : Job) (limit : Option Nat) :
    splitLines (buildNotificationBody py job limit) = bodyLines py job limit := by
  rw [buildNotificationBody_eq, splitLines_join]
  · exact List.append_ne_nil_of_right_ne_nil _ (List.cons_ne_nil _ _)
  · intro line hline hmem
    exact absurd (clean_of_mem_bodyLines h hline _ hmem).1 (by decide)

/-- The table: the header between borders, the rows of the fields, a border. -/
theorem tableLines_buildNotificationBody (h : Tables py) (job : Job) (limit : Option Nat) :
    tableLines (buildNotificationBody py job limit) =
      [tableBorder, headerLine py, tableBorder] ++ fieldRows py job limit ++ [tableBorder] := by
  have hrows : (fieldRows py job limit).filter isTableLine = fieldRows py job limit :=
    List.filter_eq_self.mpr fun line hline => by
      rw [isTableLine, (isRow_of_mem_fieldRows h hline).head]
      decide
  rw [tableLines, splitLines_buildNotificationBody h, bodyLines, List.filter_append, List.filter_append, hrows]
  rfl

end

structure TableLayout (py : Python) (job : Job) (limit : Option Nat) (body : PyText) : Prop where
  /-- The table has one width. -/
  width : ∀ line ∈ tableLines body, displayWidth py line = 77
  /-- Its rows have three bars. -/
  bars : ∀ line ∈ tableLines body, line.head? = some (.scalar '|') → line.count (.scalar '|') = 3
  /-- No line has a line break or a control character in it. -/
  clean : ∀ line ∈ splitLines body, ∀ c ∈ line, isLineBreak c = false ∧ py.otherCategory c = false
  /-- The rows of a field show the pieces of its value, and nothing else. -/
  fields : ∃ pieces : String × Option PyText → List PyText,
    tableLines body = [tableBorder, headerLine py, tableBorder] ++
      ((notificationFields job).flatMap fun field => rowsOf py field.1 (pieces field)) ++ [tableBorder] ∧
    ∀ field ∈ notificationFields job, pieces field ≠ [] ∧ (pieces field).flatten = limitTableValue py field.2 limit

/-- **Every notification has the layout of the table**, whatever its texts and their limit. -/
theorem table_layout {py : Python} (h : Tables py) (job : Job) (limit : Option Nat) :
    TableLayout py job limit (buildNotificationBody py job limit) := by
  have hlines := tableLines_buildNotificationBody h job limit
  have hrow : ∀ line ∈ tableLines (buildNotificationBody py job limit), line = tableBorder ∨ IsRow py line := by
    intro line hline
    rw [hlines] at hline
    simp only [List.mem_append, List.mem_cons, List.not_mem_nil, or_false] at hline
    obtain ((rfl | rfl | rfl) | hline) | rfl := hline
    · exact .inl rfl
    · exact .inr (isRow_headerLine h)
    · exact .inl rfl
    · exact .inr (isRow_of_mem_fieldRows h hline)
    · exact .inl rfl
  refine ⟨fun line hline => ?_, fun line hline hhead => ?_, fun line hline c hc => ?_, piecesOf py limit, hlines,
    fun field _ => ⟨(piecesOf_spec h limit field).1, (piecesOf_spec h limit field).2.1⟩⟩
  · rcases hrow line hline with rfl | hrow
    · exact displayWidth_tableBorder h
    · exact hrow.width
  · rcases hrow line hline with rfl | hrow
    · cases hhead
    · exact hrow.bars
  · rw [splitLines_buildNotificationBody h] at hline
    exact clean_of_mem_bodyLines h hline c hc

theorem tables_asciiPython : Tables asciiPython := by
  refine ⟨fun c hc => ?_, fun _ _ => ⟨rfl, rfl⟩, fun c hc => ?_, fun c hc => ?_⟩
  · simp only [isPrintable, Bool.and_eq_true, decide_eq_true_eq] at hc
    show PyStr.isSpace c = true ↔ c = ' '
    constructor
    · intro h
      have hcode : c.toNat = ' '.toNat := by
        simp only [PyStr.isSpace, Bool.or_eq_true, Bool.and_eq_true, decide_eq_true_eq, beq_iff_eq] at h
        have h32 : ' '.toNat = 32 := rfl
        omega
      exact Char.toNat_inj.mp hcode
    · rintro rfl
      decide
  · simp only [isPrintable, Bool.and_eq_true, decide_eq_true_eq] at hc
    show (decide (c.toNat < 32) || c.toNat == 127) = false
    rw [Bool.or_eq_false_iff, decide_eq_false_iff_not, beq_eq_false_iff_ne]
    omega
  · cases c with
    | surrogate n => cases hc
    | scalar c =>
      show PyStr.isSpace c = true
      simp only [isLineBreak, Bool.or_eq_true, Bool.and_eq_true, decide_eq_true_eq, beq_iff_eq] at hc
      simp only [PyStr.isSpace, Bool.or_eq_true, Bool.and_eq_true, decide_eq_true_eq, beq_iff_eq]
      omega

def annJob : Job := ⟨some (ofString "hpc"), annEnviron, ofString "ann", ofString "END", ofString "17"⟩

theorem table_layout_ann : TableLayout asciiPython annJob (some 2) (buildNotificationBody asciiPython annJob (some 2)) :=
  table_layout tables_asciiPython annJob (some 2)

end OciHpc.Slurm
