import OciHpc.Resize.Inventory

/-!
# An inventory written and read back

* `IsLine`, `Terminated` : lines with their newline, and texts made of them;
* `Inventory.WellFormed` : sections that differ, with lines that name no section;
* `parse_write` : what is written is read back;
* `wellFormed_parseInventory` : what is read in a text that ends in a newline is well formed.
-/

namespace OciHpc.Resize

/-! ## A text and its lines -/

structure IsLine (line : Text) : Prop where
  newline : ∃ body, line = body ++ ['\n'] ∧ '\n' ∉ body
  noReturn : '\r' ∉ line

/-- Read with universal newlines, the text ends in a newline. -/
def Terminated (text : Text) : Prop := ∀ c, (universalNewlines text).getLast? = some c → c = '\n'

theorem return_not_mem_universalNewlines (text : Text) : '\r' ∉ universalNewlines text := by
  fun_induction universalNewlines text with
  | case1 => exact List.not_mem_nil
  | case2 rest ih =>
      intro h
      rcases List.mem_cons.mp h with h | h
      · cases h
      · exact ih h
  | case3 c rest _ ih =>
      intro h
      rcases List.mem_cons.mp h with h | h
      · split at h
        · cases h
        · rename_i hc
          exact hc h.symm
      · exact ih h

theorem universalNewlines_eq_self {text : Text} (h : '\r' ∉ text) : universalNewlines text = text := by
  fun_induction universalNewlines text with
  | case1 => rfl
  | case2 rest ih => exact absurd List.mem_cons_self h
  | case3 c rest _ ih =>
      have hc : c ≠ '\r' := Ne.symm (List.ne_of_not_mem_cons h)
      rw [if_neg hc, ih (List.not_mem_of_not_mem_cons h)]

theorem linesFrom_flatten {lines : List Text} (h : ∀ line ∈ lines, IsLine line) : linesFrom [] lines.flatten = lines := by
  induction lines with
  | nil => rfl
  | cons line rest ih =>
      obtain ⟨body, rfl, hbody⟩ := (h line List.mem_cons_self).newline
      rw [List.flatten_cons, List.append_assoc, List.singleton_append, linesFrom_append hbody,
        ih fun other hother => h other (List.mem_cons_of_mem _ hother)]
      rfl

theorem fileLines_flatten {lines : List Text} (h : ∀ line ∈ lines, IsLine line) : fileLines lines.flatten = lines := by
  have hreturn : '\r' ∉ lines.flatten := fun hmem => by
    obtain ⟨line, hline, hc⟩ := List.mem_flatten.mp hmem
    exact (h line hline).noReturn hc
  rw [fileLines, universalNewlines_eq_self hreturn, linesFrom_flatten h]

theorem isLine_of_mem_linesFrom {text line part : Text} (hreturn : '\r' ∉ text) (hend : ∀ c, text.getLast? = some c → c = '\n')
    (hpart : '\n' ∉ part) (hpartReturn : '\r' ∉ part) (hempty : text = [] → part = [])
    (h : line ∈ linesFrom part text) : IsLine line := by
  induction text generalizing part with
  | nil =>
      rw [hempty rfl] at h
      cases h
  | cons c rest ih =>
      have hc : c ≠ '\r' := Ne.symm (List.ne_of_not_mem_cons hreturn)
      have hrest : '\r' ∉ rest := List.not_mem_of_not_mem_cons hreturn
      have hend' : ∀ d, rest.getLast? = some d → d = '\n' := fun d hd => hend d (by rw [List.getLast?_cons, hd]; rfl)
      rw [linesFrom] at h
      split at h
      · rename_i hnewline
        rcases List.mem_cons.mp h with rfl | h
        · refine ⟨⟨part.reverse, by rw [List.reverse_cons, hnewline], by rwa [List.mem_reverse]⟩, fun hmem => ?_⟩
          rw [List.mem_reverse] at hmem
          rcases List.mem_cons.mp hmem with hmem | hmem
          · exact hc hmem.symm
          · exact hpartReturn hmem
        · exact ih hrest hend' List.not_mem_nil List.not_mem_nil (fun _ => rfl) h
      · rename_i hnewline
        refine ih hrest hend' (fun hmem => ?_) (fun hmem => ?_) (fun hnil => ?_) h
        · rcases List.mem_cons.mp hmem with hmem | hmem
          · exact hnewline hmem.symm
          · exact hpart hmem
        · rcases List.mem_cons.mp hmem with hmem | hmem
          · exact hc hmem.symm
          · exact hpartReturn hmem
        · subst hnil
          exact absurd (hend c rfl) hnewline

theorem isLine_of_mem_fileLines {text line : Text} (hend : Terminated text) (h : line ∈ fileLines text) : IsLine line :=
  isLine_of_mem_linesFrom (return_not_mem_universalNewlines text) hend List.not_mem_nil List.not_mem_nil
    (fun _ => rfl) h

/-! ## Sections written and read back -/

structure IsName (name : Text) : Prop where
  noOpen : '[' ∉ name
  noClose : ']' ∉ name
  noNewline : '\n' ∉ name
  noReturn : '\r' ∉ name

def header (name : Text) : Text := '[' :: name ++ [']', '\n']

/-- The sections differ, and their lines are lines that name no section. -/
structure Inventory.WellFormed (inventory : Inventory) : Prop where
  nodup : (inventory.map (·.1)).Nodup
  names : ∀ entry ∈ inventory, IsName entry.1
  lines : ∀ entry ∈ inventory, ∀ line ∈ entry.2, IsLine line ∧ isHeader line = false

/-- The sections differ, and none of their lines names a section. -/
structure Inventory.Separate (inventory : Inventory) : Prop where
  nodup : (inventory.map (·.1)).Nodup
  names : ∀ entry ∈ inventory, IsName entry.1
  noHeader : ∀ entry ∈ inventory, ∀ line ∈ entry.2, isHeader line = false

theorem Inventory.WellFormed.separate {inventory : Inventory} (h : inventory.WellFormed) : inventory.Separate :=
  ⟨h.nodup, h.names, fun entry hentry line hline => (h.lines entry hentry line hline).2⟩

theorem isLine_header {name : Text} (h : IsName name) : IsLine (header name) := by
  refine ⟨⟨'[' :: name ++ [']'], by simp [header], fun hmem => ?_⟩, fun hmem => ?_⟩
  · simp only [List.cons_append, List.mem_cons, List.mem_append, List.not_mem_nil, or_false] at hmem
    obtain hmem | hmem | hmem := hmem
    · cases hmem
    · exact h.noNewline hmem
    · cases hmem
  · simp only [header, List.cons_append, List.mem_cons, List.mem_append, List.not_mem_nil, or_false] at hmem
    obtain hmem | hmem | hmem | hmem := hmem
    · cases hmem
    · exact h.noReturn hmem
    · cases hmem
    · cases hmem

theorem strip_header (name : Text) : strip (header name) = '[' :: name ++ [']'] := by
  have hleft : lstrip (header name) = header name := by
    rw [lstrip, header]
    exact List.dropWhile_cons_of_neg (by decide)
  rw [strip, hleft, rstrip, show (header name).reverse = '\n' :: ']' :: (name.reverse ++ ['[']) by simp [header],
    List.dropWhile_cons_of_pos (by decide), List.dropWhile_cons_of_neg (by decide)]
  simp

theorem isHeader_header (name : Text) : isHeader (header name) = true := by
  rw [isHeader, strip_header, Bool.and_eq_true]
  refine ⟨rfl, ?_⟩
  rw [List.isSuffixOf_iff_suffix]
  exact ⟨'[' :: name, rfl⟩

theorem takeWhile_of_not_mem {c : Char} {s : Text} (h : c ∉ s) (rest : Text) :
    (s ++ c :: rest).takeWhile (· ≠ c) = s := by
  rw [List.takeWhile_append_of_pos, List.takeWhile_cons_of_neg (by simp), List.append_nil]
  intro d hd
  rw [decide_eq_true_eq]
  rintro rfl
  exact h hd

theorem sectionName_header {name : Text} (h : IsName name) : sectionName (header name) = name := by
  have hdrop : ((header name).dropWhile (· ≠ '[')).drop 1 = name ++ [']', '\n'] :=
    congrArg (List.drop 1) (List.dropWhile_cons_of_neg (by simp))
  have hopen : '[' ∉ name ++ [']', '\n'] := fun hmem => by
    rcases List.mem_append.mp hmem with hmem | hmem
    · exact h.noOpen hmem
    · exact absurd hmem (by decide)
  have hwhole : (name ++ [']', '\n']).takeWhile (· ≠ '[') = name ++ [']', '\n'] := by
    rw [List.takeWhile_eq_self_iff]
    intro c hc
    rw [decide_eq_true_eq]
    rintro rfl
    exact hopen hc
  rw [sectionName, hdrop, hwhole]
  exact takeWhile_of_not_mem h.noClose _

/-- What `write_inventory` writes, piece by piece. -/
def Inventory.pieces (inventory : Inventory) : List Text := inventory.flatMap fun entry => header entry.1 :: entry.2

theorem writeInventory_eq (inventory : Inventory) : writeInventory inventory = inventory.pieces.flatten := by
  induction inventory with
  | nil => rfl
  | cons entry rest ih =>
      rw [Inventory.pieces, List.flatMap_cons, List.flatten_append, ← Inventory.pieces, ← ih]
      simp [writeInventory, header]

theorem lookup_append_of_fresh {inventory : Inventory} {name : Text} (h : name ∉ inventory.map (·.1))
    (more : Inventory) : Inventory.lines? (inventory ++ more) name = Inventory.lines? more name := by
  induction inventory with
  | nil => rfl
  | cons entry rest ih =>
      have hne : name ≠ entry.1 := List.ne_of_not_mem_cons h
      have hrest := ih (List.not_mem_of_not_mem_cons h)
      unfold Inventory.lines? at hrest ⊢
      rw [List.cons_append, List.lookup_cons, beq_false_of_ne hne, hrest]

theorem set_append_of_fresh {inventory : Inventory} {name : Text} (h : name ∉ inventory.map (·.1))
    (lines : List Text) (more : Inventory) :
    Inventory.set name lines (inventory ++ more) = inventory ++ Inventory.set name lines more := by
  induction inventory with
  | nil => rfl
  | cons entry rest ih =>
      have hne : name ≠ entry.1 := List.ne_of_not_mem_cons h
      have hrest := ih (List.not_mem_of_not_mem_cons h)
      unfold Inventory.set at hrest ⊢
      rw [List.cons_append, setKey, if_neg (Ne.symm hne), hrest, List.cons_append]

theorem parseLines_section {inventory : Inventory} {name : Text} (hfresh : name ∉ inventory.map (·.1))
    {lines : List Text} (hlines : ∀ line ∈ lines, isHeader line = false) (before more : List Text) :
    parseLines (inventory ++ [(name, before)]) (some name) (lines ++ more) =
      parseLines (inventory ++ [(name, before ++ lines)]) (some name) more := by
  induction lines generalizing before with
  | nil => rw [List.nil_append, List.append_nil]
  | cons line rest ih =>
      have hline : isHeader line = false := hlines line List.mem_cons_self
      have hlookup : Inventory.lines? (inventory ++ [(name, before)]) name = some before := by
        rw [lookup_append_of_fresh hfresh]
        exact List.lookup_cons_self
      have hset : Inventory.set name (before ++ [line]) (inventory ++ [(name, before)]) =
          inventory ++ [(name, before ++ [line])] := by
        rw [set_append_of_fresh hfresh]
        exact congrArg (inventory ++ ·) (if_pos rfl)
      rw [List.cons_append, parseLines, hline, if_neg Bool.false_ne_true, hlookup, Option.getD_some, hset, ih fun other hother => hlines other (List.mem_cons_of_mem _ hother),
        List.append_assoc, List.singleton_append]

theorem parseLines_header {inventory : Inventory} (current : Option Text) {line : Text} (h : isHeader line = true)
    {rest : List Text} : parseLines inventory current (line :: rest) =
      parseLines (if (inventory.lines? (sectionName line)).isSome then inventory else inventory.set (sectionName line) [])
        (some (sectionName line)) rest := by
  cases current <;> rw [parseLines, if_pos h]

theorem parseLines_sections {inventory more : Inventory} (h : Inventory.Separate (inventory ++ more))
    (current : Option Text) : parseLines inventory current more.pieces = inventory ++ more := by
  induction more generalizing inventory current with
  | nil => rw [Inventory.pieces, List.flatMap_nil, parseLines, List.append_nil]
  | cons entry rest ih =>
      have hname : IsName entry.1 := h.names entry (by simp)
      have hfresh : entry.1 ∉ inventory.map (·.1) := by
        have hnodup := h.nodup
        rw [List.map_append, List.map_cons] at hnodup
        exact fun hmem => (List.nodup_append.mp hnodup).2.2 _ hmem _ List.mem_cons_self rfl
      have hnone : Inventory.lines? inventory entry.1 = none := by
        have hlookup := lookup_append_of_fresh hfresh []
        rw [List.append_nil] at hlookup
        exact hlookup
      have hset : Inventory.set entry.1 [] inventory = inventory ++ [(entry.1, [])] := by
        have hempty := set_append_of_fresh hfresh [] []
        rw [List.append_nil] at hempty
        exact hempty
      have hassoc : inventory ++ entry :: rest = (inventory ++ [entry]) ++ rest := by simp
      rw [Inventory.pieces, List.flatMap_cons, List.cons_append, parseLines_header _ (isHeader_header entry.1),
        sectionName_header hname, hnone, Option.isSome_none, if_neg Bool.false_ne_true, hset,
        parseLines_section hfresh fun line hline => h.noHeader entry (by simp) line hline, List.nil_append, hassoc]
      exact ih (hassoc ▸ h) _

theorem fileLines_writeInventory {inventory : Inventory} (h : inventory.WellFormed) :
    fileLines (writeInventory inventory) = inventory.pieces := by
  have hlines : ∀ line ∈ inventory.pieces, IsLine line := by
    intro line hline
    obtain ⟨entry, hentry, hline⟩ := List.mem_flatMap.mp hline
    rcases List.mem_cons.mp hline with rfl | hline
    · exact isLine_header (h.names entry hentry)
    · exact (h.lines entry hentry line hline).1
  rw [writeInventory_eq, fileLines_flatten hlines]

/-- **What is written is read back.** -/
theorem parse_write {inventory : Inventory} (h : inventory.WellFormed) :
    parseInventory (writeInventory inventory) = inventory := by
  rw [parseInventory, fileLines_writeInventory h]
  exact @parseLines_sections [] inventory h.separate none

namespace Inventory
variable {inventory : Inventory} {name : Text} {lines : List Text}

theorem WellFormed.set (h : inventory.WellFormed) (hname : IsName name)
    (hlines : ∀ line ∈ lines, IsLine line ∧ isHeader line = false) : (inventory.set name lines).WellFormed := by
  refine ⟨?_, fun entry hentry => ?_, fun entry hentry => ?_⟩
  · exact nodup_keys_setKey h.nodup
  · rcases mem_setKey hentry with rfl | hentry
    · exact hname
    · exact h.names entry hentry
  · rcases mem_setKey hentry with rfl | hentry
    · exact hlines
    · exact h.lines entry hentry

theorem mem_of_lines? (h : inventory.lines? name = some lines) : (name, lines) ∈ inventory := by
  exact mem_of_lookup h

theorem lines?_of_mem {entry : Text × List Text} (hnodup : (inventory.map (·.1)).Nodup) (h : entry ∈ inventory) :
    inventory.lines? entry.1 = some entry.2 := by
  obtain ⟨before, after, rfl⟩ := List.append_of_mem h
  rw [List.map_append, List.map_cons] at hnodup
  have hfresh : entry.1 ∉ before.map (·.1) := fun hmem =>
    (List.nodup_append.mp hnodup).2.2 _ hmem _ List.mem_cons_self rfl
  rw [lookup_append_of_fresh hfresh]
  exact List.lookup_cons_self

end Inventory

theorem append_rstrip (s : Text) : rstrip s ++ (s.reverse.takeWhile PyStr.isSpace).reverse = s := by
  rw [rstrip, ← List.reverse_append, List.takeWhile_append_dropWhile, List.reverse_reverse]

theorem exists_rstrip (s : Text) : ∃ back, s = rstrip s ++ back ∧ ∀ c ∈ back, PyStr.isSpace c = true :=
  ⟨_, (append_rstrip s).symm, fun _ hc => List.mem_takeWhile_imp (List.mem_reverse.mp hc)⟩

/-- A string is white space, what is left of it, and white space. -/
theorem exists_strip (s : Text) : ∃ front back, s = front ++ strip s ++ back ∧ ∀ c ∈ front, PyStr.isSpace c = true := by
  refine ⟨s.takeWhile PyStr.isSpace, ((lstrip s).reverse.takeWhile PyStr.isSpace).reverse, ?_, fun c hc =>
    List.mem_takeWhile_imp hc⟩
  rw [List.append_assoc, strip, append_rstrip, lstrip, List.takeWhile_append_dropWhile]

theorem IsLine.newline_not_mem {line front back : Text} (h : IsLine line) (hsplit : line = front ++ back)
    (hback : back ≠ []) : '\n' ∉ front := by
  obtain ⟨body, hbody, hnewline⟩ := h.newline
  have hdrop : body = front ++ back.dropLast := by
    rw [← List.dropLast_append_of_ne_nil hback, ← hsplit, hbody, List.dropLast_concat]
  intro hmem
  rw [hdrop] at hnewline
  exact hnewline (List.mem_append_left _ hmem)

theorem isName_sectionName {line : Text} (hline : IsLine line) (h : isHeader line = true) :
    IsName (sectionName line) := by
  obtain ⟨hopen, hclose⟩ := Bool.and_eq_true_iff.mp h
  obtain ⟨inner, hinner⟩ := List.isPrefixOf_iff_prefix.mp hopen
  obtain ⟨outer, houter⟩ := List.isSuffixOf_iff_suffix.mp hclose
  obtain ⟨front, back, hsplit, hfront⟩ := exists_strip line
  have hcloseIn : ']' ∈ inner := by
    have hmem : ']' ∈ strip line := houter ▸ List.mem_append_right _ List.mem_cons_self
    rw [← hinner] at hmem
    rcases List.mem_append.mp hmem with hmem | hmem
    · exact absurd hmem (by decide)
    · exact hmem
  have hrest : (line.dropWhile (· ≠ '[')).drop 1 = inner ++ back := by
    have hnot : ∀ c ∈ front, decide (c ≠ '[') = true := by
      intro c hc
      rw [decide_eq_true_eq]
      rintro rfl
      exact absurd (hfront _ hc) (by decide)
    rw [hsplit, List.append_assoc, List.dropWhile_append_of_pos hnot, ← hinner]
    exact congrArg (List.drop 1) (List.dropWhile_cons_of_neg (by decide))
  have hname : sectionName line = ((inner ++ back).takeWhile (· ≠ '[')).takeWhile (· ≠ ']') := by
    rw [sectionName, hrest]
  have hprefix : sectionName line <+: inner ++ back := by
    rw [hname]
    exact (List.takeWhile_prefix _).trans (List.takeWhile_prefix _)
  have hnoClose : ']' ∉ sectionName line := fun hmem => by
    rw [hname] at hmem
    simpa using List.mem_takeWhile_imp hmem
  have hsub : ∀ c ∈ sectionName line, c ∈ line := fun c hc => by
    rw [hsplit, ← hinner]
    have hmem := hprefix.subset hc
    simp only [List.mem_append] at hmem ⊢
    obtain hmem | hmem := hmem
    · exact .inl (.inr (.inr hmem))
    · exact .inr hmem
  refine ⟨fun hmem => ?_, hnoClose, ?_, fun hmem => hline.noReturn (hsub _ hmem)⟩
  · rw [hname] at hmem
    have hmem' := (List.takeWhile_prefix _).subset hmem
    simpa using List.mem_takeWhile_imp hmem'
  · obtain ⟨rest, hrest'⟩ := hprefix
    have hne : rest ≠ [] := by
      rintro rfl
      rw [List.append_nil] at hrest'
      exact hnoClose (hrest' ▸ List.mem_append_left _ hcloseIn)
    have hwhole : line = (front ++ "[".toList ++ sectionName line) ++ rest := by
      rw [List.append_assoc _ _ rest, hrest', ← List.append_assoc, List.append_assoc front, hinner]
      exact hsplit
    exact fun hmem => hline.newline_not_mem hwhole hne (List.mem_append_right _ hmem)

theorem exists_parseLines_cons {inventory : Inventory} {current : Option Text} {line : Text} (h : inventory.WellFormed)
    (hcurrent : ∀ name, current = some name → IsName name) (hline : IsLine line) :
    ∃ (next : Inventory) (name? : Option Text), next.WellFormed ∧ (∀ name, name? = some name → IsName name) ∧
      ∀ rest, parseLines inventory current (line :: rest) = parseLines next name? rest := by
  cases hheader : isHeader line with
  | true =>
      have hname := isName_sectionName hline hheader
      refine ⟨_, _, ?_, fun name hsome => Option.some.inj hsome ▸ hname, fun rest => parseLines_header current hheader⟩
      split
      · exact h
      · exact h.set hname fun other hother => absurd hother List.not_mem_nil
  | false =>
      cases current with
      | none =>
          refine ⟨inventory, none, h, hcurrent, fun rest => ?_⟩
          rw [parseLines, hheader, if_neg Bool.false_ne_true]
      | some name =>
          have hlines : ∀ other ∈ (inventory.lines? name).getD [] ++ [line], IsLine other ∧ isHeader other = false := by
            intro other hother
            rcases List.mem_append.mp hother with hother | hother
            · cases hsection : inventory.lines? name with
              | none =>
                  rw [hsection] at hother
                  cases hother
              | some before =>
                  rw [hsection] at hother
                  exact h.lines _ (Inventory.mem_of_lines? hsection) other hother
            · rw [List.mem_singleton.mp hother]
              exact ⟨hline, hheader⟩
          refine ⟨_, some name, h.set (hcurrent name rfl) hlines, hcurrent, fun rest => ?_⟩
          rw [parseLines, hheader, if_neg Bool.false_ne_true]

theorem wellFormed_parseLines {inventory : Inventory} {current : Option Text} {lines : List Text}
    (h : inventory.WellFormed) (hcurrent : ∀ name, current = some name → IsName name)
    (hlines : ∀ line ∈ lines, IsLine line) : (parseLines inventory current lines).WellFormed := by
  induction lines generalizing inventory current with
  | nil => cases current <;> exact h
  | cons line rest ih =>
      obtain ⟨next, name?, hnext, hname, hturn⟩ := exists_parseLines_cons h hcurrent (hlines line List.mem_cons_self)
      rw [hturn]
      exact ih hnext hname fun other hother => hlines other (List.mem_cons_of_mem _ hother)

/-- **What is read in a text that ends in a newline can be written and read again.** -/
theorem wellFormed_parseInventory {text : Text} (h : Terminated text) : (parseInventory text).WellFormed := by
  refine wellFormed_parseLines ⟨List.nodup_nil, nofun, nofun⟩ nofun fun line hline => isLine_of_mem_fileLines h hline

end OciHpc.Resize
