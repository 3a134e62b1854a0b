import Mathlib.Data.List.Forall2
import OciHpc.Resize.InventoryRoundTrip

/-!
# A last line without its newline

What `parse_inventory` reads in any text, and when `write_inventory` writes it so that it is read back.

* `IsRest`, `IsPiece` : what follows the last newline of a text, and the pieces a file is written from;
* `exists_fileLines`, `Inventory.Read` : the lines of any text, and what is read in them;
* `parse_write_of_pieces` : only the last piece may lack its newline;
* `pieces_of_parse_write` : and it has to be so, where as many sections and lines are read as are written;
* `Inventory.Unmerged`, `parse_write_iff` : no line is run together with the next, so what is written is read back.
-/

namespace OciHpc.Resize

/-! ## Lines and what follows them -/

/-- What follows the last newline of a text. -/
structure IsRest (rest : Text) : Prop where
  newline : '\n' ∉ rest
  noReturn : '\r' ∉ rest

/-- What follows the lines, as a line of its own where it is not empty. -/
def restLines (rest : Text) : List Text := if rest = [] then [] else [rest]

/-- A line, with its newline or without it. -/
def IsPiece (piece : Text) : Prop := IsLine piece ∨ IsRest piece ∧ piece ≠ []

theorem mem_restLines {rest piece : Text} (h : piece ∈ restLines rest) : piece = rest ∧ rest ≠ [] := by
  rw [restLines] at h
  split at h
  · cases h
  · rename_i hne
    exact ⟨List.mem_singleton.mp h, hne⟩

theorem isPiece_of_mem {lines : List Text} {rest piece : Text} (hlines : ∀ line ∈ lines, IsLine line)
    (hrest : IsRest rest) (h : piece ∈ lines ++ restLines rest) : IsPiece piece := by
  rcases List.mem_append.mp h with h | h
  · exact .inl (hlines piece h)
  · obtain ⟨rfl, hne⟩ := mem_restLines h
    exact .inr ⟨hrest, hne⟩

theorem IsRest.isLine {rest : Text} (h : IsRest rest) : IsLine (rest ++ ['\n']) := by
  refine ⟨⟨rest, rfl, h.newline⟩, fun hmem => ?_⟩
  rcases List.mem_append.mp hmem with hmem | hmem
  · exact h.noReturn hmem
  · exact absurd hmem (by decide)

theorem exists_linesFrom {text part : Text} (htext : '\r' ∉ text) (hpart : IsRest part) :
    ∃ lines rest, linesFrom part text = lines ++ restLines rest ∧ (∀ line ∈ lines, IsLine line) ∧ IsRest rest := by
  induction text generalizing part with
  | nil =>
      refine ⟨[], part.reverse, ?_, fun line hline => absurd hline List.not_mem_nil,
        ⟨fun hmem => hpart.newline (List.mem_reverse.mp hmem), fun hmem => hpart.noReturn (List.mem_reverse.mp hmem)⟩⟩
      rw [linesFrom, restLines]
      cases part <;> simp
  | cons c text ih =>
      have hc : '\r' ≠ c := List.ne_of_not_mem_cons htext
      have htext' : '\r' ∉ text := List.not_mem_of_not_mem_cons htext
      rw [linesFrom]
      split
      · rename_i hnewline
        obtain ⟨lines, rest, heq, hlines, hrest⟩ := @ih [] htext' ⟨List.not_mem_nil, List.not_mem_nil⟩
        refine ⟨(c :: part).reverse :: lines, rest, by rw [heq, List.cons_append], fun line hline => ?_, hrest⟩
        rcases List.mem_cons.mp hline with rfl | hline
        · refine ⟨⟨part.reverse, by rw [List.reverse_cons, hnewline], ?_⟩, fun hmem => ?_⟩
          · rw [List.mem_reverse]
            exact hpart.newline
          · rw [List.mem_reverse] at hmem
            exact hpart.noReturn ((List.mem_cons.mp hmem).resolve_left hc)
        · exact hlines line hline
      · rename_i hnewline
        refine ih htext' ⟨fun hmem => ?_, fun hmem => ?_⟩
        · exact hpart.newline ((List.mem_cons.mp hmem).resolve_left (Ne.symm hnewline))
        · exact hpart.noReturn ((List.mem_cons.mp hmem).resolve_left hc)

/-- The lines of a text, the last of which may have no newline. -/
theorem exists_fileLines (text : Text) :
    ∃ lines rest, fileLines text = lines ++ restLines rest ∧ (∀ line ∈ lines, IsLine line) ∧ IsRest rest :=
  exists_linesFrom (return_not_mem_universalNewlines text) ⟨List.not_mem_nil, List.not_mem_nil⟩

theorem linesFrom_rest {rest : Text} (h : '\n' ∉ rest) (part more : Text) :
    linesFrom part (rest ++ more) = linesFrom (rest.reverse ++ part) more := by
  induction rest generalizing part with
  | nil => rfl
  | cons c rest ih =>
      have hc : c ≠ '\n' := Ne.symm (List.ne_of_not_mem_cons h)
      rw [List.cons_append, linesFrom, if_neg hc, ih (List.not_mem_of_not_mem_cons h), List.reverse_cons,
        List.append_assoc, List.singleton_append]

theorem linesFrom_lines {lines : List Text} (h : ∀ line ∈ lines, IsLine line) (more : Text) :
    linesFrom [] (lines.flatten ++ more) = lines ++ linesFrom [] more := by
  induction lines with
  | nil => rfl
  | cons line rest ih =>
      obtain ⟨body, rfl, hbody⟩ := (h line List.mem_cons_self).newline
      rw [List.flatten_cons, List.append_assoc, List.append_assoc, List.singleton_append, linesFrom_append hbody,
        ih fun other hother => h other (List.mem_cons_of_mem _ hother)]
      rfl

theorem return_not_mem_flatten {pieces : List Text} (h : ∀ piece ∈ pieces, IsPiece piece) : '\r' ∉ pieces.flatten := by
  intro hmem
  obtain ⟨piece, hpiece, hc⟩ := List.mem_flatten.mp hmem
  rcases h piece hpiece with hline | ⟨hrest, -⟩
  · exact hline.noReturn hc
  · exact hrest.noReturn hc

/-- Lines written one after the other are read back, where only the last has no newline. -/
theorem fileLines_flatten_rest {lines : List Text} {rest : Text} (hlines : ∀ line ∈ lines, IsLine line)
    (hrest : IsRest rest) : fileLines (lines ++ restLines rest).flatten = lines ++ restLines rest := by
  rw [fileLines, universalNewlines_eq_self (return_not_mem_flatten fun piece => isPiece_of_mem hlines hrest),
    List.flatten_append, linesFrom_lines hlines, restLines]
  split
  · rfl
  · rename_i hne
    have hlast := linesFrom_rest hrest.newline [] []
    rw [List.append_nil, List.append_nil, linesFrom, if_neg (by simpa using hne), List.reverse_reverse] at hlast
    rw [List.flatten_singleton, hlast]

/-! ## Lines related to others -/

theorem exists_append_of_forall₂ {α β : Type} {R : α → β → Prop} {front back : List α} {others : List β}
    (h : List.Forall₂ R (front ++ back) others) :
    ∃ front' back', others = front' ++ back' ∧ List.Forall₂ R front front' ∧ List.Forall₂ R back back' := by
  induction front generalizing others with
  | nil => exact ⟨[], others, rfl, .nil, h⟩
  | cons x front ih =>
      obtain ⟨y, more, hfirst, hmore, rfl⟩ := List.forall₂_cons_left_iff.mp h
      obtain ⟨front', back', rfl, hfront, hback⟩ := ih hmore
      exact ⟨y :: front', back', rfl, .cons hfirst hfront, hback⟩

theorem mem_of_forall₂ {α β : Type} {R : α → β → Prop} {xs : List α} {ys : List β} (h : List.Forall₂ R xs ys) :
    (∀ x ∈ xs, ∃ y ∈ ys, R x y) ∧ ∀ y ∈ ys, ∃ x ∈ xs, R x y := by
  induction h with
  | nil => exact ⟨fun x hx => absurd hx List.not_mem_nil, fun y hy => absurd hy List.not_mem_nil⟩
  | cons hfirst _ ih =>
      refine ⟨fun x hx => ?_, fun y hy => ?_⟩
      · rcases List.mem_cons.mp hx with rfl | hx
        · exact ⟨_, List.mem_cons_self, hfirst⟩
        · obtain ⟨y, hy, hxy⟩ := ih.1 x hx
          exact ⟨y, List.mem_cons_of_mem _ hy, hxy⟩
      · rcases List.mem_cons.mp hy with rfl | hy
        · exact ⟨_, List.mem_cons_self, hfirst⟩
        · obtain ⟨x, hx, hxy⟩ := ih.2 y hy
          exact ⟨x, List.mem_cons_of_mem _ hx, hxy⟩

/-- Two inventories with the same sections are related where the lines of each section are. -/
theorem forall₂_of_lines? {before after : Inventory} {R : Text × List Text → Text × List Text → Prop}
    (hnodup : (before.map (·.1)).Nodup) (hkeys : after.map (·.1) = before.map (·.1))
    (h : ∀ name lines others, before.lines? name = some lines → after.lines? name = some others →
      R (name, lines) (name, others)) : List.Forall₂ R before after := by
  have hsame : List.Forall₂ (fun entry other : Text × List Text => entry.1 = other.1) before after := by
    have heq : List.Forall₂ Eq (before.map (·.1)) (after.map (·.1)) := by
      rw [hkeys]
      exact List.forall₂_same.mpr fun _ _ => rfl
    rwa [List.forall₂_map_left_iff, List.forall₂_map_right_iff] at heq
  refine List.forall₂_iff_zip.mpr ⟨hsame.length_eq, @fun entry other hzip => ?_⟩
  obtain ⟨hentry, hother⟩ := List.of_mem_zip hzip
  have heq : entry.1 = other.1 := List.forall₂_zip hsame hzip
  have hlines := Inventory.lines?_of_mem hnodup hentry
  have hothers := Inventory.lines?_of_mem (hkeys ▸ hnodup) hother
  rw [← heq] at hothers
  have hrelated := h entry.1 entry.2 other.2 hlines hothers
  exact (show (entry.1, other.2) = other by rw [heq]) ▸ hrelated

theorem Inventory.eq_of_lines? {before after : Inventory} (hnodup : (before.map (·.1)).Nodup)
    (hkeys : after.map (·.1) = before.map (·.1)) (h : ∀ name, after.lines? name = before.lines? name) : after = before := by
  have hall : List.Forall₂ Eq before after := by
    refine forall₂_of_lines? hnodup hkeys fun name lines others hlines hothers => ?_
    rw [h name, hlines] at hothers
    rw [Option.some.inj hothers]
  exact (List.forall₂_eq_eq_eq ▸ hall : before = after).symm

theorem lines?_isSome_iff {inventory : Inventory} {name : Text} : (inventory.lines? name).isSome ↔ name ∈ inventory.map (·.1) := by
  rw [Inventory.lines?, ← not_iff_not, Option.not_isSome_iff_eq_none, List.lookup_eq_none_iff, List.mem_map]
  constructor
  · rintro hnone ⟨entry, hentry, rfl⟩
    simpa using hnone entry hentry
  · intro hnone entry hentry
    simpa using fun heq => hnone ⟨entry, hentry, Eq.symm heq⟩

theorem keys_set {inventory : Inventory} {name : Text} {before : List Text} (h : inventory.lines? name = some before) (lines : List Text) :
    (inventory.set name lines).map (·.1) = inventory.map (·.1) := by
  rw [Inventory.set, keys_setKey, if_pos (lines?_isSome_iff.mp (by rw [h]; rfl))]

theorem IsLine.getLast? {line : Text} (h : IsLine line) : line.getLast? = some '\n' := by
  obtain ⟨body, rfl, -⟩ := h.newline
  rw [List.getLast?_concat]

theorem flatten_linesFrom (part text : Text) : (linesFrom part text).flatten = part.reverse ++ text := by
  induction text generalizing part with
  | nil =>
      rw [linesFrom]
      cases part <;> simp
  | cons c text ih =>
      rw [linesFrom]
      split
      · rw [List.flatten_cons, ih, List.reverse_nil, List.nil_append, List.reverse_cons, List.append_assoc,
          List.singleton_append]
      · rw [ih, List.reverse_cons, List.append_assoc, List.singleton_append]

/-- Without carriage returns a text is the lines that are read in it. -/
theorem flatten_fileLines {text : Text} (h : '\r' ∉ text) : (fileLines text).flatten = text := by
  rw [fileLines, universalNewlines_eq_self h, flatten_linesFrom, List.reverse_nil, List.nil_append]

/-- Lines made from the lines of a text, each with its newline where the line has one, are read back. -/
theorem fileLines_of_forall₂ {text : Text} {others : List Text} {R : Text → Text → Prop}
    (h : List.Forall₂ R (fileLines text) others) (hline : ∀ line other, R line other → IsLine line → IsLine other)
    (hrest : ∀ line other, R line other → IsRest line → line ≠ [] → IsRest other ∧ other ≠ []) : fileLines others.flatten = others := by
  obtain ⟨lines, rest, heq, hlines, hlast⟩ := exists_fileLines text
  rw [heq] at h
  obtain ⟨front, back, rfl, hfront, hback⟩ := exists_append_of_forall₂ h
  have hfrontLines : ∀ other ∈ front, IsLine other := fun other hother => by
    obtain ⟨line, hmem, hone⟩ := (mem_of_forall₂ hfront).2 other hother
    exact hline line other hone (hlines line hmem)
  rw [restLines] at hback
  split at hback
  · obtain rfl := List.forall₂_nil_left_iff.mp hback
    have hwhole := fileLines_flatten hfrontLines
    rwa [List.append_nil]
  · rename_i hne
    obtain ⟨other, more, hone, hmore, rfl⟩ := List.forall₂_cons_left_iff.mp hback
    obtain rfl := List.forall₂_nil_left_iff.mp hmore
    obtain ⟨hother, hneOther⟩ := hrest _ _ hone hlast hne
    have hwhole := fileLines_flatten_rest hfrontLines hother
    rwa [restLines, if_neg hneOther] at hwhole

/-! ## What is read in any text -/

/-- Sections that differ, whose lines name no section; the last line of each may have no newline. -/
structure Inventory.Read (inventory : Inventory) : Prop where
  separate : inventory.Separate
  lines : ∀ entry ∈ inventory, ∃ lines rest, entry.2 = lines ++ restLines rest ∧ (∀ line ∈ lines, IsLine line) ∧ IsRest rest

theorem Inventory.WellFormed.read {inventory : Inventory} (h : inventory.WellFormed) : inventory.Read :=
  ⟨h.separate, fun entry hentry => ⟨entry.2, [], (List.append_nil _).symm,
    fun line hline => (h.lines entry hentry line hline).1, ⟨List.not_mem_nil, List.not_mem_nil⟩⟩⟩

theorem Inventory.Read.isPiece {inventory : Inventory} (h : inventory.Read) {entry : Text × List Text}
    (hentry : entry ∈ inventory) {line : Text} (hline : line ∈ entry.2) : IsPiece line := by
  obtain ⟨lines, rest, heq, hlines, hrest⟩ := h.lines entry hentry
  exact isPiece_of_mem hlines hrest (heq ▸ hline)

theorem IsRest.isName_sectionName {rest : Text} (h : IsRest rest) : IsName (sectionName rest) := by
  have hsub : ∀ c ∈ sectionName rest, c ∈ rest := fun c hc =>
    (List.dropWhile_suffix _).subset ((List.drop_suffix _ _).subset
      ((List.takeWhile_prefix _).subset ((List.takeWhile_prefix _).subset hc)))
  refine ⟨fun hmem => ?_, fun hmem => ?_, fun hmem => h.newline (hsub _ hmem), fun hmem => h.noReturn (hsub _ hmem)⟩
  · simpa using List.mem_takeWhile_imp ((List.takeWhile_prefix _).subset hmem)
  · simpa using List.mem_takeWhile_imp hmem

/-- The last turn of the loop, on a line without its newline. -/
theorem read_parseLines_rest {inventory : Inventory} {current : Option Text} (h : inventory.WellFormed)
    (hcurrent : ∀ name, current = some name → IsName name) {rest : Text} (hrest : IsRest rest) :
    (parseLines inventory current (restLines rest)).Read := by
  rw [restLines]
  split
  · cases current <;> exact h.read
  · rename_i hne
    cases hheader : isHeader rest with
    | true =>
        rw [parseLines_header current hheader]
        split
        · exact h.read
        · exact (h.set hrest.isName_sectionName fun other hother => absurd hother List.not_mem_nil).read
    | false =>
        cases current with
        | none =>
            rw [parseLines, hheader, if_neg Bool.false_ne_true]
            exact h.read
        | some name =>
            have hbefore : ∀ line ∈ (inventory.lines? name).getD [], IsLine line ∧ isHeader line = false := by
              intro line hline
              cases hsection : inventory.lines? name with
              | none =>
                  rw [hsection] at hline
                  cases hline
              | some before =>
                  rw [hsection] at hline
                  exact h.lines _ (Inventory.mem_of_lines? hsection) line hline
            have hset := h.set (hcurrent name rfl) hbefore
            have hkeys : ∀ lines : List Text, (inventory.set name lines).map (·.1) =
                (inventory.set name ((inventory.lines? name).getD [])).map (·.1) := fun lines => by
              rw [Inventory.set, Inventory.set, keys_setKey, keys_setKey]
            rw [parseLines, hheader, if_neg Bool.false_ne_true]
            refine ⟨⟨(hkeys _).symm ▸ hset.nodup, fun entry hentry => ?_, fun entry hentry line hline => ?_⟩,
              fun entry hentry => ?_⟩
            · rcases mem_setKey hentry with rfl | hentry
              · exact hcurrent name rfl
              · exact h.names entry hentry
            · rcases mem_setKey hentry with rfl | hentry
              · rcases List.mem_append.mp hline with hline | hline
                · exact (hbefore line hline).2
                · rw [List.mem_singleton.mp hline]
                  exact hheader
              · exact (h.lines entry hentry line hline).2
            · rcases mem_setKey hentry with rfl | hentry
              · exact ⟨_, rest, by rw [restLines, if_neg hne], fun line hline => (hbefore line hline).1, hrest⟩
              · exact h.read.lines entry hentry

theorem read_parseLines {inventory : Inventory} {current : Option Text} {lines : List Text} {rest : Text}
    (h : inventory.WellFormed) (hcurrent : ∀ name, current = some name → IsName name)
    (hlines : ∀ line ∈ lines, IsLine line) (hrest : IsRest rest) :
    (parseLines inventory current (lines ++ restLines rest)).Read := by
  induction lines generalizing inventory current with
  | nil => exact read_parseLines_rest h hcurrent hrest
  | cons line more ih =>
      obtain ⟨next, name?, hnext, hname, hturn⟩ := exists_parseLines_cons h hcurrent (hlines line List.mem_cons_self)
      rw [List.cons_append, hturn]
      exact ih hnext hname fun other hother => hlines other (List.mem_cons_of_mem _ hother)

/-- **What is read in any text**, with its newline at the end or without it. -/
theorem read_parseInventory (text : Text) : (parseInventory text).Read := by
  obtain ⟨lines, rest, heq, hlines, hrest⟩ := exists_fileLines text
  rw [parseInventory, heq]
  have hempty : Inventory.WellFormed [] := by
    refine ⟨List.nodup_nil, fun _ hentry => ?_, fun _ hentry => ?_⟩
    · cases hentry
    · cases hentry
  refine read_parseLines hempty (fun _ hnone => ?_) hlines hrest
  cases hnone

/-! ## What is written of it -/

/-- **Only the last piece may lack its newline.** -/
theorem parse_write_of_pieces {inventory : Inventory} (h : inventory.Separate) {lines : List Text} {rest : Text}
    (hpieces : inventory.pieces = lines ++ restLines rest) (hlines : ∀ line ∈ lines, IsLine line) (hrest : IsRest rest) :
    parseInventory (writeInventory inventory) = inventory := by
  rw [parseInventory, writeInventory_eq, hpieces, fileLines_flatten_rest hlines hrest, ← hpieces]
  exact @parseLines_sections [] inventory h none

theorem length_linesFrom_le {pieces : List Text} (hpieces : ∀ piece ∈ pieces, IsPiece piece) {part : Text}
    (h : part = [] ∨ pieces ≠ []) : (linesFrom part pieces.flatten).length ≤ pieces.length := by
  induction pieces generalizing part with
  | nil =>
      obtain rfl := h.resolve_right fun hne => hne rfl
      exact Nat.le_refl 0
  | cons piece pieces ih =>
      have hmore : ∀ other ∈ pieces, IsPiece other := fun other hother => hpieces other (List.mem_cons_of_mem _ hother)
      rw [List.flatten_cons, List.length_cons]
      rcases hpieces piece List.mem_cons_self with hline | ⟨hrest, hne⟩
      · obtain ⟨body, rfl, hbody⟩ := hline.newline
        rw [List.append_assoc, List.singleton_append, linesFrom_append hbody, List.length_cons]
        exact Nat.succ_le_succ (ih hmore (.inl rfl))
      · rw [linesFrom_rest hrest.newline]
        cases pieces with
        | nil =>
            rw [List.flatten_nil, linesFrom]
            split
            · exact Nat.zero_le _
            · exact Nat.le_refl 1
        | cons next pieces => exact Nat.le_succ_of_le (ih hmore (.inr (List.cons_ne_nil _ _)))

/-- A piece without its newline is read together with the next. -/
theorem length_linesFrom_lt {front back : List Text} {piece : Text} (hpieces : ∀ other ∈ front ++ piece :: back, IsPiece other)
    (hrest : IsRest piece) (hback : back ≠ []) (part : Text) :
    (linesFrom part (front ++ piece :: back).flatten).length < (front ++ piece :: back).length := by
  induction front generalizing part with
  | nil =>
      rw [List.nil_append, List.flatten_cons, linesFrom_rest hrest.newline, List.length_cons]
      exact Nat.lt_succ_of_le (length_linesFrom_le
        (fun other hother => hpieces other (List.mem_cons_of_mem _ hother)) (.inr hback))
  | cons first front ih =>
      have hmore : ∀ other ∈ front ++ piece :: back, IsPiece other := fun other hother =>
        hpieces other (List.mem_cons_of_mem _ hother)
      rw [List.cons_append, List.flatten_cons, List.length_cons]
      rcases hpieces first List.mem_cons_self with hline | ⟨hfirst, -⟩
      · obtain ⟨body, rfl, hbody⟩ := hline.newline
        rw [List.append_assoc, List.singleton_append, linesFrom_append hbody, List.length_cons]
        exact Nat.succ_lt_succ (ih hmore [])
      · rw [linesFrom_rest hfirst.newline]
        exact Nat.lt_succ_of_lt (ih hmore _)

namespace Inventory

def allLines (inventory : Inventory) : List Text := inventory.flatMap (·.2)

theorem length_pieces (inventory : Inventory) :
    inventory.pieces.length = inventory.length + inventory.allLines.length := by
  induction inventory with
  | nil => rfl
  | cons entry rest ih =>
      have hpieces : pieces (entry :: rest) = header entry.1 :: entry.2 ++ pieces rest := rfl
      have hlines : allLines (entry :: rest) = entry.2 ++ allLines rest := rfl
      rw [hpieces, hlines, List.length_append, List.length_append, ih, List.length_cons, List.length_cons]
      omega

theorem filter_pieces (inventory : Inventory) :
    inventory.pieces.filter (fun line => !isHeader line) = inventory.allLines.filter fun line => !isHeader line := by
  induction inventory with
  | nil => rfl
  | cons entry rest ih =>
      have hpieces : pieces (entry :: rest) = header entry.1 :: entry.2 ++ pieces rest := rfl
      have hlines : allLines (entry :: rest) = entry.2 ++ allLines rest := rfl
      have hheader : (!isHeader (header entry.1)) = false := by rw [isHeader_header, Bool.not_true]
      rw [hpieces, hlines, List.filter_append, List.filter_append, ih, List.filter_cons_of_neg (by rw [hheader]; simp)]

theorem counts_set_append (inventory : Inventory) (name line : Text) :
    (inventory.set name ((inventory.lines? name).getD [] ++ [line])).allLines.length = inventory.allLines.length + 1 ∧
      ((inventory.lines? name).isSome →
        (inventory.set name ((inventory.lines? name).getD [] ++ [line])).length = inventory.length) := by
  induction inventory with
  | nil => exact ⟨rfl, fun h => absurd h (by simp [lines?])⟩
  | cons entry rest ih =>
      by_cases hkey : entry.1 = name
      · have hlookup : lines? (entry :: rest) name = some entry.2 := by
          rw [lines?, List.lookup_cons, hkey, beq_self_eq_true]
        have hset : set name (entry.2 ++ [line]) (entry :: rest) = (name, entry.2 ++ [line]) :: rest := if_pos hkey
        rw [hlookup, Option.getD_some, hset]
        refine ⟨?_, fun _ => rfl⟩
        simp only [allLines, List.flatMap_cons, List.length_append, List.length_cons, List.length_nil]
        omega
      · have hlookup : lines? (entry :: rest) name = lines? rest name := by
          rw [lines?, List.lookup_cons, beq_false_of_ne (Ne.symm hkey), lines?]
        have hset : ∀ lines, set name lines (entry :: rest) = entry :: set name lines rest := fun lines => if_neg hkey
        rw [hlookup, hset]
        refine ⟨?_, fun h => ?_⟩
        · have hrest := ih.1
          simp only [allLines, List.flatMap_cons, List.length_append] at hrest ⊢
          omega
        · rw [List.length_cons, List.length_cons, ih.2 h]

theorem counts_set_nil {inventory : Inventory} {name : Text} (h : (inventory.lines? name).isSome = false) :
    (inventory.set name []).allLines = inventory.allLines ∧ (inventory.set name []).length = inventory.length + 1 := by
  have hfresh : name ∉ inventory.map (·.1) := fun hmem => by
    obtain ⟨entry, hentry, rfl⟩ := List.mem_map.mp hmem
    rw [lines?, Option.isSome_eq_false_iff, Option.isNone_iff_eq_none, List.lookup_eq_none_iff] at h
    simpa using h entry hentry
  have hset := set_append_of_fresh hfresh [] []
  rw [List.append_nil] at hset
  rw [hset]
  refine ⟨?_, ?_⟩
  · rw [allLines, List.flatMap_append]
    exact List.append_nil _
  · rw [List.length_append]
    rfl

/-- The lines of all sections, where those of one are replaced. -/
theorem counts_set (inventory : Inventory) (name : Text) (lines : List Text) :
    (inventory.set name lines).allLines.length = (inventory.set name []).allLines.length + lines.length ∧
      (inventory.set name lines).length = (inventory.set name []).length := by
  induction inventory with
  | nil => exact ⟨by simp [set, setKey, allLines], rfl⟩
  | cons entry rest ih =>
      by_cases hkey : entry.1 = name
      · have hset : ∀ others, set name others (entry :: rest) = (name, others) :: rest := fun others => if_pos hkey
        rw [hset, hset]
        refine ⟨?_, rfl⟩
        simp only [allLines, List.flatMap_cons, List.length_append, List.length_nil]
        omega
      · have hset : ∀ others, set name others (entry :: rest) = entry :: set name others rest := fun others => if_neg hkey
        rw [hset, hset, List.length_cons, List.length_cons, ih.2]
        have hrest := ih.1
        refine ⟨?_, rfl⟩
        simp only [allLines, List.flatMap_cons, List.length_append] at hrest ⊢
        omega

end Inventory

/-- Each line that is read is a section more, or a line more, at most. -/
theorem counts_parseLines {inventory : Inventory} {current : Option Text}
    (hcurrent : ∀ name, current = some name → (inventory.lines? name).isSome) (lines : List Text) :
    (parseLines inventory current lines).length + (parseLines inventory current lines).allLines.length ≤
        inventory.length + inventory.allLines.length + lines.length ∧
      (parseLines inventory current lines).allLines.length ≤
        inventory.allLines.length + (lines.filter fun line => !isHeader line).length := by
  induction lines generalizing inventory current with
  | nil => cases current <;> exact ⟨Nat.le_refl _, Nat.le_refl _⟩
  | cons line rest ih =>
      cases hheader : isHeader line with
      | true =>
          rw [parseLines_header current hheader, List.filter_cons_of_neg (by simp [hheader]), List.length_cons]
          split
          · rename_i hsome
            obtain ⟨hboth, hlines⟩ := @ih inventory (some (sectionName line)) fun name hname => by
              rw [← Option.some.inj hname]
              exact hsome
            exact ⟨by omega, hlines⟩
          · rename_i hnone
            obtain ⟨hsame, hlength⟩ := Inventory.counts_set_nil (Bool.eq_false_iff.mpr hnone)
            obtain ⟨hboth, hlines⟩ := @ih (inventory.set (sectionName line) []) (some (sectionName line)) fun name hname => by
              rw [← Option.some.inj hname, Inventory.lines?_set_self]
              rfl
            rw [hsame, hlength] at hboth
            rw [hsame] at hlines
            exact ⟨by omega, hlines⟩
      | false =>
          rw [List.filter_cons_of_pos (by simp [hheader]), List.length_cons, List.length_cons]
          cases current with
          | none =>
              rw [parseLines, hheader, if_neg Bool.false_ne_true]
              obtain ⟨hboth, hlines⟩ := ih hcurrent
              exact ⟨by omega, by omega⟩
          | some name =>
              rw [parseLines, hheader, if_neg Bool.false_ne_true]
              obtain ⟨hone, hlength⟩ := inventory.counts_set_append name line
              obtain ⟨hboth, hlines⟩ := @ih (inventory.set name ((inventory.lines? name).getD [] ++ [line])) (some name)
                fun other hother => by
                  rw [← Option.some.inj hother, Inventory.lines?_set_self]
                  rfl
              rw [hone, hlength (hcurrent name rfl)] at hboth
              rw [hone] at hlines
              exact ⟨by omega, by omega⟩

/-- No more sections and lines are read than were written. -/
theorem counts_parse_write_le {inventory : Inventory} (hpieces : ∀ piece ∈ inventory.pieces, IsPiece piece) :
    (parseInventory (writeInventory inventory)).length + (parseInventory (writeInventory inventory)).allLines.length ≤
      inventory.length + inventory.allLines.length := by
  have hnone : ∀ name, none = some name → (Inventory.lines? [] name).isSome := by
    intro name hnone
    cases hnone
  have hread := (counts_parseLines hnone (fileLines (writeInventory inventory))).1
  have hfile : (fileLines (writeInventory inventory)).length ≤ inventory.pieces.length := by
    rw [fileLines, writeInventory_eq, universalNewlines_eq_self (return_not_mem_flatten hpieces)]
    exact length_linesFrom_le hpieces (.inl rfl)
  rw [Inventory.length_pieces] at hfile
  rw [parseInventory]
  simp only [List.length_nil, Inventory.allLines, List.flatMap_nil] at hread hfile ⊢
  omega

theorem mem_dropLast_iff {α : Type} {x : α} {xs : List α} :
    x ∈ xs.dropLast ↔ ∃ front back, xs = front ++ x :: back ∧ back ≠ [] := by
  constructor
  · intro h
    have hne : xs ≠ [] := fun hnil => by
      rw [hnil] at h
      cases h
    obtain ⟨front, back, heq⟩ := List.append_of_mem h
    refine ⟨front, back ++ [xs.getLast hne], ?_, by simp⟩
    rw [← List.cons_append, ← List.append_assoc, ← heq, List.dropLast_append_getLast hne]
  · rintro ⟨front, back, rfl, hback⟩
    rw [List.dropLast_append_of_ne_nil (List.cons_ne_nil _ _), List.dropLast_cons_of_ne_nil hback]
    exact List.mem_append_right _ List.mem_cons_self

/-- Pieces of which only the last may lack its newline are lines and what follows them. -/
theorem exists_lines_of_pieces {pieces : List Text} (hpieces : ∀ piece ∈ pieces, IsPiece piece)
    (hterminated : ∀ piece ∈ pieces.dropLast, IsLine piece) :
    ∃ lines rest, pieces = lines ++ restLines rest ∧ (∀ line ∈ lines, IsLine line) ∧ IsRest rest := by
  have hempty : IsRest [] := ⟨List.not_mem_nil, List.not_mem_nil⟩
  rcases List.eq_nil_or_concat pieces with rfl | ⟨front, last, hlast⟩
  · exact ⟨[], [], rfl, fun line hline => absurd hline List.not_mem_nil, hempty⟩
  · rw [List.concat_eq_append] at hlast
    rw [hlast, List.dropLast_concat] at hterminated
    rcases hpieces last (hlast ▸ by simp) with hline | ⟨hrest, hne⟩
    · refine ⟨pieces, [], (List.append_nil _).symm, fun piece hpiece => ?_, hempty⟩
      rw [hlast] at hpiece
      rcases List.mem_append.mp hpiece with hpiece | hpiece
      · exact hterminated piece hpiece
      · exact List.mem_singleton.mp hpiece ▸ hline
    · exact ⟨front, last, by rw [restLines, if_neg hne, hlast], hterminated, hrest⟩

/-- **Where as much is read as was written**, all pieces but the last have their newline, and no line is read as the
name of a section. -/
theorem pieces_of_parse_write {inventory : Inventory} (hpieces : ∀ piece ∈ inventory.pieces, IsPiece piece)
    (hlength : (parseInventory (writeInventory inventory)).length = inventory.length)
    (hlines : (parseInventory (writeInventory inventory)).allLines.length = inventory.allLines.length) :
    (∀ front piece back, inventory.pieces = front ++ piece :: back → back ≠ [] → IsLine piece) ∧
      ∀ line ∈ inventory.allLines, isHeader line = false := by
  have hfile : fileLines (writeInventory inventory) = linesFrom [] inventory.pieces.flatten := by
    rw [fileLines, writeInventory_eq, universalNewlines_eq_self (return_not_mem_flatten hpieces)]
  have hnone : ∀ name, none = some name → (Inventory.lines? [] name).isSome := by
    intro name hnone
    cases hnone
  obtain ⟨hboth, hfilter⟩ := counts_parseLines hnone (fileLines (writeInventory inventory))
  have hread : parseLines [] none (fileLines (writeInventory inventory)) = parseInventory (writeInventory inventory) := rfl
  have hempty : Inventory.allLines [] = [] := rfl
  rw [hread, hlength, hlines, hempty, ← Inventory.length_pieces] at hboth
  rw [hread, hlines, hempty] at hfilter
  simp only [List.length_nil, Nat.zero_add] at hboth hfilter
  have hterminated : ∀ front piece back, inventory.pieces = front ++ piece :: back → back ≠ [] → IsLine piece := by
    intro front piece back heq hback
    rcases hpieces piece (heq ▸ List.mem_append_right _ List.mem_cons_self) with hline | ⟨hrest, -⟩
    · exact hline
    · have hlt := length_linesFrom_lt (heq ▸ hpieces) hrest hback []
      rw [← heq, ← hfile] at hlt
      omega
  refine ⟨hterminated, fun line hline => ?_⟩
  obtain ⟨lines, rest, heq, hall, hrest⟩ := exists_lines_of_pieces hpieces fun piece hpiece => by
    obtain ⟨front, back, heq, hback⟩ := mem_dropLast_iff.mp hpiece
    exact hterminated front piece back heq hback
  rw [writeInventory_eq, heq, fileLines_flatten_rest hall hrest, ← heq, Inventory.filter_pieces] at hfilter
  have hsame := List.length_filter_eq_length_iff.mp (Nat.le_antisymm (List.length_filter_le _ _) hfilter)
  simpa using hsame line hline

/-! ## Lines run together -/

namespace Inventory
variable {inventory : Inventory}

/-- Sections that differ, whose lines name no section; any line may lack its newline. -/
structure Sectioned (inventory : Inventory) : Prop where
  separate : inventory.Separate
  lines : ∀ entry ∈ inventory, ∀ line ∈ entry.2, IsPiece line

/-- Each piece that another follows has its newline. -/
def Unmerged (inventory : Inventory) : Prop := ∀ piece ∈ inventory.pieces.dropLast, IsLine piece

theorem Read.sectioned (h : inventory.Read) : inventory.Sectioned := by
  refine ⟨h.separate, fun entry hentry line hline => ?_⟩
  exact h.isPiece hentry hline

theorem Sectioned.isPiece (h : inventory.Sectioned) {piece : Text} (hpiece : piece ∈ inventory.pieces) :
    IsPiece piece := by
  obtain ⟨entry, hentry, hpiece⟩ := List.mem_flatMap.mp hpiece
  rcases List.mem_cons.mp hpiece with rfl | hline
  · exact .inl (isLine_header (h.separate.names entry hentry))
  · exact h.lines entry hentry piece hline

theorem Sectioned.set (h : inventory.Sectioned) {name : Text} {lines : List Text} (hname : IsName name)
    (hlines : ∀ line ∈ lines, IsPiece line ∧ isHeader line = false) : (inventory.set name lines).Sectioned := by
  refine ⟨⟨nodup_keys_setKey h.separate.nodup, fun entry hentry => ?_, fun entry hentry line hline => ?_⟩,
    fun entry hentry line hline => ?_⟩
  · rcases mem_setKey hentry with rfl | hentry
    · exact hname
    · exact h.separate.names entry hentry
  · rcases mem_setKey hentry with rfl | hentry
    · exact (hlines line hline).2
    · exact h.separate.noHeader entry hentry line hline
  · rcases mem_setKey hentry with rfl | hentry
    · exact (hlines line hline).1
    · exact h.lines entry hentry line hline

/-- A line lacks its newline in the last section only, and there it is the last. -/
theorem Sectioned.unmerged_iff (h : inventory.Sectioned) {keys : List Text} {final : Text}
    (hkeys : inventory.map (·.1) = keys ++ [final]) :
    inventory.Unmerged ↔ ∀ name lines, inventory.lines? name = some lines →
      (∀ line ∈ lines.dropLast, IsLine line) ∧ (name ≠ final → ∀ line ∈ lines, IsLine line) := by
  obtain ⟨init, back, rfl, hinit, hback⟩ := List.map_eq_append_iff.mp hkeys
  obtain ⟨last, rfl, rfl⟩ := List.map_eq_singleton_iff.mp hback
  have hpieces : pieces (init ++ [last]) = pieces init ++ header last.1 :: last.2 := by
    rw [pieces, List.flatMap_append, List.flatMap_singleton, ← pieces]
  have hnodup := h.separate.nodup
  rw [Unmerged, hpieces, List.dropLast_append_of_ne_nil (List.cons_ne_nil _ _)]
  constructor
  · intro hunmerged name lines hlines
    have hmem := mem_of_lines? hlines
    rcases List.mem_append.mp hmem with hmem | hmem
    · have hall : ∀ line ∈ lines, IsLine line := fun line hline =>
        hunmerged line (List.mem_append_left _ (List.mem_flatMap.mpr ⟨_, hmem, List.mem_cons_of_mem _ hline⟩))
      exact ⟨fun line hline => hall line ((List.dropLast_subset _) hline), fun _ => hall⟩
    · obtain rfl := List.mem_singleton.mp hmem
      refine ⟨fun line hline => hunmerged line (List.mem_append_right _ ?_), fun hne => absurd rfl hne⟩
      have hne : lines ≠ [] := fun hnil => by
        rw [hnil] at hline
        cases hline
      rw [List.dropLast_cons_of_ne_nil hne]
      exact List.mem_cons_of_mem _ hline
  · intro hall piece hpiece
    rcases List.mem_append.mp hpiece with hpiece | hpiece
    · obtain ⟨entry, hentry, hpiece⟩ := List.mem_flatMap.mp hpiece
      have hmem : entry ∈ init ++ [last] := List.mem_append_left _ hentry
      rcases List.mem_cons.mp hpiece with rfl | hline
      · exact isLine_header (h.separate.names entry hmem)
      · have hne : entry.1 ≠ last.1 := by
          rw [List.map_append] at hnodup
          exact (List.nodup_append.mp hnodup).2.2 _ (List.mem_map_of_mem hentry) _ List.mem_cons_self
        exact (hall entry.1 entry.2 (lines?_of_mem hnodup hmem)).2 hne piece hline
    · have hlast : last ∈ init ++ [last] := List.mem_append_right _ List.mem_cons_self
      cases hlines : last.2 with
      | nil =>
          rw [hlines] at hpiece
          cases hpiece
      | cons line rest =>
          rw [hlines, List.dropLast_cons_of_ne_nil (List.cons_ne_nil _ _)] at hpiece
          rcases List.mem_cons.mp hpiece with rfl | hpiece
          · exact isLine_header (h.separate.names last hlast)
          · exact (hall last.1 last.2 (lines?_of_mem hnodup hlast)).1 piece (hlines ▸ hpiece)

end Inventory

/-- **What is written is read back, exactly when no line is run together with the next.** -/
theorem parse_write_iff {inventory : Inventory} (h : inventory.Sectioned) :
    parseInventory (writeInventory inventory) = inventory ↔ inventory.Unmerged := by
  have hpieces : ∀ piece ∈ inventory.pieces, IsPiece piece := fun piece => h.isPiece
  constructor
  · intro heq piece hpiece
    obtain ⟨front, back, hsplit, hback⟩ := mem_dropLast_iff.mp hpiece
    exact (pieces_of_parse_write hpieces (by rw [heq]) (by rw [heq])).1 front piece back hsplit hback
  · intro hunmerged
    obtain ⟨lines, rest, heq, hlines, hrest⟩ := exists_lines_of_pieces hpieces hunmerged
    exact parse_write_of_pieces h.separate heq hlines hrest

end OciHpc.Resize
