import OciHpc.Resize.MentionedNodes

/-!
# One line for each node

What the inventory that `add_reconfigure` installs has of the nodes.

* `Start.Unmerged` : where the last line of the inventory has no newline, no other is written after it;
* `Start.Clear` : the lines can be told apart, and are not run together;
* `Start.unmerged_planned`, `unmerged_finished` : so what is written is read back each time;
* `coversOnce_iff` : every node ends up with one line, exactly when the loop finds the nodes that have one and no
  others.
-/

namespace OciHpc.Resize

namespace Start

/-- A line without its newline comes last, and no line is written after it: no node that is not mentioned goes to its
section, `nfs` is not filled with it, and it is a host line, which is given a newline, where `compute_to_add` is moved
in front of or behind it. -/
structure Unmerged (start : Start) : Prop where
  sections : start.inventory.Unmerged
  configured : ∀ line ∈ start.configured, ¬ IsLine line →
    (∀ node ∈ start.nodes, ¬ start.GoesToAdd node → start.MentionedBefore node) ∧
      (hostName line = none → start.toAdd = [] ∧ ∀ node ∈ start.nodes, start.MentionedBefore node)
  toAdd : ∀ line ∈ start.toAdd, ¬ IsLine line →
    (∀ node ∈ start.nodes, start.GoesToAdd node → start.MentionedBefore node) ∧ hostName line ≠ none
  nfs : start.nfs = [] → (∀ line, start.toAdd.head? = some line → IsLine line) ∧
    (start.toAdd = [] → (∀ node ∈ start.nodes, start.MentionedBefore node) →
      ∀ line, start.configured.head? = some line → IsLine line)

/-- The user brings no other address into the line of a node, no host is named like a setting of the local Block
Volume, and no line is run together with the next. -/
structure Clear (start : Start) : Prop where
  address : ∀ node ∈ start.nodes, hostName (start.line node) = some node.displayName.toList →
    hostAddress (start.line node) = some node.ip.toList
  names : ∀ line ∈ start.configured ++ start.toAdd ++ start.nodes.map start.line, ∀ host,
    hostName line = some host → aboutBlockVolume host = false
  unmerged : start.Unmerged

structure IsRead (start : Start) : Prop where
  read : start.inventory.Read
  username : computeUsername start.inventory = some start.username
  configured : start.inventory.lines? "compute_configured".toList = some start.configured
  toAdd : start.inventory.lines? "compute_to_add".toList = some start.toAdd
  nfs : start.inventory.lines? "nfs".toList = some start.nfs

/-! ## The inventory before it is prepared -/

variable {start : Start}

def additions (start : Start) : Additions :=
  start.nodes.foldl (addNode start.username start.specificHosts) ⟨start.configured, start.toAdd, []⟩

/-- The inventory that is written before the preparation. -/
def planned (start : Start) : Inventory :=
  ((start.inventory.set "compute_configured".toList start.additions.configured).set "compute_to_add".toList
    start.additions.toAdd).set "nfs".toList (fillNfs start.additions start.nfs)

def linesOf (start : Start) (nodes : List Node) : List Text := nodes.map start.line

theorem additions_configured (start : Start) : start.additions.configured = start.configured ++
    start.linesOf ((start.added start.nodes).filter fun node =>
      !start.specificHosts.all fun hosts => node.displayName.toList ∈ hosts) :=
  (foldl_addNode_eq start.nodes _).1

theorem additions_toAdd (start : Start) : start.additions.toAdd = start.toAdd ++
    start.linesOf ((start.added start.nodes).filter fun node =>
      start.specificHosts.all fun hosts => node.displayName.toList ∈ hosts) :=
  (foldl_addNode_eq start.nodes _).2

/-- Where all nodes that could go there are mentioned, nothing is added to `compute_configured`. -/
theorem configured_foldl_of_mentioned {nodes : List Node}
    (h : ∀ node ∈ nodes, ¬ start.GoesToAdd node → start.MentionedBefore node) :
    (nodes.foldl (addNode start.username start.specificHosts) ⟨start.configured, start.toAdd, []⟩).configured =
      start.configured := by
  have hnone : ((start.added nodes).filter fun node =>
      !start.specificHosts.all fun hosts => node.displayName.toList ∈ hosts) = [] := by
    refine List.filter_eq_nil_iff.mpr fun node hnode hgoes => ?_
    refine not_mentionedBefore_of_added hnode (h node ((addedNodes_sublist _ _).subset hnode) fun hto => ?_)
    rw [goesToAdd_iff.mpr hto] at hgoes
    cases hgoes
  rw [(foldl_addNode_eq nodes _).1]
  exact (congrArg (fun added : List Node => start.configured ++ start.linesOf added) hnone).trans (List.append_nil _)

theorem additions_toAdd_of_mentioned (h : ∀ node ∈ start.nodes, start.GoesToAdd node → start.MentionedBefore node) :
    start.additions.toAdd = start.toAdd := by
  have hnone : ((start.added start.nodes).filter fun node =>
      start.specificHosts.all fun hosts => node.displayName.toList ∈ hosts) = [] :=
    List.filter_eq_nil_iff.mpr fun node hnode hgoes =>
      not_mentionedBefore_of_added hnode (h node ((addedNodes_sublist _ _).subset hnode) (goesToAdd_iff.mp hgoes))
  rw [additions_toAdd, hnone, linesOf, List.map_nil, List.append_nil]

/-- Where all nodes that go to `compute_configured` are mentioned, one that is not gets its line in `compute_to_add`. -/
theorem additions_toAdd_ne_nil (hnodup : start.nodes.Nodup)
    (h : ∀ node ∈ start.nodes, ¬ start.GoesToAdd node → start.MentionedBefore node) {node : Node}
    (hnode : node ∈ start.nodes) (hnot : ¬ start.MentionedBefore node) : start.additions.toAdd ≠ [] := by
  obtain ⟨front, back, hsplit⟩ := List.append_of_mem hnode
  have hfront : ∀ other ∈ front, ¬ start.GoesToAdd other → start.MentionedBefore other := fun other hother =>
    h other (hsplit ▸ List.mem_append_left _ hother)
  have hadded : node ∈ start.added start.nodes := by
    rw [hsplit] at hnodup
    rw [added, hsplit, mem_addedNodes_iff hnodup, configured_foldl_of_mentioned hfront]
    exact Bool.eq_false_iff.mpr fun hconfigured => hnot (isConfigured_iff.mp hconfigured)
  have hgoes : start.GoesToAdd node := Classical.not_not.mp fun hgoes => hnot (h node hnode hgoes)
  rw [additions_toAdd]
  exact List.append_ne_nil_of_right_ne_nil _ (List.ne_nil_of_mem (List.mem_map_of_mem
    (List.mem_filter.mpr ⟨hadded, goesToAdd_iff.mpr hgoes⟩)))

/-! ## It is read back -/

theorem IsRead.exists_keys (h : start.IsRead) : ∃ keys final, start.inventory.map (·.1) = keys ++ [final] := by
  have hmem : "nfs".toList ∈ start.inventory.map (·.1) := lines?_isSome_iff.mp (by rw [h.nfs]; rfl)
  obtain ⟨keys, final, heq⟩ := (List.eq_nil_or_concat (start.inventory.map (·.1))).resolve_left (List.ne_nil_of_mem hmem)
  exact ⟨keys, final, heq.trans (List.concat_eq_append ..)⟩

theorem keys_planned (h : start.IsRead) : start.planned.map (·.1) = start.inventory.map (·.1) := by
  have htoAdd : (start.inventory.set "compute_configured".toList start.additions.configured).lines?
      "compute_to_add".toList = some start.toAdd := (Inventory.lines?_set_of_ne (by decide)).trans h.toAdd
  have hnfs : ((start.inventory.set "compute_configured".toList start.additions.configured).set "compute_to_add".toList
      start.additions.toAdd).lines? "nfs".toList = some start.nfs :=
    (Inventory.lines?_set_of_ne (by decide)).trans ((Inventory.lines?_set_of_ne (by decide)).trans h.nfs)
  rw [planned, keys_set hnfs, keys_set htoAdd, keys_set h.configured]

theorem lines?_planned_configured : start.planned.lines? "compute_configured".toList = some start.additions.configured := by
  rw [planned, Inventory.lines?_set_of_ne (by decide), Inventory.lines?_set_of_ne (by decide), Inventory.lines?_set_self]

theorem lines?_planned_toAdd : start.planned.lines? "compute_to_add".toList = some start.additions.toAdd := by
  rw [planned, Inventory.lines?_set_of_ne (by decide), Inventory.lines?_set_self]

theorem lines?_planned_nfs : start.planned.lines? "nfs".toList = some (fillNfs start.additions start.nfs) := by
  rw [planned, Inventory.lines?_set_self]

theorem lines?_planned_of_ne {name : Text} (hconfigured : name ≠ "compute_configured".toList)
    (htoAdd : name ≠ "compute_to_add".toList) (hnfs : name ≠ "nfs".toList) :
    start.planned.lines? name = start.inventory.lines? name := by
  rw [planned, Inventory.lines?_set_of_ne hnfs, Inventory.lines?_set_of_ne htoAdd, Inventory.lines?_set_of_ne hconfigured]

theorem isName_editedSections : ∀ name ∈ ["compute_configured".toList, "compute_to_add".toList, "nfs".toList], IsName name := by
  have hall : ∀ name ∈ ["compute_configured".toList, "compute_to_add".toList, "nfs".toList],
      '[' ∉ name ∧ ']' ∉ name ∧ '\n' ∉ name ∧ '\r' ∉ name := by decide
  intro name hname
  obtain ⟨hopen, hclose, hnewline, hreturn⟩ := hall name hname
  exact ⟨hopen, hclose, hnewline, hreturn⟩

/-- A section that lines are added to, where all it has have their newline if any is added. -/
theorem isLine_append {lines more : List Text} (hmore : ∀ line ∈ more, IsLine line)
    (hlines : more ≠ [] → ∀ line ∈ lines, IsLine line) :
    ((∀ line ∈ lines.dropLast, IsLine line) → ∀ line ∈ (lines ++ more).dropLast, IsLine line) ∧
      ((∀ line ∈ lines, IsLine line) → ∀ line ∈ lines ++ more, IsLine line) := by
  refine ⟨fun hold line hline => ?_, fun hold line hline => (List.mem_append.mp hline).elim (hold line) (hmore line)⟩
  by_cases hnil : more = []
  · rw [hnil, List.append_nil] at hline
    exact hold line hline
  · exact (List.mem_append.mp (List.dropLast_subset _ hline)).elim (hlines hnil line) (hmore line)

section
variable (h : start.IsRead) (hmade : ∀ node ∈ start.nodes, IsLine (start.line node) ∧ isHeader (start.line node) = false)
include hmade

theorem isLine_linesOf {nodes : List Node} (hsub : ∀ node ∈ nodes, node ∈ start.nodes) :
    ∀ line ∈ start.linesOf nodes, IsLine line := by
  intro line hline
  obtain ⟨node, hnode, rfl⟩ := List.mem_map.mp hline
  exact (hmade node (hsub node hnode)).1

theorem isLine_fillNfs (hnodup : start.nodes.Nodup) (hunmerged : start.Unmerged) (hnfs : start.nfs = []) :
    ∀ line ∈ fillNfs start.additions start.nfs, IsLine line := by
  intro line hline
  obtain ⟨htoAdd, hconfigured⟩ := hunmerged.nfs hnfs
  rw [hnfs, fillNfs, List.isEmpty_nil, if_pos rfl, Option.mem_toList, Option.or_eq_some_iff] at hline
  have hsub : ∀ p : Node → Bool, ∀ node ∈ (start.added start.nodes).filter p, node ∈ start.nodes := fun p node hnode =>
    (addedNodes_sublist _ _).subset (List.mem_of_mem_filter hnode)
  rcases hline with hfirst | ⟨hnone, hfirst⟩
  · cases hold : start.toAdd with
    | nil =>
        rw [additions_toAdd, hold, List.nil_append] at hfirst
        exact isLine_linesOf hmade (hsub _) line (List.mem_of_head? hfirst)
    | cons first rest =>
        rw [additions_toAdd, hold, List.cons_append, List.head?_cons] at hfirst
        exact htoAdd line (by rw [hold, List.head?_cons, hfirst])
  · have hempty := List.head?_eq_none_iff.mp hnone
    have hold : start.toAdd = [] := by
      rw [additions_toAdd] at hempty
      exact (List.append_eq_nil_iff.mp hempty).1
    cases hconf : start.configured with
    | nil =>
        rw [additions_configured, hconf, List.nil_append] at hfirst
        exact isLine_linesOf hmade (hsub _) line (List.mem_of_head? hfirst)
    | cons first rest =>
        rw [additions_configured, hconf, List.cons_append, List.head?_cons] at hfirst
        have hmem : line ∈ start.configured := hconf ▸ Option.some.inj hfirst ▸ List.mem_cons_self
        by_contra hnot
        have hgoes := (hunmerged.configured line hmem hnot).1
        refine hnot (hconfigured hold (fun node hnode => ?_) line (by rw [hconf, List.head?_cons, hfirst]))
        by_contra hmentioned
        exact additions_toAdd_ne_nil hnodup hgoes hnode hmentioned hempty

include h

theorem sectioned_planned : start.planned.Sectioned := by
  have hsectioned := h.read.sectioned
  have hold : ∀ {name lines}, start.inventory.lines? name = some lines → ∀ line ∈ lines,
      IsPiece line ∧ isHeader line = false := fun hlines line hline =>
    ⟨hsectioned.lines _ (Inventory.mem_of_lines? hlines) line hline,
      hsectioned.separate.noHeader _ (Inventory.mem_of_lines? hlines) line hline⟩
  have hlines : ∀ line, line ∈ start.additions.configured ∨ line ∈ start.additions.toAdd →
      IsPiece line ∧ isHeader line = false := by
    intro line hline
    rcases mem_foldl_addNode start.nodes _ hline with hline | hline | ⟨node, hnode, rfl⟩
    · exact hold h.configured line hline
    · exact hold h.toAdd line hline
    · exact ⟨.inl (hmade node hnode).1, (hmade node hnode).2⟩
  refine ((hsectioned.set (isName_editedSections _ (by simp)) fun line hline => hlines line (.inl hline)).set
    (isName_editedSections _ (by simp)) fun line hline => hlines line (.inr hline)).set
      (isName_editedSections _ (by simp)) fun line hline => ?_
  rcases mem_fillNfs hline with hline | hline
  · exact hold h.nfs line hline
  · exact hlines line hline

/-- **The inventory written before the preparation is read back.** -/
theorem unmerged_planned (hnodup : start.nodes.Nodup) (hunmerged : start.Unmerged) : start.planned.Unmerged := by
  have hsub : ∀ p : Node → Bool, ∀ node ∈ (start.added start.nodes).filter p, node ∈ start.nodes := fun p node hnode =>
    (addedNodes_sublist _ _).subset (List.mem_of_mem_filter hnode)
  obtain ⟨keys, final, hkeys⟩ := h.exists_keys
  have hall := (h.read.sectioned.unmerged_iff hkeys).mp hunmerged.sections
  refine ((sectioned_planned h hmade).unmerged_iff ((keys_planned h).trans hkeys)).mpr fun name lines hlines => ?_
  by_cases hconfigured : name = "compute_configured".toList
  · subst hconfigured
    obtain rfl := Option.some.inj (lines?_planned_configured.symm.trans hlines)
    obtain ⟨hinit, hwhole⟩ := hall _ _ h.configured
    have hkept : start.linesOf ((start.added start.nodes).filter fun node =>
        !start.specificHosts.all fun hosts => node.displayName.toList ∈ hosts) ≠ [] →
          ∀ line ∈ start.configured, IsLine line := by
      intro hsome line hline
      by_contra hnot
      have hsame : start.additions.configured = start.configured :=
        configured_foldl_of_mentioned (hunmerged.configured line hline hnot).1
      rw [additions_configured, List.append_right_eq_self] at hsame
      exact hsome hsame
    obtain ⟨hboth, hboth'⟩ := isLine_append (isLine_linesOf hmade (hsub _)) hkept
    rw [additions_configured]
    exact ⟨hboth hinit, fun hne => hboth' (hwhole hne)⟩
  by_cases htoAdd : name = "compute_to_add".toList
  · subst htoAdd
    obtain rfl := Option.some.inj (lines?_planned_toAdd.symm.trans hlines)
    obtain ⟨hinit, hwhole⟩ := hall _ _ h.toAdd
    have hkept : start.linesOf ((start.added start.nodes).filter fun node =>
        start.specificHosts.all fun hosts => node.displayName.toList ∈ hosts) ≠ [] →
          ∀ line ∈ start.toAdd, IsLine line := by
      intro hsome line hline
      by_contra hnot
      have hsame := additions_toAdd_of_mentioned (hunmerged.toAdd line hline hnot).1
      rw [additions_toAdd, List.append_right_eq_self] at hsame
      exact hsome hsame
    obtain ⟨hboth, hboth'⟩ := isLine_append (isLine_linesOf hmade (hsub _)) hkept
    rw [additions_toAdd]
    exact ⟨hboth hinit, fun hne => hboth' (hwhole hne)⟩
  by_cases hnfs : name = "nfs".toList
  · subst hnfs
    obtain rfl := Option.some.inj (lines?_planned_nfs.symm.trans hlines)
    by_cases hempty : start.nfs = []
    · have hfilled := isLine_fillNfs hmade hnodup hunmerged hempty
      exact ⟨fun line hline => hfilled line (List.dropLast_subset _ hline), fun _ => hfilled⟩
    · rw [fillNfs, if_neg (by simpa using hempty)]
      exact hall _ _ h.nfs
  · rw [lines?_planned_of_ne hconfigured htoAdd hnfs] at hlines
    exact hall name lines hlines

end

/-! ## Prepared -/

/-- The lines of a section before and after, told by its name. -/
theorem lines?_of_turned {cloud : Cloud} {all before after : Inventory} (h : TurnedInto cloud all before after)
    {name : Text} {lines : List Text} (hlines : before.lines? name = some lines) :
    ∃ others, after.lines? name = some others ∧ List.Forall₂ (Turned cloud all name) lines others := by
  induction h with
  | nil => cases hlines
  | @cons entry other rest others hfirst _ ih =>
      rw [Inventory.lines?, List.lookup_cons] at hlines ⊢
      rw [← hfirst.1]
      by_cases hname : name = entry.1
      · rw [hname, beq_self_eq_true] at hlines ⊢
        exact ⟨other.2, rfl, Option.some.inj hlines ▸ hfirst.2⟩
      · rw [beq_false_of_ne hname] at hlines ⊢
        exact ih hlines

theorem mem_additions {line : Text} (h : line ∈ start.additions.configured ∨ line ∈ start.additions.toAdd) :
    line ∈ start.configured ++ start.toAdd ++ start.nodes.map start.line := by
  rw [List.mem_append, List.mem_append]
  rcases mem_foldl_addNode start.nodes _ h with hline | hline | ⟨node, hnode, rfl⟩
  · exact .inl (.inl hline)
  · exact .inl (.inr hline)
  · exact .inr (List.mem_map.mpr ⟨node, hnode, rfl⟩)

theorem computeLines_planned (start : Start) :
    computeLines start.planned = start.additions.configured ++ start.additions.toAdd := by
  rw [computeLines, lines?_planned_configured, lines?_planned_toAdd, Option.getD_some, Option.getD_some]

/-- **The inventory can be prepared.** -/
theorem canBePrepared_planned (hread : start.planned.Read) (hunmerged : start.planned.Unmerged) (hclear : start.Clear) :
    CanBePrepared start.planned := by
  have hnames : ∀ line ∈ computeLines start.planned, ∀ host, hostName line = some host → aboutBlockVolume host = false := by
    intro line hline
    rw [computeLines_planned, List.mem_append] at hline
    exact hclear.names line (mem_additions hline)
  refine ⟨fun front entry back hsplit hback line hline => .inl ?_, fun entry hentry line hline hrewritten => ?_⟩
  · obtain ⟨next, more, rfl⟩ := List.exists_cons_of_ne_nil hback
    refine IsLine.getLast? (hunmerged line (mem_dropLast_iff.mpr ?_))
    obtain ⟨init, tail, hlines⟩ := List.append_of_mem hline
    refine ⟨Inventory.pieces front ++ header entry.1 :: init, tail ++ Inventory.pieces (next :: more), ?_, ?_⟩
    · rw [hsplit]
      simp only [Inventory.pieces, List.flatMap_append, List.flatMap_cons, hlines, List.cons_append, List.append_assoc]
    · exact List.append_ne_nil_of_right_ne_nil _ (List.cons_ne_nil _ _)
  · obtain ⟨host, hhost, hmem⟩ : ∃ host, hostName line = some host ∧ ∃ other ∈ computeLines start.planned,
        hostName other = some host := by
      rcases hrewritten with ⟨hname, hsome⟩ | ⟨-, host, hhost, other, hother, hsame⟩
      · obtain ⟨host, hhost⟩ := Option.ne_none_iff_exists'.mp hsome
        refine ⟨host, hhost, line, ?_, hhost⟩
        have hlines := Inventory.lines?_of_mem hread.separate.nodup hentry
        rw [computeLines, List.mem_append]
        simp only [computeSections, List.mem_cons, List.not_mem_nil, or_false] at hname
        rcases hname with hname | hname
        · rw [hname] at hlines
          exact .inl (by rw [hlines, Option.getD_some]; exact hline)
        · rw [hname] at hlines
          exact .inr (by rw [hlines, Option.getD_some]; exact hline)
      · exact ⟨host, hhost, other, hother, hsame⟩
    obtain ⟨other, hother, hsame⟩ := hmem
    refine Bool.eq_false_iff.mpr fun hheader => ?_
    have hwas := isHeader_of_given isGiven_false hhost (hnames other hother host hsame) hheader
    rw [hread.separate.noHeader entry hentry line hline] at hwas
    cases hwas

/-- The lines of a node are those it has after the loop. -/
theorem countP_prepared {cloud : Cloud} {configured toAdd : List Text} (hclear : start.Clear)
    (hconfigured : List.Forall₂ (Turned cloud start.planned "compute_configured".toList) start.additions.configured configured)
    (htoAdd : List.Forall₂ (Turned cloud start.planned "compute_to_add".toList) start.additions.toAdd toAdd) (node : Node) :
    (configured ++ toAdd).countP (describes node) = start.covered node := by
  have hsame : ∀ {name : Text} {lines others : List Text}, List.Forall₂ (Turned cloud start.planned name) lines others →
      (∀ line ∈ lines, line ∈ start.configured ++ start.toAdd ++ start.nodes.map start.line) →
        others.countP (describes node) = lines.countP (describes node) := by
    intro name lines others hturned
    induction hturned with
    | nil => exact fun _ => rfl
    | @cons line other rest others hfirst _ ih =>
        intro hlines
        rw [List.countP_cons, List.countP_cons, ih fun line hline => hlines line (List.mem_cons_of_mem _ hline),
          describes_of_turned hfirst (hclear.names line (hlines line List.mem_cons_self))]
  rw [List.countP_append, hsame hconfigured fun line hline => mem_additions (.inl hline),
    hsame htoAdd fun line hline => mem_additions (.inr hline), ← List.countP_append]
  exact countP_foldl_addNode (describes node) start.nodes ⟨start.configured, start.toAdd, []⟩

/-! ## Finished -/

/-- `compute_configured` with the lines of `compute_to_add` behind its own, and `compute_to_add` empty. -/
def moveToConfigured (configured toAdd : List Text) (inventory : Inventory) : Inventory :=
  (inventory.set "compute_configured".toList (configured ++ toAdd)).set "compute_to_add".toList []

section
variable {cloud : Cloud} {after : Inventory} {configured toAdd : List Text}

/-- The lines of `compute_to_add` have their newline once they are prepared. -/
theorem isLine_prepared_toAdd (hmade : ∀ node ∈ start.nodes, IsLine (start.line node) ∧ isHeader (start.line node) = false)
    (hread : start.planned.Read) (hunmerged : start.Unmerged)
    (htoAdd : List.Forall₂ (Turned cloud start.planned "compute_to_add".toList) start.additions.toAdd toAdd) :
    ∀ line ∈ toAdd, IsLine line := by
  refine isLine_of_turned htoAdd (fun line hline => ?_) fun line hline => ?_
  · exact hread.isPiece (Inventory.mem_of_lines? lines?_planned_toAdd) hline
  · rw [additions_toAdd] at hline
    rcases List.mem_append.mp hline with hline | hline
    · by_cases hnewline : IsLine line
      · exact .inl hnewline.getLast?
      · exact .inr (.inl ⟨by decide, (hunmerged.toAdd line hline hnewline).2⟩)
    · exact .inl (isLine_linesOf hmade (fun node hnode => (addedNodes_sublist _ _).subset (List.mem_of_mem_filter hnode))
        line hline).getLast?

/-- So have those of `compute_configured`, where lines of `compute_to_add` follow. -/
theorem isLine_prepared_configured (hmade : ∀ node ∈ start.nodes, IsLine (start.line node) ∧ isHeader (start.line node) = false)
    (hread : start.planned.Read) (hunmerged : start.Unmerged)
    (hconfigured : List.Forall₂ (Turned cloud start.planned "compute_configured".toList) start.additions.configured configured)
    (hsome : start.additions.toAdd ≠ []) : ∀ line ∈ configured, IsLine line := by
  refine isLine_of_turned hconfigured (fun line hline => ?_) fun line hline => ?_
  · exact hread.isPiece (Inventory.mem_of_lines? lines?_planned_configured) hline
  · rw [additions_configured] at hline
    rcases List.mem_append.mp hline with hline | hline
    · by_cases hnewline : IsLine line
      · exact .inl hnewline.getLast?
      · refine .inr (.inl ⟨by decide, fun hnone => hsome ?_⟩)
        obtain ⟨hempty, hmentioned⟩ := (hunmerged.configured line hline hnewline).2 hnone
        rw [additions_toAdd_of_mentioned fun node hnode _ => hmentioned node hnode, hempty]
    · exact .inl (isLine_linesOf hmade (fun node hnode => (addedNodes_sublist _ _).subset (List.mem_of_mem_filter hnode))
        line hline).getLast?

/-- **The inventory that is installed is read back.** -/
theorem unmerged_finished (h : start.IsRead)
    (hmade : ∀ node ∈ start.nodes, IsLine (start.line node) ∧ isHeader (start.line node) = false)
    (hread : start.planned.Read) (hunmerged : start.Unmerged) (hafter : after.Read) (hafterUnmerged : after.Unmerged)
    (hkeys : after.map (·.1) = start.planned.map (·.1))
    (hconfiguredLines : after.lines? "compute_configured".toList = some configured)
    (htoAddLines : after.lines? "compute_to_add".toList = some toAdd)
    (hconfigured : List.Forall₂ (Turned cloud start.planned "compute_configured".toList) start.additions.configured configured)
    (htoAdd : List.Forall₂ (Turned cloud start.planned "compute_to_add".toList) start.additions.toAdd toAdd) :
    parseInventory (writeInventory (moveToConfigured configured toAdd after)) = moveToConfigured configured toAdd after := by
  have hold : ∀ {name lines}, after.lines? name = some lines → ∀ line ∈ lines, IsPiece line ∧ isHeader line = false :=
    fun hlines line hline => ⟨hafter.isPiece (Inventory.mem_of_lines? hlines) hline,
      hafter.separate.noHeader _ (Inventory.mem_of_lines? hlines) line hline⟩
  have hsectioned : (moveToConfigured configured toAdd after).Sectioned :=
    (hafter.sectioned.set (isName_editedSections _ (by simp)) fun line hline =>
      (List.mem_append.mp hline).elim (hold hconfiguredLines line) (hold htoAddLines line)).set
        (isName_editedSections _ (by simp)) fun line hline => absurd hline List.not_mem_nil
  have hsame : (moveToConfigured configured toAdd after).map (·.1) = after.map (·.1) := by
    have hsecond : (after.set "compute_configured".toList (configured ++ toAdd)).lines? "compute_to_add".toList = some toAdd :=
      (Inventory.lines?_set_of_ne (by decide)).trans htoAddLines
    rw [moveToConfigured, keys_set hsecond, keys_set hconfiguredLines]
  obtain ⟨keys, final, hlast⟩ := h.exists_keys
  have hafterKeys : after.map (·.1) = keys ++ [final] := hkeys.trans ((keys_planned h).trans hlast)
  have hall := (hafter.sectioned.unmerged_iff hafterKeys).mp hafterUnmerged
  refine (parse_write_iff hsectioned).mpr ((hsectioned.unmerged_iff (hsame.trans hafterKeys)).mpr fun name lines hlines => ?_)
  by_cases hnameToAdd : name = "compute_to_add".toList
  · subst hnameToAdd
    rw [moveToConfigured, Inventory.lines?_set_self] at hlines
    obtain rfl := Option.some.inj hlines
    exact ⟨fun line hline => absurd hline List.not_mem_nil, fun _ line hline => absurd hline List.not_mem_nil⟩
  · rw [moveToConfigured, Inventory.lines?_set_of_ne hnameToAdd] at hlines
    by_cases hnameConfigured : name = "compute_configured".toList
    · subst hnameConfigured
      rw [Inventory.lines?_set_self] at hlines
      obtain rfl := Option.some.inj hlines
      obtain ⟨hinit, hwhole⟩ := hall _ _ hconfiguredLines
      have hkept : toAdd ≠ [] → ∀ line ∈ configured, IsLine line := fun hsome =>
        isLine_prepared_configured hmade hread hunmerged hconfigured fun hnil => hsome (by
          rw [hnil] at htoAdd
          exact List.forall₂_nil_left_iff.mp htoAdd)
      obtain ⟨hboth, hboth'⟩ := isLine_append (isLine_prepared_toAdd hmade hread hunmerged htoAdd) hkept
      exact ⟨hboth hinit, fun hne => hboth' (hwhole hne)⟩
    · rw [Inventory.lines?_set_of_ne hnameConfigured] at hlines
      exact hall name lines hlines

end

/-- Where all lines have their newline none is run together with the next. -/
theorem unmerged_of_wellFormed (h : start.IsRead) (hwell : start.inventory.WellFormed) : start.Unmerged := by
  have hline : ∀ {name lines}, start.inventory.lines? name = some lines → ∀ line ∈ lines, IsLine line :=
    fun hlines line hline => (hwell.lines _ (Inventory.mem_of_lines? hlines) line hline).1
  refine ⟨(parse_write_iff hwell.read.sectioned).mp (parse_write hwell), fun line hmem hnot => ?_,
    fun line hmem hnot => ?_, fun _ => ⟨fun line hfirst => ?_, fun _ _ line hfirst => ?_⟩⟩
  · exact absurd (hline h.configured line hmem) hnot
  · exact absurd (hline h.toAdd line hmem) hnot
  · exact hline h.toAdd line (List.mem_of_head? hfirst)
  · exact hline h.configured line (List.mem_of_head? hfirst)

end Start

/-! ## The user name -/

theorem infix_of_mem_splitFrom {sep s piece part : Text} {skip : Nat} (hskip : skip = 0 ∨ piece = [])
    (h : part ∈ PyStr.splitFrom sep skip piece s) : part <:+: piece.reverse ++ s := by
  induction s generalizing skip piece with
  | nil =>
      have hpart : part = piece.reverse := by
        cases skip <;> exact List.mem_singleton.mp h
      have hwhole : piece.reverse ++ [] = part := by rw [hpart, List.append_nil]
      exact hwhole ▸ List.infix_rfl
  | cons c rest ih =>
      have hlater : ∀ {part : Text}, part <:+: rest → part <:+: piece.reverse ++ c :: rest := fun hinfix =>
        hinfix.trans ((List.suffix_cons c rest).trans (List.suffix_append _ _)).isInfix
      cases skip with
      | succ skip =>
          obtain rfl : piece = [] := hskip.resolve_left (Nat.succ_ne_zero _)
          rw [PyStr.splitFrom] at h
          exact hlater (ih (.inr rfl) h)
      | zero =>
          rw [PyStr.splitFrom] at h
          split at h
          · rcases List.mem_cons.mp h with rfl | h
            · exact (List.prefix_append _ _).isInfix
            · exact hlater (ih (.inr rfl) h)
          · have hnext := ih (.inl rfl) h
            rwa [List.reverse_cons, List.append_assoc, List.singleton_append] at hnext

/-- Stripped, what is read in a line has no line break. -/
theorem oneLine_strip {line part : Text} (hline : IsPiece line) (hpart : part <:+: line) :
    ∀ c ∈ strip part, c ≠ '\n' ∧ c ≠ '\r' := by
  intro c hc
  have hwithin := (strip_isInfix part).trans hpart
  refine ⟨?_, ?_⟩
  · rintro rfl
    rcases hline with hline | ⟨hrest, -⟩
    · obtain ⟨front, back, hsplit⟩ := List.append_of_mem hc
      obtain ⟨lead, tail, hwhole⟩ := hwithin
      have hlast : back = [] := by
        by_contra hne
        have heq : line = (lead ++ front ++ ['\n']) ++ (back ++ tail) := by
          rw [← hwhole, hsplit]
          simp
        exact hline.newline_not_mem heq (List.append_ne_nil_of_left_ne_nil hne _) (by simp)
      have hspace : PyStr.isSpace '\n' = false := by
        refine @getLast?_strip part _ ?_
        rw [hsplit, hlast, List.getLast?_concat]
      exact absurd (isSpace_newline.symm.trans hspace) (by decide)
    · exact hrest.newline (hwithin.subset hc)
  · rintro rfl
    rcases hline with hline | ⟨hrest, -⟩
    · exact hline.noReturn (hwithin.subset hc)
    · exact hrest.noReturn (hwithin.subset hc)

theorem oneLine_username {inventory : Inventory} (hread : inventory.Read) {username : Text}
    (h : computeUsername inventory = some username) : ∀ c ∈ username, c ≠ '\n' ∧ c ≠ '\r' := by
  obtain ⟨vars, hvars, h⟩ := Option.bind_eq_some_iff.mp h
  split at h
  · obtain rfl := Option.some.inj h
    exact oneLine_of_all (by decide)
  · rename_i line hline
    obtain ⟨part, hpart, rfl⟩ := Option.map_eq_some_iff.mp h
    refine oneLine_strip (hread.isPiece (Inventory.mem_of_lines? hvars) (List.mem_of_find?_eq_some hline)) ?_
    exact infix_of_mem_splitFrom (.inl rfl) (List.mem_of_getElem? hpart)

namespace Addition
variable {addition : Addition}

structure Starts (addition : Addition) (start : Start) : Prop where
  nodes : addition.instances = some start.nodes
  specificHosts : start.specificHosts = addition.specificHosts
  inventory : (backupInventory addition.inventory addition.doNotEdit).map parseInventory = some start.inventory
  username : computeUsername start.inventory = some start.username
  configured : start.inventory.lines? "compute_configured".toList = some start.configured
  toAdd : start.inventory.lines? "compute_to_add".toList = some start.toAdd
  nfs : start.inventory.lines? "nfs".toList = some start.nfs

theorem Starts.isRead {start : Start} (h : addition.Starts start) : start.IsRead := by
  obtain ⟨text, -, hinventory⟩ := Option.map_eq_some_iff.mp h.inventory
  exact ⟨hinventory ▸ read_parseInventory text, h.username, h.configured, h.toAdd, h.nfs⟩

theorem Starts.unique {start other : Start} (h : addition.Starts start) (hother : addition.Starts other) : start = other := by
  obtain ⟨nodes, specificHosts, inventory, username, configured, toAdd, nfs⟩ := start
  obtain ⟨nodes', specificHosts', inventory', username', configured', toAdd', nfs'⟩ := other
  obtain rfl : nodes = nodes' := Option.some.inj (h.nodes.symm.trans hother.nodes)
  obtain rfl : specificHosts = specificHosts' := h.specificHosts.trans hother.specificHosts.symm
  obtain rfl : inventory = inventory' := Option.some.inj (h.inventory.symm.trans hother.inventory)
  obtain rfl : username = username' := Option.some.inj (h.username.symm.trans hother.username)
  obtain rfl : configured = configured' := Option.some.inj (h.configured.symm.trans hother.configured)
  obtain rfl : toAdd = toAdd' := Option.some.inj (h.toAdd.symm.trans hother.toAdd)
  obtain rfl : nfs = nfs' := Option.some.inj (h.nfs.symm.trans hother.nfs)
  rfl

/-- The playbook is run with the prepared inventory of a start. -/
theorem exists_starts {ready : Ready} (h : addition.ready = some ready) :
    ∃ start : Start, addition.Starts start ∧ start.nodes = ready.nodes ∧
      ∃ after, preparedInventory addition.cloud (writeInventory start.planned) = .ok after ∧
        ready.prepared = writeInventory after := by
  obtain ⟨text, planned, hnodes, htext, hplanned, hprepared⟩ := ready_eq_some h
  obtain ⟨username, configured, toAdd, nfs, husername, hconfigured, htoAdd, hnfs, heq⟩ := planAdd_eq_some hplanned
  refine ⟨⟨ready.nodes, addition.specificHosts, parseInventory text, username, configured, toAdd, nfs⟩,
    ⟨hnodes, rfl, by rw [htext]; rfl, husername, hconfigured, htoAdd, hnfs⟩, rfl, ?_⟩
  rw [heq, prepareLocalBlockVolumeInventory_eq] at hprepared
  cases hafter : preparedInventory addition.cloud (writeInventory (Start.planned
      ⟨ready.nodes, addition.specificHosts, parseInventory text, username, configured, toAdd, nfs⟩)) with
  | error e =>
      have hraised : Except.map writeInventory (.error e) = Except.ok ready.prepared := hafter ▸ hprepared
      cases hraised
  | ok after =>
      have hwritten : Except.map writeInventory (.ok after) = (Except.ok ready.prepared : Except VolumeError Text) :=
        hafter ▸ hprepared
      exact ⟨after, rfl, (Except.ok.inj hwritten).symm⟩

theorem covers_iff {nodes : List Node} {inventory : Inventory} {configured : List Text}
    (hconfigured : inventory.lines? "compute_configured".toList = some configured)
    (htoAdd : inventory.lines? "compute_to_add".toList = some []) :
    Covers nodes inventory ↔ ∀ node ∈ nodes, configured.countP (describes node) = 1 := by
  constructor
  · intro h node hnode
    obtain ⟨lines, hlines, hcount⟩ := h.once node hnode
    obtain rfl := Option.some.inj (hconfigured.symm.trans hlines)
    exact hcount
  · exact fun h => ⟨htoAdd, fun node hnode => ⟨configured, hconfigured, h node hnode⟩⟩

/-- Once the inventory is prepared it can be finished, and covers each node once where the loop finds each. -/
theorem covers_finished_iff (hcloud : addition.cloud.PlainAddresses)
    (hplain : ∀ nodes, addition.instances = some nodes → ∀ node ∈ nodes, node.Plain)
    (hdistinct : ∀ nodes, addition.instances = some nodes → (nodes.map (·.displayName)).Nodup) {start : Start}
    (hstarts : addition.Starts start) (hclear : start.Clear) {after : Inventory}
    (hafter : preparedInventory addition.cloud (writeInventory start.planned) = .ok after) :
    ∃ inventory, finished (writeInventory after) = some inventory ∧
      (Covers start.nodes (parseInventory (writeInventory inventory)) ↔ start.FindsEach) := by
  have hread := hstarts.isRead
  have hnames := hdistinct _ hstarts.nodes
  have hmade : ∀ node ∈ start.nodes, IsLine (start.line node) ∧ isHeader (start.line node) = false := fun node hnode =>
    isLine_computeInventoryLine (hplain _ hstarts.nodes node hnode) (oneLine_username hread.read hread.username)
  -- before the preparation
  have hunmerged := Start.unmerged_planned hread hmade hnames.of_map hclear.unmerged
  have hback := (parse_write_iff (Start.sectioned_planned hread hmade)).mpr hunmerged
  have hplanned : start.planned.Read := hback ▸ read_parseInventory _
  have hturned := turned_preparedInventory hcloud hafter
  rw [hback] at hturned
  -- once it is prepared
  have hprepared := (Start.canBePrepared_planned hplanned hunmerged hclear).parse_write hplanned hturned
  have hafterRead : after.Read := hprepared ▸ read_parseInventory _
  have hafterUnmerged := (parse_write_iff hafterRead.sectioned).mp hprepared
  obtain ⟨configured, hconfiguredLines, hconfigured⟩ := Start.lines?_of_turned hturned Start.lines?_planned_configured
  obtain ⟨toAdd, htoAddLines, htoAdd⟩ := Start.lines?_of_turned hturned Start.lines?_planned_toAdd
  refine ⟨Start.moveToConfigured configured toAdd after, ?_, ?_⟩
  · rw [finished, hprepared]
    simp only [htoAddLines, hconfiguredLines, bind, Option.bind]
    rfl
  · have hlines : (Start.moveToConfigured configured toAdd after).lines? "compute_configured".toList =
        some (configured ++ toAdd) := by
      rw [Start.moveToConfigured, Inventory.lines?_set_of_ne (by decide), Inventory.lines?_set_self]
    rw [Start.unmerged_finished hread hmade hplanned hclear.unmerged hafterRead hafterUnmerged (TurnedInto.keys hturned)
      hconfiguredLines htoAddLines hconfigured htoAdd, covers_iff hlines Inventory.lines?_set_self,
      ← Start.findsEach_iff hnames hclear.address]
    refine forall₂_congr fun node _ => ?_
    rw [Start.countP_prepared hclear hconfigured htoAdd]

/-! ## Success and failure -/

theorem addReconfigure_of_succeeds {ready : Ready} (hready : addition.ready = some ready)
    (hanswer : addition.answer ready = some 0) {inventory : Inventory} (hfinished : finished ready.prepared = some inventory) :
    addition.addReconfigure =
      ⟨.returned 0, if addition.moved then some (writeInventory inventory) else addition.left⟩ := by
  simp only [addReconfigure, hready, hanswer, hfinished, if_true]

/-- An addition that does not succeed leaves what `backup_inventory` left. -/
theorem addReconfigure_of_not_succeeds (h : ¬ addition.Succeeds) :
    addition.addReconfigure.ending ≠ .returned 0 ∧ addition.addReconfigure.inventory = addition.left := by
  unfold addReconfigure
  split
  · exact ⟨nofun, rfl⟩
  · rename_i ready hready
    split
    · exact ⟨nofun, rfl⟩
    · rename_i updateFlag hanswer
      have hflag : updateFlag ≠ 0 := fun hzero => h ⟨ready, hready, hzero ▸ hanswer⟩
      rw [if_neg hflag]
      refine ⟨fun hending => hflag ?_, rfl⟩
      injection hending

theorem left_eq_iff : addition.left = addition.inventory ↔ ¬ addition.Restores := by
  unfold left Restores
  cases addition.instances <;> cases addition.inventory <;> cases addition.doNotEdit <;> simp [backupInventory]

/-- **Each node is covered once, and a failed addition changes nothing, exactly when an addition that succeeds finds
each node that has a line and no other, and one that fails finds no copy in `/tmp` to put in the place of the
inventory.** -/
theorem coversOnce_iff (addition : Addition) (hcloud : addition.cloud.PlainAddresses)
    (hplain : ∀ nodes, addition.instances = some nodes → ∀ node ∈ nodes, node.Plain)
    (hdistinct : ∀ nodes, addition.instances = some nodes → (nodes.map (·.displayName)).Nodup)
    (hclear : addition.Succeeds → ∀ start, addition.Starts start → start.Clear) :
    addition.CoversOnce ↔
      (addition.Succeeds → addition.moved = true → ∀ start, addition.Starts start → start.FindsEach) ∧
        (¬ addition.Succeeds → ¬ addition.Restores) := by
  by_cases hsucceeds : addition.Succeeds
  · obtain ⟨ready, hready, hanswer⟩ := hsucceeds
    obtain ⟨start, hstarts, hnodes, after, hafter, hwritten⟩ := exists_starts hready
    obtain ⟨inventory, hfinished, hcovers⟩ := covers_finished_iff hcloud hplain hdistinct hstarts
      (hclear ⟨ready, hready, hanswer⟩ start hstarts) hafter
    have hresult := addReconfigure_of_succeeds hready hanswer (hwritten ▸ hfinished)
    constructor
    · intro h
      refine ⟨fun _ hmoved other hother => ?_, fun hnot => absurd ⟨ready, hready, hanswer⟩ hnot⟩
      obtain ⟨nodes, text, hnodes', htext, hcovered⟩ := h.covers (by rw [hresult]) hmoved
      rw [hresult, hmoved] at htext
      obtain rfl := Option.some.inj htext
      obtain rfl := Option.some.inj (hstarts.nodes.symm.trans hnodes')
      exact hstarts.unique hother ▸ hcovers.mp hcovered
    · rintro ⟨hfinds, -⟩
      refine ⟨fun _ hmoved => ⟨start.nodes, writeInventory inventory, hstarts.nodes, ?_, ?_⟩, fun hending => ?_⟩
      · rw [hresult, hmoved]
        rfl
      · exact hcovers.mpr (hfinds ⟨ready, hready, hanswer⟩ hmoved start hstarts)
      · rw [hresult] at hending
        exact absurd rfl hending
  · obtain ⟨hending, hinventory⟩ := addReconfigure_of_not_succeeds hsucceeds
    constructor
    · intro h
      refine ⟨fun hyes => absurd hyes hsucceeds, fun _ => left_eq_iff.mp ?_⟩
      rw [← hinventory]
      exact h.keeps hending
    · rintro ⟨-, hrestores⟩
      refine ⟨fun hzero => absurd hzero hending, fun _ => ?_⟩
      rw [hinventory]
      exact left_eq_iff.mpr (hrestores hsucceeds)

/-- The line of `inst-10` is taken for one of `inst-1`, which gets none. -/
theorem similar_name_is_missed : similarNames.addReconfigure.ending = .returned 0 ∧ ¬ similarNames.CoversOnce := by
  obtain ⟨hending, hcount⟩ : similarNames.addReconfigure.ending = .returned 0 ∧
      similarNames.addReconfigure.inventory.map (fun text =>
        ((parseInventory text).lines? "compute_configured".toList).map fun lines =>
          lines.countP (describes ⟨"inst-1", "10.0.0.1", "o1"⟩)) = some (some 0) := by decide +kernel
  refine ⟨hending, fun h => ?_⟩
  obtain ⟨nodes, text, hnodes, htext, hcovers⟩ := h.covers hending rfl
  obtain rfl := Option.some.inj hnodes
  obtain ⟨configured, hconfigured, honce⟩ := hcovers.once ⟨"inst-1", "10.0.0.1", "o1"⟩ (by simp)
  rw [htext, Option.map_some, hconfigured, Option.map_some, honce] at hcount
  exact absurd hcount (by decide)

def similarText : Text := similarNames.inventory.getD []

theorem backupInventory_similar : backupInventory similarNames.inventory similarNames.doNotEdit = some similarText := rfl

def similarStart : Start where
  nodes := [⟨"inst-10", "10.0.0.10", "o10"⟩, ⟨"inst-1", "10.0.0.1", "o1"⟩]
  specificHosts := none
  inventory := parseInventory similarText
  username := "opc".toList
  configured := ["inst-10 ansible_host=10.0.0.10 ansible_user=opc oci_instance_id=o10\n".toList]
  toAdd := []
  nfs := []

theorem inventory_similarStart : similarStart.inventory = parseInventory similarText := by simp only [similarStart]

theorem starts_similarStart : similarNames.Starts similarStart := by
  obtain ⟨husername, hconfigured, htoAdd, hnfs⟩ : computeUsername similarStart.inventory = some similarStart.username ∧
      similarStart.inventory.lines? "compute_configured".toList = some similarStart.configured ∧
      similarStart.inventory.lines? "compute_to_add".toList = some similarStart.toAdd ∧
      similarStart.inventory.lines? "nfs".toList = some similarStart.nfs := by decide +kernel
  exact ⟨rfl, rfl, by rw [backupInventory_similar, inventory_similarStart, Option.map_some], husername, hconfigured, htoAdd, hnfs⟩

theorem clear_similarStart : similarStart.Clear := by
  have hlast : (universalNewlines similarText).getLast? = some '\n' := by decide +kernel
  have hwell : similarStart.inventory.WellFormed := by
    rw [inventory_similarStart]
    exact wellFormed_parseInventory fun c hc => Option.some.inj (hc.symm.trans hlast)
  obtain ⟨haddress, hnames⟩ : (∀ node ∈ similarStart.nodes, hostAddress (similarStart.line node) = some node.ip.toList) ∧
      ∀ line ∈ similarStart.configured ++ similarStart.toAdd ++ similarStart.nodes.map similarStart.line,
        ((hostName line).all fun host => !aboutBlockVolume host) = true := by decide +kernel
  refine ⟨fun node hnode _ => haddress node hnode, fun line hline host hhost => ?_,
    Start.unmerged_of_wellFormed starts_similarStart.isRead hwell⟩
  have hall := hnames line hline
  rw [hhost, Option.all_some, Bool.not_eq_true'] at hall
  exact hall

theorem coversOnce_iff_similar : similarNames.CoversOnce ↔
    (similarNames.Succeeds → similarNames.moved = true → ∀ start, similarNames.Starts start → start.FindsEach) ∧
      (¬ similarNames.Succeeds → ¬ similarNames.Restores) := by
  have hall : ∀ s ∈ ["10.0.0.10", "o10", "10.0.0.1", "o1"], s.toList.all (fun c => !PyStr.isSpace c && c != ']') = true := by
    decide +kernel
  have hnames : ∀ s ∈ ["inst-10", "inst-1"], s.toList.all (fun c => c != '\n' && c != '\r') = true := by decide +kernel
  refine coversOnce_iff similarNames (fun id poll hpoll => absurd hpoll List.not_mem_nil) (fun nodes hnodes node hnode => ?_)
    (fun nodes hnodes => ?_) fun _ start hstart => starts_similarStart.unique hstart ▸ clear_similarStart
  · obtain rfl := Option.some.inj hnodes
    simp only [List.mem_cons, List.not_mem_nil, or_false] at hnode
    rcases hnode with rfl | rfl
    · exact ⟨oneLine_of_all (hnames _ (by simp)), isPlain_of_all (hall _ (by simp)), isPlain_of_all (hall _ (by simp))⟩
    · exact ⟨oneLine_of_all (hnames _ (by simp)), isPlain_of_all (hall _ (by simp)), isPlain_of_all (hall _ (by simp))⟩
  · obtain rfl := Option.some.inj hnodes
    decide

end Addition
end OciHpc.Resize
