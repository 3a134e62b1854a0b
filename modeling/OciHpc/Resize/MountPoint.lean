import OciHpc.Resize.BlockVolume

/-!
# Mount points

`validate_local_block_volume_mount_point` of `resize.py` and the checks of `create_cluster.sh`, against paths as lists
of names.

* `pathText`, `pathNames` : a path and its names;
* `Comparable` : one path is the other, or lies in it;
* `AcceptableMountPoint` : what a mount point must be, in these terms;
* `createClusterAccepts` : the checks of `create_cluster.sh`, in the C locale;
* `mount_point_accepted` : the validator accepts the acceptable mount points and no others, among them all that
  `create_cluster.sh` accepts.
-/

namespace OciHpc.Resize

/-! ## Paths -/

/-- The path from the root by these names; the root is the empty text. -/
def pathText (names : List Text) : Text := joinWith '/' ([] :: names)

def pathNames (path : Text) : List Text := (splitAt '/' path).drop 1

/-- A name that leads to a directory below. -/
structure IsPathName (name : Text) : Prop where
  nonempty : name ≠ []
  noSlash : '/' ∉ name
  notHere : name ≠ ['.']
  notAbove : name ≠ ['.', '.']

/-- An absolute path with one name for each step. -/
def IsCanonicalPath (path : Text) : Prop := ∃ names, path = pathText names ∧ ∀ name ∈ names, IsPathName name

/-- One path is the other, or lies in it. -/
def Comparable (names others : List Text) : Prop := names <+: others ∨ others <+: names

/-- An absolute path of at most 200 characters out of 65, below the root, without steps that lead nowhere or up. -/
structure WellFormedMountPoint (mountPoint : Text) : Prop where
  chars : ∀ c ∈ mountPoint, isPathChar c = true
  long : 2 ≤ mountPoint.length
  short : mountPoint.length ≤ 200
  absolute : mountPoint.head? = some '/'
  belowRoot : pathNames (rstripSlash mountPoint) ≠ []
  names : ∀ name ∈ pathNames (rstripSlash mountPoint), name ≠ [] ∧ name ≠ ['.'] ∧ name ≠ ['.', '.']

/-- Such a path that is apart from the reserved ones. -/
structure AcceptableMountPoint (inventory : Inventory) (mountPoint : Text) : Prop
    extends WellFormedMountPoint mountPoint where
  apart : ∀ reserved ∈ reservedMountPoints inventory,
    ¬ Comparable (pathNames (rstripSlash mountPoint)) (pathNames reserved)

/-! ## Splitting and joining -/

theorem exists_splitFrom_cons (sep : Char) (piece s : Text) :
    ∃ first rest, PyStr.splitFrom [sep] 0 piece s = first :: rest := by
  induction s generalizing piece with
  | nil => exact ⟨_, _, rfl⟩
  | cons c s ih =>
      rw [PyStr.splitFrom]
      split
      · exact ⟨_, _, rfl⟩
      · exact ih (c :: piece)

theorem splitAt_ne_nil (sep : Char) (s : Text) : splitAt sep s ≠ [] := by
  obtain ⟨first, rest, h⟩ := exists_splitFrom_cons sep [] s
  rw [splitAt, h]
  exact List.cons_ne_nil _ _

theorem joinWith_splitFrom (sep : Char) (piece s : Text) :
    joinWith sep (PyStr.splitFrom [sep] 0 piece s) = piece.reverse ++ s := by
  induction s generalizing piece with
  | nil => rw [PyStr.splitFrom, List.append_nil]; rfl
  | cons c s ih =>
      rw [PyStr.splitFrom]
      split
      · rename_i hsep
        have hc : sep = c := by simpa using hsep
        obtain ⟨first, rest, h⟩ := exists_splitFrom_cons sep [] s
        have hrest := ih []
        rw [h] at hrest
        show joinWith sep (piece.reverse :: PyStr.splitFrom [sep] 0 [] s) = piece.reverse ++ c :: s
        rw [h, joinWith, hrest, hc]
        · rfl
        · exact List.cons_ne_nil _ _
      · rw [ih, List.reverse_cons, List.append_assoc, List.singleton_append]

theorem joinWith_splitAt (sep : Char) (s : Text) : joinWith sep (splitAt sep s) = s := joinWith_splitFrom sep [] s

theorem joinWith_append (sep : Char) {front back : List Text} (hfront : front ≠ []) (hback : back ≠ []) :
    joinWith sep (front ++ back) = joinWith sep front ++ sep :: joinWith sep back := by
  induction front with
  | nil => exact absurd rfl hfront
  | cons piece rest ih =>
      cases rest with
      | nil =>
          obtain ⟨next, more, rfl⟩ := List.exists_cons_of_ne_nil hback
          rfl
      | cons next rest =>
          have hrest := ih (List.cons_ne_nil _ _)
          show piece ++ sep :: joinWith sep ((next :: rest) ++ back) =
            (piece ++ sep :: joinWith sep (next :: rest)) ++ sep :: joinWith sep back
          rw [hrest, List.append_assoc, List.cons_append]

/-- The names of a path are the names it was written from. -/
theorem pathNames_pathText {names : List Text} (h : ∀ name ∈ names, '/' ∉ name) : pathNames (pathText names) = names := by
  rw [pathNames, pathText, splitAt_joinWith (List.cons_ne_nil _ _)]
  · rfl
  · intro piece hpiece
    rcases List.mem_cons.mp hpiece with rfl | hpiece
    · exact List.not_mem_nil
    · exact h piece hpiece

theorem splitAt_cons_sep (sep : Char) (s : Text) : splitAt sep (sep :: s) = [] :: splitAt sep s :=
  @PyStr.splitFrom_append sep [] List.not_mem_nil [] s

/-- A text that begins with a slash is the path of its names. -/
theorem pathText_pathNames {path : Text} (h : path.head? = some '/') : pathText (pathNames path) = path := by
  obtain ⟨rest, rfl⟩ := List.head?_eq_some_iff.mp h
  rw [pathNames, splitAt_cons_sep, List.drop_one, List.tail_cons, pathText, ← splitAt_cons_sep, joinWith_splitAt]

theorem pathNames_ne_nil {path : Text} (h : path.head? = some '/') : pathNames path ≠ [] := by
  obtain ⟨rest, rfl⟩ := List.head?_eq_some_iff.mp h
  rw [pathNames, splitAt_cons_sep, List.drop_one, List.tail_cons]
  exact splitAt_ne_nil '/' rest

theorem exists_of_mem_pathNames {path name : Text} (h : path.head? = some '/') (hname : name ∈ pathNames path) :
    ∃ front back, path = front ++ '/' :: (name ++ back) ∧ (back = [] ∨ ∃ more, back = '/' :: more) := by
  obtain ⟨before, after, hsplit⟩ := List.append_of_mem hname
  have hwhole := pathText_pathNames h
  rw [hsplit, pathText, ← List.cons_append, joinWith_append '/' (List.cons_ne_nil _ _) (List.cons_ne_nil _ _)] at hwhole
  cases after with
  | nil => exact ⟨_, [], by rw [List.append_nil, ← hwhole]; rfl, .inl rfl⟩
  | cons next after => exact ⟨_, _, hwhole.symm, .inr ⟨_, rfl⟩⟩

/-! ## Paths that lie in each other -/

theorem pathText_append (names : List Text) {more : List Text} (h : more ≠ []) :
    pathText (names ++ more) = pathText names ++ '/' :: joinWith '/' more := by
  rw [pathText, ← List.cons_append, joinWith_append '/' (List.cons_ne_nil _ _) h]
  rfl

/-- A path with a slash begins another exactly when that lies in it. -/
theorem pathText_slash_isPrefix_iff {names others : List Text} (hnames : ∀ name ∈ names, '/' ∉ name)
    (hothers : ∀ name ∈ others, '/' ∉ name) :
    pathText names ++ ['/'] <+: pathText others ↔ ∃ more, more ≠ [] ∧ others = names ++ more := by
  constructor
  · rintro ⟨rest, hrest⟩
    rw [List.append_assoc, List.singleton_append] at hrest
    refine ⟨splitAt '/' rest, splitAt_ne_nil '/' rest, ?_⟩
    have hwhole : pathText (names ++ splitAt '/' rest) = pathText others := by
      rw [pathText_append names (splitAt_ne_nil '/' rest), joinWith_splitAt, hrest]
    have hpieces : ∀ name ∈ names ++ splitAt '/' rest, '/' ∉ name := by
      intro name hname
      rcases List.mem_append.mp hname with hname | hname
      · exact hnames name hname
      · exact sep_not_mem_of_mem_splitAt hname
    rw [← pathNames_pathText hothers, ← hwhole, pathNames_pathText hpieces]
  · rintro ⟨more, hmore, rfl⟩
    rw [pathText_append names hmore]
    exact ⟨joinWith '/' more, by rw [List.append_assoc, List.singleton_append]⟩

/-- The textual test of `resize.py` is that of the tree. -/
theorem pathsOverlap_iff {names others : List Text} (hnames : ∀ name ∈ names, '/' ∉ name)
    (hothers : ∀ name ∈ others, '/' ∉ name) :
    pathsOverlap (pathText names) (pathText others) = true ↔ Comparable names others := by
  rw [pathsOverlap, Bool.or_eq_true, Bool.or_eq_true, beq_iff_eq, List.isPrefixOf_iff_prefix,
    List.isPrefixOf_iff_prefix, pathText_slash_isPrefix_iff hothers hnames, pathText_slash_isPrefix_iff hnames hothers]
  constructor
  · rintro ((heq | ⟨more, -, rfl⟩) | ⟨more, -, rfl⟩)
    · have hsame : names = others := calc names
          _ = pathNames (pathText names) := (pathNames_pathText hnames).symm
          _ = pathNames (pathText others) := by rw [heq]
          _ = others := pathNames_pathText hothers
      exact .inl (hsame ▸ List.prefix_rfl)
    · exact .inr (List.prefix_append _ _)
    · exact .inl (List.prefix_append _ _)
  · rintro (⟨more, rfl⟩ | ⟨more, rfl⟩)
    · by_cases hmore : more = []
      · exact .inl (.inl (by rw [hmore, List.append_nil]))
      · exact .inr ⟨more, hmore, rfl⟩
    · by_cases hmore : more = []
      · exact .inl (.inl (by rw [hmore, List.append_nil]))
      · exact .inl (.inr ⟨more, hmore, rfl⟩)

/-! ## The validator -/

theorem normComponents_names {names : List Text} (h : ∀ name ∈ names, IsPathName name) (kept : List Text) :
    normComponents true kept names = names.reverse ++ kept := by
  induction names generalizing kept with
  | nil => rfl
  | cons name rest ih =>
      have hname := h name List.mem_cons_self
      rw [normComponents, if_neg (by simp [hname.nonempty, hname.notHere]), if_pos (.inl hname.notAbove),
        ih (fun other hother => h other (List.mem_cons_of_mem _ hother)), List.reverse_cons, List.append_assoc,
        List.singleton_append]

theorem normpath_pathText {names : List Text} (h : ∀ name ∈ names, IsPathName name) (hne : names ≠ []) :
    normpath (pathText names) = pathText names := by
  obtain ⟨first, rest, rfl⟩ := List.exists_cons_of_ne_nil hne
  have hfirst := h first List.mem_cons_self
  obtain ⟨c, more, rfl⟩ := List.exists_cons_of_ne_nil hfirst.nonempty
  have hc : c ≠ '/' := fun heq => hfirst.noSlash (heq ▸ List.mem_cons_self)
  obtain ⟨tail, htail⟩ : ∃ tail, pathText ((c :: more) :: rest) = '/' :: c :: tail := by
    cases rest with
    | nil => exact ⟨more, rfl⟩
    | cons next rest => exact ⟨_, rfl⟩
  have hjoin : pathText ((c :: more) :: rest) = '/' :: joinWith '/' ((c :: more) :: rest) := rfl
  have hsplit : splitAt '/' (pathText ((c :: more) :: rest)) = [] :: (c :: more) :: rest := by
    rw [pathText, splitAt_joinWith (List.cons_ne_nil _ _)]
    intro piece hpiece
    rcases List.mem_cons.mp hpiece with rfl | hpiece
    · exact List.not_mem_nil
    · exact (h piece hpiece).noSlash
  have hdouble : "//".toList.isPrefixOf (pathText ((c :: more) :: rest)) = false := by
    rw [htail]
    simp [List.isPrefixOf, Ne.symm hc]
  have hsingle : "/".toList.isPrefixOf (pathText ((c :: more) :: rest)) = true := by
    rw [htail]
    rfl
  have hkept : normComponents true [] ([] :: (c :: more) :: rest) = ((c :: more) :: rest).reverse := by
    rw [normComponents, if_pos (.inl rfl), normComponents_names h, List.append_nil]
  unfold normpath
  rw [hdouble, Bool.false_and, if_neg Bool.false_ne_true, hsingle, if_pos rfl, hsplit]
  dsimp only
  rw [show (!"/".toList.isEmpty) = true from rfl, hkept, List.reverse_reverse, if_neg (by simp), hjoin]
  rfl

theorem matchesPath_iff {s : Text} : matchesPath s = true ↔ s.head? = some '/' ∧ 2 ≤ s.length ∧
    ∀ c ∈ s, isPathChar c = true := by
  unfold matchesPath
  split
  · rename_i rest
    rw [Bool.and_eq_true, Bool.not_eq_true', List.isEmpty_eq_false_iff, List.all_eq_true, ← List.length_pos_iff]
    constructor
    · rintro ⟨hlong, hchars⟩
      refine ⟨rfl, by rw [List.length_cons]; omega, fun c hc => ?_⟩
      rcases List.mem_cons.mp hc with rfl | hc
      · decide
      · exact hchars c hc
    · rintro ⟨-, hlong, hchars⟩
      rw [List.length_cons] at hlong
      exact ⟨by omega, fun c hc => hchars c (List.mem_cons_of_mem _ hc)⟩
  · rename_i hnot
    refine ⟨fun h => absurd h Bool.false_ne_true, fun ⟨hhead, _⟩ => ?_⟩
    obtain ⟨rest, rfl⟩ := List.head?_eq_some_iff.mp hhead
    exact absurd rfl (hnot rest)

/-- Slashes at the end are dropped. -/
theorem rstripSlash_isPrefix (s : Text) : rstripSlash s <+: s := by
  rw [rstripSlash, ← List.reverse_suffix, List.reverse_reverse]
  exact List.dropWhile_suffix _

theorem getLast?_rstripSlash (s : Text) : (rstripSlash s).getLast? ≠ some '/' := by
  rw [rstripSlash, List.getLast?_reverse]
  intro h
  have hnot := List.head?_dropWhile_not (fun c => decide (c = '/')) s.reverse
  rw [h] at hnot
  simp at hnot

theorem head?_rstripSlash {s : Text} (h : s.head? = some '/') (hne : rstripSlash s ≠ []) :
    (rstripSlash s).head? = some '/' := by
  obtain ⟨rest, hrest⟩ := rstripSlash_isPrefix s
  rw [← hrest, List.head?_append_of_ne_nil _ hne] at h
  exact h

theorem noSlash_of_mem_pathNames {path name : Text} (h : name ∈ pathNames path) : '/' ∉ name :=
  sep_not_mem_of_mem_splitAt (List.mem_of_mem_drop h)

def badMountPoint (mountPoint : Text) : Bool :=
  let normalized := rstripSlash mountPoint
  let components := (splitAt '/' normalized).drop 1
  !matchesPath mountPoint || mountPoint.length > 200 || normalized == [] || normalized == ['/'] ||
    components.any (fun component => component == [] || component == ['.'] || component == ['.', '.']) ||
    normpath normalized != normalized

theorem validateMountPoint_eq (mountPoint : Text) (inventory : Inventory) : validateMountPoint mountPoint inventory =
    if badMountPoint mountPoint then
      .error "local_block_volume_mount_point must be a canonical absolute path other than /"
    else
      match (reservedMountPoints inventory).find? (pathsOverlap (rstripSlash mountPoint)) with
      | some reserved => .error ("local_block_volume_mount_point conflicts with reserved path " ++ String.ofList reserved)
      | none => .ok (rstripSlash mountPoint) := rfl

section
variable {mountPoint : Text}

theorem WellFormedMountPoint.rstripSlash_ne_nil (h : WellFormedMountPoint mountPoint) : rstripSlash mountPoint ≠ [] :=
  fun hnil => h.belowRoot (by rw [hnil]; rfl)

theorem WellFormedMountPoint.pathText_eq (h : WellFormedMountPoint mountPoint) :
    pathText (pathNames (rstripSlash mountPoint)) = rstripSlash mountPoint :=
  pathText_pathNames (head?_rstripSlash h.absolute h.rstripSlash_ne_nil)

theorem WellFormedMountPoint.isPathName (h : WellFormedMountPoint mountPoint) {name : Text}
    (hname : name ∈ pathNames (rstripSlash mountPoint)) : IsPathName name :=
  ⟨(h.names name hname).1, noSlash_of_mem_pathNames hname, (h.names name hname).2.1, (h.names name hname).2.2⟩

theorem badMountPoint_eq_false_iff : badMountPoint mountPoint = false ↔ WellFormedMountPoint mountPoint := by
  unfold badMountPoint
  dsimp only
  simp only [Bool.or_eq_false_iff, Bool.not_eq_false', decide_eq_false_iff_not, Nat.not_lt, beq_eq_false_iff_ne,
    List.any_eq_false, bne_eq_false_iff_eq, matchesPath_iff, Bool.or_eq_true, beq_iff_eq, not_or]
  constructor
  · rintro ⟨⟨⟨⟨⟨⟨habsolute, hlong, hchars⟩, hshort⟩, hne⟩, -⟩, hnames⟩, -⟩
    refine ⟨hchars, hlong, hshort, habsolute, pathNames_ne_nil (head?_rstripSlash habsolute hne), fun name hname => ?_⟩
    have hname := hnames name hname
    exact ⟨hname.1.1, hname.1.2, hname.2⟩
  · intro h
    refine ⟨⟨⟨⟨⟨⟨h.absolute, h.long, h.chars⟩, h.short⟩, h.rstripSlash_ne_nil⟩, fun hroot => ?_⟩, fun name hname => ?_⟩, ?_⟩
    · refine getLast?_rstripSlash mountPoint ?_
      rw [hroot]
      rfl
    · have hname := h.names name hname
      exact ⟨⟨hname.1, hname.2.1⟩, hname.2.2⟩
    · have hnormal := normpath_pathText (fun name hname => h.isPathName hname) h.belowRoot
      rwa [h.pathText_eq] at hnormal

/-- The textual test is that of the tree. -/
theorem WellFormedMountPoint.pathsOverlap_iff (h : WellFormedMountPoint mountPoint) {reserved : Text}
    (hreserved : IsCanonicalPath reserved) : pathsOverlap (rstripSlash mountPoint) reserved = true ↔
      Comparable (pathNames (rstripSlash mountPoint)) (pathNames reserved) := by
  obtain ⟨names, rfl, hnames⟩ := hreserved
  have hnoSlash : ∀ name ∈ names, '/' ∉ name := fun name hname => (hnames name hname).noSlash
  rw [pathNames_pathText hnoSlash, ← OciHpc.Resize.pathsOverlap_iff (fun _ => noSlash_of_mem_pathNames) hnoSlash,
    h.pathText_eq]

/-- **The validator accepts the acceptable mount points.** -/
theorem validateMountPoint_iff {inventory : Inventory}
    (hcanonical : ∀ reserved ∈ reservedMountPoints inventory, IsCanonicalPath reserved) :
    (∃ normalized, validateMountPoint mountPoint inventory = .ok normalized) ↔
      AcceptableMountPoint inventory mountPoint := by
  rw [validateMountPoint_eq]
  constructor
  · rintro ⟨normalized, h⟩
    split at h
    · cases h
    · rename_i hgood
      have hwell := badMountPoint_eq_false_iff.mp (Bool.not_eq_true _ ▸ hgood)
      split at h
      · cases h
      · rename_i hnone
        rw [List.find?_eq_none] at hnone
        exact ⟨hwell, fun reserved hreserved hcomparable => hnone reserved hreserved
          ((hwell.pathsOverlap_iff (hcanonical reserved hreserved)).mpr hcomparable)⟩
  · intro h
    have hwell := h.toWellFormedMountPoint
    have hnone : (reservedMountPoints inventory).find? (pathsOverlap (rstripSlash mountPoint)) = none := by
      rw [List.find?_eq_none]
      exact fun reserved hreserved hover =>
        h.apart reserved hreserved ((hwell.pathsOverlap_iff (hcanonical reserved hreserved)).mp hover)
    rw [badMountPoint_eq_false_iff.mpr hwell, if_neg Bool.false_ne_true, hnone]
    exact ⟨_, rfl⟩

end

/-! ## The checks of `create_cluster.sh` -/

/-- `\.\.?($|/)` at the head of the text. -/
def dotsFirst : Text → Bool
  | '.' :: '.' :: rest => rest.isEmpty || rest.head? == some '/'
  | '.' :: rest => rest.isEmpty || rest.head? == some '/'
  | _ => false

/-- `/\.\.?($|/)` anywhere in the text. -/
def dotsAfterSlash : Text → Bool
  | [] => false
  | c :: rest => (c == '/' && dotsFirst rest) || dotsAfterSlash rest

/-- `${path%/}`. -/
def dropSlash (path : Text) : Text := if path.getLast? = some '/' then path.dropLast else path

def reservedByDefault : List Text :=
  ["/mnt/localdisk".toList, "/nfs/scratch".toList, "/nfs/cluster".toList, "/mnt/localdisk/nfs".toList, "/home".toList,
    "/share".toList]

/-- The mount point passes the checks of `create_cluster.sh`. -/
def createClusterAccepts (mountPoint : Text) : Bool :=
  matchesPath mountPoint && mountPoint != ['/'] && !PyStr.hasInfix "//".toList mountPoint &&
    !(dotsFirst mountPoint || dotsAfterSlash mountPoint) && decide (mountPoint.length ≤ 200) &&
    reservedByDefault.all fun reserved => !pathsOverlap (dropSlash mountPoint) reserved

theorem dotsAfterSlash_append (front : Text) {rest : Text} (h : dotsFirst rest = true) :
    dotsAfterSlash (front ++ '/' :: rest) = true := by
  induction front with
  | nil => rw [List.nil_append, dotsAfterSlash, h]; rfl
  | cons c front ih => rw [List.cons_append, dotsAfterSlash, ih, Bool.or_true]

theorem isCanonicalPath_of_all {path : Text} (names : List Text) (h : path = pathText names)
    (hnames : names.all (fun name => name != [] && !name.contains '/' && name != ['.'] && name != ['.', '.']) = true) :
    IsCanonicalPath path := by
  refine ⟨names, h, fun name hname => ?_⟩
  have hname := List.all_eq_true.mp hnames name hname
  simp only [Bool.and_eq_true, bne_iff_ne, Bool.not_eq_true', List.contains_eq_mem, decide_eq_false_iff_not] at hname
  exact ⟨hname.1.1.1, hname.1.1.2, hname.1.2, hname.2⟩

theorem isCanonicalPath_reservedByDefault : ∀ reserved ∈ reservedByDefault, IsCanonicalPath reserved := by
  intro reserved hreserved
  simp only [reservedByDefault, List.mem_cons, List.not_mem_nil, or_false] at hreserved
  rcases hreserved with rfl | rfl | rfl | rfl | rfl | rfl
  · exact isCanonicalPath_of_all ["mnt".toList, "localdisk".toList] rfl (by decide)
  · exact isCanonicalPath_of_all ["nfs".toList, "scratch".toList] rfl (by decide)
  · exact isCanonicalPath_of_all ["nfs".toList, "cluster".toList] rfl (by decide)
  · exact isCanonicalPath_of_all ["mnt".toList, "localdisk".toList, "nfs".toList] rfl (by decide)
  · exact isCanonicalPath_of_all ["home".toList] rfl (by decide)
  · exact isCanonicalPath_of_all ["share".toList] rfl (by decide)

section
variable {mountPoint : Text}

/-- Without a double slash there is at most one slash to drop. -/
theorem dropSlash_eq (hdouble : ¬ "//".toList <:+: mountPoint) : dropSlash mountPoint = rstripSlash mountPoint := by
  rw [dropSlash, rstripSlash]
  by_cases hlast : mountPoint.getLast? = some '/'
  · obtain ⟨init, rfl⟩ := List.getLast?_eq_some_iff.mp hlast
    rw [if_pos hlast, List.dropLast_concat, List.reverse_append, List.reverse_singleton, List.singleton_append,
      List.dropWhile_cons_of_pos (by simp)]
    cases hinit : init.reverse with
    | nil => rw [List.reverse_eq_nil_iff.mp hinit]; rfl
    | cons c rest =>
        have hc : c ≠ '/' := by
          rintro rfl
          have hwhole : init = rest.reverse ++ ['/'] := by rw [← List.reverse_cons, ← hinit, List.reverse_reverse]
          exact hdouble ⟨rest.reverse, [], by rw [hwhole]; simp⟩
        rw [List.dropWhile_cons_of_neg (by simpa using hc), ← hinit, List.reverse_reverse]
  · rw [if_neg hlast]
    cases hs : mountPoint.reverse with
    | nil => rw [List.reverse_eq_nil_iff.mp hs]; rfl
    | cons c rest =>
        have hc : c ≠ '/' := by
          rintro rfl
          exact hlast (by rw [← List.head?_reverse, hs]; rfl)
        rw [List.dropWhile_cons_of_neg (by simpa using hc), ← hs, List.reverse_reverse]

theorem rstripSlash_ne_nil (habsolute : mountPoint.head? = some '/') (hlong : 2 ≤ mountPoint.length)
    (hdouble : ¬ "//".toList <:+: mountPoint) : rstripSlash mountPoint ≠ [] := by
  rw [← dropSlash_eq hdouble, dropSlash]
  split
  · intro hnil
    have hlength := congrArg List.length hnil
    rw [List.length_dropLast, List.length_nil] at hlength
    omega
  · rintro rfl
    cases habsolute

/-- What is left of a text is the text, or the text without a slash at its end. -/
theorem exists_rstripSlash (s : Text) : ∃ back, s = rstripSlash s ++ back ∧ (back = [] ∨ ∃ more, back = '/' :: more) := by
  refine ⟨(s.reverse.takeWhile fun c => c = '/').reverse, ?_, ?_⟩
  · rw [rstripSlash, ← List.reverse_append, List.takeWhile_append_dropWhile, List.reverse_reverse]
  · cases hback : (s.reverse.takeWhile fun c => c = '/').reverse with
    | nil => exact .inl rfl
    | cons c more =>
        have hmem : c ∈ (s.reverse.takeWhile fun c => c = '/').reverse := hback ▸ List.mem_cons_self
        have hc := List.mem_takeWhile_imp (List.mem_reverse.mp hmem)
        rw [decide_eq_true_eq] at hc
        exact .inr ⟨more, by rw [hc]⟩

theorem wellFormed_of_createClusterAccepts (h : createClusterAccepts mountPoint = true) :
    WellFormedMountPoint mountPoint := by
  simp only [createClusterAccepts, Bool.and_eq_true, bne_iff_ne, Bool.not_eq_true', Bool.or_eq_false_iff,
    decide_eq_true_eq, matchesPath_iff] at h
  obtain ⟨⟨⟨⟨⟨⟨habsolute, hlong, hchars⟩, -⟩, hslashes⟩, -, hdots⟩, hshort⟩, -⟩ := h
  have hdouble : ¬ "//".toList <:+: mountPoint := fun hinfix => by
    rw [hasInfix_iff.mpr hinfix] at hslashes
    cases hslashes
  have hne := rstripSlash_ne_nil habsolute hlong hdouble
  have hhead := head?_rstripSlash habsolute hne
  refine ⟨hchars, hlong, hshort, habsolute, pathNames_ne_nil hhead, fun name hname => ?_⟩
  obtain ⟨front, back, hsplit, hback⟩ := exists_of_mem_pathNames hhead hname
  obtain ⟨slash, hslash, hend⟩ := exists_rstripSlash mountPoint
  have hwhole : mountPoint = front ++ '/' :: (name ++ (back ++ slash)) := by
    rw [hslash, hsplit, List.append_assoc, List.cons_append, List.append_assoc]
  have hafter : back ++ slash = [] ∨ ∃ more, back ++ slash = '/' :: more := by
    rcases hback with rfl | ⟨more, rfl⟩
    · exact hend
    · exact .inr ⟨_, rfl⟩
  have hnoDots : ∀ rest, dotsFirst rest = true → name ++ (back ++ slash) ≠ rest := fun rest hrest heq => by
    rw [hwhole, heq, dotsAfterSlash_append front hrest] at hdots
    cases hdots
  refine ⟨?_, ?_, ?_⟩
  · rintro rfl
    rcases hback with rfl | ⟨more, rfl⟩
    · refine getLast?_rstripSlash mountPoint ?_
      rw [hsplit]
      simp
    · exact hdouble ⟨front, more ++ slash, by rw [hwhole]; simp⟩
  · rintro rfl
    refine hnoDots _ ?_ rfl
    rcases hafter with hnil | ⟨more, hmore⟩
    · rw [hnil]
      rfl
    · rw [hmore]
      rfl
  · rintro rfl
    refine hnoDots _ ?_ rfl
    rcases hafter with hnil | ⟨more, hmore⟩
    · rw [hnil]
      rfl
    · rw [hmore]
      rfl

end

/-- **The validator of `resize.py` accepts the acceptable mount points and no others**, and with the default reserved
paths it accepts every mount point that `create_cluster.sh` accepts. -/
theorem mount_point_accepted (mountPoint : Text) (inventory : Inventory) :
    ((∀ reserved ∈ reservedMountPoints inventory, IsCanonicalPath reserved) →
      ((∃ normalized, validateMountPoint mountPoint inventory = .ok normalized) ↔
        AcceptableMountPoint inventory mountPoint)) ∧
    (reservedMountPoints inventory = reservedByDefault → createClusterAccepts mountPoint = true →
      ∃ normalized, validateMountPoint mountPoint inventory = .ok normalized) := by
  refine ⟨validateMountPoint_iff, fun hdefault haccepts => ?_⟩
  have hwell := wellFormed_of_createClusterAccepts haccepts
  simp only [createClusterAccepts, Bool.and_eq_true, Bool.not_eq_true', List.all_eq_true] at haccepts
  obtain ⟨⟨⟨⟨-, hslashes⟩, -⟩, -⟩, hoverlap⟩ := haccepts
  have hdouble : ¬ "//".toList <:+: mountPoint := fun hinfix => by
    rw [hasInfix_iff.mpr hinfix] at hslashes
    cases hslashes
  have hcanonical : ∀ reserved ∈ reservedMountPoints inventory, IsCanonicalPath reserved :=
    hdefault ▸ isCanonicalPath_reservedByDefault
  refine (validateMountPoint_iff hcanonical).mpr ⟨hwell, fun reserved hreserved hcomparable => ?_⟩
  have hover := (hwell.pathsOverlap_iff (hcanonical reserved hreserved)).mpr hcomparable
  rw [← dropSlash_eq hdouble, hoverlap reserved (hdefault ▸ hreserved)] at hover
  cases hover

theorem mount_point_accepted_scratch : (∃ normalized, validateMountPoint "/scratch/".toList [] = .ok normalized) ∧
    AcceptableMountPoint [] "/scratch/".toList := by
  have hdefault : reservedMountPoints [] = reservedByDefault := by decide +kernel
  have haccepts := (mount_point_accepted "/scratch/".toList []).2 hdefault (by decide +kernel)
  exact ⟨haccepts, ((mount_point_accepted "/scratch/".toList []).1
    (hdefault ▸ isCanonicalPath_reservedByDefault)).mp haccepts⟩

end OciHpc.Resize
