import OciHpc.Resize.TerraformLines

/-!
# The Terraform state and its variables rewritten

The texts `updateTFState` of `resize.py` writes.

* `rewriteState`, `rewriteVariables` : the texts, and whether what has to be there was found;
* `Updated`, `PlainState` : texts that differ line by line, and states whose numbers are written as `str` writes them;
* `rewriteState_spec`, `rewriteVariables_spec` : what is rewritten differs in the numbers;
* `rewriteState_again`, `rewriteVariables_again` : and can be rewritten again.
-/

namespace OciHpc.Resize

/-! ## The texts -/

def rewriteState (size : Nat) (text : Text) : Option Text :=
  (rewriteAll (rewriteStateLine size) (fileLines text)).map List.flatten

/-- `found_serial and found_pool_size`. -/
def foundState (text : Text) : Bool :=
  (fileLines text).any (hasKey serialKey) && (fileLines text).any fun line => !hasKey serialKey line && hasKey sizeKey line

def rewriteVariables (isWord : Char → Bool) (size : Nat) (text : Text) : Option Text :=
  (rewriteAll (rewriteVariablesLine isWord size) (fileLines text)).map List.flatten

/-- `found_node_count`. -/
def foundVariables (text : Text) : Bool := (fileLines text).any (hasKey nodeCountKey)

/-- The text is its lines, and so is what takes its place; the lines are updated one by one. -/
structure Updated (R : Text → Text → Prop) (text written : Text) : Prop where
  text_eq : text = (fileLines text).flatten
  written_eq : written = (fileLines written).flatten
  lines : List.Forall₂ R (fileLines text) (fileLines written)

/-- Lines end with a newline alone, and the numbers are written as `str` writes them. -/
structure PlainState (text : Text) : Prop where
  noReturn : '\r' ∉ text
  serials : ∀ line ∈ fileLines text, PlainNumber serialKey line
  sizes : ∀ line ∈ fileLines text, PlainNumber sizeKey line

theorem newline_not_mem_strInt (n : Int) : '\n' ∉ strInt n ∧ '\r' ∉ strInt n := by
  refine ⟨fun hmem => ?_, fun hmem => ?_⟩
  · exact absurd (noSpace_strInt n _ hmem) (by decide)
  · exact absurd (noSpace_strInt n _ hmem) (by decide)

theorem newline_not_mem_digits {value : Text} (h : ∀ c ∈ value, c.isDigit = true) : '\n' ∉ value := fun hmem =>
  absurd (h _ hmem) (by decide)

section
variable {front back old new line other text written : Text}

theorem IsLine.replaced (h : IsLine (front ++ old ++ back)) (hne : old ≠ []) (hold : '\n' ∉ old)
    (hnew : '\n' ∉ new ∧ '\r' ∉ new) : IsLine (front ++ new ++ back) := by
  obtain ⟨body, hbody, hnewline⟩ := h.newline
  have hback : back ≠ [] := fun hnil => by
    have hlast : (front ++ old).getLast? = some '\n' := by
      rw [← List.append_nil (front ++ old), ← hnil, hbody, List.getLast?_concat]
    rw [List.getLast?_append_of_ne_nil _ hne] at hlast
    exact hold (List.mem_of_getLast? hlast)
  obtain ⟨init, last, rfl⟩ := (List.eq_nil_or_concat back).resolve_left hback
  rw [List.concat_eq_append, ← List.append_assoc] at hbody
  obtain ⟨hinit, hlast⟩ := List.append_inj' hbody rfl
  have hreturn := h.noReturn
  simp only [← hinit, List.mem_append, not_or] at hnewline
  simp only [List.concat_eq_append, List.mem_append, not_or] at hreturn
  refine ⟨⟨front ++ new ++ init, by rw [List.concat_eq_append, hlast, ← List.append_assoc], ?_⟩, ?_⟩
  · simp only [List.mem_append, not_or]
    exact ⟨⟨hnewline.1.1, hnew.1⟩, hnewline.2⟩
  · simp only [List.concat_eq_append, List.mem_append, not_or]
    exact ⟨⟨hreturn.1.1, hnew.2⟩, hreturn.2⟩

theorem IsRest.replaced (h : IsRest (front ++ old ++ back)) (hne : new ≠ []) (hnew : '\n' ∉ new ∧ '\r' ∉ new) :
    IsRest (front ++ new ++ back) ∧ front ++ new ++ back ≠ [] := by
  have hnewline := h.newline
  have hreturn := h.noReturn
  simp only [List.mem_append, not_or] at hnewline hreturn
  refine ⟨⟨?_, ?_⟩, by simp [hne]⟩
  · simp only [List.mem_append, not_or]
    exact ⟨⟨hnewline.1.1, hnew.1⟩, hnewline.2⟩
  · simp only [List.mem_append, not_or]
    exact ⟨⟨hreturn.1.1, hnew.2⟩, hreturn.2⟩

/-- The lines are those of before, or have a part replaced. -/
def PartReplaced (line other : Text) : Prop :=
  other = line ∨ ∃ front old new back, line = front ++ old ++ back ∧ other = front ++ new ++ back ∧
    old ≠ [] ∧ '\n' ∉ old ∧ new ≠ [] ∧ '\n' ∉ new ∧ '\r' ∉ new

theorem PartReplaced.isLine (h : PartReplaced line other) (hline : IsLine line) : IsLine other := by
  obtain rfl | ⟨front, old, new, back, rfl, rfl, hne, hold, -, hnew⟩ := h
  · exact hline
  · exact hline.replaced hne hold hnew

theorem PartReplaced.isRest (h : PartReplaced line other) (hline : IsRest line) (hneLine : line ≠ []) :
    IsRest other ∧ other ≠ [] := by
  obtain rfl | ⟨front, old, new, back, rfl, rfl, -, -, hne, hnew⟩ := h
  · exact ⟨hline, hneLine⟩
  · exact hline.replaced hne hnew

theorem fileLines_of_partReplaced {R : Text → Text → Prop} (hR : ∀ line other, R line other → PartReplaced line other)
    {others : List Text} (h : List.Forall₂ R (fileLines text) others) : fileLines others.flatten = others :=
  fileLines_of_forall₂ h (fun line other hone => (hR line other hone).isLine)
    fun line other hone => (hR line other hone).isRest

/-- Parts of the lines replaced, and the lines written one after the other. -/
theorem updated_of_partReplaced {R : Text → Text → Prop} (hR : ∀ line other, R line other → PartReplaced line other)
    (hreturn : '\r' ∉ text) {others : List Text} (h : List.Forall₂ R (fileLines text) others) :
    Updated R text others.flatten := by
  have hothers := fileLines_of_partReplaced hR h
  exact ⟨(flatten_fileLines hreturn).symm, by rw [hothers], by rw [hothers]; exact h⟩

theorem StateLineUpdated.partReplaced {size : Nat} (h : StateLineUpdated size line other) : PartReplaced line other := by
  have hnumber : ∀ n m front back, line = front ++ strInt n ++ back → other = front ++ strInt m ++ back →
      PartReplaced line other := fun n m front back hline hother =>
    .inr ⟨front, strInt n, strInt m, back, hline, hother, strInt_ne_nil n, (newline_not_mem_strInt n).1, strInt_ne_nil m,
      newline_not_mem_strInt m⟩
  obtain ⟨front, n, back, hat, hother⟩ | ⟨-, front, n, back, hat, hother⟩ | ⟨-, -, rfl⟩ := h
  · exact hnumber n (n + 1) front back hat.line_eq hother
  · exact hnumber n size front back hat.line_eq hother
  · exact .inl rfl

theorem VariablesLineUpdated.partReplaced {size : Nat} (h : VariablesLineUpdated size line other) :
    PartReplaced line other := by
  obtain ⟨-, front, value, back, hdefault, hother⟩ | ⟨-, rfl⟩ := h
  · exact .inr ⟨front, value, strInt size, back, hdefault.line_eq, hother, hdefault.value_digits.1,
      newline_not_mem_digits hdefault.value_digits.2, strInt_ne_nil size, newline_not_mem_strInt size⟩
  · exact .inl rfl

theorem stateLinesUpdated {size : Nat} (hplain : PlainState text) {others : List Text}
    (h : rewriteAll (rewriteStateLine size) (fileLines text) = some others) :
    List.Forall₂ (StateLineUpdated size) (fileLines text) others := by
  refine List.forall₂_iff_zip.mpr ⟨(rewriteAll_eq_some.mp h).length_eq, @fun line other hzip => ?_⟩
  have hmem := (List.of_mem_zip hzip).1
  exact rewriteStateLine_spec (hplain.serials line hmem) (hplain.sizes line hmem)
    (List.forall₂_zip (rewriteAll_eq_some.mp h) hzip)

/-- **The state is updated** line by line. -/
theorem rewriteState_spec {size : Nat} (hplain : PlainState text) (h : rewriteState size text = some written) :
    Updated (StateLineUpdated size) text written := by
  obtain ⟨others, hothers, rfl⟩ := Option.map_eq_some_iff.mp h
  exact updated_of_partReplaced (fun _ _ hone => hone.partReplaced) hplain.noReturn (stateLinesUpdated hplain hothers)

/-- **The variables are updated** line by line. -/
theorem rewriteVariables_spec {isWord : Char → Bool} {size : Nat} (hreturn : '\r' ∉ text)
    (h : rewriteVariables isWord size text = some written) : Updated (VariablesLineUpdated size) text written := by
  obtain ⟨others, hothers, rfl⟩ := Option.map_eq_some_iff.mp h
  exact updated_of_partReplaced (fun _ _ hone => hone.partReplaced) hreturn
    ((rewriteAll_eq_some.mp hothers).imp fun _ _ hone => (rewriteVariablesLine_spec hone).1)

theorem isPiece_of_mem_fileLines (h : line ∈ fileLines text) : IsPiece line := by
  obtain ⟨lines, rest, heq, hlines, hrest⟩ := exists_fileLines text
  exact isPiece_of_mem hlines hrest (heq ▸ h)

theorem Updated.noReturn {R : Text → Text → Prop} (h : Updated R text written) : '\r' ∉ written := by
  rw [h.written_eq]
  exact return_not_mem_flatten fun piece hpiece => isPiece_of_mem_fileLines hpiece

theorem StateLineUpdated.plainNumber {size : Nat} (h : StateLineUpdated size line other)
    (hserial : PlainNumber serialKey line) (hsize : PlainNumber sizeKey line) :
    PlainNumber serialKey other ∧ PlainNumber sizeKey other := by
  have hplain : ∀ {key front back : Text} {n : Int}, IsKey key → NumberAt key other front n back → PlainNumber key other := by
    intro key front back n hkey hat hhas m hm
    rw [int_of_strip (hat.read hkey).2] at hm
    rw [← Option.some.inj hm]
    exact (hat.read hkey).2
  obtain ⟨front, n, back, hat, rfl⟩ | ⟨-, front, n, back, hat, rfl⟩ | ⟨-, -, rfl⟩ := h
  · have hother := hat.withNumber (n + 1)
    refine ⟨hplain isKey_serialKey hother, fun hhas => ?_⟩
    have hserialOther := (hother.read isKey_serialKey).1
    rw [hasKey_serialKey_of_sizeKey hhas] at hserialOther
    cases hserialOther
  · have hother := hat.withNumber size
    refine ⟨fun hhas => ?_, hplain isKey_sizeKey hother⟩
    rw [hasKey_serialKey_of_sizeKey (hother.read isKey_sizeKey).1] at hhas
    cases hhas
  · exact ⟨hserial, hsize⟩

theorem PlainState.updated {size : Nat} (h : PlainState text) (hupdated : Updated (StateLineUpdated size) text written) :
    PlainState written := by
  have hlines : ∀ other ∈ fileLines written, PlainNumber serialKey other ∧ PlainNumber sizeKey other := fun other hother => by
    obtain ⟨line, hline, hone⟩ := (mem_of_forall₂ hupdated.lines).2 other hother
    exact hone.plainNumber (h.serials line hline) (h.sizes line hline)
  exact ⟨hupdated.noReturn, fun other hother => (hlines other hother).1, fun other hother => (hlines other hother).2⟩

/-- Lines that can be rewritten, from lines related to lines that can be. -/
theorem exists_rewriteAll {rewrite rewrite' : Text → Option Text} {R S : Text → Text → Prop} {lines others : List Text}
    (h : List.Forall₂ R lines others)
    (hone : ∀ line other, R line other → ∃ next direct, rewrite other = some next ∧ rewrite' line = some direct ∧ S next direct) :
    ∃ nexts directs, rewriteAll rewrite others = some nexts ∧ rewriteAll rewrite' lines = some directs ∧
      List.Forall₂ S nexts directs := by
  induction h with
  | nil => exact ⟨[], [], rfl, rfl, .nil⟩
  | cons hfirst _ ih =>
      obtain ⟨next, direct, hnext, hdirect, hsame⟩ := hone _ _ hfirst
      obtain ⟨nexts, directs, hnexts, hdirects, hsames⟩ := ih
      refine ⟨next :: nexts, direct :: directs, ?_, ?_, .cons hsame hsames⟩
      · rw [rewriteAll, hnext, Option.bind_some, hnexts, Option.map_some]
      · rw [rewriteAll, hdirect, Option.bind_some, hdirects, Option.map_some]

theorem any_eq_of_forall₂ {R : Text → Text → Prop} {p : Text → Bool} {lines others : List Text}
    (h : List.Forall₂ R lines others) (hone : ∀ line other, R line other → p other = p line) : others.any p = lines.any p := by
  induction h with
  | nil => rfl
  | cons hfirst _ ih => rw [List.any_cons, List.any_cons, hone _ _ hfirst, ih]

/-- **An updated state is accepted again**, and the sizes are those of the last update. -/
theorem rewriteState_again {size : Nat} (hplain : PlainState text) (hfound : foundState text = true)
    (h : rewriteState size text = some written) (later : Nat) :
    foundState written = true ∧ ∃ next direct, rewriteState later written = some next ∧
      rewriteState later text = some direct ∧ List.Forall₂ SameButSerial (fileLines next) (fileLines direct) := by
  have hupdated := rewriteState_spec hplain h
  have hsame : foundState written = foundState text := by
    rw [foundState, foundState, any_eq_of_forall₂ hupdated.lines fun line other hone => (hone.again 0).1,
      any_eq_of_forall₂ hupdated.lines fun line other hone => ?_]
    rw [(hone.again 0).1, (hone.again 0).2.1]
  obtain ⟨nexts, directs, hnexts, hdirects, hsames⟩ :=
    exists_rewriteAll hupdated.lines fun line other hone => (hone.again later).2.2
  have hnext : rewriteState later written = some nexts.flatten := by rw [rewriteState, hnexts, Option.map_some]
  have hdirect : rewriteState later text = some directs.flatten := by rw [rewriteState, hdirects, Option.map_some]
  refine ⟨hsame.trans hfound, nexts.flatten, directs.flatten, hnext, hdirect, ?_⟩
  have hlines : ∀ {before : Text} {others : List Text}, PlainState before →
      rewriteAll (rewriteStateLine later) (fileLines before) = some others → fileLines others.flatten = others :=
    fun hbefore hothers => fileLines_of_partReplaced (fun _ _ hone => StateLineUpdated.partReplaced hone)
      (stateLinesUpdated hbefore hothers)
  rw [hlines (hplain.updated hupdated) hnexts, hlines hplain hdirects]
  exact hsames

/-- **Updated variables are accepted again**, and what is written is that of the last update. -/
theorem rewriteVariables_again {isWord : Char → Bool} {size : Nat} (hfound : foundVariables text = true)
    (h : rewriteVariables isWord size text = some written) (later : Nat) :
    foundVariables written = true ∧ ∃ next, rewriteVariables isWord later written = some next ∧
      rewriteVariables isWord later text = some next := by
  obtain ⟨others, hothers, rfl⟩ := Option.map_eq_some_iff.mp h
  have hall := rewriteAll_eq_some.mp hothers
  have hwritten : fileLines others.flatten = others :=
    fileLines_of_partReplaced (fun _ _ hone => (rewriteVariablesLine_spec hone).1.partReplaced) hall
  obtain ⟨nexts, directs, hnexts, hdirects, hsames⟩ := @exists_rewriteAll (rewriteVariablesLine isWord later)
    (rewriteVariablesLine isWord later) _ Eq _ _ hall fun line other hone => by
      obtain ⟨next, hnext, hdirect⟩ := (rewriteVariablesLine_spec hone).2.2 later
      exact ⟨next, next, hnext, hdirect, rfl⟩
  rw [List.forall₂_eq_eq_eq] at hsames
  subst hsames
  refine ⟨?_, nexts.flatten, ?_, ?_⟩
  · rw [foundVariables, hwritten, any_eq_of_forall₂ hall fun line other hone => (rewriteVariablesLine_spec hone).2.1]
    exact hfound
  · rw [rewriteVariables, hwritten, hnexts, Option.map_some]
  · rw [rewriteVariables, hdirects, Option.map_some]

end

end OciHpc.Resize
