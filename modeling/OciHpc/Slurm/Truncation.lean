import Mathlib.Algebra.Order.BigOperators.Group.List
import Mathlib.Algebra.Order.Ring.Nat
import OciHpc.Slurm.TableLayout

/-!
# The longest values that fit

A notification that is too long for a publish request is built again from shorter values, by binary search.

* `escapedLength` : the characters of a text in JSON, without its quotes;
* `bisect_spec` : binary search finds the last candidate that fits, where the smaller ones fit too;
* `rowsLength_take_le` : with one character more a field is not shorter in JSON;
* `truncation_optimal` : the notification has the longest values that fit.
-/

namespace OciHpc.Slurm
open PyText (ofString join)

/-! ## Binary search -/

/-- **Binary search finds the last candidate that fits**, or none if none does. -/
theorem bisect_spec {fits : PyText → Bool} {candidate : Nat → PyText}
    (hdown : ∀ i j, i ≤ j → fits (candidate j) = true → fits (candidate i) = true) {low high : Int} (hlow : 0 ≤ low)
    (best : Option PyText) :
    (∃ k : Nat, low ≤ k ∧ k ≤ high ∧ fits (candidate k) = true ∧
        (∀ j : Nat, k < j → j ≤ high → fits (candidate j) = false) ∧
        bisect fits candidate low high best = some (candidate k)) ∨
      ((∀ j : Nat, low ≤ j → j ≤ high → fits (candidate j) = false) ∧
        bisect fits candidate low high best = best) := by
  induction low, high, best using bisect.induct fits candidate with
  | case1 low high best hle hfits ih =>
    rw [bisect, dif_pos hle, if_pos hfits]
    rcases ih (by omega) with ⟨k, hk, hkhigh, hkfits, hlast, heq⟩ | ⟨hnone, heq⟩
    · exact .inl ⟨k, by omega, hkhigh, hkfits, hlast, heq⟩
    · exact .inl ⟨((low + high) / 2).toNat, by omega, by omega, hfits, fun j hj hjhigh => hnone j (by omega) hjhigh, heq⟩
  | case2 low high best hle hfits ih =>
    rw [bisect, dif_pos hle, if_neg hfits]
    have habove : ∀ j : Nat, (low + high) / 2 ≤ j → fits (candidate j) = false := fun j hj =>
      Bool.eq_false_iff.mpr fun h => hfits (hdown _ j (by omega) h)
    rcases ih hlow with ⟨k, hk, hkhigh, hkfits, hlast, heq⟩ | ⟨hnone, heq⟩
    · refine .inl ⟨k, hk, by omega, hkfits, fun j hj hjhigh => ?_, heq⟩
      by_cases hmid : (low + high) / 2 ≤ j
      · exact habove j hmid
      · exact hlast j hj (by omega)
    · refine .inr ⟨fun j hj hjhigh => ?_, heq⟩
      by_cases hmid : (low + high) / 2 ≤ j
      · exact habove j hmid
      · exact hnone j hj (by omega)
  | case3 low high best hle =>
    rw [bisect, dif_neg hle]
    exact .inr ⟨fun j hj hjhigh => absurd (Int.le_trans hj hjhigh) hle, rfl⟩

/-! ## Lengths in JSON -/

/-- The characters of a text in JSON, without its quotes. -/
def escapedLength (t : PyText) : Nat := (t.map PyText.dumpsCharLength).sum

theorem dumpsLength_eq (t : PyText) : PyText.dumpsLength t = 2 + escapedLength t := rfl

theorem escapedLength_append (s t : PyText) : escapedLength (s ++ t) = escapedLength s + escapedLength t := by
  simp [escapedLength]

theorem escapedLength_cons (c : PyChar) (t : PyText) : escapedLength (c :: t) = PyText.dumpsCharLength c + escapedLength t := by
  simp [escapedLength]

theorem escapedLength_replicate (n : Nat) (c : PyChar) :
    escapedLength (List.replicate n c) = n * PyText.dumpsCharLength c := by
  rw [escapedLength, List.map_replicate, List.sum_replicate_nat]

theorem escapedLength_join {lines : List PyText} (hne : lines ≠ []) :
    escapedLength (join "\n" lines) + 2 = (lines.map fun line => escapedLength line + 2).sum := by
  induction lines with
  | nil => exact absurd rfl hne
  | cons line rest ih =>
    cases rest with
    | nil =>
      have hjoin : join "\n" [line] = line := by simp [join, List.intercalate]
      rw [hjoin]
      simp
    | cons next rest =>
      have hrest := ih (List.cons_ne_nil _ _)
      rw [join_cons_cons, escapedLength_append, escapedLength_cons,
        show PyText.dumpsCharLength (.scalar '\n') = 2 from by decide, List.map_cons, List.sum_cons, ← hrest]
      omega

section
variable {py : Python}

/-- **A character is at least as long in JSON as it is wide.** -/
theorem displayWidth_le_dumpsCharLength (h : Tables py) (c : PyChar) :
    displayWidth py [c] ≤ PyText.dumpsCharLength c := by
  cases c with
  | surrogate n =>
    refine Nat.le_trans (displayWidth_singleton_le _) ?_
    show 2 ≤ 6
    omega
  | scalar c =>
    by_cases hprintable : isPrintable c = true
    · have hnarrow := h.narrow c hprintable
      have hone : displayWidth py [.scalar c] = 1 := by simp [displayWidth, hnarrow.1, hnarrow.2]
      rw [hone]
      show 1 ≤ Json.dumpsCharLength c
      unfold Json.dumpsCharLength
      repeat' split
      all_goals omega
    · refine Nat.le_trans (displayWidth_singleton_le _) ?_
      show 2 ≤ Json.dumpsCharLength c
      unfold Json.dumpsCharLength
      split
      · omega
      · split
        · rename_i hrange
          exact absurd (by rw [isPrintable, Bool.and_eq_true, decide_eq_true_eq, decide_eq_true_eq]; exact hrange)
            hprintable
        · split <;> omega

/-! ## One character more -/

/-- The pieces of a value with one character more: it is put to the last piece if there is room, else it is a piece. -/
inductive OneMore (py : Python) (width : Nat) (c : PyChar) : List PyText → List PyText → Prop
  | last (front : List PyText) (piece : PyText) (h : displayWidth py piece + displayWidth py [c] ≤ width) :
      OneMore py width c (front ++ [piece]) (front ++ [piece ++ [c]])
  | new (pieces : List PyText) : OneMore py width c pieces (pieces ++ [[c]])

theorem OneMore.cons {width : Nat} {c : PyChar} {pieces more : List PyText} (first : PyText)
    (h : OneMore py width c pieces more) : OneMore py width c (first :: pieces) (first :: more) := by
  cases h with
  | last front piece hroom => exact .last (first :: front) piece hroom
  | new pieces => exact .new (first :: pieces)

theorem displayChunks_concat {width : Nat} (c : PyChar) (value current : PyText) {currentWidth : Nat}
    (hcurrent : currentWidth = displayWidth py current) :
    OneMore py width c (displayChunks py width current currentWidth value)
      (displayChunks py width current currentWidth (value ++ [c])) := by
  induction value generalizing current currentWidth with
  | nil =>
    rw [List.nil_append, displayChunks, displayChunks]
    cases current with
    | nil => exact .new []
    | cons d rest =>
      simp only [List.isEmpty_cons, Bool.not_false, Bool.true_and, decide_eq_true_eq, Bool.false_eq_true, if_false]
      split
      · exact .new [(d :: rest).reverse]
      · rename_i hroom
        have hlast : displayWidth py (d :: rest).reverse + displayWidth py [c] ≤ width := by
          rw [displayWidth_reverse, ← hcurrent]
          omega
        have hmore : OneMore py width c [(d :: rest).reverse] [(d :: rest).reverse ++ [c]] := .last [] _ hlast
        rw [← List.reverse_cons] at hmore
        rw [displayChunks, List.isEmpty_cons, if_neg Bool.false_ne_true]
        exact hmore
  | cons d rest ih =>
    rw [List.cons_append, displayChunks, displayChunks]
    split
    · exact (ih [d] rfl).cons _
    · have hcons := @displayWidth_cons py d current
      exact ih (d :: current) (by omega)

theorem wrapTableValue_concat {width : Nat} (hwidth : 2 ≤ width) (c : PyChar) (value : PyText) :
    OneMore py width c (wrapTableValue py value width) (wrapTableValue py (value ++ [c]) width) := by
  have hmore := @displayChunks_concat py width c value [] 0 rfl
  unfold wrapTableValue
  generalize hchunks : displayChunks py width [] 0 value = chunks at hmore ⊢
  generalize displayChunks py width [] 0 (value ++ [c]) = longer at hmore ⊢
  cases hmore with
  | last front piece hroom =>
    have hne : ∀ piece : PyText, front ++ [piece] ≠ [] := fun piece => by simp
    split
    · rename_i hnil
      exact absurd hnil (hne _)
    · split
      · rename_i hnil
        exact absurd hnil (hne _)
      · exact .last front piece hroom
  | new =>
    cases chunks with
    | nil => exact .last [] [] (Nat.le_trans (by rw [show displayWidth py [] = 0 from rfl, Nat.zero_add]) (Nat.le_trans (displayWidth_singleton_le c) hwidth))
    | cons first rest => exact .new (first :: rest)

/-! ## One field -/

/-- The lines of a field in JSON, with their breaks. -/
def rowsLength (py : Python) (label : String) (pieces : List PyText) : Nat :=
  ((rowsOf py label pieces).map fun line => escapedLength line + 2).sum

theorem escapedLength_padTableValue (value : PyText) (width : Nat) :
    escapedLength (padTableValue py value width) = escapedLength value + (width - displayWidth py value) := by
  have hblank : PyText.dumpsCharLength (.scalar ' ') = 1 := by decide
  rw [padTableValue, escapedLength_append, escapedLength_replicate, hblank, Nat.mul_one]

/-- A row with one character more, where there is room for it. -/
theorem escapedLength_tableLine_le (h : Tables py) (label : String) (piece : PyText) (c : PyChar) :
    escapedLength (tableLine py label piece) ≤ escapedLength (tableLine py label (piece ++ [c])) := by
  have hc := displayWidth_le_dumpsCharLength h c
  have hone : escapedLength [c] = PyText.dumpsCharLength c := by simp [escapedLength]
  simp only [tableLine, escapedLength_append, escapedLength_padTableValue, displayWidth_append, hone]
  omega

theorem rowsOf_append (label : String) {front : List PyText} (hne : front ≠ []) (back : List PyText) :
    rowsOf py label (front ++ back) = rowsOf py label front ++ back.map (tableLine py "") := by
  obtain ⟨first, rest, rfl⟩ := List.exists_cons_of_ne_nil hne
  simp [rowsOf]

theorem rowsLength_le (h : Tables py) (label : String) {c : PyChar} {pieces more : List PyText}
    (hmore : OneMore py tableValueWidth c pieces more) : rowsLength py label pieces ≤ rowsLength py label more := by
  unfold rowsLength
  cases hmore with
  | last front piece =>
    by_cases hfront : front = []
    · subst hfront
      have hline := escapedLength_tableLine_le h label piece c
      simp only [List.nil_append, rowsOf, List.map_nil, List.map_cons, List.sum_cons, List.sum_nil]
      omega
    · have hline := escapedLength_tableLine_le h "" piece c
      rw [rowsOf_append label hfront, rowsOf_append label hfront]
      simp only [List.map_append, List.sum_append, List.map_cons, List.map_nil, List.sum_cons, List.sum_nil]
      omega
  | new =>
    by_cases hpieces : pieces = []
    · subst hpieces
      exact Nat.zero_le _
    · rw [rowsOf_append label hpieces, List.map_append, List.sum_append]
      exact Nat.le_add_right _ _

theorem take_succ_eq {value : PyText} {m : Nat} (h : m < value.length) :
    value.take (m + 1) = value.take m ++ [value[m]] := List.take_succ_eq_append_getElem h

/-- **With one character more a field is not shorter in JSON.** -/
theorem rowsLength_take_le (h : Tables py) (label : String) (value : PyText) (m : Nat) :
    rowsLength py label (wrapTableValue py (value.take m) tableValueWidth) ≤
      rowsLength py label (wrapTableValue py (value.take (m + 1)) tableValueWidth) := by
  by_cases hm : m < value.length
  · rw [take_succ_eq hm]
    exact rowsLength_le h label (wrapTableValue_concat (by decide) _ _)
  · rw [List.take_of_length_le (by omega), List.take_of_length_le (by omega)]

/-! ## The body -/

theorem limitTableValue_some (value : Option PyText) (m : Nat) :
    limitTableValue py value (some m) = (normalizeTableValue py value).take m := by
  simp only [limitTableValue]
  split
  · rename_i hshort
    rw [List.take_of_length_le hshort]
  · rfl

theorem escapedLength_take_le (value : PyText) (m : Nat) :
    escapedLength (value.take m) ≤ escapedLength (value.take (m + 1)) := by
  by_cases hm : m < value.length
  · rw [take_succ_eq hm, escapedLength_append]
    exact Nat.le_add_right _ _
  · rw [List.take_of_length_le (by omega), List.take_of_length_le (by omega)]

theorem bodyLines_ne_nil (job : Job) (limit : Option Nat) : bodyLines py job limit ≠ [] :=
  List.append_ne_nil_of_right_ne_nil _ (List.cons_ne_nil _ _)

theorem sum_fieldRows (job : Job) (limit : Option Nat) :
    ((fieldRows py job limit).map fun line => escapedLength line + 2).sum =
      ((notificationFields job).map fun field => rowsLength py field.1 (piecesOf py limit field)).sum := by
  rw [fieldRows]
  induction notificationFields job with
  | nil => rfl
  | cons field rest ih =>
    rw [List.flatMap_cons, List.map_append, List.sum_append, ih, List.map_cons, List.sum_cons]
    rfl

def openingLines (py : Python) : List PyText :=
  [ofString "Slurm Job Notification", [], tableBorder, headerLine py, tableBorder]

/-- The lines above the rows in JSON, with their breaks. -/
def openingLength (py : Python) : Nat := ((openingLines py).map fun line => escapedLength line + 2).sum

theorem openingLength_le : openingLength py ≤ 500 := by
  have hheader : escapedLength (headerLine py) ≤ 90 := by
    have hitem : escapedLength (ofString "Item") = 4 := by decide
    have hvalue : escapedLength (ofString "Value") = 5 := by decide
    have hopen : escapedLength (ofString "| ") = 2 := by decide
    have hmiddle : escapedLength (ofString " | ") = 3 := by decide
    have hclose : escapedLength (ofString " |") = 2 := by decide
    simp only [headerLine, tableLine, escapedLength_append, escapedLength_padTableValue, hitem, hvalue, hopen, hmiddle,
      hclose, tableLabelWidth, tableValueWidth]
    omega
  have htitle : escapedLength (ofString "Slurm Job Notification") = 22 := by decide +kernel
  have hempty : escapedLength [] = 0 := rfl
  have hborder : escapedLength tableBorder = 77 := by decide +kernel
  simp only [openingLength, openingLines, List.map_cons, List.map_nil, List.sum_cons, List.sum_nil, htitle, hempty,
    hborder]
  omega

def fieldsLength (py : Python) (job : Job) (limit : Option Nat) : Nat :=
  ((notificationFields job).map fun field => rowsLength py field.1 (piecesOf py limit field)).sum

/-- The part of a body in JSON that does not depend on the limit. -/
def fixedLength (py : Python) : Nat := openingLength py + escapedLength tableBorder + 4

theorem sum_bodyLines (job : Job) (limit : Option Nat) :
    ((bodyLines py job limit).map fun line => escapedLength line + 2).sum =
      openingLength py + fieldsLength py job limit + (escapedLength tableBorder + 2) + 2 +
        (escapedLength (footerLine py job limit) + 2) := by
  have hlines : bodyLines py job limit =
      openingLines py ++ fieldRows py job limit ++ [tableBorder, [], footerLine py job limit] := rfl
  have hempty : escapedLength [] = 0 := rfl
  rw [hlines, List.map_append, List.map_append, List.sum_append, List.sum_append, sum_fieldRows, ← openingLength,
    ← fieldsLength]
  simp only [List.map_cons, List.map_nil, List.sum_cons, List.sum_nil, hempty]
  generalize escapedLength tableBorder = border
  omega

theorem escapedLength_body (job : Job) (limit : Option Nat) : escapedLength (buildNotificationBody py job limit) =
    fixedLength py + fieldsLength py job limit + escapedLength (footerLine py job limit) := by
  have hsum := escapedLength_join (@bodyLines_ne_nil py job limit)
  rw [sum_bodyLines, ← buildNotificationBody_eq] at hsum
  rw [fixedLength]
  generalize escapedLength tableBorder = border at hsum ⊢
  omega

theorem escapedLength_body_le (h : Tables py) (job : Job) (m : Nat) :
    escapedLength (buildNotificationBody py job (some m)) ≤
      escapedLength (buildNotificationBody py job (some (m + 1))) := by
  have hfield : ∀ field, rowsLength py field.1 (piecesOf py (some m) field) ≤
      rowsLength py field.1 (piecesOf py (some (m + 1)) field) := fun field => by
    rw [piecesOf, piecesOf, limitTableValue_some, limitTableValue_some]
    exact rowsLength_take_le h field.1 _ m
  have hrows : fieldsLength py job (some m) ≤ fieldsLength py job (some (m + 1)) :=
    List.sum_le_sum fun field _ => hfield field
  have hfooter : escapedLength (footerLine py job (some m)) ≤ escapedLength (footerLine py job (some (m + 1))) := by
    have hvalue := escapedLength_take_le (normalizeTableValue py job.clusterName) m
    simp only [footerLine, escapedLength_append, limitTableValue_some]
    omega
  rw [escapedLength_body, escapedLength_body]
  exact Nat.add_le_add (Nat.add_le_add_left hrows _) hfooter

theorem escapedLength_body_mono (h : Tables py) (job : Job) {m n : Nat} (hle : m ≤ n) :
    escapedLength (buildNotificationBody py job (some m)) ≤ escapedLength (buildNotificationBody py job (some n)) := by
  induction hle with
  | refl => exact Nat.le_refl _
  | step _ ih => exact Nat.le_trans ih (escapedLength_body_le h job _)

theorem dumpsCharLength_le (c : PyChar) : PyText.dumpsCharLength c ≤ 12 := by
  cases c with
  | surrogate n =>
    show 6 ≤ 12
    omega
  | scalar c =>
    show Json.dumpsCharLength c ≤ 12
    unfold Json.dumpsCharLength
    repeat' split
    all_goals omega

theorem wrapTableValue_short {value : PyText} (h : value.length ≤ 1) (width : Nat) : wrapTableValue py value width = [value] := by
  cases value with
  | nil => rfl
  | cons c rest =>
    have hrest : rest = [] := List.length_eq_zero_iff.mp (Nat.le_zero.mp (Nat.le_of_succ_le_succ h))
    subst hrest
    rfl

theorem escapedLength_short {value : PyText} (h : value.length ≤ 1) : escapedLength value ≤ 12 := by
  cases value with
  | nil => exact Nat.zero_le _
  | cons c rest =>
    have hrest : rest = [] := List.length_eq_zero_iff.mp (Nat.le_zero.mp (Nat.le_of_succ_le_succ h))
    subst hrest
    have hc := dumpsCharLength_le c
    rw [escapedLength_cons]
    exact hc

theorem rowsLength_one_le {job : Job} {field : String × Option PyText} (hfield : field ∈ notificationFields job) :
    rowsLength py field.1 (piecesOf py (some 1) field) ≤ 200 := by
  have hlabels : fieldLabels.all (fun label => escapedLength (ofString label) ≤ 18) = true := by decide +kernel
  have hlabel := of_decide_eq_true (List.all_eq_true.mp hlabels field.1 (List.mem_map_of_mem (f := Prod.fst) hfield))
  have hshort : (limitTableValue py field.2 (some 1)).length ≤ 1 := by
    rw [limitTableValue_some]
    exact List.length_take_le 1 _
  have hvalue := escapedLength_short hshort
  have hopen : escapedLength (ofString "| ") = 2 := by decide
  have hmiddle : escapedLength (ofString " | ") = 3 := by decide
  have hclose : escapedLength (ofString " |") = 2 := by decide
  rw [piecesOf, wrapTableValue_short hshort]
  simp only [rowsLength, rowsOf, List.map_cons, List.map_nil, List.sum_cons, List.sum_nil, tableLine,
    escapedLength_append, escapedLength_padTableValue, hopen, hmiddle, hclose, tableLabelWidth, tableValueWidth]
  omega

theorem sum_map_le_mul {α : Type} {f : α → Nat} {bound : Nat} {xs : List α} (h : ∀ x ∈ xs, f x ≤ bound) :
    (xs.map f).sum ≤ xs.length * bound := by
  have hsum := List.sum_le_card_nsmul (xs.map f) bound fun n hn => by
    obtain ⟨x, hx, rfl⟩ := List.mem_map.mp hn
    exact h x hx
  rwa [List.length_map, nsmul_eq_mul, Nat.cast_id] at hsum

theorem escapedLength_body_one_le (job : Job) : escapedLength (buildNotificationBody py job (some 1)) ≤ 5000 := by
  have hopening := @openingLength_le py
  have hrows : fieldsLength py job (some 1) ≤ 15 * 200 :=
    sum_map_le_mul fun field hfield => rowsLength_one_le hfield
  have hborder : escapedLength tableBorder = 77 := by decide +kernel
  have hcluster : escapedLength (limitTableValue py job.clusterName (some 1)) ≤ 12 := escapedLength_short (by
    rw [limitTableValue_some]
    exact List.length_take_le 1 _)
  have hsentence : escapedLength
      (ofString "This message was generated automatically by Slurm on cluster \"") ≤ 100 := by decide +kernel
  have hstop : escapedLength (ofString "\".") ≤ 3 := by decide
  rw [escapedLength_body, fixedLength, footerLine, escapedLength_append, escapedLength_append, hborder]
  omega

/-! ## The limit of a request -/

theorem fits_iff (title body : PyText) :
    fits title body = true ↔ PyText.dumpsLength title + escapedLength body + 23 ≤ maxPublishPayloadBytes := by
  have hconst : payloadSize (PyText.dumpsLength title) (PyText.dumpsLength body) =
      PyText.dumpsLength title + PyText.dumpsLength body + 21 := by
    unfold payloadSize
    change 10 + _ + 10 + _ + 1 = _
    omega
  rw [fits, textPayloadSize, hconst, decide_eq_true_eq, dumpsLength_eq body]
  omega

theorem fits_of_le {title short long : PyText} (hle : escapedLength short ≤ escapedLength long)
    (h : fits title long = true) : fits title short = true := by
  rw [fits_iff] at h ⊢
  omega

theorem escapedLength_truncationSuffix : escapedLength truncationSuffix ≤ 1000 := by decide +kernel

theorem fits_of_escapedLength_le {title body : PyText} (htitle : ∃ s, PyText.chars title = some s)
    (hbytes : PyText.byteLength title ≤ maxTitleBytes) (hbody : escapedLength body ≤ 6000) : fits title body = true := by
  obtain ⟨s, hs⟩ := htitle
  have hlength := PyText.dumpsLength_le hs
  rw [maxTitleBytes] at hbytes
  rw [fits_iff, maxPublishPayloadBytes]
  omega

/-- A body whose values have `maximumCharacters` at most, with the mark that it is cut. -/
def limitedBody (py : Python) (job : Job) (maximumCharacters : Nat) : PyText :=
  buildNotificationBody py job (some maximumCharacters) ++ truncationSuffix

theorem fits_limitedBody_of_le (h : Tables py) {title : PyText} {job : Job} {m n : Nat} (hle : m ≤ n)
    (hfits : fits title (limitedBody py job n) = true) : fits title (limitedBody py job m) = true := by
  have hbody := escapedLength_body_mono h job hle
  refine fits_of_le ?_ hfits
  rw [limitedBody, limitedBody, escapedLength_append, escapedLength_append]
  exact Nat.add_le_add_right hbody _

def longestValue (py : Python) (job : Job) : Nat :=
  (((notificationFields job).map fun e => normalizeTableValue py e.2).map List.length).foldl max 0

theorem le_foldl_max {n start : Nat} {xs : List Nat} (h : n ≤ start ∨ n ∈ xs) : n ≤ xs.foldl max start := by
  induction xs generalizing start with
  | nil => exact h.resolve_right List.not_mem_nil
  | cons x rest ih =>
    refine ih ?_
    rcases h with h | h
    · exact .inl (Nat.le_trans h (Nat.le_max_left ..))
    · rcases List.mem_cons.mp h with rfl | h
      · exact .inl (Nat.le_max_right ..)
      · exact .inr h

theorem length_le_longestValue {job : Job} {field : String × Option PyText} (h : field ∈ notificationFields job) :
    (normalizeTableValue py field.2).length ≤ longestValue py job :=
  le_foldl_max (.inr (List.mem_map_of_mem (List.mem_map_of_mem (f := fun e => normalizeTableValue py e.2) h)))

theorem foldl_max_cast (xs : List Nat) (start : Nat) :
    List.foldl max (start : Int) (xs >>= fun x => pure (x : Int)) = (xs.foldl max start : Nat) := by
  induction xs generalizing start with
  | nil => rfl
  | cons x rest ih =>
    have hmax : max (start : Int) x = (max start x : Nat) := by omega
    show List.foldl max (max (start : Int) x) (rest >>= fun x => pure (x : Int)) = _
    rw [hmax, ih]
    rfl

theorem buildNotificationBodyForPublish_eq {title : PyText} {job : Job}
    (hlong : fits title (buildNotificationBody py job none) = false) :
    buildNotificationBodyForPublish py title job =
      match bisect (fits title) (limitedBody py job) 1 (longestValue py job) none with
      | some best => best
      | none => fitBodyToPublishLimit title (limitedBody py job 1) := by
  have hcast := foldl_max_cast (((notificationFields job).map fun e => normalizeTableValue py e.2).map List.length) 0
  rw [buildNotificationBodyForPublish, if_neg (Bool.eq_false_iff.mp hlong), longestValue, ← hcast]
  rfl

/-- A limit that no value exceeds changes nothing. -/
theorem buildNotificationBody_some {job : Job} {m : Nat} (h : longestValue py job ≤ m) :
    buildNotificationBody py job (some m) = buildNotificationBody py job none := by
  have hvalue : ∀ field ∈ notificationFields job, limitTableValue py field.2 (some m) = limitTableValue py field.2 none :=
    fun field hfield => by
      rw [limitTableValue_some]
      exact List.take_of_length_le (Nat.le_trans (length_le_longestValue hfield) h)
  have hcluster := hvalue ("Cluster", job.clusterName) List.mem_cons_self
  have hrows : fieldRows py job (some m) = fieldRows py job none :=
    List.flatMap_congr fun field hfield => by rw [piecesOf, piecesOf, hvalue field hfield]
  rw [buildNotificationBody_eq, buildNotificationBody_eq, bodyLines, bodyLines, hrows, footerLine, footerLine, hcluster]

/-! ## The longest values that fit -/

theorem buildNotificationBodyForPublish_longest (h : Tables py) {title : PyText}
    (htitle : ∃ s, PyText.chars title = some s) (hbytes : PyText.byteLength title ≤ maxTitleBytes) {job : Job}
    (hlong : fits title (buildNotificationBody py job none) = false) :
    ∃ m, 1 ≤ m ∧ buildNotificationBodyForPublish py title job = limitedBody py job m ∧
      ∀ j, fits title (limitedBody py job j) = true ↔ j ≤ m := by
  have hone : fits title (limitedBody py job 1) = true := by
    have hbody := @escapedLength_body_one_le py job
    have hsuffix := escapedLength_truncationSuffix
    refine fits_of_escapedLength_le htitle hbytes ?_
    rw [limitedBody, escapedLength_append]
    omega
  -- from the longest value on the limit is none, and the mark comes on top
  have hunlimited : ∀ j, longestValue py job ≤ j → fits title (limitedBody py job j) = false := fun j hj => by
    refine Bool.eq_false_iff.mpr fun hfits => ?_
    have hbody : fits title (buildNotificationBody py job none) = true := by
      refine fits_of_le ?_ hfits
      rw [limitedBody, buildNotificationBody_some hj, escapedLength_append]
      exact Nat.le_add_right ..
    rw [hlong] at hbody
    exact Bool.false_ne_true hbody
  have hsearch := @bisect_spec (fits title) (limitedBody py job) (fun i j => fits_limitedBody_of_le h) 1
    (longestValue py job) (by omega) none
  rcases hsearch with ⟨m, hm, hmhigh, hmfits, hlast, heq⟩ | ⟨hnone, -⟩
  · refine ⟨m, by omega, ?_, fun j => ⟨fun hj => ?_, fun hj => fits_limitedBody_of_le h hj hmfits⟩⟩
    · rw [buildNotificationBodyForPublish_eq hlong, heq]
    · refine Nat.le_of_not_lt fun hmj => ?_
      have hfalse : fits title (limitedBody py job j) = false := by
        by_cases hhigh : (j : Int) ≤ longestValue py job
        · exact hlast j hmj hhigh
        · exact hunlimited j (by omega)
      rw [hfalse] at hj
      exact Bool.false_ne_true hj
  · have hfalse : fits title (limitedBody py job 1) = false := by
      by_cases hhigh : (1 : Int) ≤ longestValue py job
      · exact hnone 1 (by omega) hhigh
      · exact hunlimited 1 (by omega)
    rw [hfalse] at hone
    exact absurd hone Bool.false_ne_true

theorem fitBodyToPublishLimit_longest {title : PyText} (htitle : ∃ s, PyText.chars title = some s)
    (hbytes : PyText.byteLength title ≤ maxTitleBytes) {body : PyText} (hlong : fits title body = false) :
    ∃ k, k ≤ body.length ∧ fitBodyToPublishLimit title body = body.take k ++ truncationSuffix ∧
      ∀ j, j ≤ body.length → (fits title (body.take j ++ truncationSuffix) = true ↔ j ≤ k) := by
  have hdown : ∀ i j, i ≤ j → fits title (body.take j ++ truncationSuffix) = true →
      fits title (body.take i ++ truncationSuffix) = true := fun i j hij hfits => by
    obtain ⟨rest, hrest⟩ := List.take_prefix_take_left (l := body) hij
    refine fits_of_le ?_ hfits
    rw [← hrest, escapedLength_append, escapedLength_append, escapedLength_append]
    omega
  have hzero : fits title (body.take 0 ++ truncationSuffix) = true :=
    fits_of_escapedLength_le htitle hbytes (Nat.le_trans escapedLength_truncationSuffix (by omega))
  have hsearch := @bisect_spec (fits title) (fun midpoint => body.take midpoint ++ truncationSuffix) hdown 0 body.length
    (Int.le_refl 0) (some truncationSuffix)
  rcases hsearch with ⟨k, -, hkhigh, hkfits, hlast, heq⟩ | ⟨hnone, -⟩
  · refine ⟨k, by omega, ?_, fun j hj => ⟨fun hfits => ?_, fun hjk => hdown j k hjk hkfits⟩⟩
    · rw [fitBodyToPublishLimit, if_neg (Bool.eq_false_iff.mp hlong), heq]
      rfl
    · refine Nat.le_of_not_lt fun hkj => ?_
      rw [hlast j hkj (by omega)] at hfits
      exact Bool.false_ne_true hfits
  · have hfalse := hnone 0 (Int.le_refl 0) (by omega)
    rw [hzero] at hfalse
    exact absurd hfalse.symm Bool.false_ne_true

/-- **A notification has the longest values that fit, and a text its longest part that fits.** Both come back whole if
they fit whole. -/
theorem truncation_optimal (h : Tables py) {title : PyText} (htitle : ∃ s, PyText.chars title = some s)
    (hbytes : PyText.byteLength title ≤ maxTitleBytes) :
    (∀ job, (fits title (buildNotificationBody py job none) = true →
          buildNotificationBodyForPublish py title job = buildNotificationBody py job none) ∧
        (fits title (buildNotificationBody py job none) = false →
          ∃ m, 1 ≤ m ∧ buildNotificationBodyForPublish py title job = limitedBody py job m ∧
            ∀ j, fits title (limitedBody py job j) = true ↔ j ≤ m)) ∧
      ∀ body, (fits title body = true → fitBodyToPublishLimit title body = body) ∧
        (fits title body = false →
          ∃ k, k ≤ body.length ∧ fitBodyToPublishLimit title body = body.take k ++ truncationSuffix ∧
            ∀ j, j ≤ body.length → (fits title (body.take j ++ truncationSuffix) = true ↔ j ≤ k)) := by
  refine ⟨fun job => ⟨fun hfits => ?_, buildNotificationBodyForPublish_longest h htitle hbytes⟩,
    fun body => ⟨fun hfits => ?_, fitBodyToPublishLimit_longest htitle hbytes⟩⟩
  · rw [buildNotificationBodyForPublish, if_pos hfits]
  · rw [fitBodyToPublishLimit, if_pos hfits]

end

def longText : PyText := List.replicate 61440 (.scalar 'x')

theorem fits_longText (title : PyText) {body : PyText} (h : escapedLength longText ≤ escapedLength body) :
    fits title body = false := by
  have hchar : PyText.dumpsCharLength (.scalar 'x') = 1 := by decide
  rw [longText, escapedLength_replicate, hchar] at h
  refine Bool.eq_false_iff.mpr fun hfits => ?_
  rw [fits_iff, maxPublishPayloadBytes] at hfits
  omega

theorem words_replicate (n : Nat) (word : PyText) :
    PyText.words asciiPython.isSpace (.scalar 'x' :: word) (List.replicate n (.scalar 'x')) =
      [(.scalar 'x' :: word).reverse ++ List.replicate n (.scalar 'x')] := by
  induction n generalizing word with
  | zero => rw [List.replicate_zero, List.append_nil, PyText.words, if_neg (by simp)]
  | succ n ih =>
    have hspace : asciiPython.isSpace (.scalar 'x') = false := by decide
    rw [List.replicate_succ, PyText.words, if_neg (by simp [hspace]), ih]
    simp

/-- A text of letters stands in the table as it is. -/
theorem normalizeTableValue_replicate (n : Nat) :
    normalizeTableValue asciiPython (some (List.replicate (n + 1) (.scalar 'x'))) =
      List.replicate (n + 1) (.scalar 'x') := by
  have hspace : asciiPython.isSpace (.scalar 'x') = false := by decide
  have hcategory : asciiPython.otherCategory (.scalar 'x') = false := by decide
  have hsplit : PyText.split asciiPython.isSpace (List.replicate (n + 1) (.scalar 'x')) =
      [List.replicate (n + 1) (.scalar 'x')] := by
    rw [PyText.split, List.replicate_succ, PyText.words, if_neg (by simp [hspace]), words_replicate]
    rfl
  have hletters : ∀ f : PyChar → PyText, f (.scalar 'x') = [.scalar 'x'] →
      (List.replicate (n + 1) (.scalar 'x')).flatMap f = List.replicate (n + 1) (.scalar 'x') := by
    intro f hf
    rw [List.flatMap_replicate, hf, List.flatten_replicate_singleton]
  unfold normalizeTableValue
  dsimp only
  rw [hletters _ (by simp [hspace, hcategory]), hsplit, orElse, PyText.join, List.intercalate_singleton,
    List.replicate_succ]
  rfl

/-- A job on a cluster with a name that is too long. -/
def longJob : Job := { annJob with clusterName := some longText }

theorem fits_longJob (title : PyText) : fits title (buildNotificationBody asciiPython longJob none) = false := by
  have hname : limitTableValue asciiPython longJob.clusterName none = longText := normalizeTableValue_replicate 61439
  refine fits_longText title ?_
  rw [escapedLength_body, footerLine, hname, escapedLength_append, escapedLength_append]
  omega

/-- The notification of the job and the text itself are cut where no longer one fits. -/
theorem truncation_optimal_longText :
    (∃ m, 1 ≤ m ∧ buildNotificationBodyForPublish asciiPython (ofString "[Slurm] job 17 END") longJob =
        limitedBody asciiPython longJob m ∧
      ∀ j, fits (ofString "[Slurm] job 17 END") (limitedBody asciiPython longJob j) = true ↔ j ≤ m) ∧
    ∃ k, k ≤ longText.length ∧
      fitBodyToPublishLimit (ofString "[Slurm] job 17 END") longText = longText.take k ++ truncationSuffix ∧
      ∀ j, j ≤ longText.length →
        (fits (ofString "[Slurm] job 17 END") (longText.take j ++ truncationSuffix) = true ↔ j ≤ k) := by
  have htitle : PyText.chars (ofString "[Slurm] job 17 END") = some "[Slurm] job 17 END".toList := by decide
  have hbytes : PyText.byteLength (ofString "[Slurm] job 17 END") ≤ maxTitleBytes := by decide
  obtain ⟨hbodies, htexts⟩ := truncation_optimal tables_asciiPython ⟨_, htitle⟩ hbytes
  exact ⟨(hbodies longJob).2 (fits_longJob _), (htexts longText).2 (fits_longText _ (Nat.le_refl _))⟩

end OciHpc.Slurm
