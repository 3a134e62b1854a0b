import OciHpc.Resize.BlockVolume
import OciHpc.Resize.HostLine
import OciHpc.Resize.UnterminatedLine

/-!
# The lines of a Terraform state and of its variables

How `updateTFState` of `resize.py` rewrites the lines of two files.

* `rewriteStateLine` : the number after `"serial":` or `"size":`, replaced as a string;
* `nodeCountMatch`, `rewriteVariablesLine` : the default of `node_count`, found with a regular expression;
* `NumberAt`, `StateLineUpdated`, `DefaultAt`, `VariablesLineUpdated` : what a rewritten line is to be;
* `rewriteStateLine_spec`, `rewriteVariablesLine_spec` : it is, and can be rewritten again.
-/

namespace OciHpc.Resize

/-! ## What is rewritten -/

/-- `line.replace(old, new, 1)`, for `old` that is not empty. -/
def replaceFirst (old new : Text) : Text → Text
  | [] => []
  | c :: rest =>
      if old.isPrefixOf (c :: rest) then new ++ (c :: rest).drop old.length else c :: replaceFirst old new rest

/-- `line.strip().startswith(key)`. -/
def hasKey (key line : Text) : Bool := key.isPrefixOf (strip line)

def serialKey : Text := "\"serial\":".toList

def sizeKey : Text := "\"size\":".toList

/-- `stripped_line.split(key, 1)[1].split(',', 1)[0]`, where the line begins with the key. -/
def numberText (key line : Text) : Text := ((strip line).drop key.length).takeWhile (· ≠ ',')

/-- A line of the state: `none` is a `ValueError` of `int`. -/
def rewriteStateLine (size : Nat) (line : Text) : Option Text :=
  if hasKey serialKey line then
    (PyStr.int (numberText serialKey line)).map fun serial => replaceFirst (strInt serial) (strInt (serial + 1)) line
  else if hasKey sizeKey line then
    (PyStr.int (numberText sizeKey line)).map fun currentSize => replaceFirst (strInt currentSize) (strInt size) line
  else some line

def nodeCountKey : Text := "variable \"node_count\"".toList

/-- `\bdefault\s*=\s*(?P<quote>"?)(?P<value>[0-9]+)(?P=quote)` at this place, after the character `before`: what is
matched before the value, the value, and what follows it. `isWord` is `\w`. -/
def nodeCountAt (isWord : Char → Bool) (before : Option Char) (s : Text) : Option (Text × Text × Text) :=
  if before.any isWord || !"default".toList.isPrefixOf s then none
  else
    let afterName := s.drop 7
    match afterName.dropWhile PyStr.isSpace with
    | '=' :: afterEquals =>
        let front := "default".toList ++ afterName.takeWhile PyStr.isSpace ++ '=' :: afterEquals.takeWhile PyStr.isSpace
        match afterEquals.dropWhile PyStr.isSpace with
        | '"' :: body =>
            let back := body.dropWhile Char.isDigit
            if body.takeWhile Char.isDigit = [] ∨ back.head? ≠ some '"' then none
            else some (front ++ ['"'], body.takeWhile Char.isDigit, back)
        | body =>
            if body.takeWhile Char.isDigit = [] then none
            else some (front, body.takeWhile Char.isDigit, body.dropWhile Char.isDigit)
    | _ => none

/-- `re.search`: the first place with a match. -/
def nodeCountMatch (isWord : Char → Bool) : Option Char → Text → Option (Text × Text × Text)
  | _, [] => none
  | before, c :: rest =>
      match nodeCountAt isWord before (c :: rest) with
      | some found => some found
      | none => (nodeCountMatch isWord (some c) rest).map fun found => (c :: found.1, found.2)

/-- A line of the variables: `none` is the unsupported format. -/
def rewriteVariablesLine (isWord : Char → Bool) (size : Nat) (line : Text) : Option Text :=
  if hasKey nodeCountKey line then
    (nodeCountMatch isWord none line).map fun found => found.1 ++ strInt size ++ found.2.2
  else some line

/-- Each line rewritten; `none` where one cannot be. -/
def rewriteAll (rewrite : Text → Option Text) : List Text → Option (List Text)
  | [] => some []
  | line :: rest => (rewrite line).bind fun other => (rewriteAll rewrite rest).map (other :: ·)

/-! ## What a rewritten line is to be -/

def IsBlank (s : Text) : Prop := ∀ c ∈ s, PyStr.isSpace c = true

/-- The line has the number `n` after its key, between `front` and `back`. -/
structure NumberAt (key line front : Text) (n : Int) (back : Text) : Prop where
  line_eq : line = front ++ strInt n ++ back
  front_eq : ∃ indent space, front = indent ++ key ++ space ∧ IsBlank indent ∧ IsBlank space
  back_eq : ∃ space more, back = space ++ more ∧ IsBlank space ∧ (more = [] ∨ ∃ rest, more = ',' :: rest)

/-- The serial is increased by one, a size is the new size, and all else is as it was. -/
def StateLineUpdated (size : Nat) (line other : Text) : Prop :=
  (∃ front n back, NumberAt serialKey line front n back ∧ other = front ++ strInt (n + 1) ++ back) ∨
    (hasKey serialKey line = false ∧ ∃ front n back, NumberAt sizeKey line front n back ∧
      other = front ++ strInt size ++ back) ∨
    hasKey serialKey line = false ∧ hasKey sizeKey line = false ∧ other = line

/-- The line has the value as the default, quoted or not. -/
structure DefaultAt (line front value back : Text) : Prop where
  line_eq : line = front ++ value ++ back
  value_digits : value ≠ [] ∧ ∀ c ∈ value, c.isDigit = true
  front_eq : ∃ before space space' quote, front = before ++ "default".toList ++ space ++ '=' :: space' ++ quote ∧
    IsBlank space ∧ IsBlank space' ∧ (quote = [] ∨ quote = ['"'] ∧ back.head? = some '"')
  back_head : ∀ c, back.head? = some c → c.isDigit = false

/-- The digits of the default are those of the size, and all else is as it was, quotes included. -/
def VariablesLineUpdated (size : Nat) (line other : Text) : Prop :=
  (hasKey nodeCountKey line = true ∧ ∃ front value back, DefaultAt line front value back ∧
      other = front ++ strInt size ++ back) ∨
    hasKey nodeCountKey line = false ∧ other = line

/-- `int` reads numbers that are written otherwise too. -/
def PlainNumber (key line : Text) : Prop :=
  hasKey key line = true → ∀ n, PyStr.int (numberText key line) = some n → strip (numberText key line) = strInt n

/-! ## Lines one by one -/

theorem rewriteAll_eq_some {rewrite : Text → Option Text} {lines others : List Text} :
    rewriteAll rewrite lines = some others ↔ List.Forall₂ (fun line other => rewrite line = some other) lines others := by
  induction lines generalizing others with
  | nil =>
      rw [rewriteAll, List.forall₂_nil_left_iff, Option.some_inj, eq_comm]
  | cons line rest ih =>
      rw [rewriteAll, Option.bind_eq_some_iff]
      constructor
      · rintro ⟨other, hother, hrest⟩
        obtain ⟨more, hmore, rfl⟩ := Option.map_eq_some_iff.mp hrest
        exact .cons hother (ih.mp hmore)
      · intro h
        obtain ⟨other, more, hother, hmore, rfl⟩ := List.forall₂_cons_left_iff.mp h
        exact ⟨other, hother, by rw [ih.mpr hmore]; rfl⟩

theorem replaceFirst_append {c : Char} {old front : Text} (hc : c ∉ front) (new back : Text) :
    replaceFirst (c :: old) new (front ++ (c :: old) ++ back) = front ++ new ++ back := by
  induction front with
  | nil =>
      have hprefix : (c :: old).isPrefixOf (c :: (old ++ back)) = true :=
        List.isPrefixOf_iff_prefix.mpr (List.prefix_append (c :: old) back)
      rw [List.nil_append, List.cons_append, replaceFirst, if_pos hprefix, ← List.cons_append, List.drop_left,
        List.nil_append]
  | cons d front ih =>
      have hd : c ≠ d := List.ne_of_not_mem_cons hc
      have hprefix : (c :: old).isPrefixOf (d :: (front ++ (c :: old) ++ back)) = false := by
        simp [List.isPrefixOf, hd]
      rw [List.cons_append, List.cons_append, replaceFirst, hprefix, if_neg Bool.false_ne_true,
        ih (List.not_mem_of_not_mem_cons hc), List.cons_append, List.cons_append]

/-! ### Keys -/

/-- A key with no white space at its ends. -/
structure IsKey (key : Text) : Prop where
  nonempty : key ≠ []
  head : ∀ c, key.head? = some c → PyStr.isSpace c = false
  last : ∀ c, key.getLast? = some c → PyStr.isSpace c = false

theorem isKey_of_ends {c d : Char} {key : Text} (hhead : key.head? = some c) (hlast : key.getLast? = some d)
    (hc : PyStr.isSpace c = false) (hd : PyStr.isSpace d = false) : IsKey key := by
  refine ⟨fun hnil => ?_, fun e he => ?_, fun e he => ?_⟩
  · rw [hnil] at hhead
    cases hhead
  · rw [hhead] at he
    exact Option.some.inj he ▸ hc
  · rw [hlast] at he
    exact Option.some.inj he ▸ hd

theorem isKey_serialKey : IsKey serialKey := isKey_of_ends rfl rfl (by decide) (by decide)

theorem isKey_sizeKey : IsKey sizeKey := isKey_of_ends rfl rfl (by decide) (by decide)

theorem isKey_nodeCountKey : IsKey nodeCountKey := isKey_of_ends rfl rfl (by decide) (by decide)

theorem rstrip_append {s : Text} (h : ∀ c, s.getLast? = some c → PyStr.isSpace c = false) (rest : Text) :
    rstrip (s ++ rest) = s ++ rstrip rest := by
  rw [rstrip, List.reverse_append, List.dropWhile_append]
  split
  · rename_i hempty
    rw [rstrip, List.isEmpty_iff.mp hempty, List.reverse_nil, List.append_nil]
    exact rstrip_eq_self h
  · rw [List.reverse_append, List.reverse_reverse, rstrip]

theorem rstrip_blank {s : Text} (h : IsBlank s) : rstrip s = [] := by
  rw [rstrip, List.reverse_eq_nil_iff, List.dropWhile_eq_nil_iff]
  exact fun c hc => h c (List.mem_reverse.mp hc)

theorem strip_indent {indent s : Text} (hindent : IsBlank indent) (hs : ∀ c, s.head? = some c → PyStr.isSpace c = false) :
    strip (indent ++ s) = rstrip s := by
  rw [strip, lstrip_append hindent hs]

namespace IsKey
variable {key : Text}

theorem strip_eq (h : IsKey key) {indent : Text} (hindent : IsBlank indent) (rest : Text) :
    strip (indent ++ key ++ rest) = key ++ rstrip rest := by
  rw [List.append_assoc, strip_indent hindent fun c hc => ?_, rstrip_append h.last]
  rw [List.head?_append_of_ne_nil _ h.nonempty] at hc
  exact h.head c hc

theorem hasKey_iff (h : IsKey key) {line : Text} :
    hasKey key line = true ↔ ∃ indent rest, line = indent ++ key ++ rest ∧ IsBlank indent := by
  rw [hasKey, List.isPrefixOf_iff_prefix]
  constructor
  · rintro ⟨rest, hrest⟩
    obtain ⟨front, back, hline, hfront⟩ := exists_strip line
    exact ⟨front, rest ++ back, by rw [hline, ← hrest]; simp only [List.append_assoc], hfront⟩
  · rintro ⟨indent, rest, rfl, hindent⟩
    rw [h.strip_eq hindent]
    exact List.prefix_append _ _

theorem hasKey_indent (h : IsKey key) {indent : Text} (hindent : IsBlank indent) (rest : Text) :
    hasKey key (indent ++ key ++ rest) = true := h.hasKey_iff.mpr ⟨indent, rest, rfl, hindent⟩

theorem numberText_eq (h : IsKey key) {indent : Text} (hindent : IsBlank indent) (rest : Text) :
    numberText key (indent ++ key ++ rest) = (rstrip rest).takeWhile (· ≠ ',') := by
  rw [numberText, h.strip_eq hindent, List.drop_left]

end IsKey

/-! ### Numbers -/

theorem isDigit_of_mem_repr (n : Nat) : ∀ c ∈ (Nat.repr n).toList, c.isDigit = true := fun c hc => by
  rw [Nat.toList_repr] at hc
  exact Nat.isDigit_of_mem_toDigits (by decide) (by decide) hc

theorem repr_ne_nil (n : Nat) : (Nat.repr n).toList ≠ [] := by
  rw [Nat.toList_repr]
  exact Nat.toDigits_ne_nil

theorem exists_strInt_cons (n : Int) :
    ∃ c digits, strInt n = c :: digits ∧ (c.isDigit = true ∨ c = '-') ∧ ∀ d ∈ strInt n, d.isDigit = true ∨ d = '-' := by
  cases n with
  | ofNat n =>
      obtain ⟨c, digits, hdigits⟩ := List.exists_cons_of_ne_nil (repr_ne_nil n)
      have hall := isDigit_of_mem_repr n
      exact ⟨c, digits, hdigits, .inl (hall c (hdigits ▸ List.mem_cons_self)), fun d hd => .inl (hall d hd)⟩
  | negSucc n =>
      refine ⟨'-', _, rfl, .inr rfl, fun d hd => ?_⟩
      rcases List.mem_cons.mp hd with rfl | hd
      · exact .inr rfl
      · exact .inl (isDigit_of_mem_repr _ d hd)

theorem strInt_ne_nil (n : Int) : strInt n ≠ [] := by
  obtain ⟨c, digits, hdigits, -⟩ := exists_strInt_cons n
  rw [hdigits]
  exact List.cons_ne_nil _ _

theorem pyStrip_eq (s : Text) : (PyStr.strip (String.ofList s)).toList = strip s := by
  rw [PyStr.strip, String.toList_ofList, String.toList_ofList]
  rfl

theorem int_of_strip {s : Text} {n : Int} (h : strip s = strInt n) : PyStr.int s = some n := by
  rw [PyStr.int, pyStrip_eq, h]
  cases n with
  | ofNat n =>
      have hread := PyStr.int_repr n
      have hself : strip (Nat.repr n).toList = (Nat.repr n).toList := strip_repr n
      rw [PyStr.int, pyStrip_eq, hself] at hread
      exact hread
  | negSucc n =>
      have hdigits : ∀ c ∈ Nat.toDigits 10 (n + 1), c.isDigit = true := fun c hc =>
        Nat.isDigit_of_mem_toDigits (by decide) (by decide) hc
      have hvalue := PyStr.digitsValue_of_isDigit _ hdigits Nat.toDigits_ne_nil 0 false
      rw [Nat.ofDigitChars_ten_toDigits] at hvalue
      rw [strInt, Nat.toList_repr]
      simp only [hvalue]
      rfl

theorem exists_strip_blank (s : Text) : ∃ front back, s = front ++ strip s ++ back ∧ IsBlank front ∧ IsBlank back := by
  obtain ⟨back, hback, hblank⟩ := exists_rstrip (lstrip s)
  refine ⟨s.takeWhile PyStr.isSpace, back, ?_, fun c hc => List.mem_takeWhile_imp hc, hblank⟩
  rw [strip, List.append_assoc, ← hback, lstrip, List.takeWhile_append_dropWhile]

section
variable {key line front back : Text} {n : Int}

/-- The number of a line, where it is written as `str` writes it. -/
theorem exists_numberAt (hkey : IsKey key) (hhas : hasKey key line = true)
    (hnumber : strip (numberText key line) = strInt n) : ∃ front back, NumberAt key line front n back := by
  obtain ⟨indent, rest, rfl, hindent⟩ := hkey.hasKey_iff.mp hhas
  rw [hkey.numberText_eq hindent] at hnumber
  obtain ⟨tail, hrest, htail⟩ := exists_rstrip rest
  obtain ⟨space, space', htext, hspace, hspace'⟩ := exists_strip_blank ((rstrip rest).takeWhile (· ≠ ','))
  have hwhole := @List.takeWhile_append_dropWhile _ (· ≠ ',') (rstrip rest)
  rw [hnumber] at htext
  rw [htext] at hwhole
  have hall : rest = space ++ strInt n ++ space' ++ (rstrip rest).dropWhile (· ≠ ',') ++ tail := by
    rw [hwhole]
    exact hrest
  refine ⟨indent ++ key ++ space, space' ++ (rstrip rest).dropWhile (· ≠ ',') ++ tail,
    (congrArg (indent ++ key ++ ·) hall).trans (by simp only [List.append_assoc]),
    ⟨indent, space, rfl, hindent, hspace⟩, ?_⟩
  · cases hmore : (rstrip rest).dropWhile (· ≠ ',') with
    | nil =>
        refine ⟨space' ++ tail, [], by rw [List.append_nil, List.append_nil], fun c hc => ?_, .inl rfl⟩
        rcases List.mem_append.mp hc with hc | hc
        · exact hspace' c hc
        · exact htail c hc
    | cons c more =>
        have hhead := List.head?_dropWhile_not (fun d : Char => decide (d ≠ ',')) (rstrip rest)
        rw [hmore] at hhead
        have hc : c = ',' := by simpa using hhead
        exact ⟨space', c :: more ++ tail, by rw [List.append_assoc], hspace', .inr ⟨more ++ tail, by rw [hc]; rfl⟩⟩

theorem comma_not_mem_blank {s : Text} (h : IsBlank s) : ',' ∉ s := fun hmem => absurd (h _ hmem) (by decide)

theorem comma_not_mem_strInt (n : Int) : ',' ∉ strInt n := fun hmem => by
  obtain ⟨c, digits, -, -, hall⟩ := exists_strInt_cons n
  exact absurd (hall _ hmem) (by decide)

theorem getLast?_strInt {c : Char} (h : (strInt n).getLast? = some c) : PyStr.isSpace c = false :=
  noSpace_strInt n c (List.mem_of_getLast? h)

theorem NumberAt.read (hkey : IsKey key) (h : NumberAt key line front n back) :
    hasKey key line = true ∧ strip (numberText key line) = strInt n := by
  obtain ⟨rfl, ⟨indent, space, rfl, hindent, hspace⟩, space', more, rfl, hspace', hmore⟩ := h
  have hline : indent ++ key ++ space ++ strInt n ++ (space' ++ more) =
      indent ++ key ++ (space ++ strInt n ++ space' ++ more) := by simp only [List.append_assoc]
  have hlast : ∀ c, (space ++ strInt n).getLast? = some c → PyStr.isSpace c = false := fun c hc => by
    rw [List.getLast?_append_of_ne_nil _ (strInt_ne_nil n)] at hc
    exact getLast?_strInt hc
  have hhead : ∀ rest, ∀ c, (strInt n ++ rest).head? = some c → PyStr.isSpace c = false := fun rest c hc => by
    rw [List.head?_append_of_ne_nil _ (strInt_ne_nil n)] at hc
    exact noSpace_strInt n c (List.mem_of_head? hc)
  have hstrip : ∀ tail, IsBlank tail → strip (space ++ strInt n ++ tail) = strInt n := fun tail htail => by
    rw [List.append_assoc, strip_indent hspace (hhead tail), rstrip_append fun c hc => getLast?_strInt hc,
      rstrip_blank htail, List.append_nil]
  have hcomma : ',' ∉ space ++ strInt n ++ space' := fun hmem => by
    rcases List.mem_append.mp hmem with hmem | hmem
    · rcases List.mem_append.mp hmem with hmem | hmem
      · exact comma_not_mem_blank hspace hmem
      · exact comma_not_mem_strInt n hmem
    · exact comma_not_mem_blank hspace' hmem
  rw [hline, hkey.numberText_eq hindent]
  refine ⟨hkey.hasKey_indent hindent _, ?_⟩
  obtain rfl | ⟨rest, rfl⟩ := hmore
  · have hall : (space ++ strInt n).takeWhile (· ≠ ',') = space ++ strInt n := by
      rw [List.takeWhile_eq_self_iff]
      intro c hc
      rw [decide_eq_true_eq]
      rintro rfl
      exact hcomma (List.mem_append_left _ hc)
    rw [List.append_nil, rstrip_append hlast, rstrip_blank hspace', List.append_nil, hall]
    simpa using hstrip [] fun c hc => absurd hc List.not_mem_nil
  · have hend : ∀ c, (space ++ strInt n ++ space' ++ [',']).getLast? = some c → PyStr.isSpace c = false := fun c hc => by
      rw [List.getLast?_concat] at hc
      exact Option.some.inj hc ▸ (by decide)
    rw [show space ++ strInt n ++ space' ++ ',' :: rest = space ++ strInt n ++ space' ++ [','] ++ rest by simp,
      rstrip_append hend, List.append_assoc _ [','], List.singleton_append, takeWhile_of_not_mem hcomma]
    exact hstrip space' hspace'

theorem NumberAt.withNumber (h : NumberAt key line front n back) (m : Int) :
    NumberAt key (front ++ strInt m ++ back) front m back := ⟨rfl, h.front_eq, h.back_eq⟩

/-- A key in which no number begins. -/
def NoNumber (key : Text) : Prop := ∀ c ∈ key, c.isDigit = false ∧ c ≠ '-'

theorem NumberAt.replaceFirst (hkey : NoNumber key) (h : NumberAt key line front n back) (new : Text) :
    replaceFirst (strInt n) new line = front ++ new ++ back := by
  obtain ⟨c, digits, hdigits, hc, -⟩ := exists_strInt_cons n
  have hspace : PyStr.isSpace c = false := noSpace_strInt n c (hdigits ▸ List.mem_cons_self)
  have hfront : c ∉ front := fun hmem => by
    obtain ⟨indent, space, rfl, hindent, hblank⟩ := h.front_eq
    rcases List.mem_append.mp hmem with hmem | hmem
    · rcases List.mem_append.mp hmem with hmem | hmem
      · rw [hindent c hmem] at hspace
        cases hspace
      · rcases hc with hc | hc
        · rw [(hkey c hmem).1] at hc
          cases hc
        · exact (hkey c hmem).2 hc
    · rw [hblank c hmem] at hspace
      cases hspace
  rw [h.line_eq, hdigits]
  exact replaceFirst_append hfront new back

theorem noNumber_of_all {key : Text} (h : key.all (fun c => !c.isDigit && c != '-') = true) : NoNumber key :=
  fun c hc => by simpa using List.all_eq_true.mp h c hc

theorem noNumber_serialKey : NoNumber serialKey := noNumber_of_all (by decide)

theorem noNumber_sizeKey : NoNumber sizeKey := noNumber_of_all (by decide)

/-- No line begins with both keys. -/
theorem hasKey_serialKey_of_sizeKey (h : hasKey sizeKey line = true) : hasKey serialKey line = false := by
  rw [Bool.eq_false_iff]
  intro hserial
  rw [hasKey, List.isPrefixOf_iff_prefix] at h hserial
  rcases List.prefix_or_prefix_of_prefix h hserial with hprefix | hprefix
  · exact absurd (List.isPrefixOf_iff_prefix.mpr hprefix) (by decide)
  · exact absurd (List.isPrefixOf_iff_prefix.mpr hprefix) (by decide)

theorem NumberAt.rewrite_serial (h : NumberAt serialKey line front n back) (size : Nat) :
    rewriteStateLine size line = some (front ++ strInt (n + 1) ++ back) := by
  obtain ⟨hhas, hnumber⟩ := h.read isKey_serialKey
  rw [rewriteStateLine, if_pos hhas, int_of_strip hnumber, Option.map_some, h.replaceFirst noNumber_serialKey]

theorem NumberAt.rewrite_size (h : NumberAt sizeKey line front n back) (size : Nat) :
    rewriteStateLine size line = some (front ++ strInt size ++ back) := by
  obtain ⟨hhas, hnumber⟩ := h.read isKey_sizeKey
  have hserial : ¬ hasKey serialKey line = true := by
    rw [hasKey_serialKey_of_sizeKey hhas]
    exact Bool.false_ne_true
  rw [rewriteStateLine, if_neg hserial, if_pos hhas, int_of_strip hnumber, Option.map_some,
    h.replaceFirst noNumber_sizeKey]

theorem PlainNumber.exists_numberAt (hkey : IsKey key) (h : PlainNumber key line) (hhas : hasKey key line = true)
    (hread : PyStr.int (numberText key line) = some n) : ∃ front back, NumberAt key line front n back :=
  OciHpc.Resize.exists_numberAt hkey hhas (h hhas n hread)

/-- **A line of the state is updated**, where its number is written as `str` writes it. -/
theorem rewriteStateLine_spec {size : Nat} {other : Text} (hserial : PlainNumber serialKey line)
    (hsize : PlainNumber sizeKey line) (h : rewriteStateLine size line = some other) :
    StateLineUpdated size line other := by
  have hrewritten := h
  rw [rewriteStateLine] at h
  split at h
  · rename_i hhas
    obtain ⟨n, hn, -⟩ := Option.map_eq_some_iff.mp h
    obtain ⟨front, back, hnumber⟩ := hserial.exists_numberAt isKey_serialKey hhas hn
    rw [hnumber.rewrite_serial] at hrewritten
    exact .inl ⟨front, n, back, hnumber, (Option.some.inj hrewritten).symm⟩
  · rename_i hnot
    split at h
    · rename_i hhas
      obtain ⟨n, hn, -⟩ := Option.map_eq_some_iff.mp h
      obtain ⟨front, back, hnumber⟩ := hsize.exists_numberAt isKey_sizeKey hhas hn
      rw [hnumber.rewrite_size] at hrewritten
      exact .inr (.inl ⟨Bool.eq_false_iff.mpr hnot, front, n, back, hnumber, (Option.some.inj hrewritten).symm⟩)
    · rename_i hneither
      exact .inr (.inr ⟨Bool.eq_false_iff.mpr hnot, Bool.eq_false_iff.mpr hneither, (Option.some.inj h).symm⟩)

/-- The same line, or two lines with different serials. -/
def SameButSerial (line other : Text) : Prop :=
  line = other ∨ ∃ front n m back, NumberAt serialKey line front n back ∧ NumberAt serialKey other front m back

/-- **An updated line can be updated again**, and has the size of the last update. -/
theorem StateLineUpdated.again {size : Nat} {other : Text} (h : StateLineUpdated size line other) (later : Nat) :
    hasKey serialKey other = hasKey serialKey line ∧ hasKey sizeKey other = hasKey sizeKey line ∧
      ∃ next direct, rewriteStateLine later other = some next ∧ rewriteStateLine later line = some direct ∧
        SameButSerial next direct := by
  obtain ⟨front, n, back, hnumber, rfl⟩ | ⟨hnot, front, n, back, hnumber, rfl⟩ | ⟨hserial, hsize, rfl⟩ := h
  · have hother := hnumber.withNumber (n + 1)
    have hline := (hnumber.read isKey_serialKey).1
    have hhas := (hother.read isKey_serialKey).1
    have hnoSize : ∀ text, hasKey serialKey text = true → hasKey sizeKey text = false := fun text htext => by
      rw [Bool.eq_false_iff]
      intro hsize
      rw [hasKey_serialKey_of_sizeKey hsize] at htext
      cases htext
    exact ⟨hhas.trans hline.symm, (hnoSize _ hhas).trans (hnoSize _ hline).symm, _, _, hother.rewrite_serial later,
      hnumber.rewrite_serial later, .inr ⟨front, _, _, back, hother.withNumber _, hnumber.withNumber _⟩⟩
  · have hother := hnumber.withNumber size
    have hhas := (hother.read isKey_sizeKey).1
    exact ⟨(hasKey_serialKey_of_sizeKey hhas).trans hnot.symm, hhas.trans (hnumber.read isKey_sizeKey).1.symm, _, _,
      hother.rewrite_size later, hnumber.rewrite_size later, .inl rfl⟩
  · have hsame : rewriteStateLine later other = some other := by
      rw [rewriteStateLine, hserial, if_neg Bool.false_ne_true, hsize, if_neg Bool.false_ne_true]
    exact ⟨rfl, rfl, other, other, hsame, hsame, .inl rfl⟩

end

/-! ### The default of `node_count` -/

/-- The pattern matches at the beginning of `s`, which is what is before the value, the value, and the rest. -/
structure MatchesAt (s front value back : Text) : Prop where
  eq : s = front ++ value ++ back
  value_digits : value ≠ [] ∧ ∀ c ∈ value, c.isDigit = true
  back_head : ∀ c, back.head? = some c → c.isDigit = false
  front_eq : ∃ space space' quote, front = "default".toList ++ space ++ '=' :: space' ++ quote ∧
    IsBlank space ∧ IsBlank space' ∧ (quote = [] ∨ quote = ['"'] ∧ back.head? = some '"')

theorem takeWhile_append_of_head {p : Char → Bool} {front back : Text} (hfront : ∀ c ∈ front, p c = true)
    (hback : ∀ c, back.head? = some c → p c = false) :
    (front ++ back).takeWhile p = front ∧ (front ++ back).dropWhile p = back := by
  rw [List.takeWhile_append_of_pos hfront, List.dropWhile_append_of_pos hfront]
  cases back with
  | nil => exact ⟨List.append_nil _, rfl⟩
  | cons c back =>
      have hc : ¬ p c = true := by
        rw [hback c rfl]
        exact Bool.false_ne_true
      rw [List.takeWhile_cons_of_neg hc, List.dropWhile_cons_of_neg hc, List.append_nil]
      exact ⟨rfl, rfl⟩

theorem head?_dropWhile_eq_false {p : Char → Bool} {s : Text} {c : Char} (h : (s.dropWhile p).head? = some c) :
    p c = false := by
  have hhead := List.head?_dropWhile_not p s
  rw [h] at hhead
  exact hhead

variable {isWord : Char → Bool} {before : Option Char} {s front value back : Text}

theorem matchesAt_of_nodeCountAt (h : nodeCountAt isWord before s = some (front, value, back)) :
    before.any isWord = false ∧ MatchesAt s front value back := by
  rw [nodeCountAt] at h
  split at h
  · cases h
  · rename_i hboundary
    rw [Bool.or_eq_true, not_or, Bool.not_eq_true, Bool.not_eq_true', Bool.not_eq_false] at hboundary
    obtain ⟨hbefore, hname⟩ := hboundary
    obtain ⟨afterName, rfl⟩ := List.isPrefixOf_iff_prefix.mp hname
    have hdrop : ("default".toList ++ afterName).drop 7 = afterName := List.drop_left' rfl
    dsimp only at h
    rw [hdrop] at h
    split at h
    · rename_i afterEquals hequals
      have hafterName := @List.takeWhile_append_dropWhile _ PyStr.isSpace afterName
      rw [hequals] at hafterName
      have hafterEquals := @List.takeWhile_append_dropWhile _ PyStr.isSpace afterEquals
      have hspace : IsBlank (afterName.takeWhile PyStr.isSpace) := fun c hc => List.mem_takeWhile_imp hc
      have hspace' : IsBlank (afterEquals.takeWhile PyStr.isSpace) := fun c hc => List.mem_takeWhile_imp hc
      split at h
      · rename_i body hquote
        split at h
        · cases h
        · rename_i hclosed
          rw [not_or, not_not] at hclosed
          have hbody := @List.takeWhile_append_dropWhile _ Char.isDigit body
          cases h
          refine ⟨hbefore, ⟨?_, ⟨hclosed.1, fun c hc => List.mem_takeWhile_imp hc⟩, fun c hc => head?_dropWhile_eq_false hc, _, _,
            ['"'], rfl, hspace, hspace', .inr ⟨rfl, hclosed.2⟩⟩⟩
          conv_lhs => rw [← hafterName, ← hafterEquals, hquote, ← hbody]
          simp only [List.append_assoc, List.cons_append, List.nil_append]
      · split at h
        · cases h
        · rename_i hvalue
          have hbody := @List.takeWhile_append_dropWhile _ Char.isDigit (afterEquals.dropWhile PyStr.isSpace)
          cases h
          refine ⟨hbefore, ⟨?_, ⟨hvalue, fun c hc => List.mem_takeWhile_imp hc⟩, fun c hc => head?_dropWhile_eq_false hc, _, _,
            [], (List.append_nil _).symm, hspace, hspace', .inl rfl⟩⟩
          conv_lhs => rw [← hafterName, ← hafterEquals, ← hbody]
          simp only [List.append_assoc, List.cons_append]
    · cases h

theorem nodeCountAt_of_matchesAt (hbefore : before.any isWord = false) (h : MatchesAt s front value back) :
    nodeCountAt isWord before s = some (front, value, back) := by
  obtain ⟨rfl, ⟨hne, hdigits⟩, hback, space, space', quote, rfl, hspace, hspace', hquote⟩ := h
  have hwhole : "default".toList ++ space ++ '=' :: space' ++ quote ++ value ++ back =
      "default".toList ++ (space ++ '=' :: (space' ++ (quote ++ (value ++ back)))) := by
    simp only [List.append_assoc, List.cons_append]
  have hname : "default".toList.isPrefixOf ("default".toList ++ (space ++ '=' :: (space' ++ (quote ++ (value ++ back))))) =
      true := List.isPrefixOf_iff_prefix.mpr (List.prefix_append _ _)
  have hdrop : ("default".toList ++ (space ++ '=' :: (space' ++ (quote ++ (value ++ back))))).drop 7 =
      space ++ '=' :: (space' ++ (quote ++ (value ++ back))) := List.drop_left' rfl
  obtain ⟨c, rest, hvalue⟩ := List.exists_cons_of_ne_nil hne
  have hc : c.isDigit = true := hdigits c (hvalue ▸ List.mem_cons_self)
  have hhead : ∀ d, (quote ++ (value ++ back)).head? = some d → PyStr.isSpace d = false := fun d hd => by
    obtain rfl | ⟨rfl, -⟩ := hquote
    · rw [hvalue] at hd
      exact Option.some.inj hd ▸ PyStr.not_isSpace_of_isDigit hc
    · exact Option.some.inj hd ▸ (by decide)
  have hequals : ∀ d, ('=' :: (space' ++ (quote ++ (value ++ back)))).head? = some d → PyStr.isSpace d = false :=
    fun d hd => Option.some.inj hd ▸ (by decide)
  obtain ⟨htake, hdropSpace⟩ := takeWhile_append_of_head hspace hequals
  obtain ⟨htake', hdropSpace'⟩ := takeWhile_append_of_head hspace' hhead
  obtain ⟨hdigitsTake, hdigitsDrop⟩ := takeWhile_append_of_head hdigits hback
  rw [nodeCountAt, hwhole, hbefore, hname, Bool.not_true, Bool.or_false, if_neg Bool.false_ne_true, hdrop]
  dsimp only
  rw [hdropSpace, htake]
  split
  · rename_i afterEquals hequals
    obtain rfl := (List.cons.inj hequals).2
    rw [hdropSpace', htake']
    obtain rfl | ⟨rfl, hclosed⟩ := hquote
    · rw [List.nil_append, List.append_nil]
      split
      · rename_i body hbody
        rw [hvalue] at hbody
        have hquoted : c = '"' := (List.cons.inj hbody).1
        rw [hquoted] at hc
        exact absurd hc (by decide)
      · rw [hdigitsTake, hdigitsDrop, if_neg hne]
    · rw [List.singleton_append]
      split
      · rename_i body hbody
        obtain rfl := (List.cons.inj hbody).2
        rw [hdigitsTake, hdigitsDrop, if_neg (not_or.mpr ⟨hne, not_not_intro hclosed⟩)]
      · rename_i hnot
        exact absurd rfl (hnot _)
  · rename_i hnot
    exact absurd rfl (hnot _)

theorem MatchesAt.withValue (h : MatchesAt s front value back) {other : Text} (hne : other ≠ [])
    (hdigits : ∀ c ∈ other, c.isDigit = true) : MatchesAt (front ++ other ++ back) front other back :=
  ⟨rfl, ⟨hne, hdigits⟩, h.back_head, h.front_eq⟩

theorem MatchesAt.exists_front (h : MatchesAt s front value back) :
    ∃ rest, front = 'd' :: rest ∧ '=' ∈ front ∧ 'd' ∉ rest ++ value := by
  obtain ⟨space, space', quote, rfl, hspace, hspace', hquote⟩ := h.front_eq
  refine ⟨"efault".toList ++ space ++ '=' :: space' ++ quote, rfl, by simp, fun hmem => ?_⟩
  simp only [List.mem_append, List.mem_cons] at hmem
  obtain (((hmem | hmem) | hmem | hmem) | hmem) | hmem := hmem
  · exact absurd hmem (by decide)
  · exact absurd (hspace _ hmem) (by decide)
  · cases hmem
  · exact absurd (hspace' _ hmem) (by decide)
  · obtain rfl | ⟨rfl, -⟩ := hquote
    · cases hmem
    · exact absurd hmem (by decide)
  · exact absurd (h.value_digits.2 _ hmem) (by decide)

/-- A match ends before the next `d`, and so does not depend on what follows. -/
theorem MatchesAt.of_append {c : Char} {init tail : Text} (h : MatchesAt (c :: init ++ 'd' :: tail) front value back)
    (tail' : Text) :
    ∃ back', MatchesAt (c :: init ++ 'd' :: tail') front value back' := by
  obtain ⟨rest, hfront, -, hnot⟩ := h.exists_front
  have heq := h.eq
  obtain ⟨more, hinit, hback⟩ : ∃ more, c :: init = front ++ value ++ more ∧ back = more ++ 'd' :: tail := by
    rcases List.append_eq_append_iff.mp heq with ⟨more, hwhole, hrest⟩ | ⟨more, hwhole, hrest⟩
    · cases more with
      | nil =>
          rw [List.append_nil] at hwhole
          exact ⟨[], by rw [List.append_nil, hwhole], hrest.symm⟩
      | cons d more =>
          have hd : d = 'd' := (List.cons.inj hrest).1.symm
          rw [hfront, List.cons_append, List.cons_append] at hwhole
          have hmem := (List.cons.inj hwhole).2
          rw [hmem, hd] at hnot
          exact absurd (List.mem_append_right _ List.mem_cons_self) hnot
    · exact ⟨more, hwhole, hrest⟩
  have hhead : (more ++ 'd' :: tail').head? = back.head? := by
    rw [hback]
    cases more <;> rfl
  refine ⟨more ++ 'd' :: tail', ⟨?_, h.value_digits, fun d hd => h.back_head d (hhead ▸ hd), ?_⟩⟩
  · rw [hinit, List.append_assoc]
  · rw [hhead]
    exact h.front_eq

/-- **What is found in a line**, and that it is found with another value too. -/
theorem nodeCountMatch_spec {line : Text} (h : nodeCountMatch isWord before line = some (front, value, back)) :
    DefaultAt line front value back ∧ 'd' ∈ front ∧ '=' ∈ front ∧
      ∀ other, other ≠ [] → (∀ c ∈ other, c.isDigit = true) →
        nodeCountMatch isWord before (front ++ other ++ back) = some (front, other, back) := by
  induction line generalizing before front with
  | nil => cases h
  | cons c rest ih =>
      rw [nodeCountMatch] at h
      split at h
      · rename_i found hfound
        obtain rfl := Option.some.inj h
        obtain ⟨hbefore, hmatch⟩ := matchesAt_of_nodeCountAt hfound
        obtain ⟨more, hfront, hequals, -⟩ := hmatch.exists_front
        obtain ⟨space, space', quote, heq, hspace, hspace', hquote⟩ := hmatch.front_eq
        refine ⟨⟨hmatch.eq, hmatch.value_digits, ⟨[], space, space', quote, heq, hspace, hspace', hquote⟩, hmatch.back_head⟩,
          hfront ▸ List.mem_cons_self, hequals, fun other hne hdigits => ?_⟩
        have hother := nodeCountAt_of_matchesAt hbefore (hmatch.withValue hne hdigits)
        rw [hfront, List.cons_append, List.cons_append] at hother ⊢
        rw [nodeCountMatch, hother]
      · rename_i hnone
        obtain ⟨⟨front', value', back'⟩, hrest, hresult⟩ := Option.map_eq_some_iff.mp h
        obtain ⟨rfl, hpair⟩ := Prod.mk.inj hresult
        obtain ⟨rfl, rfl⟩ := Prod.mk.inj hpair
        obtain ⟨hdefault, hd, hequals, hagain⟩ := ih hrest
        obtain ⟨more, space, space', quote, heq, hspace, hspace', hquote⟩ := hdefault.front_eq
        refine ⟨⟨by rw [hdefault.line_eq]; rfl, hdefault.value_digits,
          ⟨c :: more, space, space', quote, by rw [heq]; rfl, hspace, hspace', hquote⟩, hdefault.back_head⟩,
          List.mem_cons_of_mem _ hd, List.mem_cons_of_mem _ hequals, fun other hne hdigits => ?_⟩
        have hstill : nodeCountAt isWord before (c :: (front' ++ other ++ back')) = none := by
          obtain ⟨init, tail, hinit⟩ := List.append_of_mem hd
          cases hfound : nodeCountAt isWord before (c :: (front' ++ other ++ back')) with
          | none => rfl
          | some found =>
              obtain ⟨hbefore, hmatch⟩ := matchesAt_of_nodeCountAt hfound
              have hwhole : ∀ text : Text, c :: (front' ++ text ++ back') = c :: init ++ 'd' :: (tail ++ text ++ back') := by
                intro text
                rw [hinit]
                simp only [List.append_assoc, List.cons_append]
              rw [hwhole] at hmatch
              obtain ⟨back, hearlier⟩ := hmatch.of_append (tail ++ value' ++ back')
              rw [← hwhole, ← hdefault.line_eq] at hearlier
              rw [nodeCountAt_of_matchesAt hbefore hearlier] at hnone
              cases hnone
        rw [List.cons_append, List.cons_append, nodeCountMatch, hstill, hagain other hne hdigits]
        rfl

/-- **A line of the variables is updated**, and updating it again gives what the last update gives alone. -/
theorem rewriteVariablesLine_spec {size : Nat} {line other : Text} (h : rewriteVariablesLine isWord size line = some other) :
    VariablesLineUpdated size line other ∧ hasKey nodeCountKey other = hasKey nodeCountKey line ∧
      ∀ later, ∃ next, rewriteVariablesLine isWord later other = some next ∧
        rewriteVariablesLine isWord later line = some next := by
  rw [rewriteVariablesLine] at h
  split at h
  · rename_i hhas
    obtain ⟨⟨front, value, back⟩, hfound, rfl⟩ := Option.map_eq_some_iff.mp h
    obtain ⟨hdefault, -, hequals, hagain⟩ := nodeCountMatch_spec hfound
    obtain ⟨indent, rest, hline, hindent⟩ := isKey_nodeCountKey.hasKey_iff.mp hhas
    -- the key has no `=`, so the value is after it
    obtain ⟨more, hfront⟩ : ∃ more, front = indent ++ nodeCountKey ++ more := by
      have heq := hline.symm.trans hdefault.line_eq
      rw [List.append_assoc front] at heq
      rcases List.append_eq_append_iff.mp heq with ⟨more, hwhole, -⟩ | ⟨more, hwhole, -⟩
      · exact ⟨more, hwhole⟩
      · have hmem : '=' ∈ indent ++ nodeCountKey := hwhole ▸ List.mem_append_left _ hequals
        rcases List.mem_append.mp hmem with hmem | hmem
        · exact absurd (hindent _ hmem) (by decide)
        · exact absurd hmem (by decide)
    have hother : hasKey nodeCountKey (front ++ strInt size ++ back) = true := by
      rw [hfront, List.append_assoc _ more, List.append_assoc _ _ back]
      exact isKey_nodeCountKey.hasKey_indent hindent _
    refine ⟨.inl ⟨hhas, front, value, back, hdefault, rfl⟩, hother.trans hhas.symm,
      fun later => ⟨front ++ strInt later ++ back, ?_, ?_⟩⟩
    · have hsize : nodeCountMatch isWord none (front ++ strInt size ++ back) = some (front, strInt size, back) :=
        hagain (strInt size) (repr_ne_nil size) (isDigit_of_mem_repr size)
      rw [rewriteVariablesLine, if_pos hother, hsize, Option.map_some]
    · rw [rewriteVariablesLine, if_pos hhas, hfound, Option.map_some]
  · rename_i hnot
    obtain rfl := Option.some.inj h
    have hsame : ∀ later, rewriteVariablesLine isWord later line = some line := fun later => by
      rw [rewriteVariablesLine, if_neg hnot]
    exact ⟨.inr ⟨Bool.eq_false_iff.mpr hnot, rfl⟩, rfl, fun later => ⟨line, hsame later, hsame later⟩⟩

end OciHpc.Resize
