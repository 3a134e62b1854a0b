import OciHpc.Base.PyStr
import Mathlib.Data.List.TakeWhile

/-!
# Splitting strings and reading numbers, as Python does

* `split`, `splitWs`, `reSplitWs` : `str.split(sep)`, `str.split()` and `re.split(r"\s{1,}", _)`;
* `partition` : `str.partition` of one separator character;
* `isDigit`, `int` : `str.isdigit` and `int(_)`, which do not accept the same characters;
* `int_repr`, `isDigit_repr` : what `str` writes of a number, `int` reads back.
-/

namespace OciHpc.PyStr

/-! ## Splitting -/

/-- `split` with the characters of the separator still to pass over and the piece read so far. -/
def splitFrom (sep : List Char) : Nat → List Char → List Char → List (List Char)
  | _, piece, [] => [piece.reverse]
  | k + 1, piece, _ :: rest => splitFrom sep k piece rest
  | 0, piece, c :: rest =>
    if sep.isPrefixOf (c :: rest) then piece.reverse :: splitFrom sep (sep.length - 1) [] rest
    else splitFrom sep 0 (c :: piece) rest

/-- `s.split(sep)`. -/
def split (s sep : String) : List String := (splitFrom sep.toList 0 [] s.toList).map String.ofList

/-- `re.split(r"\s{1,}", s)`, the flag saying whether the last character was white space. -/
def reSplitFrom : Bool → List Char → List Char → List (List Char)
  | _, piece, [] => [piece.reverse]
  | blank, piece, c :: rest =>
    if isSpace c then
      if blank then reSplitFrom true piece rest else piece.reverse :: reSplitFrom true [] rest
    else reSplitFrom false (c :: piece) rest

def reSplitWs (s : String) : List String := (reSplitFrom false [] s.toList).map String.ofList

/-- `s.split()`: the pieces between white space, none of them empty. -/
def splitWs (s : String) : List String := (reSplitWs s).filter (· ≠ "")

/-- `s.partition(sep)` for one character: what stands before it, whether it occurs, what follows. -/
def partition (sep : Char) (s : List Char) : List Char × Bool × List Char :=
  (s.takeWhile (· ≠ sep), s.contains sep, (s.dropWhile (· ≠ sep)).drop 1)

/-- `s.strip(c)` for one character. -/
def stripChar (c : Char) (s : String) : String :=
  String.ofList ((s.toList.dropWhile (· = c)).reverse.dropWhile (· = c)).reverse

theorem splitFrom_of_not_mem {sep : Char} {s : List Char} (h : sep ∉ s) (piece : List Char) :
    splitFrom [sep] 0 piece s = [piece.reverse ++ s] := by
  induction s generalizing piece with
  | nil => rw [splitFrom, List.append_nil]
  | cons c rest ih =>
    have hc : sep ≠ c := List.ne_of_not_mem_cons h
    have hne : [sep].isPrefixOf (c :: rest) = false := by simp [List.isPrefixOf, hc]
    rw [splitFrom, hne, if_neg Bool.false_ne_true, ih (List.not_mem_of_not_mem_cons h), List.reverse_cons, List.append_assoc, List.singleton_append]

theorem splitFrom_append {sep : Char} {front : List Char} (h : sep ∉ front) (piece rest : List Char) :
    splitFrom [sep] 0 piece (front ++ sep :: rest) = (piece.reverse ++ front) :: splitFrom [sep] 0 [] rest := by
  induction front generalizing piece with
  | nil =>
    have hsep : [sep].isPrefixOf (sep :: rest) = true := by simp
    rw [List.nil_append, splitFrom, if_pos hsep, List.append_nil]
    rfl
  | cons c front ih =>
    have hc : sep ≠ c := List.ne_of_not_mem_cons h
    have hne : [sep].isPrefixOf (c :: (front ++ sep :: rest)) = false := by simp [List.isPrefixOf, hc]
    rw [List.cons_append, splitFrom, hne, if_neg Bool.false_ne_true, ih (List.not_mem_of_not_mem_cons h),
      List.reverse_cons, List.append_assoc, List.singleton_append]

/-- A text is split at each separator on its own. -/
theorem splitFrom_append_sep (sep : Char) (front piece rest : List Char) :
    splitFrom [sep] 0 piece (front ++ sep :: rest) = splitFrom [sep] 0 piece front ++ splitFrom [sep] 0 [] rest := by
  induction front generalizing piece with
  | nil => exact (splitFrom_append List.not_mem_nil piece rest).trans (by rw [List.append_nil]; rfl)
  | cons c front ih =>
    rw [List.cons_append, splitFrom, splitFrom]
    by_cases hc : sep = c
    · have hsep : ∀ tail : List Char, [sep].isPrefixOf (c :: tail) = true := by simp [List.isPrefixOf, hc]
      rw [if_pos (hsep _), if_pos (hsep _), List.length_singleton, Nat.sub_self, ih [], List.cons_append]
    · have hne : ∀ tail : List Char, [sep].isPrefixOf (c :: tail) = false := by simp [List.isPrefixOf, hc]
      rw [if_neg (Bool.eq_false_iff.mp (hne _)), if_neg (Bool.eq_false_iff.mp (hne _)), ih (c :: piece)]

theorem sep_not_mem_of_mem_splitFrom {sep : Char} {s piece part : List Char} (hpiece : sep ∉ piece)
    (h : part ∈ splitFrom [sep] 0 piece s) : sep ∉ part := by
  induction s generalizing piece with
  | nil =>
    rw [splitFrom, List.mem_singleton] at h
    rw [h, List.mem_reverse]
    exact hpiece
  | cons c rest ih =>
    rw [splitFrom] at h
    split at h
    · rcases List.mem_cons.mp h with rfl | h
      · rw [List.mem_reverse]
        exact hpiece
      · exact ih List.not_mem_nil h
    · rename_i hprefix
      refine ih (fun hmem => ?_) h
      rcases List.mem_cons.mp hmem with rfl | hmem
      · exact hprefix (by simp)
      · exact hpiece hmem

/-! ## Digits -/

/-- The zeros of the runs of ten decimal digits (Unicode category Nd). -/
def decimalZeros : List Nat :=
  [0x30, 0x660, 0x6f0, 0x7c0, 0x966, 0x9e6, 0xa66, 0xae6, 0xb66, 0xbe6, 0xc66, 0xce6, 0xd66, 0xde6, 0xe50,
    0xed0, 0xf20, 0x1040, 0x1090, 0x17e0, 0x1810, 0x1946, 0x19d0, 0x1a80, 0x1a90, 0x1b50, 0x1bb0, 0x1c40,
    0x1c50, 0xa620, 0xa8d0, 0xa900, 0xa9d0, 0xa9f0, 0xaa50, 0xabf0, 0xff10, 0x104a0, 0x10d30, 0x11066,
    0x110f0, 0x11136, 0x111d0, 0x112f0, 0x11450, 0x114d0, 0x11650, 0x116c0, 0x11730, 0x118e0, 0x11950,
    0x11c50, 0x11d50, 0x11da0, 0x16a60, 0x16ac0, 0x16b50, 0x1d7ce, 0x1d7d8, 0x1d7e2, 0x1d7ec, 0x1d7f6,
    0x1e140, 0x1e2f0, 0x1e950, 0x1fbf0]

/-- The characters `str.isdigit` accepts beside the decimal digits: superscripts, circled digits and so on. -/
def otherDigits : List (Nat × Nat) :=
  [(0xb2, 0xb3), (0xb9, 0xb9), (0x1369, 0x1371), (0x19da, 0x19da), (0x2070, 0x2070), (0x2074, 0x2079),
    (0x2080, 0x2089), (0x2460, 0x2468), (0x2474, 0x247c), (0x2488, 0x2490), (0x24ea, 0x24ea),
    (0x24f5, 0x24fd), (0x24ff, 0x24ff), (0x2776, 0x277e), (0x2780, 0x2788), (0x278a, 0x2792),
    (0x10a40, 0x10a43), (0x10e60, 0x10e68), (0x11052, 0x1105a), (0x1f100, 0x1f10a)]

/-- `unicodedata.decimal`. -/
def decimal (c : Char) : Option Nat :=
  (decimalZeros.find? fun z => z ≤ c.toNat && c.toNat < z + 10).map (c.toNat - ·)

/-- `s.isdigit()`. -/
def isDigit (s : List Char) : Bool :=
  !s.isEmpty && s.all fun c =>
    (decimal c).isSome || otherDigits.any fun r => r.1 ≤ c.toNat && c.toNat ≤ r.2

/-- The digits of a number, with single underscores between them; the flag says that a digit was read last. -/
def digitsValue : Nat → Bool → List Char → Option Nat
  | value, afterDigit, [] => if afterDigit then some value else none
  | value, afterDigit, c :: rest =>
    if c = '_' then if afterDigit then digitsValue value false rest else none
    else (decimal c).bind fun d => digitsValue (value * 10 + d) true rest

/-- `int(s)`: `none` is a `ValueError`. -/
def int (s : List Char) : Option Int :=
  match (strip (String.ofList s)).toList with
  | '-' :: digits => (digitsValue 0 false digits).map fun n => -(n : Int)
  | '+' :: digits => (digitsValue 0 false digits).map Int.ofNat
  | digits => (digitsValue 0 false digits).map Int.ofNat

/-! ## A number written and read back -/

theorem isDigit_range {c : Char} (h : c.isDigit) : 48 ≤ c.toNat ∧ c.toNat ≤ 57 := by
  unfold Char.isDigit at h
  rw [Bool.and_eq_true, decide_eq_true_eq, decide_eq_true_eq] at h
  exact ⟨UInt32.le_iff_toNat_le.mp h.1, UInt32.le_iff_toNat_le.mp h.2⟩

theorem decimal_of_isDigit {c : Char} (h : c.isDigit) : decimal c = some (c.toNat - '0'.toNat) := by
  have hrange := isDigit_range h
  have hfind : (decimalZeros.find? fun z => z ≤ c.toNat && c.toNat < z + 10) = some 0x30 := by
    unfold decimalZeros
    rw [List.find?_cons_of_pos]
    simp only [Bool.and_eq_true, decide_eq_true_eq]
    omega
  rw [decimal, hfind]
  rfl

theorem not_isSpace_of_isDigit {c : Char} (h : c.isDigit) : isSpace c = false := by
  have hrange := isDigit_range h
  unfold isSpace
  simp only [Bool.or_eq_false_iff, Bool.and_eq_false_iff, decide_eq_false_iff_not, beq_eq_false_iff_ne]
  omega

theorem digitsValue_of_isDigit (s : List Char) (h : ∀ c ∈ s, c.isDigit) (hs : s ≠ []) (value : Nat)
    (flag : Bool) : digitsValue value flag s = some (Nat.ofDigitChars 10 s value) := by
  induction s generalizing value flag with
  | nil => exact absurd rfl hs
  | cons c rest ih =>
    have hc : c.isDigit := h c List.mem_cons_self
    have hne : c ≠ '_' := by
      rintro rfl
      exact absurd hc (by decide)
    rw [digitsValue, if_neg hne, decimal_of_isDigit hc, Option.bind_some, Nat.ofDigitChars_cons,
      Nat.mul_comm value 10]
    by_cases hrest : rest = []
    · subst hrest
      rfl
    · exact ih (fun d hd => h d (List.mem_cons_of_mem c hd)) hrest _ _

theorem strip_of_isDigit {s : List Char} (h : ∀ c ∈ s, c.isDigit) :
    (strip (String.ofList s)).toList = s := by
  have hkeep : ∀ l : List Char, (∀ c ∈ l, c.isDigit) → l.dropWhile isSpace = l := by
    intro l hl
    cases l with
    | nil => rfl
    | cons c rest =>
      rw [List.dropWhile_cons_of_neg]
      rw [not_isSpace_of_isDigit (hl c List.mem_cons_self)]
      exact Bool.false_ne_true
  rw [strip, String.toList_ofList, String.toList_ofList, hkeep s h,
    hkeep s.reverse (fun c hc => h c (List.mem_reverse.mp hc)), List.reverse_reverse]

theorem int_of_isDigit {s : List Char} (h : ∀ c ∈ s, c.isDigit) (hs : s ≠ []) :
    int s = some (Int.ofNat (Nat.ofDigitChars 10 s 0)) := by
  have hvalue : (digitsValue 0 false s).map Int.ofNat = some (Int.ofNat (Nat.ofDigitChars 10 s 0)) := by
    rw [digitsValue_of_isDigit s h hs]
    rfl
  rw [int, strip_of_isDigit h]
  split
  · exact absurd (h '-' (by simp)) (by decide)
  · exact absurd (h '+' (by simp)) (by decide)
  · exact hvalue

theorem int_repr (n : Nat) : int (Nat.repr n).toList = some (n : Int) := by
  rw [Nat.toList_repr, int_of_isDigit (fun c hc => Nat.isDigit_of_mem_toDigits (by decide) (by decide) hc)
    Nat.toDigits_ne_nil, Nat.ofDigitChars_ten_toDigits]
  rfl

theorem isDigit_repr (n : Nat) : isDigit (Nat.repr n).toList = true := by
  rw [Nat.toList_repr, isDigit]
  simp only [Bool.and_eq_true, Bool.not_eq_true', List.isEmpty_eq_false_iff, List.all_eq_true,
    Bool.or_eq_true]
  refine ⟨Nat.toDigits_ne_nil, fun c hc => .inl ?_⟩
  rw [decimal_of_isDigit (Nat.isDigit_of_mem_toDigits (by decide) (by decide) hc)]
  rfl

/-- Nothing but digits is written. -/
theorem dash_not_mem_repr (n : Nat) : '-' ∉ (Nat.repr n).toList := by
  intro h
  rw [Nat.toList_repr] at h
  exact absurd (Nat.isDigit_of_mem_toDigits (by decide) (by decide) h) (by decide)

theorem dash_not_mem_of_isDigit {s : List Char} (h : isDigit s = true) : '-' ∉ s := by
  intro hmem
  rw [isDigit, Bool.and_eq_true, List.all_eq_true] at h
  exact absurd (h.2 '-' hmem) (by decide)

/-! ## Partition -/

theorem partition_append {sep : Char} {front back : List Char} (h : sep ∉ front) :
    partition sep (front ++ sep :: back) = (front, true, back) := by
  have hfront : ∀ c ∈ front, decide (c ≠ sep) = true := by
    intro c hc
    rw [decide_eq_true_eq]
    rintro rfl
    exact h hc
  rw [partition, List.takeWhile_append_of_pos hfront, List.dropWhile_append_of_pos hfront]
  simp

theorem eq_append_of_partition {sep : Char} {s front back : List Char}
    (h : partition sep s = (front, true, back)) : s = front ++ sep :: back ∧ sep ∉ front := by
  rw [partition, Prod.mk.injEq, Prod.mk.injEq] at h
  obtain ⟨rfl, hsep, rfl⟩ := h
  have hmem : sep ∉ s.takeWhile (· ≠ sep) := by
    intro hin
    have := List.mem_takeWhile_imp hin
    simp at this
  refine ⟨?_, hmem⟩
  have hne : s.dropWhile (· ≠ sep) ≠ [] := by
    intro hnil
    rw [List.dropWhile_eq_nil_iff] at hnil
    have := hnil sep (by simpa using hsep)
    simp at this
  have hhead : (s.dropWhile (· ≠ sep)).head hne = sep := by
    have := List.head_dropWhile_not (fun c => decide (c ≠ sep)) hne
    simpa using this
  have hdrop : s.dropWhile (· ≠ sep) = sep :: (s.dropWhile (· ≠ sep)).tail := by
    conv_lhs => rw [← List.cons_head_tail hne, hhead]
  rw [List.drop_one, ← hdrop, List.takeWhile_append_dropWhile]

end OciHpc.PyStr
