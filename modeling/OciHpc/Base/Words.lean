import OciHpc.Base.PyText

/-!
# Words and lines of a text

* `words` : `str.split()`, on the characters of a text;
* `IsWord` : a piece of a text between white space; `words_append`, `words_of_isWord` : words that are split again;
* `hasInfix_iff` : `in`, as a list within a list;
* `linesFrom` : the lines, each with its newline.
-/

namespace OciHpc

/-- `s.split()`. -/
def words (s : List Char) : List (List Char) := (PyStr.reSplitFrom false [] s).filter (· ≠ [])

def NoSpace (s : List Char) : Prop := ∀ c ∈ s, PyStr.isSpace c = false

structure IsWord (word : List Char) : Prop where
  nonempty : word ≠ []
  noSpace : NoSpace word

theorem noSpace_nil : NoSpace [] := fun _ hc => absurd hc List.not_mem_nil

theorem noSpace_of_all {s : List Char} (h : s.all (fun c => !PyStr.isSpace c) = true) : NoSpace s := fun c hc => by
  simpa using List.all_eq_true.mp h c hc

theorem words_after_space (s : List Char) : (PyStr.reSplitFrom true [] s).filter (· ≠ []) = words s := by
  cases s with
  | nil => rfl
  | cons c rest =>
      rw [words, PyStr.reSplitFrom, PyStr.reSplitFrom]
      split
      · exact (List.filter_cons_of_neg (by simp)).symm
      · rfl

theorem reSplitFrom_of_noSpace {word : List Char} (h : NoSpace word) (piece rest : List Char) :
    PyStr.reSplitFrom false piece (word ++ rest) = PyStr.reSplitFrom false (word.reverse ++ piece) rest := by
  induction word generalizing piece with
  | nil => rfl
  | cons c word ih =>
      have hc : PyStr.isSpace c = false := h c List.mem_cons_self
      rw [List.cons_append, PyStr.reSplitFrom, hc, if_neg Bool.false_ne_true,
        ih fun d hd => h d (List.mem_cons_of_mem _ hd), List.reverse_cons, List.append_assoc, List.singleton_append]

theorem words_append {word : List Char} (h : IsWord word) (rest : List Char) : words (word ++ ' ' :: rest) = word :: words rest := by
  have hspace : PyStr.isSpace ' ' = true := by decide
  rw [words, reSplitFrom_of_noSpace h.noSpace, PyStr.reSplitFrom, hspace, if_pos rfl, if_neg Bool.false_ne_true,
    List.append_nil, List.reverse_reverse, List.filter_cons_of_pos (by simpa using h.nonempty), words_after_space]

theorem words_of_isWord {word : List Char} (h : IsWord word) : words word = [word] := by
  have hsplit := reSplitFrom_of_noSpace h.noSpace [] []
  rw [List.append_nil, List.append_nil] at hsplit
  rw [words, hsplit, PyStr.reSplitFrom, List.reverse_reverse]
  exact List.filter_cons_of_pos (by simpa using h.nonempty)

/-! ## Parts -/

theorem hasInfix_iff {part s : List Char} : PyStr.hasInfix part s = true ↔ part <:+: s := by
  induction s with
  | nil => rw [PyStr.hasInfix, List.isEmpty_iff, List.infix_nil]
  | cons c rest ih => rw [PyStr.hasInfix, Bool.or_eq_true, List.isPrefixOf_iff_prefix, ih, List.infix_cons_iff]

/-! ## Lines -/

/-- The lines, each with its newline, with the characters of the line so far. -/
def linesFrom : List Char → List Char → List (List Char)
  | line, [] => if line.isEmpty then [] else [line.reverse]
  | line, c :: rest =>
      if c = '\n' then (c :: line).reverse :: linesFrom [] rest else linesFrom (c :: line) rest

theorem linesFrom_append {body : List Char} (h : '\n' ∉ body) (line rest : List Char) :
    linesFrom line (body ++ '\n' :: rest) = (line.reverse ++ body ++ ['\n']) :: linesFrom [] rest := by
  induction body generalizing line with
  | nil =>
      rw [List.nil_append, linesFrom, if_pos rfl, List.reverse_cons, List.append_nil]
  | cons c body ih =>
      have hc : c ≠ '\n' := Ne.symm (List.ne_of_not_mem_cons h)
      rw [List.cons_append, linesFrom, if_neg hc, ih (List.not_mem_of_not_mem_cons h), List.reverse_cons,
        List.append_assoc line.reverse, List.singleton_append]

end OciHpc
