import Mathlib.Data.List.Basic

/-!
# String operations of Python

`str.strip`, `str.lower`, `str.startswith`, `in` and `str.join`, on the characters of a string.
-/

namespace OciHpc.PyStr

/-- `str.isspace` of one character. -/
def isSpace (c : Char) : Bool :=
  let n := c.toNat
  (9 ≤ n && n ≤ 13) || (28 ≤ n && n ≤ 32) || n == 0x85 || n == 0xa0 || n == 0x1680 ||
    (0x2000 ≤ n && n ≤ 0x200a) || n == 0x2028 || n == 0x2029 || n == 0x202f || n == 0x205f || n == 0x3000

/-- `s.strip()`. -/
def strip (s : String) : String :=
  String.ofList ((s.toList.dropWhile isSpace).reverse.dropWhile isSpace).reverse

/-- `s.lower()` on the ASCII letters. -/
def lower (s : String) : String := String.ofList (s.toList.map Char.toLower)

def startsWith (s start : String) : Bool := start.toList.isPrefixOf s.toList

/-- `part in s`, on the characters. -/
def hasInfix (part : List Char) : List Char → Bool
  | [] => part.isEmpty
  | c :: rest => part.isPrefixOf (c :: rest) || hasInfix part rest

def contains (s part : String) : Bool := hasInfix part.toList s.toList

/-- `sep.join(parts)`. -/
def join (sep : String) : List String → String
  | [] => ""
  | [s] => s
  | s :: rest => s ++ sep ++ join sep rest

theorem append_ne_append (n : Nat) {p q : String} (a b : String) (hp : n ≤ p.toList.length)
    (hq : n ≤ q.toList.length) (h : p.toList.take n ≠ q.toList.take n) : p ++ a ≠ q ++ b := by
  intro heq
  refine h ?_
  have h' : (p ++ a).toList.take n = (q ++ b).toList.take n := by rw [heq]
  rwa [String.toList_append, String.toList_append, List.take_append_of_le_length hp,
    List.take_append_of_le_length hq] at h'

end OciHpc.PyStr
