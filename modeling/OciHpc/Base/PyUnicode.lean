import Mathlib.Data.List.Basic
import OciHpc.Base.Json

/-!
# Python texts

A Python `str` may hold lone surrogates, a Lean `String` may not.

* `PyChar`, `PyText`, `PyText.encode` : texts, and their UTF-8 form where they have one;
* `Python` : what the Unicode tables and `str` say, as parameters;
* `takeBytes` : `s.encode("utf-8")[:n].decode("utf-8", errors="ignore")`;
* `dumpsLength_le` : a text's length in JSON against its length in UTF-8.
-/

namespace OciHpc

/-- A code point of a Python `str`. -/
inductive PyChar
  | scalar (c : Char)
  | surrogate (n : Fin 2048)
  deriving DecidableEq, Repr

def PyChar.code : PyChar → Nat
  | .scalar c => c.toNat
  | .surrogate n => 0xD800 + n

abbrev PyText := List PyChar

/-- The Unicode tables, and `str` of a value that is no string. -/
structure Python where
  isSpace : PyChar → Bool
  combining : PyChar → Bool
  wide : PyChar → Bool
  otherCategory : PyChar → Bool
  upper : PyChar → PyText
  strOf : Json → PyText

namespace PyText

def ofString (s : String) : PyText := s.toList.map PyChar.scalar

def chars : PyText → Option (List Char)
  | [] => some []
  | .scalar c :: rest => (chars rest).map (c :: ·)
  | .surrogate _ :: _ => none

/-- `s.encode("utf-8")`, as a string; `none` is a `UnicodeEncodeError`. -/
def encode (t : PyText) : Option String := (chars t).map String.ofList

theorem chars_eq_some {t : PyText} {s : List Char} : chars t = some s ↔ t = s.map PyChar.scalar := by
  induction t generalizing s with
  | nil =>
    cases s with
    | nil => exact ⟨fun _ => rfl, fun _ => rfl⟩
    | cons => exact ⟨nofun, nofun⟩
  | cons c rest ih =>
    cases c with
    | scalar c =>
      rw [chars, Option.map_eq_some_iff]
      constructor
      · rintro ⟨s', hs', rfl⟩
        rw [ih.mp hs']
        rfl
      · intro h
        cases s with
        | nil => cases h
        | cons d s' =>
          rw [List.map_cons] at h
          injection h with hd hs'
          injection hd with hd
          exact ⟨s', ih.mpr hs', by rw [hd]⟩
    | surrogate n =>
      constructor
      · exact nofun
      · intro h
        cases s with
        | nil => cases h
        | cons d s' =>
          rw [List.map_cons] at h
          injection h with hd
          cases hd

theorem encode_eq_some {t : PyText} {s : String} : encode t = some s ↔ t = ofString s := by
  unfold encode ofString
  rw [Option.map_eq_some_iff]
  constructor
  · rintro ⟨l, hl, rfl⟩
    rw [String.toList_ofList]
    exact chars_eq_some.mp hl
  · intro h
    exact ⟨s.toList, chars_eq_some.mpr h, String.ofList_toList⟩

@[simp] theorem encode_ofString (s : String) : encode (ofString s) = some s := encode_eq_some.mpr rfl

/-! ## Splitting and joining -/

/-- `s.split()`, with the reversed word read so far. -/
def words (isSpace : PyChar → Bool) : PyText → PyText → List PyText
  | word, [] => if word.isEmpty then [] else [word.reverse]
  | word, c :: rest =>
    if isSpace c then
      if word.isEmpty then words isSpace [] rest else word.reverse :: words isSpace [] rest
    else words isSpace (c :: word) rest

def split (isSpace : PyChar → Bool) (t : PyText) : List PyText := words isSpace [] t

/-- `s.strip()`. -/
def strip (isSpace : PyChar → Bool) (t : PyText) : PyText :=
  ((t.dropWhile isSpace).reverse.dropWhile isSpace).reverse

/-- `sep.join(parts)`. -/
def join (sep : String) (parts : List PyText) : PyText := (ofString sep).intercalate parts

/-! ## Lengths in bytes and in JSON -/

/-- The UTF-8 bytes of a code point; a surrogate has none. -/
def charBytes : PyChar → Nat
  | .scalar c => c.utf8Size
  | .surrogate _ => 0

/-- `len(s.encode("utf-8"))`. -/
def byteLength (t : PyText) : Nat := (t.map charBytes).sum

/-- The longest prefix of at most `n` bytes. -/
def takeBytes : Nat → PyText → PyText
  | _, [] => []
  | n, c :: rest => if charBytes c ≤ n then c :: takeBytes (n - charBytes c) rest else []

/-- The characters `json.dumps` writes for one code point. -/
def dumpsCharLength : PyChar → Nat
  | .scalar c => Json.dumpsCharLength c
  | .surrogate _ => 6

/-- `len(json.dumps(s))`. -/
def dumpsLength (t : PyText) : Nat := 2 + (t.map dumpsCharLength).sum

theorem byteLength_takeBytes (n : Nat) (t : PyText) : byteLength (takeBytes n t) ≤ n := by
  induction t generalizing n with
  | nil => exact Nat.zero_le n
  | cons c rest ih =>
    unfold takeBytes
    split
    case isTrue hfits =>
      have hrest := ih (n - charBytes c)
      unfold byteLength at hrest ⊢
      rw [List.map_cons, List.sum_cons]
      omega
    case isFalse => exact Nat.zero_le n

theorem takeBytes_chars {n : Nat} {t : PyText} {s : List Char} (h : chars t = some s) :
    ∃ s', chars (takeBytes n t) = some s' := by
  induction t generalizing n s with
  | nil => exact ⟨[], rfl⟩
  | cons c rest ih =>
    cases c with
    | surrogate => cases h
    | scalar c =>
      obtain ⟨s₁, hs₁, -⟩ := Option.map_eq_some_iff.mp h
      unfold takeBytes
      split
      · obtain ⟨s', hs'⟩ := ih (n := n - charBytes (.scalar c)) hs₁
        exact ⟨c :: s', by rw [chars, hs', Option.map_some]⟩
      · exact ⟨[], rfl⟩

/-- JSON writes at most six characters for each byte of UTF-8. -/
theorem dumpsCharLength_le (c : Char) : Json.dumpsCharLength c ≤ 6 * c.utf8Size := by
  have hpos := Char.utf8Size_pos c
  unfold Json.dumpsCharLength
  split
  · omega
  · split
    · omega
    · split
      · omega
      case isFalse hbig =>
        have hfour : 2 ≤ c.utf8Size := by
          have hval : c.val.toNat = c.toNat := rfl
          unfold Char.utf8Size
          dsimp only
          split
          case isTrue hle =>
            have hle' : c.val.toNat ≤ 127 := UInt32.le_iff_toNat_le.mp hle
            omega
          · split
            · exact Nat.le_refl 2
            · split <;> omega
        omega

theorem dumpsLength_le {t : PyText} {s : List Char} (h : chars t = some s) : dumpsLength t ≤ 2 + 6 * byteLength t := by
  have hsum : (t.map dumpsCharLength).sum ≤ 6 * byteLength t := by
    induction t generalizing s with
    | nil => exact Nat.zero_le _
    | cons c rest ih =>
      cases c with
      | surrogate => cases h
      | scalar c =>
        obtain ⟨s₁, hs₁, -⟩ := Option.map_eq_some_iff.mp h
        have hrest := ih hs₁
        have hchar := dumpsCharLength_le c
        unfold byteLength at hrest ⊢
        rw [List.map_cons, List.map_cons, List.sum_cons, List.sum_cons]
        change Json.dumpsCharLength c + _ ≤ 6 * (c.utf8Size + _)
        omega
  unfold dumpsLength
  omega

theorem dumpsLength_ofString (s : String) : dumpsLength (ofString s) = Json.dumpsStrLength s := by
  unfold dumpsLength ofString Json.dumpsStrLength
  rw [List.map_map]
  rfl

theorem byteLength_ofString (s : String) : byteLength (ofString s) = s.utf8ByteSize := by
  unfold byteLength ofString
  rw [List.map_map]
  have hlist : ∀ l : List Char, (l.map (charBytes ∘ PyChar.scalar)).sum = (String.ofList l).utf8ByteSize := by
    intro l
    induction l with
    | nil => rfl
    | cons c rest ih =>
      rw [List.map_cons, List.sum_cons, ih, String.ofList_cons, String.utf8ByteSize_append, String.utf8ByteSize_singleton]
      rfl
  rw [hlist, String.ofList_toList]

end PyText

end OciHpc
