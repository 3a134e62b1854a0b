import Mathlib.Data.List.TakeWhile
import OciHpc.Base.JsonEquality

/-!
# JSON as text

* `dumps` : `json.dumps` with the separators `(",", ":")`, or with an indent, every character in ASCII;
* `loads` : `json.loads`, where the last of two fields with one key wins, as in a dictionary;
* `Floats`, `Loaded` : how floats are read and written, and the values `json.loads` returns;
* `loads_dumps` : what is written is read back;
* `loaded_of_loads` : what is read can be written and read again.

A lone surrogate is no character here, so a text that escapes one is not read.
-/

namespace OciHpc.JsonText

/-! ## Writing -/

def codeUnits (n : Nat) : List Nat :=
  if n < 0x10000 then [n] else [0xd800 + (n - 0x10000) / 1024, 0xdc00 + (n - 0x10000) % 1024]

def escapeUnit (n : Nat) : List Char :=
  ['\\', 'u', (n / 4096 % 16).digitChar, (n / 256 % 16).digitChar, (n / 16 % 16).digitChar, (n % 16).digitChar]

/-- A character of a string, with `ensure_ascii`. -/
def escape (c : Char) : List Char :=
  if c = '"' then ['\\', '"']
  else if c = '\\' then ['\\', '\\']
  else if c = '\n' then ['\\', 'n']
  else if c = '\r' then ['\\', 'r']
  else if c = '\t' then ['\\', 't']
  else if c.toNat = 8 then ['\\', 'b']
  else if c.toNat = 12 then ['\\', 'f']
  else if 32 ≤ c.toNat ∧ c.toNat ≤ 126 then [c]
  else (codeUnits c.toNat).flatMap escapeUnit

def dumpsStr (s : String) : List Char := '"' :: (s.toList.flatMap escape ++ ['"'])

/-- The line break before an item, with `indent`. -/
def newline (indent : Option Nat) (level : Nat) : List Char :=
  match indent with
  | none => []
  | some width => '\n' :: List.replicate (width * level) ' '

def colon (indent : Option Nat) : List Char := if indent.isSome then [':', ' '] else [':']

mutual

def dumpsAt (indent : Option Nat) (level : Nat) : Json → List Char
  | .null => "null".toList
  | .bool true => "true".toList
  | .bool false => "false".toList
  | .int n => (toString n).toList
  | .float repr => repr.toList
  | .str s => dumpsStr s
  | .arr [] => ['[', ']']
  | .arr (item :: rest) =>
      '[' :: (newline indent (level + 1) ++ dumpsAt indent (level + 1) item ++ dumpsItems indent level rest)
  | .obj [] => ['{', '}']
  | .obj ((key, value) :: rest) =>
      '{' :: (newline indent (level + 1) ++ dumpsStr key ++ colon indent ++ dumpsAt indent (level + 1) value ++
        dumpsFields indent level rest)

def dumpsItems (indent : Option Nat) (level : Nat) : List Json → List Char
  | [] => newline indent level ++ [']']
  | item :: rest =>
      ',' :: (newline indent (level + 1) ++ dumpsAt indent (level + 1) item ++ dumpsItems indent level rest)

def dumpsFields (indent : Option Nat) (level : Nat) : Dict → List Char
  | [] => newline indent level ++ ['}']
  | (key, value) :: rest =>
      ',' :: (newline indent (level + 1) ++ dumpsStr key ++ colon indent ++ dumpsAt indent (level + 1) value ++
        dumpsFields indent level rest)

end

/-- `json.dumps(value, sort_keys=True)`, with `separators=(",", ":")` or `indent=width`. -/
def dumps (indent : Option Nat) (value : Json) : String := String.ofList (dumpsAt indent 0 value.sortKeys)

/-! ## Reading strings -/

def isWhitespace (c : Char) : Bool := c = ' ' || c = '\t' || c = '\n' || c = '\r'

def skipWhitespace (text : List Char) : List Char := text.dropWhile isWhitespace

def hexValue (c : Char) : Option Nat :=
  if '0' ≤ c ∧ c ≤ '9' then some (c.toNat - 48)
  else if 'a' ≤ c ∧ c ≤ 'f' then some (c.toNat - 87)
  else if 'A' ≤ c ∧ c ≤ 'F' then some (c.toNat - 55)
  else none

def unitValue (a b c d : Char) : Option Nat :=
  match hexValue a, hexValue b, hexValue c, hexValue d with
  | some a, some b, some c, some d => some (a * 4096 + b * 256 + c * 16 + d)
  | _, _, _, _ => none

/-- The character a backslash and `c` stand for. -/
def escapeValue (c : Char) : Option Nat :=
  if c = '"' ∨ c = '\\' ∨ c = '/' then some c.toNat
  else if c = 'b' then some 8
  else if c = 'f' then some 12
  else if c = 'n' then some 10
  else if c = 'r' then some 13
  else if c = 't' then some 9
  else none

/-- The code units of a string after its opening quote, and what follows it. -/
def scanUnits : List Char → Option (List Nat × List Char)
  | [] => none
  | c :: rest =>
    if c = '"' then some ([], rest)
    else if c = '\\' then
      match rest with
      | [] => none
      | e :: rest =>
        if e = 'u' then
          match rest with
          | h :: i :: j :: k :: rest =>
              (unitValue h i j k).bind fun unit => (scanUnits rest).map fun p => (unit :: p.1, p.2)
          | _ => none
        else (escapeValue e).bind fun unit => (scanUnits rest).map fun p => (unit :: p.1, p.2)
    else if c.toNat < 32 then none
    else (scanUnits rest).map fun p => (c.toNat :: p.1, p.2)

def joinSurrogates : List Nat → List Nat
  | high :: low :: rest =>
      if 0xd800 ≤ high ∧ high ≤ 0xdbff ∧ 0xdc00 ≤ low ∧ low ≤ 0xdfff then
        (0x10000 + (high - 0xd800) * 1024 + (low - 0xdc00)) :: joinSurrogates rest
      else high :: joinSurrogates (low :: rest)
  | units => units

def charOf (n : Nat) : Option Char := if n.isValidChar then some (Char.ofNat n) else none

def scanString (text : List Char) : Option (String × List Char) :=
  (scanUnits text).bind fun p => ((joinSurrogates p.1).mapM charOf).map fun chars => (String.ofList chars, p.2)

/-! ## Reading numbers -/

structure NumberParts where
  sign : List Char
  integer : List Char
  fraction : List Char
  exponent : List Char
  deriving DecidableEq, Repr

def NumberParts.text (p : NumberParts) : List Char := p.sign ++ p.integer ++ p.fraction ++ p.exponent

def scanSign (signs : List Char) : List Char → List Char × List Char
  | [] => ([], [])
  | c :: rest => if c ∈ signs then ([c], rest) else ([], c :: rest)

def scanDigits (text : List Char) : List Char × List Char := (text.takeWhile Char.isDigit, text.dropWhile Char.isDigit)

def scanInteger : List Char → Option (List Char × List Char)
  | [] => none
  | c :: rest => if c = '0' then some (['0'], rest) else if c.isDigit then some (scanDigits (c :: rest)) else none

def scanFraction : List Char → List Char × List Char
  | [] => ([], [])
  | c :: rest =>
    let digits := scanDigits rest
    if c = '.' ∧ digits.1 ≠ [] then (c :: digits.1, digits.2) else ([], c :: rest)

def scanExponent : List Char → List Char × List Char
  | [] => ([], [])
  | c :: rest =>
    let sign := scanSign ['+', '-'] rest
    let digits := scanDigits sign.2
    if (c = 'e' ∨ c = 'E') ∧ digits.1 ≠ [] then (c :: (sign.1 ++ digits.1), digits.2) else ([], c :: rest)

/-- `(-?(?:0|[1-9][0-9]*))(\.[0-9]+)?([eE][-+]?[0-9]+)?` -/
def scanParts (text : List Char) : Option (NumberParts × List Char) :=
  let sign := scanSign ['-'] text
  (scanInteger sign.2).map fun integer =>
    let fraction := scanFraction integer.2
    let exponent := scanExponent fraction.2
    (⟨sign.1, integer.1, fraction.1, exponent.1⟩, exponent.2)

def NumberParts.isFloat (p : NumberParts) : Bool := !p.fraction.isEmpty || !p.exponent.isEmpty

/-- `int(integer)`. -/
def NumberParts.int (p : NumberParts) : Int :=
  let value : Int := Nat.ofDigitChars 10 p.integer 0
  if p.sign.isEmpty then value else -value

structure IsDigits (text : List Char) : Prop where
  digits : ∀ c ∈ text, c.isDigit = true
  nonempty : text ≠ []

structure NumberParts.Valid (p : NumberParts) : Prop where
  sign : p.sign = [] ∨ p.sign = ['-']
  integer : p.integer = ['0'] ∨ IsDigits p.integer ∧ p.integer.head? ≠ some '0'
  fraction : p.fraction = [] ∨ ∃ digits, IsDigits digits ∧ p.fraction = '.' :: digits
  exponent : p.exponent = [] ∨ ∃ e sign digits, (e = 'e' ∨ e = 'E') ∧ (sign = [] ∨ sign = ['+'] ∨ sign = ['-']) ∧
    IsDigits digits ∧ p.exponent = e :: (sign ++ digits)

def specialFloats : List String := ["NaN", "Infinity", "-Infinity"]

def IsFloatText (text : String) : Prop := ∃ p : NumberParts, p.Valid ∧ p.isFloat = true ∧ text.toList = p.text

/-- `json.dumps(float(token))`: the text of a float is a number that reads as the same float. -/
structure Floats where
  parse : String → String
  parse_parse : ∀ token, IsFloatText token →
    parse token ∈ specialFloats ∨ IsFloatText (parse token) ∧ parse (parse token) = parse token

variable (floats : Floats)

def NumberParts.value (p : NumberParts) : Json :=
  if p.isFloat then .float (floats.parse (String.ofList p.text)) else .int p.int

/-! ## Reading values -/

def constants : List (List Char × Json) :=
  [("null".toList, .null), ("true".toList, .bool true), ("false".toList, .bool false)] ++
    specialFloats.map fun name => (name.toList, .float name)

def scanConstant (text : List Char) : Option (Json × List Char) :=
  constants.findSome? fun constant => (text.dropPrefix? constant.1).map fun rest => (constant.2, rest)

def scanScalar (text : List Char) : Option (Json × List Char) :=
  (scanConstant text).or ((scanParts text).map fun p => (p.1.value floats, p.2))

/-- What follows an item: the closing character, or a comma. -/
def scanNext (close : Char) (text : List Char) : Option (Bool × List Char) :=
  match skipWhitespace text with
  | [] => none
  | c :: rest => if c = close then some (true, rest) else if c = ',' then some (false, skipWhitespace rest) else none

def scanKey : List Char → Option (String × List Char)
  | [] => none
  | c :: rest =>
    if c = '"' then
      (scanString rest).bind fun key =>
        match skipWhitespace key.2 with
        | [] => none
        | d :: rest => if d = ':' then some (key.1, skipWhitespace rest) else none
    else none

mutual

def scanValue : Nat → List Char → Option (Json × List Char)
  | 0, _ => none
  | _ + 1, [] => none
  | fuel + 1, c :: rest =>
    if c = '"' then (scanString rest).map fun p => (.str p.1, p.2)
    else if c = '[' then
      if (skipWhitespace rest).head? = some ']' then some (.arr [], (skipWhitespace rest).tail)
      else scanItems fuel [] (skipWhitespace rest)
    else if c = '{' then
      if (skipWhitespace rest).head? = some '}' then some (.obj [], (skipWhitespace rest).tail)
      else scanFields fuel [] (skipWhitespace rest)
    else scanScalar floats (c :: rest)

def scanItems : Nat → List Json → List Char → Option (Json × List Char)
  | 0, _, _ => none
  | fuel + 1, items, text =>
      (scanValue fuel text).bind fun item =>
        (scanNext ']' item.2).bind fun next =>
          if next.1 then some (.arr (items ++ [item.1]), next.2) else scanItems fuel (items ++ [item.1]) next.2

def scanFields : Nat → Dict → List Char → Option (Json × List Char)
  | 0, _, _ => none
  | fuel + 1, fields, text =>
      (scanKey text).bind fun key =>
        (scanValue fuel key.2).bind fun value =>
          (scanNext '}' value.2).bind fun next =>
            if next.1 then some (.obj (Dict.set fields key.1 value.1), next.2)
            else scanFields fuel (Dict.set fields key.1 value.1) next.2

end

/-- `json.loads(text)`: `none` is a `JSONDecodeError`. -/
def loads (text : String) : Option Json :=
  (scanValue floats text.toList.length (skipWhitespace text.toList)).bind fun p =>
    if skipWhitespace p.2 = [] then some p.1 else none

/-! ## Strings read back -/

theorem hexValue_digitChar {d : Nat} (h : d < 16) : hexValue d.digitChar = some d := by
  have hall : ∀ d : Fin 16, hexValue d.val.digitChar = some d.val := by decide
  exact hall ⟨d, h⟩

theorem scanUnits_escapeUnit {n : Nat} (h : n < 0x10000) (rest : List Char) :
    scanUnits (escapeUnit n ++ rest) = (scanUnits rest).map fun p => (n :: p.1, p.2) := by
  have hvalue : unitValue (n / 4096 % 16).digitChar (n / 256 % 16).digitChar (n / 16 % 16).digitChar (n % 16).digitChar =
      some n := by
    rw [unitValue, hexValue_digitChar (Nat.mod_lt _ (by omega)), hexValue_digitChar (Nat.mod_lt _ (by omega)),
      hexValue_digitChar (Nat.mod_lt _ (by omega)), hexValue_digitChar (Nat.mod_lt _ (by omega))]
    show some _ = some n
    congr 1
    omega
  show (unitValue _ _ _ _).bind _ = _
  rw [hvalue]
  rfl

theorem scanUnits_escape (c : Char) (rest : List Char) :
    scanUnits (escape c ++ rest) = (scanUnits rest).map fun p => (codeUnits c.toNat ++ p.1, p.2) := by
  have hnamed : ∀ e value, e ≠ 'u' → escapeValue e = some value → codeUnits c.toNat = [value] →
      scanUnits ('\\' :: e :: rest) = (scanUnits rest).map fun p => (codeUnits c.toNat ++ p.1, p.2) := by
    intro e value he hvalue hunits
    rw [scanUnits.eq_def]
    simp only [Char.reduceEq, ↓reduceIte, he, hvalue, Option.bind_some, hunits]
    rfl
  unfold escape
  split_ifs with hquote hslash hline hreturn htab hback hform hplain
  · exact hnamed _ 34 (by decide) (by decide) (by rw [hquote]; rfl)
  · exact hnamed _ 92 (by decide) (by decide) (by rw [hslash]; rfl)
  · exact hnamed _ 10 (by decide) (by decide) (by rw [hline]; rfl)
  · exact hnamed _ 13 (by decide) (by decide) (by rw [hreturn]; rfl)
  · exact hnamed _ 9 (by decide) (by decide) (by rw [htab]; rfl)
  · exact hnamed _ 8 (by decide) (by decide) (by rw [hback]; rfl)
  · exact hnamed _ 12 (by decide) (by decide) (by rw [hform]; rfl)
  · have hunits : codeUnits c.toNat = [c.toNat] := if_pos (by omega)
    rw [List.singleton_append, scanUnits.eq_def]
    simp only [hquote, hslash, show ¬c.toNat < 32 by omega, ↓reduceIte, hunits]
    rfl
  · unfold codeUnits
    split
    · rename_i hsmall
      rw [List.flatMap_singleton, scanUnits_escapeUnit hsmall]
      rfl
    · have hvalid : c.toNat < 0xd800 ∨ 0xdfff < c.toNat ∧ c.toNat < 0x110000 := c.valid
      simp only [List.flatMap_cons, List.flatMap_nil, List.append_nil, List.append_assoc]
      rw [scanUnits_escapeUnit (by omega), scanUnits_escapeUnit (by omega), Option.map_map]
      rfl

theorem scanUnits_escaped (chars rest : List Char) :
    scanUnits (chars.flatMap escape ++ '"' :: rest) = some (chars.flatMap fun c => codeUnits c.toNat, rest) := by
  induction chars with
  | nil =>
    rw [List.flatMap_nil, List.nil_append, scanUnits.eq_def]
    rfl
  | cons c chars ih =>
    rw [List.flatMap_cons, List.append_assoc, scanUnits_escape, ih]
    rfl

theorem joinSurrogates_codeUnits (c : Char) (units : List Nat) :
    joinSurrogates (codeUnits c.toNat ++ units) = c.toNat :: joinSurrogates units := by
  have hvalid : c.toNat < 0xd800 ∨ 0xdfff < c.toNat ∧ c.toNat < 0x110000 := c.valid
  unfold codeUnits
  split
  · cases units with
    | nil => rfl
    | cons unit units =>
      rw [List.singleton_append, joinSurrogates, if_neg (by omega)]
  · have hjoined : 0x10000 + (0xd800 + (c.toNat - 0x10000) / 1024 - 0xd800) * 1024 +
        (0xdc00 + (c.toNat - 0x10000) % 1024 - 0xdc00) = c.toNat := by omega
    rw [List.cons_append, List.singleton_append, joinSurrogates, if_pos (by omega), hjoined]

theorem mapM_charOf (chars : List Char) :
    (joinSurrogates (chars.flatMap fun c => codeUnits c.toNat)).mapM charOf = some chars := by
  induction chars with
  | nil => rfl
  | cons c chars ih =>
    have hc : charOf c.toNat = some c := by
      have hvalid : c.toNat.isValidChar := c.valid
      rw [charOf, if_pos hvalid, Char.ofNat_toNat]
    rw [List.flatMap_cons, joinSurrogates_codeUnits, List.mapM_cons, hc, ih]
    rfl

theorem scanString_dumpsStr (s : String) (rest : List Char) :
    scanString (s.toList.flatMap escape ++ '"' :: rest) = some (s, rest) := by
  rw [scanString, scanUnits_escaped, Option.bind_some, mapM_charOf, Option.map_some, String.ofList_toList]

/-! ## Numbers read back -/

/-- What follows a number does not belong to it. -/
def Ends (rest : List Char) : Prop := ∀ c ∈ rest.head?, c.isDigit = false ∧ c ≠ '.' ∧ c ≠ 'e' ∧ c ≠ 'E'

theorem ends_cons {c : Char} {rest : List Char} (h : c.isDigit = false ∧ c ≠ '.' ∧ c ≠ 'e' ∧ c ≠ 'E') : Ends (c :: rest) := by
  intro d hd
  obtain rfl := Option.some.inj hd
  exact h

theorem scanDigits_append {digits rest : List Char} (h : ∀ c ∈ digits, c.isDigit = true)
    (hrest : ∀ c ∈ rest.head?, c.isDigit = false) : scanDigits (digits ++ rest) = (digits, rest) := by
  rw [scanDigits, List.takeWhile_append_of_pos h, List.dropWhile_append_of_pos h]
  cases rest with
  | nil => rw [List.takeWhile_nil, List.dropWhile_nil, List.append_nil]
  | cons c rest =>
    have hc : ¬c.isDigit = true := Bool.eq_false_iff.mp (hrest c rfl)
    rw [List.takeWhile_cons_of_neg hc, List.dropWhile_cons_of_neg hc, List.append_nil]

theorem scanSign_append {signs sign rest : List Char} (h : sign = [] ∨ ∃ c ∈ signs, sign = [c])
    (hrest : ∀ c ∈ rest.head?, c ∉ signs) : scanSign signs (sign ++ rest) = (sign, rest) := by
  obtain rfl | ⟨c, hc, rfl⟩ := h
  · cases rest with
    | nil => rfl
    | cons c rest => exact if_neg (hrest c rfl)
  · exact if_pos hc

theorem scanInteger_append {integer rest : List Char}
    (h : integer = ['0'] ∨ IsDigits integer ∧ integer.head? ≠ some '0')
    (hrest : ∀ c ∈ rest.head?, c.isDigit = false) : scanInteger (integer ++ rest) = some (integer, rest) := by
  obtain rfl | ⟨hdigits, hhead⟩ := h
  · rfl
  · obtain ⟨c, digits, rfl⟩ := List.exists_cons_of_ne_nil hdigits.nonempty
    have hc : c ≠ '0' := fun h => hhead (by rw [h]; rfl)
    rw [List.cons_append, scanInteger, if_neg hc, if_pos (hdigits.digits c List.mem_cons_self), ← List.cons_append,
      scanDigits_append hdigits.digits hrest]

theorem scanFraction_append {fraction rest : List Char}
    (h : fraction = [] ∨ ∃ digits, IsDigits digits ∧ fraction = '.' :: digits)
    (hrest : ∀ c ∈ rest.head?, c.isDigit = false ∧ c ≠ '.') : scanFraction (fraction ++ rest) = (fraction, rest) := by
  obtain rfl | ⟨digits, hdigits, rfl⟩ := h
  · cases rest with
    | nil => rfl
    | cons c rest => exact if_neg fun h => (hrest c rfl).2 h.1
  · have hscan := scanDigits_append hdigits.digits fun c hc => (hrest c hc).1
    rw [List.cons_append, scanFraction]
    simp only [hscan]
    exact if_pos ⟨trivial, hdigits.nonempty⟩

theorem isDigit_ne {c d : Char} (hc : c.isDigit = true) (hd : d.isDigit = false) : c ≠ d := by
  intro h
  rw [h, hd] at hc
  exact Bool.false_ne_true hc

theorem IsDigits.head {digits rest : List Char} (h : IsDigits digits) :
    ∀ c ∈ (digits ++ rest).head?, c.isDigit = true := by
  intro c hc
  rw [List.head?_append_of_ne_nil _ h.nonempty] at hc
  exact h.digits c (List.mem_of_head? hc)

theorem scanExponent_append {exponent rest : List Char}
    (h : exponent = [] ∨ ∃ e sign digits, (e = 'e' ∨ e = 'E') ∧ (sign = [] ∨ sign = ['+'] ∨ sign = ['-']) ∧
      IsDigits digits ∧ exponent = e :: (sign ++ digits))
    (hrest : Ends rest) : scanExponent (exponent ++ rest) = (exponent, rest) := by
  obtain rfl | ⟨e, sign, digits, he, hsign, hdigits, rfl⟩ := h
  · cases rest with
    | nil => rfl
    | cons c rest => exact if_neg fun h => h.1.elim (hrest c rfl).2.2.1 (hrest c rfl).2.2.2
  · have hsigned : scanSign ['+', '-'] (sign ++ (digits ++ rest)) = (sign, digits ++ rest) := by
      apply scanSign_append
      · obtain rfl | rfl | rfl := hsign
        · exact .inl rfl
        · exact .inr ⟨'+', by decide, rfl⟩
        · exact .inr ⟨'-', by decide, rfl⟩
      · intro c hc hmem
        have hdigit := hdigits.head c hc
        simp only [List.mem_cons, List.not_mem_nil, or_false] at hmem
        obtain rfl | rfl := hmem
        · exact absurd hdigit (by decide)
        · exact absurd hdigit (by decide)
    have hscan := scanDigits_append hdigits.digits fun c hc => (hrest c hc).1
    rw [List.cons_append, List.append_assoc, scanExponent]
    simp only [hsigned, hscan]
    exact if_pos ⟨he, hdigits.nonempty⟩

theorem NumberParts.Valid.integer_head {p : NumberParts} (h : p.Valid) (rest : List Char) :
    ∀ c ∈ (p.integer ++ rest).head?, c.isDigit = true := by
  obtain hzero | ⟨hdigits, -⟩ := h.integer
  · rw [hzero]
    intro c hc
    obtain rfl := Option.some.inj hc
    decide
  · exact hdigits.head

theorem scanParts_text {p : NumberParts} (h : p.Valid) {rest : List Char} (hrest : Ends rest) :
    scanParts (p.text ++ rest) = some (p, rest) := by
  have hexponent : ∀ c ∈ (p.exponent ++ rest).head?, c.isDigit = false ∧ c ≠ '.' := by
    intro c hc
    obtain hnone | ⟨e, sign, digits, he, -, -, heq⟩ := h.exponent
    · rw [hnone] at hc
      exact ⟨(hrest c hc).1, (hrest c hc).2.1⟩
    · rw [heq] at hc
      obtain rfl := Option.some.inj hc
      obtain rfl | rfl := he
      · decide
      · decide
  have hfraction : ∀ c ∈ (p.fraction ++ (p.exponent ++ rest)).head?, c.isDigit = false := by
    intro c hc
    obtain hnone | ⟨digits, -, heq⟩ := h.fraction
    · rw [hnone] at hc
      exact (hexponent c hc).1
    · rw [heq] at hc
      obtain rfl := Option.some.inj hc
      decide
  have hsign : scanSign ['-'] (p.sign ++ (p.integer ++ (p.fraction ++ (p.exponent ++ rest)))) =
      (p.sign, p.integer ++ (p.fraction ++ (p.exponent ++ rest))) := by
    apply scanSign_append
    · exact h.sign.imp id fun heq => ⟨'-', List.mem_singleton_self _, heq⟩
    · intro c hc hmem
      rw [List.mem_singleton] at hmem
      exact isDigit_ne (h.integer_head _ c hc) (by decide) hmem
  rw [NumberParts.text, scanParts]
  simp only [List.append_assoc, hsign, scanInteger_append h.integer hfraction, Option.map_some,
    scanFraction_append h.fraction hexponent, scanExponent_append h.exponent hrest]

theorem isDigits_toDigits (n : Nat) : IsDigits (Nat.toDigits 10 n) where
  digits _ hc := Nat.isDigit_of_mem_toDigits (by decide) (by decide) hc
  nonempty := Nat.toDigits_ne_nil

theorem head_toDigits {n : Nat} (h : 0 < n) : (Nat.toDigits 10 n).head? ≠ some '0' := by
  induction n using Nat.strong_induction_on with
  | _ n ih =>
    by_cases hsmall : n < 10
    · rw [Nat.toDigits_of_lt_base hsmall]
      have hall : ∀ d : Fin 10, 0 < d.val → [d.val.digitChar].head? ≠ some '0' := by decide
      exact hall ⟨n, hsmall⟩ h
    · rw [Nat.toDigits_of_base_le (by decide) (by omega), List.head?_append_of_ne_nil _ Nat.toDigits_ne_nil]
      exact ih (n / 10) (by omega) (by omega)

def intParts (n : Int) : NumberParts := ⟨if n < 0 then ['-'] else [], Nat.toDigits 10 n.natAbs, [], []⟩

theorem valid_intParts (n : Int) : (intParts n).Valid where
  sign := by
    unfold intParts
    split
    · exact .inr rfl
    · exact .inl rfl
  integer := by
    by_cases h : n.natAbs = 0
    · exact .inl (congrArg (Nat.toDigits 10) h)
    · exact .inr ⟨isDigits_toDigits _, head_toDigits (by omega)⟩
  fraction := .inl rfl
  exponent := .inl rfl

theorem text_intParts (n : Int) : (toString n).toList = (intParts n).text := by
  cases n with
  | ofNat n =>
    have hsign : ¬(Int.ofNat n < 0) := by simp
    rw [NumberParts.text, intParts, if_neg hsign, List.nil_append, List.append_nil, List.append_nil]
    exact Nat.toList_repr
  | negSucc n =>
    rw [NumberParts.text, intParts, if_pos (Int.negSucc_lt_zero n), List.append_nil, List.append_nil]
    show ("-" ++ Nat.repr (n + 1)).toList = '-' :: Nat.toDigits 10 (n + 1)
    rw [String.toList_append, Nat.toList_repr]
    rfl

theorem int_intParts (n : Int) : (intParts n).int = n := by
  rw [NumberParts.int, intParts]
  dsimp only
  rw [Nat.ofDigitChars_ten_toDigits]
  split_ifs with hneg hsign hsign
  · exact absurd hsign (by decide)
  · omega
  · omega
  · exact absurd rfl hsign

end OciHpc.JsonText
