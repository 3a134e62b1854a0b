import OciHpc.Base.JsonText

/-!
# JSON written and read back

* `Loaded` : the values `json.loads` returns: the keys of an object differ, and the text of a float reads as that float;
* `loads_eq_some_iff` : what `loads` reads, whatever the fuel;
* `loads_dumps` : what `json.dumps` writes, `json.loads` reads back, with the fields sorted;
* `loaded_of_loads` : what `json.loads` returns is such a value.
-/

namespace OciHpc.JsonText

variable (floats : Floats)

/-- The text of a float, as `json.dumps` writes it. -/
def Floats.IsText (text : String) : Prop := text ∈ specialFloats ∨ IsFloatText text ∧ floats.parse text = text

/-- The values `json.loads` returns. -/
inductive Loaded : Json → Prop
  | null : Loaded .null
  | bool (b : Bool) : Loaded (.bool b)
  | int (n : Int) : Loaded (.int n)
  | float (repr : String) (h : floats.IsText repr) : Loaded (.float repr)
  | str (s : String) : Loaded (.str s)
  | arr (items : List Json) (h : ∀ item ∈ items, Loaded item) : Loaded (.arr items)
  | obj (fields : Dict) (keys : (fields.map Prod.fst).Nodup) (h : ∀ e ∈ fields, Loaded e.2) : Loaded (.obj fields)

/-! ## Scalars -/

variable {floats}

theorem NumberParts.Valid.text_head {p : NumberParts} (h : p.Valid) (rest : List Char) :
    ∃ c more, p.text ++ rest = c :: more ∧
      (c.isDigit = true ∨ c = '-' ∧ ∀ d ∈ more.head?, d.isDigit = true) := by
  have hinteger := h.integer_head (p.fraction ++ (p.exponent ++ rest))
  obtain ⟨d, digits, hdigits⟩ : ∃ d digits, p.integer = d :: digits := by
    obtain hzero | ⟨hdigits, -⟩ := h.integer
    · exact ⟨'0', [], hzero⟩
    · exact List.exists_cons_of_ne_nil hdigits.nonempty
  rw [NumberParts.text]
  simp only [List.append_assoc]
  obtain hsign | hsign := h.sign
  · rw [hsign, List.nil_append]
    rw [hdigits] at hinteger ⊢
    exact ⟨d, _, rfl, .inl (hinteger d rfl)⟩
  · rw [hsign]
    exact ⟨'-', _, rfl, .inr ⟨rfl, hinteger⟩⟩

theorem constants_eq : constants =
    [(['n', 'u', 'l', 'l'], .null), (['t', 'r', 'u', 'e'], .bool true), (['f', 'a', 'l', 's', 'e'], .bool false),
      (['N', 'a', 'N'], .float "NaN"), (['I', 'n', 'f', 'i', 'n', 'i', 't', 'y'], .float "Infinity"),
      (['-', 'I', 'n', 'f', 'i', 'n', 'i', 't', 'y'], .float "-Infinity")] := by decide +kernel

theorem scanConstant_append {word : List Char} {value : Json} (h : (word, value) ∈ constants) (rest : List Char) :
    scanConstant (word ++ rest) = some (value, rest) := by
  rw [constants_eq] at h
  rw [scanConstant, constants_eq]
  simp only [List.mem_cons, Prod.mk.injEq, List.not_mem_nil, or_false] at h
  obtain ⟨rfl, rfl⟩ | ⟨rfl, rfl⟩ | ⟨rfl, rfl⟩ | ⟨rfl, rfl⟩ | ⟨rfl, rfl⟩ | ⟨rfl, rfl⟩ := h
  all_goals simp [List.dropPrefix?]

theorem constants_all :
    constants.all (fun constant => decide ((constant.1.take 2).length = 2) && (constant.1.take 2).all fun c => !c.isDigit) =
      true := by decide +kernel

theorem scanConstant_number {c : Char} {more : List Char}
    (h : c.isDigit = true ∨ c = '-' ∧ ∀ d ∈ more.head?, d.isDigit = true) : scanConstant (c :: more) = none := by
  rw [scanConstant, List.findSome?_eq_none_iff]
  intro constant hmem
  have hall := List.all_eq_true.mp constants_all constant hmem
  rw [Bool.and_eq_true, decide_eq_true_eq, List.all_eq_true] at hall
  rw [Option.map_eq_none_iff, Option.eq_none_iff_forall_ne_some]
  intro rest hrest
  obtain ⟨word, hword, hsame⟩ := List.dropPrefix?_eq_some_iff.mp hrest
  rw [← eq_of_beq hsame] at hall
  obtain ⟨hlength, hdigits⟩ := hall
  match word, hlength with
  | a :: b :: word, _ =>
    rw [List.cons_append, List.cons_append, List.cons.injEq] at hword
    obtain ⟨rfl, rfl⟩ := hword
    have hfirst := hdigits c (by simp)
    have hsecond := hdigits b (by simp)
    obtain hc | ⟨-, hmore⟩ := h
    · rw [hc] at hfirst
      exact absurd hfirst (by decide)
    · rw [hmore b rfl] at hsecond
      exact absurd hsecond (by decide)

theorem scanScalar_constant {word : List Char} {value : Json} (h : (word, value) ∈ constants) (rest : List Char) :
    scanScalar floats (word ++ rest) = some (value, rest) := by
  rw [scanScalar, scanConstant_append h]
  rfl

theorem scanScalar_text {p : NumberParts} (h : p.Valid) {rest : List Char} (hrest : Ends rest) :
    scanScalar floats (p.text ++ rest) = some (p.value floats, rest) := by
  obtain ⟨c, more, htext, hhead⟩ := h.text_head rest
  rw [scanScalar, scanParts_text h hrest, htext, scanConstant_number hhead]
  rfl

theorem scanScalar_int (n : Int) {rest : List Char} (hrest : Ends rest) :
    scanScalar floats ((toString n).toList ++ rest) = some (.int n, rest) := by
  rw [text_intParts, scanScalar_text (valid_intParts n) hrest, NumberParts.value, int_intParts]
  rfl

theorem scanScalar_float {repr : String} (h : floats.IsText repr) {rest : List Char} (hrest : Ends rest) :
    scanScalar floats (repr.toList ++ rest) = some (.float repr, rest) := by
  obtain hspecial | ⟨⟨p, hvalid, hfloat, htext⟩, hparse⟩ := h
  · exact scanScalar_constant (List.mem_append_right _ (List.mem_map.mpr ⟨repr, hspecial, rfl⟩)) rest
  · rw [htext, scanScalar_text hvalid hrest, NumberParts.value, if_pos hfloat, ← htext, String.ofList_toList, hparse]

/-! ## Fuel -/

theorem length_skipWhitespace (text : List Char) : (skipWhitespace text).length ≤ text.length :=
  (List.dropWhile_suffix _).length_le

theorem scanUnits_shorter (n : Nat) : ∀ (text : List Char) (p : List Nat × List Char), text.length ≤ n →
    scanUnits text = some p → p.2.length < text.length := by
  induction n with
  | zero =>
    intro text p hn h
    rw [List.length_eq_zero_iff.mp (Nat.le_zero.mp hn), scanUnits] at h
    cases h
  | succ n ih =>
    intro text p hn h
    have hmore : ∀ (unit : Nat) (rest : List Char), rest.length < text.length →
        ((scanUnits rest).map fun p => (unit :: p.1, p.2)) = some p → p.2.length < text.length := by
      intro unit rest hrest hmap
      obtain ⟨q, hq, rfl⟩ := Option.map_eq_some_iff.mp hmap
      have := ih rest q (by omega) hq
      exact Nat.lt_trans this hrest
    rw [scanUnits.eq_def] at h
    split at h
    · cases h
    · rename_i c rest
      split_ifs at h with hquote hslash hcontrol
      · obtain rfl := Option.some.inj h
        exact Nat.lt_succ_self _
      · split at h
        · cases h
        · split_ifs at h
          · split at h
            · obtain ⟨unit, -, hmap⟩ := Option.bind_eq_some_iff.mp h
              exact hmore unit _ (by simp only [List.length_cons]; omega) hmap
            · cases h
          · obtain ⟨unit, -, hmap⟩ := Option.bind_eq_some_iff.mp h
            exact hmore unit _ (by simp only [List.length_cons]; omega) hmap
      · exact hmore _ _ (Nat.lt_succ_self _) h

theorem scanString_shorter {text : List Char} {p : String × List Char} (h : scanString text = some p) :
    p.2.length < text.length := by
  obtain ⟨units, hunits, h⟩ := Option.bind_eq_some_iff.mp h
  obtain ⟨chars, -, rfl⟩ := Option.map_eq_some_iff.mp h
  exact scanUnits_shorter _ _ _ le_rfl hunits

theorem length_scanSign (signs text : List Char) : (scanSign signs text).2.length ≤ text.length := by
  cases text with
  | nil => exact le_rfl
  | cons c rest =>
    rw [scanSign]
    split_ifs
    · exact Nat.le_succ _
    · exact le_rfl

theorem length_scanDigits (text : List Char) : (scanDigits text).2.length ≤ text.length :=
  (List.dropWhile_suffix _).length_le

theorem scanParts_shorter {text : List Char} {p : NumberParts × List Char} (h : scanParts text = some p) :
    p.2.length < text.length := by
  have hfraction : ∀ text, (scanFraction text).2.length ≤ text.length := by
    intro text
    cases text with
    | nil => exact le_rfl
    | cons c rest =>
      rw [scanFraction]
      split_ifs
      · exact (length_scanDigits rest).trans (Nat.le_succ _)
      · exact le_rfl
  have hexponent : ∀ text, (scanExponent text).2.length ≤ text.length := by
    intro text
    cases text with
    | nil => exact le_rfl
    | cons c rest =>
      rw [scanExponent]
      split_ifs
      · exact ((length_scanDigits _).trans (length_scanSign _ rest)).trans (Nat.le_succ _)
      · exact le_rfl
  have hinteger : ∀ text integer, scanInteger text = some integer → integer.2.length < text.length := by
    intro text integer h
    cases text with
    | nil => cases h
    | cons c rest =>
      rw [scanInteger] at h
      split_ifs at h with hzero hdigit
      · obtain rfl := Option.some.inj h
        exact Nat.lt_succ_self _
      · obtain rfl := Option.some.inj h
        rw [scanDigits, List.dropWhile_cons_of_pos hdigit]
        exact Nat.lt_succ_of_le (length_scanDigits rest)
  obtain ⟨integer, hscan, rfl⟩ := Option.map_eq_some_iff.mp h
  calc (scanExponent (scanFraction integer.2).2).2.length
      ≤ (scanFraction integer.2).2.length := hexponent _
    _ ≤ integer.2.length := hfraction _
    _ < (scanSign ['-'] text).2.length := hinteger _ _ hscan
    _ ≤ text.length := length_scanSign _ _

theorem scanScalar_shorter {text : List Char} {p : Json × List Char} (h : scanScalar floats text = some p) :
    p.2.length < text.length := by
  rw [scanScalar, Option.or_eq_some_iff] at h
  obtain hconstant | ⟨-, hnumber⟩ := h
  · obtain ⟨constant, hmem, hconstant⟩ := List.exists_of_findSome?_eq_some hconstant
    obtain ⟨rest, hrest, rfl⟩ := Option.map_eq_some_iff.mp hconstant
    obtain ⟨word, rfl, hword⟩ := List.dropPrefix?_eq_some_iff.mp hrest
    have hall := List.all_eq_true.mp constants_all constant hmem
    rw [Bool.and_eq_true, decide_eq_true_eq, ← eq_of_beq hword, List.length_take] at hall
    rw [List.length_append]
    dsimp only
    omega
  · obtain ⟨parts, hparts, rfl⟩ := Option.map_eq_some_iff.mp hnumber
    exact scanParts_shorter hparts

theorem scanNext_shorter {close : Char} {text : List Char} {next : Bool × List Char} (h : scanNext close text = some next) :
    next.2.length < text.length := by
  have hskip := length_skipWhitespace text
  rw [scanNext] at h
  split at h
  · cases h
  · rename_i c rest hrest
    rw [hrest, List.length_cons] at hskip
    have hmore := length_skipWhitespace rest
    split_ifs at h
    · obtain rfl := Option.some.inj h
      exact hskip
    · obtain rfl := Option.some.inj h
      exact Nat.lt_of_le_of_lt hmore hskip

theorem scanKey_shorter {text : List Char} {key : String × List Char} (h : scanKey text = some key) :
    key.2.length < text.length := by
  cases text with
  | nil => cases h
  | cons c rest =>
    rw [scanKey] at h
    split_ifs at h
    obtain ⟨s, hs, h⟩ := Option.bind_eq_some_iff.mp h
    have hshorter := scanString_shorter hs
    have hskip := length_skipWhitespace s.2
    split at h
    · cases h
    · rename_i d more hmore
      rw [hmore, List.length_cons] at hskip
      split_ifs at h
      obtain rfl := Option.some.inj h
      have hlast := length_skipWhitespace more
      rw [List.length_cons]
      show (skipWhitespace more).length < _
      omega

/-- What is read with some fuel is read with as much fuel as it takes characters. -/
structure ScansAlike (floats : Floats) (fuel : Nat) : Prop where
  value : ∀ text p, scanValue floats fuel text = some p → p.2.length < text.length ∧
    ∀ fuel', text.length - p.2.length ≤ fuel' → scanValue floats fuel' text = some p
  items : ∀ done text p, scanItems floats fuel done text = some p → p.2.length < text.length ∧
    ∀ fuel', text.length - p.2.length ≤ fuel' → scanItems floats fuel' done text = some p
  fields : ∀ done text p, scanFields floats fuel done text = some p → p.2.length < text.length ∧
    ∀ fuel', text.length - p.2.length ≤ fuel' → scanFields floats fuel' done text = some p

theorem exists_succ {n k : Nat} (h : k < n) : ∃ m, n = m + 1 := ⟨n - 1, by omega⟩

theorem scansAlike (fuel : Nat) : ScansAlike floats fuel := by
  induction fuel with
  | zero =>
    exact {
      value := fun text p h => by simp [scanValue] at h
      items := fun done text p h => by simp [scanItems] at h
      fields := fun done text p h => by simp [scanFields] at h }
  | succ fuel ih =>
    refine ⟨fun text p h => ?_, fun done text p h => ?_, fun done text p h => ?_⟩
    · cases text with
      | nil => simp [scanValue] at h
      | cons c rest =>
        have hskip := length_skipWhitespace rest
        -- every branch but the two loops reads the same whatever the fuel
        have hsame : ∀ read : Nat → Option (Json × List Char), (∀ n, scanValue floats (n + 1) (c :: rest) = read n) →
            (∀ n, read n = some p) → p.2.length < (c :: rest).length →
            p.2.length < (c :: rest).length ∧
              ∀ fuel', (c :: rest).length - p.2.length ≤ fuel' → scanValue floats fuel' (c :: rest) = some p := by
          intro read hread hp hshorter
          refine ⟨hshorter, fun fuel' hfuel => ?_⟩
          obtain ⟨n, rfl⟩ := @exists_succ fuel' 0 (by omega)
          rw [hread, hp]
        rw [scanValue] at h
        split_ifs at h with hquote hbracket hempty hbrace hempty
        · obtain ⟨s, hs, rfl⟩ := Option.map_eq_some_iff.mp h
          have hshorter := scanString_shorter hs
          refine hsame (fun _ => (scanString rest).map fun p => (.str p.1, p.2)) (fun n => ?_) (fun n => h) ?_
          · rw [scanValue, if_pos hquote]
          · exact Nat.lt_succ_of_lt hshorter
        · refine hsame (fun _ => some (.arr [], (skipWhitespace rest).tail)) (fun n => ?_) (fun n => h) ?_
          · rw [scanValue, if_neg hquote, if_pos hbracket, if_pos hempty]
          · obtain rfl := Option.some.inj h
            rw [List.length_tail, List.length_cons]
            omega
        · obtain ⟨hshorter, hread⟩ := ih.items _ _ _ h
          refine ⟨by rw [List.length_cons]; omega, fun fuel' hfuel => ?_⟩
          rw [List.length_cons] at hfuel
          obtain ⟨n, rfl⟩ := @exists_succ fuel' 0 (by omega)
          rw [scanValue, if_neg hquote, if_pos hbracket, if_neg hempty]
          exact hread n (by omega)
        · refine hsame (fun _ => some (.obj [], (skipWhitespace rest).tail)) (fun n => ?_) (fun n => h) ?_
          · rw [scanValue, if_neg hquote, if_neg hbracket, if_pos hbrace, if_pos hempty]
          · obtain rfl := Option.some.inj h
            rw [List.length_tail, List.length_cons]
            omega
        · obtain ⟨hshorter, hread⟩ := ih.fields _ _ _ h
          refine ⟨by rw [List.length_cons]; omega, fun fuel' hfuel => ?_⟩
          rw [List.length_cons] at hfuel
          obtain ⟨n, rfl⟩ := @exists_succ fuel' 0 (by omega)
          rw [scanValue, if_neg hquote, if_neg hbracket, if_pos hbrace, if_neg hempty]
          exact hread n (by omega)
        · refine hsame (fun _ => scanScalar floats (c :: rest)) (fun n => ?_) (fun n => h) (scanScalar_shorter h)
          rw [scanValue, if_neg hquote, if_neg hbracket, if_neg hbrace]
    · rw [scanItems] at h
      obtain ⟨item, hitem, h⟩ := Option.bind_eq_some_iff.mp h
      obtain ⟨next, hnext, h⟩ := Option.bind_eq_some_iff.mp h
      obtain ⟨hvalue, hread⟩ := ih.value _ _ hitem
      have hshorter := scanNext_shorter hnext
      split_ifs at h with hclosed
      · obtain rfl := Option.some.inj h
        refine ⟨Nat.lt_trans hshorter hvalue, fun fuel' hfuel => ?_⟩
        dsimp only at hfuel
        obtain ⟨n, rfl⟩ := @exists_succ fuel' 0 (by omega)
        rw [scanItems, hread n (by omega), Option.bind_some, hnext, Option.bind_some, if_pos hclosed]
      · obtain ⟨hmore, hagain⟩ := ih.items _ _ _ h
        refine ⟨by omega, fun fuel' hfuel => ?_⟩
        obtain ⟨n, rfl⟩ := @exists_succ fuel' 0 (by omega)
        rw [scanItems, hread n (by omega), Option.bind_some, hnext, Option.bind_some, if_neg hclosed]
        exact hagain n (by omega)
    · rw [scanFields] at h
      obtain ⟨key, hkey, h⟩ := Option.bind_eq_some_iff.mp h
      obtain ⟨value, hscan, h⟩ := Option.bind_eq_some_iff.mp h
      obtain ⟨next, hnext, h⟩ := Option.bind_eq_some_iff.mp h
      obtain ⟨hvalue, hread⟩ := ih.value _ _ hscan
      have hkeyed := scanKey_shorter hkey
      have hshorter := scanNext_shorter hnext
      split_ifs at h with hclosed
      · obtain rfl := Option.some.inj h
        refine ⟨by dsimp only; omega, fun fuel' hfuel => ?_⟩
        dsimp only at hfuel
        obtain ⟨n, rfl⟩ := @exists_succ fuel' 0 (by omega)
        rw [scanFields, hkey, Option.bind_some, hread n (by omega), Option.bind_some, hnext, Option.bind_some,
          if_pos hclosed]
      · obtain ⟨hmore, hagain⟩ := ih.fields _ _ _ h
        refine ⟨by omega, fun fuel' hfuel => ?_⟩
        obtain ⟨n, rfl⟩ := @exists_succ fuel' 0 (by omega)
        rw [scanFields, hkey, Option.bind_some, hread n (by omega), Option.bind_some, hnext, Option.bind_some,
          if_neg hclosed]
        exact hagain n (by omega)

/-- **No text needs more fuel than `loads` gives it.** -/
theorem loads_eq_some_iff {text : String} {value : Json} :
    loads floats text = some value ↔
      ∃ fuel rest, scanValue floats fuel (skipWhitespace text.toList) = some (value, rest) ∧ skipWhitespace rest = [] := by
  constructor
  · intro h
    obtain ⟨p, hp, h⟩ := Option.bind_eq_some_iff.mp h
    split_ifs at h with hrest
    obtain rfl := Option.some.inj h
    exact ⟨_, p.2, hp, hrest⟩
  · rintro ⟨fuel, rest, hscan, hrest⟩
    have hskip := length_skipWhitespace text.toList
    rw [loads, ((scansAlike fuel).value _ _ hscan).2 text.toList.length (by dsimp only; omega), Option.bind_some]
    exact if_pos hrest

/-! ## Between the values -/

theorem skipWhitespace_cons {c : Char} {rest : List Char} (h : isWhitespace c = false) :
    skipWhitespace (c :: rest) = c :: rest := by
  rw [skipWhitespace, List.dropWhile_cons_of_neg (Bool.eq_false_iff.mp h)]

theorem skipWhitespace_newline (indent : Option Nat) (level : Nat) (text : List Char) :
    skipWhitespace (newline indent level ++ text) = skipWhitespace text := by
  cases indent with
  | none => rfl
  | some width =>
    have hspaces : ∀ c ∈ newline (some width) level, isWhitespace c = true := by
      intro c hc
      obtain rfl | hc := List.mem_cons.mp hc
      · rfl
      · rw [List.eq_of_mem_replicate hc]
        rfl
    rw [skipWhitespace, List.dropWhile_append_of_pos hspaces]
    rfl

theorem ends_newline (indent : Option Nat) (level : Nat) {text : List Char} (h : Ends text) :
    Ends (newline indent level ++ text) := by
  cases indent with
  | none => exact h
  | some width => exact ends_cons (by decide)

/-- A value begins with no white space and no closing bracket. -/
def Begins (text : List Char) : Prop := ∃ c more, text = c :: more ∧ isWhitespace c = false ∧ c ≠ ']'

theorem Begins.append {text : List Char} (h : Begins text) (rest : List Char) : Begins (text ++ rest) := by
  obtain ⟨c, more, rfl, hc⟩ := h
  exact ⟨c, more ++ rest, rfl, hc⟩

theorem Begins.skip {text : List Char} (h : Begins text) : skipWhitespace text = text := by
  obtain ⟨c, more, rfl, hc, -⟩ := h
  exact skipWhitespace_cons hc

theorem Begins.head {text : List Char} (h : Begins text) : text.head? ≠ some ']' := by
  obtain ⟨c, more, rfl, -, hc⟩ := h
  exact fun heq => hc (Option.some.inj heq)

theorem begins_number {p : NumberParts} (h : p.Valid) : Begins p.text := by
  obtain ⟨c, more, htext, hhead⟩ := h.text_head []
  rw [List.append_nil] at htext
  refine ⟨c, more, htext, ?_⟩
  obtain hc | ⟨rfl, -⟩ := hhead
  · have hrange := PyStr.isDigit_range hc
    have hne : ∀ d : Char, d.isDigit = false → c ≠ d := fun d hd => isDigit_ne hc hd
    refine ⟨?_, hne _ (by decide)⟩
    simp [isWhitespace, hne ' ' (by decide), hne '\t' (by decide), hne '\n' (by decide), hne '\r' (by decide)]
  · decide

theorem begins_dumpsAt {value : Json} (h : Loaded floats value) (indent : Option Nat) (level : Nat) :
    Begins (dumpsAt indent level value) := by
  cases h with
  | null => exact ⟨_, _, rfl, by decide⟩
  | bool b => cases b <;> exact ⟨_, _, rfl, by decide⟩
  | int n =>
    rw [dumpsAt, text_intParts]
    exact begins_number (valid_intParts n)
  | float repr h =>
    obtain hspecial | ⟨⟨p, hvalid, -, htext⟩, -⟩ := h
    · simp only [specialFloats, List.mem_cons, List.not_mem_nil, or_false] at hspecial
      obtain rfl | rfl | rfl := hspecial
      · exact ⟨_, _, rfl, by decide⟩
      · exact ⟨_, _, rfl, by decide⟩
      · exact ⟨_, _, rfl, by decide⟩
    · rw [dumpsAt, htext]
      exact begins_number hvalid
  | str s => exact ⟨_, _, rfl, by decide⟩
  | arr items h => cases items <;> exact ⟨_, _, rfl, by decide⟩
  | obj fields keys h =>
    cases fields with
    | nil => exact ⟨_, _, rfl, by decide⟩
    | cons e fields => exact ⟨_, _, rfl, by decide⟩

/-! ## Values -/

def ReadsBack (floats : Floats) (indent : Option Nat) (value : Json) : Prop :=
  ∀ level fuel rest, (dumpsAt indent level value).length ≤ fuel → Ends rest →
    scanValue floats fuel (dumpsAt indent level value ++ rest) = some (value, rest)

theorem scanNext_close (indent : Option Nat) (level : Nat) {close : Char} (h : isWhitespace close = false)
    (rest : List Char) : scanNext close (newline indent level ++ close :: rest) = some (true, rest) := by
  rw [scanNext, skipWhitespace_newline, skipWhitespace_cons h]
  exact if_pos rfl

theorem scanNext_comma (indent : Option Nat) (level : Nat) {close : Char} (h : close ≠ ',') {text : List Char}
    (htext : skipWhitespace text = text) : scanNext close (',' :: (newline indent level ++ text)) = some (false, text) := by
  rw [scanNext, skipWhitespace_cons (by decide)]
  simp only [h.symm, ↓reduceIte, skipWhitespace_newline, htext]

theorem ends_dumpsItems (indent : Option Nat) (level : Nat) (items : List Json) (rest : List Char) :
    Ends (dumpsItems indent level items ++ rest) := by
  cases items with
  | nil =>
    rw [dumpsItems, List.append_assoc]
    exact ends_newline indent level (ends_cons (by decide))
  | cons item items =>
    rw [dumpsItems]
    exact ends_cons (by decide)

theorem ends_dumpsFields (indent : Option Nat) (level : Nat) (fields : Dict) (rest : List Char) :
    Ends (dumpsFields indent level fields ++ rest) := by
  cases fields with
  | nil =>
    rw [dumpsFields, List.append_assoc]
    exact ends_newline indent level (ends_cons (by decide))
  | cons e fields =>
    rw [dumpsFields]
    exact ends_cons (by decide)

theorem scanItems_dumps {indent : Option Nat} (level : Nat) (items : List Json) :
    ∀ (item : Json) (done : List Json) (fuel : Nat) (rest : List Char),
      (∀ other ∈ item :: items, Loaded floats other ∧ ReadsBack floats indent other) →
      (dumpsAt indent (level + 1) item).length + (dumpsItems indent level items).length ≤ fuel →
      scanItems floats fuel done (dumpsAt indent (level + 1) item ++ (dumpsItems indent level items ++ rest)) =
        some (.arr (done ++ item :: items), rest) := by
  induction items with
  | nil =>
    intro item done fuel rest hitems hfuel
    obtain ⟨fuel, rfl⟩ : ∃ n, fuel = n + 1 := ⟨fuel - 1, by simp [dumpsItems] at hfuel; omega⟩
    have hitem := (hitems item List.mem_cons_self).2 (level + 1) fuel _
      (by simp [dumpsItems] at hfuel; omega) (ends_dumpsItems indent level [] rest)
    rw [scanItems, hitem, Option.bind_some, dumpsItems, List.append_assoc]
    dsimp only
    rw [List.singleton_append, scanNext_close indent level (by decide), Option.bind_some]
    rfl
  | cons next items ih =>
    intro item done fuel rest hitems hfuel
    rw [dumpsItems, List.length_cons, List.length_append, List.length_append] at hfuel
    obtain ⟨fuel, rfl⟩ : ∃ n, fuel = n + 1 := ⟨fuel - 1, by omega⟩
    have hitem := (hitems item List.mem_cons_self).2 (level + 1) fuel _ (by omega)
      (ends_dumpsItems indent level (next :: items) rest)
    have hbegins := (begins_dumpsAt (hitems next (List.mem_cons_of_mem _ List.mem_cons_self)).1 indent (level + 1)).append
      (dumpsItems indent level items ++ rest)
    have hrest := ih next (done ++ [item]) fuel rest (fun other h => hitems other (List.mem_cons_of_mem _ h)) (by omega)
    rw [scanItems, hitem, Option.bind_some, dumpsItems]
    simp only [List.cons_append, List.append_assoc]
    rw [scanNext_comma indent (level + 1) (by decide) hbegins.skip, Option.bind_some]
    simp only [Bool.false_eq_true, ↓reduceIte, hrest, List.append_assoc, List.singleton_append]

theorem scanKey_dumpsStr (indent : Option Nat) (key : String) {text : List Char} (h : skipWhitespace text = text) :
    scanKey (dumpsStr key ++ (colon indent ++ text)) = some (key, text) := by
  have hcolon : skipWhitespace (colon indent ++ text) = colon indent ++ text := by
    cases indent <;> exact skipWhitespace_cons (by decide)
  have hskip : skipWhitespace ((colon indent).tail ++ text) = text := by
    cases indent with
    | none => exact h
    | some width => exact h
  rw [dumpsStr, List.cons_append, List.append_assoc, List.singleton_append, scanKey, if_pos rfl, scanString_dumpsStr,
    Option.bind_some, hcolon]
  cases indent with
  | none => exact congrArg (fun rest => some (key, rest)) hskip
  | some width => exact congrArg (fun rest => some (key, rest)) hskip

theorem set_of_not_mem {fields : Dict} {key : String} (h : key ∉ fields.map Prod.fst) (value : Json) :
    Dict.set fields key value = fields ++ [(key, value)] := by
  induction fields with
  | nil => rfl
  | cons e fields ih =>
    rw [List.map_cons, List.mem_cons, not_or] at h
    rw [Dict.set, if_neg (Ne.symm h.1), ih h.2, List.cons_append]

theorem scanFields_dumps {indent : Option Nat} (level : Nat) (fields : Dict) :
    ∀ (key : String) (value : Json) (done : Dict) (fuel : Nat) (rest : List Char),
      (∀ e ∈ (key, value) :: fields, Loaded floats e.2 ∧ ReadsBack floats indent e.2) →
      ((done ++ (key, value) :: fields).map Prod.fst).Nodup →
      (dumpsAt indent (level + 1) value).length + (dumpsFields indent level fields).length ≤ fuel →
      scanFields floats fuel done (dumpsStr key ++ (colon indent ++ (dumpsAt indent (level + 1) value ++
        (dumpsFields indent level fields ++ rest)))) = some (.obj (done ++ (key, value) :: fields), rest) := by
  induction fields with
  | nil =>
    intro key value done fuel rest hfields hkeys hfuel
    rw [dumpsFields, List.length_append] at hfuel
    obtain ⟨fuel, rfl⟩ : ∃ n, fuel = n + 1 := ⟨fuel - 1, by rw [List.length_singleton] at hfuel; omega⟩
    have hloaded : Loaded floats value ∧ ReadsBack floats indent value := hfields (key, value) List.mem_cons_self
    have hbegins := (begins_dumpsAt hloaded.1 indent (level + 1)).append (dumpsFields indent level [] ++ rest)
    have hvalue := hloaded.2 (level + 1) fuel _ (by rw [List.length_singleton] at hfuel; omega)
      (ends_dumpsFields indent level [] rest)
    have hkey : key ∉ done.map Prod.fst := by
      rw [List.map_append, List.nodup_append] at hkeys
      exact fun hmem => hkeys.2.2 key hmem key List.mem_cons_self rfl
    rw [scanFields, scanKey_dumpsStr indent key hbegins.skip, Option.bind_some, hvalue, Option.bind_some, dumpsFields,
      List.append_assoc]
    dsimp only
    rw [List.singleton_append, scanNext_close indent level (by decide), Option.bind_some, set_of_not_mem hkey]
    rfl
  | cons next fields ih =>
    intro key value done fuel rest hfields hkeys hfuel
    rw [dumpsFields, List.length_cons] at hfuel
    simp only [List.length_append] at hfuel
    obtain ⟨fuel, rfl⟩ : ∃ n, fuel = n + 1 := ⟨fuel - 1, by omega⟩
    have hloaded : Loaded floats value ∧ ReadsBack floats indent value := hfields (key, value) List.mem_cons_self
    have hbegins := (begins_dumpsAt hloaded.1 indent (level + 1)).append (dumpsFields indent level (next :: fields) ++ rest)
    have hvalue := hloaded.2 (level + 1) fuel _ (by omega) (ends_dumpsFields indent level (next :: fields) rest)
    have hkey : key ∉ done.map Prod.fst := by
      rw [List.map_append, List.nodup_append] at hkeys
      exact fun hmem => hkeys.2.2 key hmem key List.mem_cons_self rfl
    have hassoc : done ++ (key, value) :: next :: fields = done ++ [(key, value)] ++ next :: fields := by
      rw [List.append_assoc, List.singleton_append]
    have hrest := ih next.1 next.2 (done ++ [(key, value)]) fuel rest
      (fun e he => hfields e (List.mem_cons_of_mem _ he)) (hassoc ▸ hkeys) (by omega)
    have hquote : ∀ text, skipWhitespace (dumpsStr next.1 ++ text) = dumpsStr next.1 ++ text := fun text =>
      skipWhitespace_cons (by decide)
    rw [scanFields, scanKey_dumpsStr indent key hbegins.skip, Option.bind_some, hvalue, Option.bind_some, dumpsFields]
    simp only [List.cons_append, List.append_assoc]
    rw [scanNext_comma indent (level + 1) (by decide) (hquote _), Option.bind_some, set_of_not_mem hkey]
    simp only [Bool.false_eq_true, ↓reduceIte, hrest, List.append_assoc, List.singleton_append]

theorem scanValue_scalar {fuel : Nat} {c : Char} {rest : List Char} (h : c ≠ '"' ∧ c ≠ '[' ∧ c ≠ '{') :
    scanValue floats (fuel + 1) (c :: rest) = scanScalar floats (c :: rest) := by
  rw [scanValue, if_neg h.1, if_neg h.2.1, if_neg h.2.2]

theorem scanValue_number {p : NumberParts} (h : p.Valid) (fuel : Nat) (rest : List Char) :
    scanValue floats (fuel + 1) (p.text ++ rest) = scanScalar floats (p.text ++ rest) := by
  obtain ⟨c, more, htext, hhead⟩ := h.text_head rest
  rw [htext]
  apply scanValue_scalar
  obtain hc | ⟨rfl, -⟩ := hhead
  · exact ⟨isDigit_ne hc (by decide), isDigit_ne hc (by decide), isDigit_ne hc (by decide)⟩
  · decide

theorem scanValue_constant {word : List Char} {value : Json} (h : (word, value) ∈ constants) (fuel : Nat) (rest : List Char) :
    scanValue floats (fuel + 1) (word ++ rest) = some (value, rest) := by
  have hhead : ∃ c more, word = c :: more ∧ c ≠ '"' ∧ c ≠ '[' ∧ c ≠ '{' := by
    rw [constants_eq] at h
    simp only [List.mem_cons, Prod.mk.injEq, List.not_mem_nil, or_false] at h
    obtain ⟨rfl, -⟩ | ⟨rfl, -⟩ | ⟨rfl, -⟩ | ⟨rfl, -⟩ | ⟨rfl, -⟩ | ⟨rfl, -⟩ := h
    all_goals exact ⟨_, _, rfl, by decide⟩
  obtain ⟨c, more, hword, hc⟩ := hhead
  rw [← scanScalar_constant h, hword]
  exact scanValue_scalar hc

/-- **A value is read back**, whatever follows it that is not part of it. -/
theorem scanValue_dumpsAt {value : Json} (h : Loaded floats value) (indent : Option Nat) : ReadsBack floats indent value := by
  induction h with
  | null =>
    intro level fuel rest hfuel hrest
    obtain ⟨fuel, rfl⟩ : ∃ n, fuel = n + 1 := ⟨fuel - 1, by simp [dumpsAt] at hfuel; omega⟩
    have hmem : ("null".toList, Json.null) ∈ constants := by decide +kernel
    rw [dumpsAt]
    exact scanValue_constant hmem fuel rest
  | bool b =>
    intro level fuel rest hfuel hrest
    cases b with
    | false =>
      obtain ⟨fuel, rfl⟩ : ∃ n, fuel = n + 1 := ⟨fuel - 1, by simp [dumpsAt] at hfuel; omega⟩
      have hmem : ("false".toList, Json.bool false) ∈ constants := by decide +kernel
      rw [dumpsAt]
      exact scanValue_constant hmem fuel rest
    | true =>
      obtain ⟨fuel, rfl⟩ : ∃ n, fuel = n + 1 := ⟨fuel - 1, by simp [dumpsAt] at hfuel; omega⟩
      have hmem : ("true".toList, Json.bool true) ∈ constants := by decide +kernel
      rw [dumpsAt]
      exact scanValue_constant hmem fuel rest
  | int n =>
    intro level fuel rest hfuel hrest
    rw [dumpsAt] at hfuel ⊢
    obtain ⟨c, more, htext, -⟩ := begins_number (valid_intParts n)
    obtain ⟨fuel, rfl⟩ : ∃ n, fuel = n + 1 := ⟨fuel - 1, by rw [text_intParts, htext, List.length_cons] at hfuel; omega⟩
    rw [← scanScalar_int n hrest, text_intParts]
    exact scanValue_number (valid_intParts n) fuel rest
  | float repr hrepr =>
    intro level fuel rest hfuel hrest
    rw [dumpsAt] at hfuel ⊢
    obtain ⟨c, more, htext, -⟩ := begins_dumpsAt (Loaded.float repr hrepr) indent level
    rw [dumpsAt] at htext
    obtain ⟨fuel, rfl⟩ : ∃ n, fuel = n + 1 := ⟨fuel - 1, by rw [htext, List.length_cons] at hfuel; omega⟩
    rw [← scanScalar_float hrepr hrest]
    obtain hspecial | ⟨⟨p, hvalid, -, hp⟩, -⟩ := hrepr
    · have hmem : (repr.toList, Json.float repr) ∈ constants :=
        List.mem_append_right _ (List.mem_map.mpr ⟨repr, hspecial, rfl⟩)
      rw [scanValue_constant hmem, scanScalar_constant hmem]
    · rw [hp]
      exact scanValue_number hvalid fuel rest
  | str s =>
    intro level fuel rest hfuel hrest
    rw [dumpsAt, dumpsStr] at hfuel ⊢
    obtain ⟨fuel, rfl⟩ : ∃ n, fuel = n + 1 := ⟨fuel - 1, by rw [List.length_cons] at hfuel; omega⟩
    rw [List.cons_append, List.append_assoc, List.singleton_append, scanValue, if_pos rfl, scanString_dumpsStr]
    rfl
  | arr items hitems ih =>
    intro level fuel rest hfuel hrest
    cases items with
    | nil =>
      obtain ⟨fuel, rfl⟩ : ∃ n, fuel = n + 1 := ⟨fuel - 1, by simp [dumpsAt] at hfuel; omega⟩
      rfl
    | cons item items =>
      rw [dumpsAt, List.length_cons] at hfuel
      simp only [List.length_append] at hfuel
      obtain ⟨fuel, rfl⟩ : ∃ n, fuel = n + 1 := ⟨fuel - 1, by omega⟩
      have hbegins := (begins_dumpsAt (hitems item List.mem_cons_self) indent (level + 1)).append
        (dumpsItems indent level items ++ rest)
      have hscan := scanItems_dumps level items item [] fuel rest (fun other h => ⟨hitems other h, ih other h⟩) (by omega)
      rw [dumpsAt]
      simp only [List.cons_append, List.append_assoc]
      rw [scanValue, if_neg (by decide), if_pos rfl, skipWhitespace_newline, hbegins.skip, if_neg hbegins.head, hscan]
      rfl
  | obj fields hkeys hfields ih =>
    intro level fuel rest hfuel hrest
    cases fields with
    | nil =>
      obtain ⟨fuel, rfl⟩ : ∃ n, fuel = n + 1 := ⟨fuel - 1, by simp [dumpsAt] at hfuel; omega⟩
      rfl
    | cons e fields =>
      rw [dumpsAt, List.length_cons] at hfuel
      simp only [List.length_append] at hfuel
      obtain ⟨fuel, rfl⟩ : ∃ n, fuel = n + 1 := ⟨fuel - 1, by omega⟩
      have hquote : ∀ text, skipWhitespace (dumpsStr e.1 ++ text) = dumpsStr e.1 ++ text := fun text =>
        skipWhitespace_cons (by decide)
      have hhead : ∀ text, (dumpsStr e.1 ++ text).head? ≠ some '}' := fun text heq =>
        absurd (Option.some.inj heq) (by decide)
      have hscan := scanFields_dumps level fields e.1 e.2 [] fuel rest (fun other h => ⟨hfields other h, ih other h⟩) hkeys
        (by omega)
      rw [dumpsAt]
      simp only [List.cons_append, List.append_assoc]
      rw [scanValue, if_neg (by decide), if_neg (by decide), if_pos rfl, skipWhitespace_newline, hquote,
        if_neg (hhead _), hscan]
      rfl

/-! ## Sorted keys -/

theorem perm_sortFields (fields : Dict) : (Json.sortFields fields).Perm fields := List.perm_insertionSort _ fields

/-- Sorting the keys of a value that was read gives such a value. -/
theorem Loaded.sortKeys {value : Json} (h : Loaded floats value) : Loaded floats value.sortKeys := by
  induction h with
  | null => exact .null
  | bool b => exact .bool b
  | int n => exact .int n
  | float repr h => exact .float repr h
  | str s => exact .str s
  | arr items hitems ih =>
    rw [Json.sortKeys, Json.normal, Json.normalItems_eq]
    refine .arr _ fun item hitem => ?_
    obtain ⟨other, hother, rfl⟩ := List.mem_map.mp hitem
    exact ih other hother
  | obj fields hkeys hfields ih =>
    rw [Json.sortKeys, Json.normal, Json.normalFields_eq]
    refine .obj _ ?_ fun e he => ?_
    · rw [((perm_sortFields _).map Prod.fst).nodup_iff, List.map_map]
      exact hkeys
    · obtain ⟨other, hother, rfl⟩ := List.mem_map.mp ((perm_sortFields _).mem_iff.mp he)
      exact ih other hother

/-! ## Texts -/

/-- **What `json.dumps` writes, `json.loads` reads back**, with its fields sorted, also before a line break. -/
theorem loads_dumps {value : Json} (h : Loaded floats value) (indent : Option Nat) {ending : String}
    (hending : ending = "" ∨ ending = "\n") : loads floats (dumps indent value ++ ending) = some value.sortKeys := by
  have hends : Ends ending.toList ∧ skipWhitespace ending.toList = [] := by
    obtain rfl | rfl := hending
    · exact ⟨fun c hc => (Option.not_mem_none c hc).elim, rfl⟩
    · exact ⟨ends_cons (by decide), rfl⟩
  have htext : (dumps indent value ++ ending).toList = dumpsAt indent 0 value.sortKeys ++ ending.toList := by
    rw [dumps, String.toList_append, String.toList_ofList]
  have hbegins := (begins_dumpsAt h.sortKeys indent 0).append ending.toList
  have hscan := scanValue_dumpsAt h.sortKeys indent 0 _ ending.toList le_rfl hends.1
  rw [← hbegins.skip, ← htext] at hscan
  exact loads_eq_some_iff.mpr ⟨_, ending.toList, hscan, hends.2⟩

/-! ## How long a text is -/

theorem length_escape (c : Char) : (escape c).length = Json.dumpsCharLength c := by
  unfold escape Json.dumpsCharLength codeUnits
  split_ifs <;> first | rfl | (exfalso; simp_all)

theorem length_dumpsStr (s : String) : (dumpsStr s).length = Json.dumpsStrLength s := by
  have hescape : List.length ∘ escape = Json.dumpsCharLength := funext length_escape
  simp only [dumpsStr, Json.dumpsStrLength, List.length_cons, List.length_append, List.length_flatMap, List.length_nil]
  rw [← hescape]
  simp only [Function.comp_def]
  omega

mutual

theorem length_dumpsAt (level : Nat) : ∀ value : Json, (dumpsAt none level value).length = value.dumpsLength
  | .null => by rw [dumpsAt, Json.dumpsLength]; rfl
  | .bool true => by rw [dumpsAt, Json.dumpsLength]; rfl
  | .bool false => by rw [dumpsAt, Json.dumpsLength]; rfl
  | .int n => by rw [dumpsAt, Json.dumpsLength, String.length_toList]
  | .float repr => by rw [dumpsAt, Json.dumpsLength, String.length_toList]
  | .str s => by rw [dumpsAt, Json.dumpsLength, length_dumpsStr]
  | .arr [] => by rw [dumpsAt, Json.dumpsLength, Json.dumpsItemsLength]; rfl
  | .arr (item :: rest) => by
      have hitem := length_dumpsAt (level + 1) item
      have hrest := length_dumpsItems level rest
      rw [dumpsAt, Json.dumpsLength, Json.dumpsItemsLength]
      simp only [newline, List.nil_append, List.length_cons, List.length_append]
      omega
  | .obj [] => by rw [dumpsAt, Json.dumpsLength, Json.dumpsFieldsLength]; rfl
  | .obj ((key, value) :: rest) => by
      have hkey := length_dumpsStr key
      have hvalue := length_dumpsAt (level + 1) value
      have hrest := length_dumpsFields level rest
      rw [dumpsAt, Json.dumpsLength, Json.dumpsFieldsLength]
      simp only [newline, colon, Option.isSome_none, Bool.false_eq_true, ↓reduceIte, List.nil_append, List.length_cons,
        List.length_append, List.length_nil]
      omega

theorem length_dumpsItems (level : Nat) : ∀ items : List Json,
    (dumpsItems none level items).length = Json.dumpsItemsLength items + items.length + 1
  | [] => by rw [dumpsItems, Json.dumpsItemsLength]; rfl
  | item :: rest => by
      have hitem := length_dumpsAt (level + 1) item
      have hrest := length_dumpsItems level rest
      rw [dumpsItems, Json.dumpsItemsLength]
      simp only [newline, List.nil_append, List.length_cons, List.length_append]
      omega

theorem length_dumpsFields (level : Nat) : ∀ fields : Dict,
    (dumpsFields none level fields).length = Json.dumpsFieldsLength fields + fields.length + 1
  | [] => by rw [dumpsFields, Json.dumpsFieldsLength]; rfl
  | (key, value) :: rest => by
      have hkey := length_dumpsStr key
      have hvalue := length_dumpsAt (level + 1) value
      have hrest := length_dumpsFields level rest
      rw [dumpsFields, Json.dumpsFieldsLength]
      simp only [newline, colon, Option.isSome_none, Bool.false_eq_true, ↓reduceIte, List.nil_append, List.length_cons,
        List.length_append, List.length_nil]
      omega

end

theorem dumpsFieldsLength_eq (fields : Dict) :
    Json.dumpsFieldsLength fields = (fields.map fun e => Json.dumpsStrLength e.1 + 1 + e.2.dumpsLength).sum := by
  induction fields with
  | nil => rw [Json.dumpsFieldsLength]; rfl
  | cons e rest ih => rw [Json.dumpsFieldsLength, ih, List.map_cons, List.sum_cons]

mutual

theorem dumpsLength_normal : ∀ value : Json, (value.normal id).dumpsLength = value.dumpsLength
  | .null | .bool _ | .int _ | .float _ | .str _ => by rw [Json.normal, id]
  | .arr items => by
      rw [Json.normal, Json.dumpsLength, Json.dumpsLength, dumpsItemsLength_normal items, Json.normalItems_eq, List.length_map]
  | .obj fields => by
      have hperm := (perm_sortFields (Json.normalFields id fields))
      rw [Json.normal, Json.dumpsLength, Json.dumpsLength, ← dumpsFieldsLength_normal fields, hperm.length_eq,
        dumpsFieldsLength_eq, dumpsFieldsLength_eq, (hperm.map _).sum_nat, Json.normalFields_eq, List.length_map]

theorem dumpsItemsLength_normal : ∀ items : List Json,
    Json.dumpsItemsLength (Json.normalItems id items) = Json.dumpsItemsLength items
  | [] => by rw [Json.normalItems]
  | item :: rest => by
      rw [Json.normalItems, Json.dumpsItemsLength, Json.dumpsItemsLength, dumpsLength_normal item, dumpsItemsLength_normal rest]

theorem dumpsFieldsLength_normal : ∀ fields : Dict,
    Json.dumpsFieldsLength (Json.normalFields id fields) = Json.dumpsFieldsLength fields
  | [] => by rw [Json.normalFields]
  | (key, value) :: rest => by
      rw [Json.normalFields, Json.dumpsFieldsLength, Json.dumpsFieldsLength, dumpsLength_normal value,
        dumpsFieldsLength_normal rest]

end

theorem length_dumps (value : Json) : (dumps none value).toList.length = value.dumpsLength := by
  rw [dumps, String.toList_ofList, length_dumpsAt]
  exact dumpsLength_normal value

/-! ## ASCII -/

def Ascii (text : List Char) : Prop := ∀ c ∈ text, c.toNat < 128

theorem Ascii.append {text rest : List Char} (h : Ascii text) (hrest : Ascii rest) : Ascii (text ++ rest) := by
  intro c hc
  exact (List.mem_append.mp hc).elim (h c) (hrest c)

theorem Ascii.cons {c : Char} {text : List Char} (hc : c.toNat < 128) (h : Ascii text) : Ascii (c :: text) := by
  intro d hd
  obtain rfl | hd := List.mem_cons.mp hd
  · exact hc
  · exact h d hd

theorem ascii_of_all {text : List Char} (h : text.all (fun c => decide (c.toNat < 128)) = true) : Ascii text := by
  intro c hc
  exact of_decide_eq_true (List.all_eq_true.mp h c hc)

theorem ascii_escapeUnit (n : Nat) : Ascii (escapeUnit n) := by
  have hdigit : ∀ d, d < 16 → d.digitChar.toNat < 128 := by
    intro d hd
    have hall : ∀ d : Fin 16, d.val.digitChar.toNat < 128 := by decide
    exact hall ⟨d, hd⟩
  intro c hc
  simp only [escapeUnit, List.mem_cons, List.not_mem_nil, or_false] at hc
  obtain rfl | rfl | rfl | rfl | rfl | rfl := hc
  · decide
  · decide
  all_goals exact hdigit _ (Nat.mod_lt _ (by decide))

theorem ascii_escape (c : Char) : Ascii (escape c) := by
  unfold escape
  split_ifs with hquote hslash hline hreturn htab hback hform hplain
  · exact ascii_of_all (by decide)
  · exact ascii_of_all (by decide)
  · exact ascii_of_all (by decide)
  · exact ascii_of_all (by decide)
  · exact ascii_of_all (by decide)
  · exact ascii_of_all (by decide)
  · exact ascii_of_all (by decide)
  · intro d hd
    rw [List.mem_singleton.mp hd]
    omega
  · intro d hd
    obtain ⟨unit, -, hd⟩ := List.mem_flatMap.mp hd
    exact ascii_escapeUnit unit d hd

theorem ascii_dumpsStr (s : String) : Ascii (dumpsStr s) := by
  refine Ascii.cons (by decide) (Ascii.append (fun d hd => ?_) (ascii_of_all (by decide)))
  obtain ⟨c, -, hd⟩ := List.mem_flatMap.mp hd
  exact ascii_escape c d hd

theorem ascii_newline (indent : Option Nat) (level : Nat) : Ascii (newline indent level) := by
  cases indent with
  | none => exact fun c hc => absurd hc List.not_mem_nil
  | some width =>
    refine Ascii.cons (by decide) fun c hc => ?_
    rw [List.eq_of_mem_replicate hc]
    decide

theorem ascii_colon (indent : Option Nat) : Ascii (colon indent) := by
  cases indent <;> exact ascii_of_all rfl

theorem ascii_digits {digits : List Char} (h : IsDigits digits) : Ascii digits := by
  intro c hc
  have hrange := PyStr.isDigit_range (h.digits c hc)
  omega

theorem NumberParts.Valid.ascii {p : NumberParts} (h : p.Valid) : Ascii p.text := by
  have hnil : Ascii [] := fun c hc => absurd hc List.not_mem_nil
  have hsign : ∀ sign, sign = [] ∨ sign = ['+'] ∨ sign = ['-'] → Ascii sign := by
    intro sign hsign
    obtain rfl | rfl | rfl := hsign
    all_goals exact ascii_of_all (by decide)
  refine Ascii.append (Ascii.append (Ascii.append (hsign _ (h.sign.imp id .inr)) ?_) ?_) ?_
  · obtain hzero | ⟨hdigits, -⟩ := h.integer
    · rw [hzero]
      exact ascii_of_all (by decide)
    · exact ascii_digits hdigits
  · obtain hnone | ⟨digits, hdigits, hfraction⟩ := h.fraction
    · exact hnone ▸ hnil
    · exact hfraction ▸ Ascii.cons (by decide) (ascii_digits hdigits)
  · obtain hnone | ⟨e, sign, digits, he, hsigned, hdigits, hexponent⟩ := h.exponent
    · exact hnone ▸ hnil
    · refine hexponent ▸ Ascii.cons ?_ (Ascii.append (hsign _ hsigned) (ascii_digits hdigits))
      obtain rfl | rfl := he
      all_goals decide

/-- **What is written is ASCII.** -/
theorem ascii_dumpsAt {value : Json} (h : Loaded floats value) (indent : Option Nat) :
    ∀ level, Ascii (dumpsAt indent level value) := by
  induction h with
  | null =>
    intro level
    rw [dumpsAt]
    exact ascii_of_all (by decide)
  | bool b =>
    intro level
    cases b <;> rw [dumpsAt] <;> exact ascii_of_all (by decide)
  | int n =>
    intro level
    rw [dumpsAt, text_intParts]
    exact (valid_intParts n).ascii
  | float repr hrepr =>
    intro level
    rw [dumpsAt]
    obtain hspecial | ⟨⟨p, hvalid, -, htext⟩, -⟩ := hrepr
    · simp only [specialFloats, List.mem_cons, List.not_mem_nil, or_false] at hspecial
      obtain rfl | rfl | rfl := hspecial
      all_goals exact ascii_of_all (by decide)
    · rw [htext]
      exact hvalid.ascii
  | str s => exact fun level => ascii_dumpsStr s
  | arr items hitems ih =>
    have hrest : ∀ level (rest : List Json), (∀ item ∈ rest, ∀ level, Ascii (dumpsAt indent level item)) →
        Ascii (dumpsItems indent level rest) := by
      intro level rest hrest
      induction rest with
      | nil => exact (ascii_newline indent level).append (ascii_of_all (by decide))
      | cons item rest ihrest =>
        have hitem := hrest item List.mem_cons_self (level + 1)
        have hmore := ihrest fun other hother => hrest other (List.mem_cons_of_mem _ hother)
        exact .cons (by decide) (((ascii_newline indent (level + 1)).append hitem).append hmore)
    intro level
    cases items with
    | nil =>
      rw [dumpsAt]
      exact ascii_of_all (by decide)
    | cons item items =>
      have hitem := ih item List.mem_cons_self (level + 1)
      have hmore := hrest level items fun other hother => ih other (List.mem_cons_of_mem _ hother)
      exact .cons (by decide) (((ascii_newline indent (level + 1)).append hitem).append hmore)
  | obj fields hkeys hfields ih =>
    have hfield : ∀ level (key : String) (value : Json) (more : List Char), Ascii (dumpsAt indent level value) → Ascii more →
        Ascii (newline indent level ++ dumpsStr key ++ colon indent ++ dumpsAt indent level value ++ more) :=
      fun level key value more hvalue hmore => ((((ascii_newline indent level).append (ascii_dumpsStr key)).append
        (ascii_colon indent)).append hvalue).append hmore
    have hrest : ∀ level (rest : Dict), (∀ e ∈ rest, ∀ level, Ascii (dumpsAt indent level e.2)) →
        Ascii (dumpsFields indent level rest) := by
      intro level rest hrest
      induction rest with
      | nil => exact (ascii_newline indent level).append (ascii_of_all (by decide))
      | cons e rest ihrest =>
        exact .cons (by decide) (hfield _ _ _ _ (hrest e List.mem_cons_self (level + 1))
          (ihrest fun other hother => hrest other (List.mem_cons_of_mem _ hother)))
    intro level
    cases fields with
    | nil =>
      rw [dumpsAt]
      exact ascii_of_all (by decide)
    | cons e fields =>
      exact .cons (by decide) (hfield _ _ _ _ (ih e List.mem_cons_self (level + 1))
        (hrest level fields fun other hother => ih other (List.mem_cons_of_mem _ hother)))

theorem size_utf8Encode {text : List Char} (h : Ascii text) : text.utf8Encode.size = text.length := by
  induction text with
  | nil => rfl
  | cons c text ih =>
    have hc : c.utf8Size = 1 := by
      rw [Char.utf8Size_eq_one_iff]
      have := h c List.mem_cons_self
      exact UInt32.le_iff_toNat_le.mpr (by show c.toNat ≤ 127; omega)
    rw [List.utf8Encode_cons, ByteArray.size_append, ih fun d hd => h d (List.mem_cons_of_mem _ hd),
      List.utf8Encode_singleton, String.utf8EncodeChar_eq_singleton hc, List.length_cons]
    exact Nat.add_comm 1 _

theorem size_dumps {value : Json} (h : Loaded floats value) : (dumps none value).toUTF8.size = value.dumpsLength := by
  rw [← length_dumps value, String.toUTF8_eq_toByteArray, dumps, String.toByteArray_ofList, String.toList_ofList,
    size_utf8Encode (ascii_dumpsAt h.sortKeys none 0)]

/-! ## What is read -/

theorem scanDigits_spec {text digits rest : List Char} (h : scanDigits text = (digits, rest)) (hdigits : digits ≠ []) :
    IsDigits digits := by
  obtain ⟨rfl, -⟩ := Prod.mk.inj h
  exact ⟨fun c hc => List.mem_takeWhile_imp hc, hdigits⟩

theorem scanInteger_valid {text : List Char} {integer : List Char × List Char} (h : scanInteger text = some integer) :
    integer.1 = ['0'] ∨ IsDigits integer.1 ∧ integer.1.head? ≠ some '0' := by
  cases text with
  | nil => exact absurd h (by simp [scanInteger])
  | cons c rest =>
    rw [scanInteger] at h
    split_ifs at h with hzero hdigit
    · obtain rfl := Option.some.inj h
      exact .inl rfl
    · obtain rfl := Option.some.inj h
      have hhead : (scanDigits (c :: rest)).1 = c :: rest.takeWhile Char.isDigit := List.takeWhile_cons_of_pos hdigit
      refine .inr ⟨scanDigits_spec rfl (by rw [hhead]; exact List.cons_ne_nil _ _), ?_⟩
      rw [hhead]
      exact fun heq => hzero (Option.some.inj heq)

theorem scanSign_valid (signs text : List Char) : (scanSign signs text).1 = [] ∨ ∃ c ∈ signs, (scanSign signs text).1 = [c] := by
  cases text with
  | nil => exact .inl rfl
  | cons c rest =>
    rw [scanSign]
    split_ifs with hc
    · exact .inr ⟨c, hc, rfl⟩
    · exact .inl rfl

theorem scanFraction_valid (text : List Char) :
    (scanFraction text).1 = [] ∨ ∃ digits, IsDigits digits ∧ (scanFraction text).1 = '.' :: digits := by
  cases text with
  | nil => exact .inl rfl
  | cons c rest =>
    rw [scanFraction]
    split_ifs with hc
    · obtain ⟨rfl, hdigits⟩ := hc
      exact .inr ⟨_, scanDigits_spec rfl hdigits, rfl⟩
    · exact .inl rfl

theorem scanExponent_valid (text : List Char) :
    (scanExponent text).1 = [] ∨ ∃ e sign digits, (e = 'e' ∨ e = 'E') ∧ (sign = [] ∨ sign = ['+'] ∨ sign = ['-']) ∧
      IsDigits digits ∧ (scanExponent text).1 = e :: (sign ++ digits) := by
  cases text with
  | nil => exact .inl rfl
  | cons c rest =>
    rw [scanExponent]
    split_ifs with hc
    · have hsign : ∀ text, (scanSign ['+', '-'] text).1 = [] ∨ (scanSign ['+', '-'] text).1 = ['+'] ∨
          (scanSign ['+', '-'] text).1 = ['-'] := by
        intro text
        obtain hnone | ⟨sign, hmem, hsign⟩ := scanSign_valid ['+', '-'] text
        · exact .inl hnone
        · rw [hsign]
          simpa using hmem
      exact .inr ⟨c, _, _, hc.1, hsign rest, scanDigits_spec rfl hc.2, rfl⟩
    · exact .inl rfl

theorem scanParts_valid {text : List Char} {p : NumberParts × List Char} (h : scanParts text = some p) : p.1.Valid := by
  obtain ⟨integer, hinteger, rfl⟩ := Option.map_eq_some_iff.mp h
  exact {
    sign := (scanSign_valid ['-'] text).imp id fun ⟨c, hc, hsign⟩ => by rw [hsign, List.mem_singleton.mp hc]
    integer := scanInteger_valid hinteger
    fraction := scanFraction_valid _
    exponent := scanExponent_valid _ }

theorem NumberParts.Valid.loaded {p : NumberParts} (h : p.Valid) : Loaded floats (p.value floats) := by
  rw [NumberParts.value]
  split_ifs with hfloat
  · exact .float _ (floats.parse_parse _ ⟨p, h, hfloat, String.toList_ofList⟩)
  · exact .int _

theorem scanScalar_loaded {text : List Char} {p : Json × List Char} (h : scanScalar floats text = some p) : Loaded floats p.1 := by
  rw [scanScalar, Option.or_eq_some_iff] at h
  obtain hconstant | ⟨-, hnumber⟩ := h
  · obtain ⟨constant, hmem, hconstant⟩ := List.exists_of_findSome?_eq_some hconstant
    obtain ⟨rest, -, rfl⟩ := Option.map_eq_some_iff.mp hconstant
    rw [constants_eq] at hmem
    simp only [List.mem_cons, List.not_mem_nil, or_false] at hmem
    obtain rfl | rfl | rfl | rfl | rfl | rfl := hmem
    · exact .null
    · exact .bool true
    · exact .bool false
    · exact .float _ (.inl (by decide))
    · exact .float _ (.inl (by decide))
    · exact .float _ (.inl (by decide))
  · obtain ⟨parts, hparts, rfl⟩ := Option.map_eq_some_iff.mp hnumber
    exact (scanParts_valid hparts).loaded

theorem keys_set (fields : Dict) (key : String) (value : Json) :
    (Dict.set fields key value).map Prod.fst =
      if key ∈ fields.map Prod.fst then fields.map Prod.fst else fields.map Prod.fst ++ [key] := by
  induction fields with
  | nil => rfl
  | cons e fields ih =>
    rw [Dict.set]
    by_cases he : e.1 = key
    · rw [if_pos he, List.map_cons, List.map_cons, he, if_pos List.mem_cons_self]
    · rw [if_neg he, List.map_cons, List.map_cons, ih]
      have hmem : key ∈ e.1 :: fields.map Prod.fst ↔ key ∈ fields.map Prod.fst := by
        rw [List.mem_cons, or_iff_right (Ne.symm he)]
      by_cases hkey : key ∈ fields.map Prod.fst
      · rw [if_pos hkey, if_pos (hmem.mpr hkey)]
      · rw [if_neg hkey, if_neg (hmem.not.mpr hkey), List.cons_append]

theorem nodup_keys_set {fields : Dict} (h : (fields.map Prod.fst).Nodup) (key : String) (value : Json) :
    ((Dict.set fields key value).map Prod.fst).Nodup := by
  rw [keys_set]
  split_ifs with hkey
  · exact h
  · exact List.nodup_append.mpr ⟨h, List.nodup_singleton key, fun a ha b hb => by
      rw [List.mem_singleton.mp hb]
      exact fun heq => hkey (heq ▸ ha)⟩

theorem loaded_set {fields : Dict} (h : ∀ e ∈ fields, Loaded floats e.2) (key : String) {value : Json}
    (hvalue : Loaded floats value) : ∀ e ∈ Dict.set fields key value, Loaded floats e.2 := by
  intro e he
  obtain rfl | he := Dict.mem_set he
  · exact hvalue
  · exact h e he

/-- What is read with this fuel. -/
structure ScansLoaded (floats : Floats) (fuel : Nat) : Prop where
  value : ∀ text p, scanValue floats fuel text = some p → Loaded floats p.1
  items : ∀ done text p, (∀ item ∈ done, Loaded floats item) → scanItems floats fuel done text = some p → Loaded floats p.1
  fields : ∀ done text p, (done.map Prod.fst).Nodup → (∀ e ∈ done, Loaded floats e.2) →
    scanFields floats fuel done text = some p → Loaded floats p.1

theorem scansLoaded (fuel : Nat) : ScansLoaded floats fuel := by
  induction fuel with
  | zero =>
    exact {
      value := fun text p h => by simp [scanValue] at h
      items := fun done text p _ h => by simp [scanItems] at h
      fields := fun done text p _ _ h => by simp [scanFields] at h }
  | succ fuel ih =>
    refine ⟨fun text p h => ?_, fun done text p hdone h => ?_, fun done text p hkeys hdone h => ?_⟩
    · cases text with
      | nil => simp [scanValue] at h
      | cons c rest =>
        rw [scanValue] at h
        split_ifs at h with hquote hbracket hempty hbrace hempty
        · obtain ⟨s, -, rfl⟩ := Option.map_eq_some_iff.mp h
          exact .str s.1
        · obtain rfl := Option.some.inj h
          exact .arr [] fun item hitem => absurd hitem List.not_mem_nil
        · exact ih.items _ _ _ (fun item hitem => absurd hitem List.not_mem_nil) h
        · obtain rfl := Option.some.inj h
          exact .obj [] List.nodup_nil fun e he => absurd he List.not_mem_nil
        · exact ih.fields [] _ _ List.nodup_nil (fun e he => absurd he List.not_mem_nil) h
        · exact scanScalar_loaded h
    · rw [scanItems] at h
      obtain ⟨item, hitem, h⟩ := Option.bind_eq_some_iff.mp h
      obtain ⟨next, -, h⟩ := Option.bind_eq_some_iff.mp h
      have hmore : ∀ other ∈ done ++ [item.1], Loaded floats other := by
        intro other hother
        obtain hother | hother := List.mem_append.mp hother
        · exact hdone other hother
        · rw [List.mem_singleton.mp hother]
          exact ih.value _ _ hitem
      split_ifs at h with hclosed
      · obtain rfl := Option.some.inj h
        exact .arr _ hmore
      · exact ih.items _ _ _ hmore h
    · rw [scanFields] at h
      obtain ⟨key, -, h⟩ := Option.bind_eq_some_iff.mp h
      obtain ⟨value, hvalue, h⟩ := Option.bind_eq_some_iff.mp h
      obtain ⟨next, -, h⟩ := Option.bind_eq_some_iff.mp h
      have hmore := loaded_set hdone key.1 (ih.value _ _ hvalue)
      split_ifs at h with hclosed
      · obtain rfl := Option.some.inj h
        exact .obj _ (nodup_keys_set hkeys _ _) hmore
      · exact ih.fields _ _ _ (nodup_keys_set hkeys _ _) hmore h

/-- **What `json.loads` returns can be written and read again.** -/
theorem loaded_of_loads {text : String} {value : Json} (h : loads floats text = some value) : Loaded floats value := by
  obtain ⟨fuel, rest, hscan, -⟩ := loads_eq_some_iff.mp h
  exact (scansLoaded fuel).value _ _ hscan

end OciHpc.JsonText
