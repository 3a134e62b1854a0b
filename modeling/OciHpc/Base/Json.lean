import Mathlib.Algebra.Ring.Nat

/-!
# JSON values and dictionaries

* `Json` : a value as `json.load` returns it, with decidable equality; an object keeps its fields in
  their order in the file;
* `Dict` : `get`, item assignment, `pop` and their laws;
* `Json.dumpsLength` : the length of `json.dumps` with the separators `(',', ':')`.
-/

namespace OciHpc

/-- A JSON value; a float is kept as the text `json.dumps` writes for it, its `repr` where it is finite. -/
inductive Json
  | null
  | bool (b : Bool)
  | int (n : Int)
  | float (repr : String)
  | str (s : String)
  | arr (items : List Json)
  | obj (fields : List (String × Json))
  deriving Repr, Inhabited

/-- A dictionary with string keys, in insertion order. -/
abbrev Dict := List (String × Json)

namespace Json

/-! ## Equality -/

mutual

def beq : Json → Json → Bool
  | .null, .null => true
  | .bool a, .bool b => a == b
  | .int a, .int b => a == b
  | .float a, .float b => a == b
  | .str a, .str b => a == b
  | .arr xs, .arr ys => beqItems xs ys
  | .obj xs, .obj ys => beqFields xs ys
  | _, _ => false

def beqItems : List Json → List Json → Bool
  | [], [] => true
  | x :: xs, y :: ys => beq x y && beqItems xs ys
  | _, _ => false

def beqFields : Dict → Dict → Bool
  | [], [] => true
  | (k, x) :: xs, (l, y) :: ys => k == l && (beq x y && beqFields xs ys)
  | _, _ => false

end

mutual

theorem eq_of_beq : ∀ {a b : Json}, beq a b = true → a = b
  | .null, b, h | .bool _, b, h | .int _, b, h | .float _, b, h | .str _, b, h => by
      cases b <;> simp_all [beq]
  | .arr xs, b, h => by
      cases b <;> simp only [beq, Bool.false_eq_true] at h
      rw [eq_of_beqItems h]
  | .obj xs, b, h => by
      cases b <;> simp only [beq, Bool.false_eq_true] at h
      rw [eq_of_beqFields h]

theorem eq_of_beqItems : ∀ {xs ys : List Json}, beqItems xs ys = true → xs = ys
  | [], ys, h => by cases ys <;> simp_all [beqItems]
  | x :: xs, [], h => by simp [beqItems] at h
  | x :: xs, y :: ys, h => by
      simp only [beqItems, Bool.and_eq_true] at h
      rw [eq_of_beq h.1, eq_of_beqItems h.2]

theorem eq_of_beqFields : ∀ {xs ys : Dict}, beqFields xs ys = true → xs = ys
  | [], ys, h => by cases ys <;> simp_all [beqFields]
  | (k, x) :: xs, [], h => by simp [beqFields] at h
  | (k, x) :: xs, (l, y) :: ys, h => by
      simp only [beqFields, Bool.and_eq_true, beq_iff_eq] at h
      rw [h.1, eq_of_beq h.2.1, eq_of_beqFields h.2.2]

end

mutual

theorem beq_refl : ∀ a : Json, beq a a = true
  | .null | .bool _ | .int _ | .float _ | .str _ => by simp [beq]
  | .arr xs => by simp only [beq, beqItems_refl xs]
  | .obj xs => by simp only [beq, beqFields_refl xs]

theorem beqItems_refl : ∀ xs : List Json, beqItems xs xs = true
  | [] => rfl
  | x :: xs => by simp only [beqItems, beq_refl x, beqItems_refl xs, Bool.and_self]

theorem beqFields_refl : ∀ xs : Dict, beqFields xs xs = true
  | [] => rfl
  | (k, x) :: xs => by
      simp only [beqFields, beq_refl x, beqFields_refl xs, beq_self_eq_true, Bool.and_self]

end

instance : DecidableEq Json := fun a b =>
  if h : beq a b = true then isTrue (eq_of_beq h) else isFalse fun e => h (e ▸ beq_refl a)

/-! ## Reading a value -/

/-- `bool(value)`. -/
def truthy : Json → Bool
  | .null => false
  | .bool b => b
  | .int n => n != 0
  | .float repr => repr != "0.0" && repr != "-0.0"
  | .str s => s != ""
  | .arr items => !items.isEmpty
  | .obj fields => !fields.isEmpty

/-- `value is not None`. -/
def isNotNone : Json → Bool
  | .null => false
  | _ => true

def str? : Json → Option String
  | .str s => some s
  | _ => none

def obj? : Json → Option Dict
  | .obj fields => some fields
  | _ => none

def nonemptyStr : Json → Bool
  | .str s => s != ""
  | _ => false

@[simp] theorem obj?_obj (fields : Dict) : (Json.obj fields).obj? = some fields := rfl

theorem obj?_eq_some {j : Json} {fields : Dict} : j.obj? = some fields ↔ j = .obj fields := by
  cases j <;> simp [obj?]

/-! ## The length of a dump -/

/-- The characters `json.dumps` writes for one character of a string. -/
def dumpsCharLength (c : Char) : Nat :=
  if c = '"' ∨ c = '\\' ∨ c = '\n' ∨ c = '\r' ∨ c = '\t' ∨ c.toNat = 8 ∨ c.toNat = 12 then 2
  else if 32 ≤ c.toNat ∧ c.toNat ≤ 126 then 1
  else if c.toNat < 65536 then 6 else 12

def dumpsStrLength (s : String) : Nat := 2 + (s.toList.map dumpsCharLength).sum

mutual

/-- `len(json.dumps(value, separators=(',', ':')))`. -/
def dumpsLength : Json → Nat
  | .null => 4
  | .bool b => if b then 4 else 5
  | .int n => (toString n).length
  | .float repr => repr.length
  | .str s => dumpsStrLength s
  | .arr items => 2 + (dumpsItemsLength items + (items.length - 1))
  | .obj fields => 2 + (dumpsFieldsLength fields + (fields.length - 1))

def dumpsItemsLength : List Json → Nat
  | [] => 0
  | x :: xs => dumpsLength x + dumpsItemsLength xs

def dumpsFieldsLength : Dict → Nat
  | [] => 0
  | (k, x) :: xs => dumpsStrLength k + 1 + dumpsLength x + dumpsFieldsLength xs

end

end Json

namespace Dict

/-! ## Dictionaries -/

/-- `d.get(key)`, with `none` for a missing key. -/
def get? : Dict → String → Option Json
  | [], _ => none
  | (k, v) :: rest, key => if k = key then some v else get? rest key

/-- `d[key] = value`. -/
def set : Dict → String → Json → Dict
  | [], key, value => [(key, value)]
  | (k, v) :: rest, key, value => if k = key then (key, value) :: rest else (k, v) :: set rest key value

/-- `d.pop(key, None)`. -/
def pop (d : Dict) (key : String) : Dict := d.filter (·.1 != key)

/-- `d.update(other)`. -/
def update (d other : Dict) : Dict := other.foldr (fun e d => set d e.1 e.2) d

/-- `d.get(key, default)`. -/
def getD (d : Dict) (key : String) (default : Json) : Json := (get? d key).getD default

/-- `d.get(key)`, with `None` and a missing key alike. -/
def getNotNone (d : Dict) (key : String) : Option Json := (get? d key).filter Json.isNotNone

@[simp] theorem get?_set_self (d : Dict) (key : String) (value : Json) :
    get? (set d key value) key = some value := by
  induction d with
  | nil => simp [set, get?]
  | cons e rest ih =>
      by_cases h : e.1 = key
      · simp [set, h, get?]
      · simp [set, h, get?, ih]

theorem get?_set_ne (d : Dict) {key key' : String} (value : Json) (hne : key' ≠ key) :
    get? (set d key value) key' = get? d key' := by
  induction d with
  | nil => simp [set, get?, Ne.symm hne]
  | cons e rest ih =>
      obtain ⟨k, v⟩ := e
      by_cases h : k = key
      · simp [set, h, get?, Ne.symm hne]
      · by_cases h' : k = key'
        · subst h'
          simp [set, hne, get?]
        · simp [set, h, get?, h', ih]

theorem get?_update (d other : Dict) (key : String) :
    get? (update d other) key = (get? other key).or (get? d key) := by
  unfold update
  induction other with
  | nil => rfl
  | cons e rest ih =>
      rw [List.foldr_cons, get?]
      by_cases h : e.1 = key
      · rw [if_pos h, h, get?_set_self]
        rfl
      · rw [if_neg h, get?_set_ne _ _ (Ne.symm h), ih]

theorem mem_set {d : Dict} {key : String} {value : Json} {e : String × Json} (h : e ∈ set d key value) :
    e = (key, value) ∨ e ∈ d := by
  induction d with
  | nil => exact .inl (List.mem_singleton.mp h)
  | cons first rest ih =>
      obtain ⟨k, v⟩ := first
      rw [set] at h
      by_cases hk : k = key
      · rw [if_pos hk] at h
        rcases List.mem_cons.mp h with hnew | hold
        · exact .inl hnew
        · exact .inr (List.mem_cons_of_mem _ hold)
      · rw [if_neg hk] at h
        rcases List.mem_cons.mp h with hfirst | hin
        · exact .inr (hfirst ▸ List.mem_cons_self)
        · exact (ih hin).imp id (List.mem_cons_of_mem _)

@[simp] theorem get?_pop_self (d : Dict) (key : String) : get? (pop d key) key = none := by
  induction d with
  | nil => rfl
  | cons e rest ih =>
      by_cases h : e.1 = key
      · simpa [pop, h] using ih
      · simpa [pop, h, get?] using ih

theorem get?_pop_ne (d : Dict) {key key' : String} (hne : key' ≠ key) :
    get? (pop d key) key' = get? d key' := by
  induction d with
  | nil => rfl
  | cons e rest ih =>
      obtain ⟨k, v⟩ := e
      by_cases h : k = key
      · subst h
        simpa [pop, get?, Ne.symm hne] using ih
      · by_cases h' : k = key'
        · subst h'
          simp [pop, hne, get?]
        · simpa [pop, h, get?, h'] using ih

theorem pop_eq_self {d : Dict} {key : String} (h : get? d key = none) : pop d key = d := by
  induction d with
  | nil => rfl
  | cons e rest ih =>
      by_cases he : e.1 = key
      · simp [get?, he] at h
      · simp only [get?, he, ↓reduceIte] at h
        simpa [pop, he] using ih h

@[simp] theorem getNotNone_pop_self (d : Dict) (key : String) : getNotNone (pop d key) key = none := by
  simp [getNotNone]

theorem getNotNone_eq_some {d : Dict} {key : String} {value : Json} :
    getNotNone d key = some value ↔ get? d key = some value ∧ value.isNotNone = true := by
  simp [getNotNone, Option.filter_eq_some_iff]

end Dict

end OciHpc
