import Mathlib.Data.List.Sort
import Mathlib.Data.String.Basic
import OciHpc.Base.Json
import OciHpc.Base.PyText

/-!
# Equality of JSON values

* `Json.asInt?` : the integer a value is equal to;
* `Json.normal` : the fields of every object sorted, and every leaf put into a form;
* `Json.sortKeys` : what `json.dump` writes with `sort_keys=True`, as `json.load` reads it;
* `Json.SameValue` : `==`, which sees neither the order of fields nor whether a number is `1`, `1.0` or `True`;
* `sameValue_sortKeys` : a value that is written and read is the same.
-/

namespace OciHpc.Json

/-- The integer a value is equal to, where its text has no exponent. -/
def asInt? : Json → Option Int
  | .int n => some n
  | .bool b => some (if b then 1 else 0)
  | .float repr =>
      match repr.toList.reverse with
      | '0' :: '.' :: digits => PyStr.int digits.reverse
      | _ => none
  | _ => none

/-! ## Normal forms -/

def sortFields (fields : Dict) : Dict := fields.insertionSort fun a b => a.1 ≤ b.1

mutual

def normal (leaf : Json → Json) : Json → Json
  | .arr items => .arr (normalItems leaf items)
  | .obj fields => .obj (sortFields (normalFields leaf fields))
  | .null => leaf .null
  | .bool b => leaf (.bool b)
  | .int n => leaf (.int n)
  | .float repr => leaf (.float repr)
  | .str s => leaf (.str s)

def normalItems (leaf : Json → Json) : List Json → List Json
  | [] => []
  | item :: rest => normal leaf item :: normalItems leaf rest

def normalFields (leaf : Json → Json) : Dict → Dict
  | [] => []
  | (key, value) :: rest => (key, normal leaf value) :: normalFields leaf rest

end

/-- What `json.dump` writes with `sort_keys=True`, as `json.load` reads it. -/
def sortKeys (value : Json) : Json := normal id value

/-- A number as the integer it is equal to. -/
def numberLeaf (value : Json) : Json := (asInt? value).elim value Json.int

/-- `a == b`. -/
def SameValue (a b : Json) : Prop := normal numberLeaf a = normal numberLeaf b

instance (a b : Json) : Decidable (SameValue a b) := inferInstanceAs (Decidable (_ = _))

theorem SameValue.refl (a : Json) : SameValue a a := Eq.refl _

theorem SameValue.symm {a b : Json} (h : SameValue a b) : SameValue b a := Eq.symm h

theorem SameValue.trans {a b c : Json} (hab : SameValue a b) (hbc : SameValue b c) : SameValue a c := Eq.trans hab hbc

theorem normalItems_eq (leaf : Json → Json) (items : List Json) : normalItems leaf items = items.map (normal leaf) := by
  induction items with
  | nil => rw [normalItems, List.map_nil]
  | cons item rest ih => rw [normalItems, ih, List.map_cons]

theorem normalFields_eq (leaf : Json → Json) (fields : Dict) :
    normalFields leaf fields = fields.map fun e => (e.1, normal leaf e.2) := by
  induction fields with
  | nil => rw [normalFields, List.map_nil]
  | cons e rest ih => rw [normalFields, ih, List.map_cons]

theorem normalFields_sortFields (leaf : Json → Json) (fields : Dict) :
    normalFields leaf (sortFields fields) = sortFields (normalFields leaf fields) := by
  rw [normalFields_eq, normalFields_eq, sortFields, sortFields]
  exact List.map_insertionSort _ _ _ fields fun _ _ _ _ => Iff.rfl

theorem sortFields_sortFields (fields : Dict) : sortFields (sortFields fields) = sortFields fields := by
  have hsorted : (sortFields fields).Pairwise fun a b => a.1 ≤ b.1 := by
    refine @List.pairwise_insertionSort _ (fun a b : String × Json => a.1 ≤ b.1) _ ⟨fun a b => le_total a.1 b.1⟩
      ⟨fun _ _ _ => le_trans⟩ fields
  exact hsorted.insertionSort_eq

mutual

theorem normal_sortKeys (leaf : Json → Json) : ∀ value : Json, normal leaf (normal id value) = normal leaf value
  | .null | .bool _ | .int _ | .float _ | .str _ => by rw [normal, id]
  | .arr items => by
      rw [normal, normal, normal, normalItems_sortKeys leaf items]
  | .obj fields => by
      rw [normal, normal, normal, normalFields_sortFields, sortFields_sortFields, normalFields_sortKeys leaf fields]

theorem normalItems_sortKeys (leaf : Json → Json) : ∀ items : List Json,
    normalItems leaf (normalItems id items) = normalItems leaf items
  | [] => by rw [normalItems]
  | item :: rest => by
      rw [normalItems, normalItems, normalItems, normal_sortKeys leaf item, normalItems_sortKeys leaf rest]

theorem normalFields_sortKeys (leaf : Json → Json) : ∀ fields : Dict,
    normalFields leaf (normalFields id fields) = normalFields leaf fields
  | [] => by rw [normalFields]
  | (key, value) :: rest => by
      rw [normalFields, normalFields, normalFields, normal_sortKeys leaf value, normalFields_sortKeys leaf rest]

end

/-- **A value that is written and read is the same.** -/
theorem sameValue_sortKeys (value : Json) : SameValue (sortKeys value) value := normal_sortKeys numberLeaf value

/-! ## Fields -/

theorem get?_orderedInsert (e : String × Json) (fields : Dict) (key : String) :
    Dict.get? (fields.orderedInsert (fun a b => a.1 ≤ b.1) e) key = Dict.get? (e :: fields) key := by
  induction fields with
  | nil => rfl
  | cons first rest ih =>
    rw [List.orderedInsert_cons]
    split
    · rfl
    · rename_i hle
      have hne : first.1 ≠ e.1 := fun heq => hle (le_of_eq heq.symm)
      simp only [Dict.get?] at ih ⊢
      rw [ih]
      by_cases hfirst : first.1 = key
      · rw [if_pos hfirst, if_pos hfirst, if_neg fun he => hne (hfirst.trans he.symm)]
      · rw [if_neg hfirst, if_neg hfirst]

theorem get?_sortFields (fields : Dict) (key : String) : Dict.get? (sortFields fields) key = Dict.get? fields key := by
  induction fields with
  | nil => rfl
  | cons e rest ih =>
    rw [sortFields, List.insertionSort_cons, get?_orderedInsert, Dict.get?, Dict.get?, ← ih, sortFields]

theorem get?_normalFields (leaf : Json → Json) (fields : Dict) (key : String) :
    Dict.get? (normalFields leaf fields) key = (Dict.get? fields key).map (normal leaf) := by
  induction fields with
  | nil => rw [normalFields, Dict.get?, Option.map_none]
  | cons e rest ih =>
    rw [normalFields, Dict.get?, Dict.get?, ih]
    split <;> rfl

theorem getD_sortKeys (fields : Dict) (key : String) :
    Dict.getD (sortFields (normalFields id fields)) key .null = sortKeys (Dict.getD fields key .null) := by
  rw [Dict.getD, Dict.getD, get?_sortFields, get?_normalFields]
  cases Dict.get? fields key with
  | none => rw [Option.map_none, Option.getD_none, sortKeys, normal, id]
  | some value => rfl

section
variable (value : Json)

theorem nonemptyStr_sortKeys : (sortKeys value).nonemptyStr = value.nonemptyStr := by
  cases value <;> rfl

theorem asInt?_sortKeys : (sortKeys value).asInt? = value.asInt? := by
  cases value <;> rfl

theorem str?_sortKeys : (sortKeys value).str? = value.str? := by
  cases value <;> rfl

end

end OciHpc.Json
