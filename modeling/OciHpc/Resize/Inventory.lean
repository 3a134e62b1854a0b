import OciHpc.Base.Dictionary
import OciHpc.Base.Words

/-!
# The inventory file

`parse_inventory` and `write_inventory` of `resize.py`, and what the script reads in the lines.

* `fileLines` : what iterating over a file opened for reading gives;
* `Inventory` : the sections in their order, each with its lines;
* `parseInventory`, `writeInventory`;
* `ansibleHost`, `computeUsername` : what is read with `split`;
* `removeLines` : a loop that removes lines from the list it goes through.
-/

namespace OciHpc.Resize

abbrev Text := List Char

instance : LawfulBEq Text := inferInstance

/-! ## Lines -/

/-- `\r\n` and `\r` are read as `\n`. -/
def universalNewlines : Text → Text
  | [] => []
  | '\r' :: '\n' :: rest => '\n' :: universalNewlines rest
  | c :: rest => (if c = '\r' then '\n' else c) :: universalNewlines rest

/-- `for line in open(file, "r")`. -/
def fileLines (text : Text) : List Text := linesFrom [] (universalNewlines text)

/-- `s.rstrip()`. -/
def rstrip (s : Text) : Text := (s.reverse.dropWhile PyStr.isSpace).reverse

/-- `s.lstrip()`. -/
def lstrip (s : Text) : Text := s.dropWhile PyStr.isSpace

def strip (s : Text) : Text := rstrip (lstrip s)

/-- `part in s`. -/
def isIn (part s : Text) : Bool := PyStr.hasInfix part s

/-! ## Splitting and joining -/

/-- `s.split(sep)` for one character. -/
def splitAt (sep : Char) (s : Text) : List Text := PyStr.splitFrom [sep] 0 [] s

/-- `sep.join(pieces)` for one character. -/
def joinWith (sep : Char) : List Text → Text
  | [] => []
  | [piece] => piece
  | piece :: rest => piece ++ sep :: joinWith sep rest

theorem splitAt_joinWith {sep : Char} {pieces : List Text} (hne : pieces ≠ []) (h : ∀ piece ∈ pieces, sep ∉ piece) :
    splitAt sep (joinWith sep pieces) = pieces := by
  induction pieces with
  | nil => exact absurd rfl hne
  | cons piece rest ih =>
      have hpiece : sep ∉ piece := h piece List.mem_cons_self
      cases rest with
      | nil => exact PyStr.splitFrom_of_not_mem hpiece []
      | cons next rest =>
          have hrest := ih (List.cons_ne_nil _ _) fun p hp => h p (List.mem_cons_of_mem _ hp)
          calc splitAt sep (joinWith sep (piece :: next :: rest))
              = piece :: splitAt sep (joinWith sep (next :: rest)) := PyStr.splitFrom_append hpiece [] _
            _ = piece :: next :: rest := by rw [hrest]

theorem sep_not_mem_of_mem_splitAt {sep : Char} {s piece : Text} (h : piece ∈ splitAt sep s) : sep ∉ piece :=
  PyStr.sep_not_mem_of_mem_splitFrom List.not_mem_nil h

/-! ## Sections -/

abbrev Inventory := List (Text × List Text)

namespace Inventory

/-- `inventory_dict[section]`: `none` is a `KeyError`. -/
def lines? (inventory : Inventory) (name : Text) : Option (List Text) := inventory.lookup name

/-- `inventory_dict[section] = lines`. -/
def set (name : Text) (lines : List Text) (inventory : Inventory) : Inventory := setKey name lines inventory

theorem lines?_set_self {inventory : Inventory} {name : Text} {lines : List Text} :
    (inventory.set name lines).lines? name = some lines := lookup_setKey_self name lines inventory

theorem lines?_set_of_ne {inventory : Inventory} {name other : Text} {lines : List Text} (h : other ≠ name) :
    (inventory.set name lines).lines? other = inventory.lines? other := lookup_setKey_of_ne h lines inventory

end Inventory

def isHeader (line : Text) : Bool := "[".toList.isPrefixOf (strip line) && "]".toList.isSuffixOf (strip line)

/-- `line.split('[')[1].split(']')[0]`. -/
def sectionName (line : Text) : Text :=
  (((line.dropWhile (· ≠ '[')).drop 1).takeWhile (· ≠ '[')).takeWhile (· ≠ ']')

/-- The loop of `parse_inventory`, from the sections so far and `current_section`. -/
def parseLines : Inventory → Option Text → List Text → Inventory
  | inventory, _, [] => inventory
  | inventory, current, line :: rest =>
      if isHeader line then
        let name := sectionName line
        let inventory := if (inventory.lines? name).isSome then inventory else inventory.set name []
        parseLines inventory (some name) rest
      else
        match current with
        | none => parseLines inventory none rest
        | some name => parseLines (inventory.set name ((inventory.lines? name).getD [] ++ [line])) (some name) rest

def parseInventory (text : Text) : Inventory := parseLines [] none (fileLines text)

/-- The text `write_inventory` writes. -/
def writeInventory (inventory : Inventory) : Text :=
  inventory.flatMap fun entry => "[".toList ++ entry.1 ++ "]\n".toList ++ entry.2.flatten

/-- The lines of `compute_configured` and `compute_to_add`. -/
def computeLines (inventory : Inventory) : List Text :=
  (inventory.lines? "compute_configured".toList).getD [] ++ (inventory.lines? "compute_to_add".toList).getD []

/-! ## What is read in a line -/

/-- `line.split("ansible_host=")[1].split("ansible_user=")[0].strip()`: `none` is an `IndexError`. -/
def ansibleHost (line : Text) : Option Text :=
  (PyStr.splitFrom "ansible_host=".toList 0 [] line)[1]?.map fun piece =>
    strip ((PyStr.splitFrom "ansible_user=".toList 0 [] piece).headD [])

/-- The user the cluster is reached with: the first line of `[all:vars]` that begins with `compute_username`. -/
def computeUsername (inventory : Inventory) : Option Text := do
  let vars ← inventory.lines? "all:vars".toList
  match vars.find? fun line => "compute_username".toList.isPrefixOf line with
  | none => some "opc".toList
  | some line => (PyStr.splitFrom "compute_username=".toList 0 [] line)[1]?.map strip

/-- `for line in lines: if host in line: lines.remove(line)`: what is left, and the lines removed. The loop goes by
the index, which moves on when a line is removed too, and `remove` takes the first line equal to the one found. -/
def removeLines (host : Text) : Nat → Nat → List Text → List Text × List Text
  | 0, _, lines => (lines, [])
  | fuel + 1, i, lines =>
      match lines[i]? with
      | none => (lines, [])
      | some line =>
          if isIn host line then
            let rest := removeLines host fuel (i + 1) (lines.erase line)
            (rest.1, line :: rest.2)
          else removeLines host fuel (i + 1) lines

/-- As many turns as there are lines are enough. -/
def removeHostLines (host : Text) (lines : List Text) : List Text × List Text := removeLines host lines.length 0 lines

end OciHpc.Resize
