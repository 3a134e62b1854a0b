import OciHpc.Base.Files
import OciHpc.Resize.InventoryRoundTrip

/-!
# The inventory file and its writers

* `writeInventoryFile`, `writeInventoryAtomic` : `write_inventory` and `write_inventory_atomic` of `resize.py`;
* `writeInventoryAtomic_spec` : the atomic one leaves the old file or the new one;
* `SameButSection` : two inventories that differ in the lines of one section;
* `inventory_written_and_read` : what is read is written back, with one line more or less where it was edited.
-/

namespace OciHpc.Resize
open Prog Files

section
variable {ε : Type}

/-- `write_inventory`. -/
def writeInventoryFile (inventory : Inventory) (path : String) : Prog (sig String Text) ε Unit :=
  ask (.write (.named path) (writeInventory inventory))

def writeInventoryAtomic (isPermission : ε → Bool) (inventory : Inventory) (path : String) :
    Prog (sig String Text) ε Unit :=
  (ask (.touch "os.stat" (.named path))).bind fun _ =>
    replaceFile path (writeInventory inventory) fun temp =>
      (ask (.touch "os.fsync" temp)).bind fun _ =>
        (ask (.touch "os.chmod" temp)).bind fun _ => chown isPermission temp (.named path)

/-- **The atomic writer leaves the old file or the new one**, and the old one where it raises. -/
theorem writeInventoryAtomic_spec (isPermission : ε → Bool) (inventory : Inventory) (path : String)
    (d : Disk String Text) :
    wp step (writeInventoryAtomic isPermission inventory path)
      ⟨fun _ => Replaced d path (writeInventory inventory), fun _ => SameNamed d, SameNamed d⟩ d := by
  refine wp_perform_seq (SameNamed.refl d) (fun _ d' hstat => ?_) fun e d' hstat => ?_
  · rw [show d' = d from hstat]
    refine replaceFile_spec (fun temp => ?_) d
    refine Calls.bind (calls_perform trivial) fun _ => ?_
    refine Calls.bind (calls_perform trivial) fun _ => ?_
    exact calls_chown isPermission temp (.named path)
  · rw [show d' = d from hstat]
    exact SameNamed.refl d

end

/-! ## What is written is read back -/

inductive Writer
  | plain
  | atomic
  deriving DecidableEq, Repr

def Writer.program {ε : Type} (isPermission : ε → Bool) (inventory : Inventory) (path : String) :
    Writer → Prog (sig String Text) ε Unit
  | .plain => writeInventoryFile inventory path
  | .atomic => writeInventoryAtomic isPermission inventory path

/-- Whatever the writer leaves when it returns, what is read of it satisfies `P`. -/
def Writer.ReadsBack (writer : Writer) {ε : Type} (isPermission : ε → Bool) (inventory : Inventory) (path : String)
    (P : Inventory → Prop) : Prop :=
  ∀ d d' : Disk String Text, Exec step (writer.program isPermission inventory path) d (.done ()) d' →
    ∃ text, d' (.named path) = some text ∧ P (parseInventory text)

/-- The same sections in the same order, with the same lines but in the section `name`. -/
structure SameButSection (name : Text) (lines : List Text) (before after : Inventory) : Prop where
  sections : after.map (·.1) = before.map (·.1)
  own : after.lines? name = some lines
  others : ∀ other, other ≠ name → after.lines? other = before.lines? other

theorem sameButSection_set {inventory : Inventory} {name : Text} {before : List Text}
    (h : inventory.lines? name = some before) (lines : List Text) :
    SameButSection name lines inventory (inventory.set name lines) := by
  refine ⟨?_, Inventory.lines?_set_self, fun other hother => Inventory.lines?_set_of_ne hother⟩
  have hmem : name ∈ inventory.map (·.1) := List.mem_map.mpr ⟨_, Inventory.mem_of_lines? h, rfl⟩
  rw [Inventory.set, keys_setKey, if_pos hmem]

section
variable {ε : Type} {isPermission : ε → Bool} {inventory : Inventory} {path : String}

/-- A writer that returns has written the text of the inventory. -/
theorem Writer.text_of_exec {writer : Writer} {d d' : Disk String Text}
    (h : Exec step (writer.program isPermission inventory path) d (.done ()) d') :
    d' (.named path) = some (writeInventory inventory) := by
  cases writer with
  | plain =>
      have hspec : wp step (writeInventoryFile inventory path : Prog (sig String Text) ε Unit)
          ⟨fun _ w => w (.named path) = some (writeInventory inventory), fun _ _ => True, fun _ => True⟩ d := by
        refine (wp_perform _ _ _).mpr ⟨trivial, fun _ w hwrite => ?_, fun _ _ _ => trivial⟩
        rw [show w = _ from hwrite]
        exact Function.update_self ..
      exact Exec.of_wp h hspec
  | atomic => exact (Exec.of_wp h (writeInventoryAtomic_spec isPermission inventory path d)).self

theorem Writer.readsBack_of_wellFormed (writer : Writer) (h : inventory.WellFormed) :
    writer.ReadsBack isPermission inventory path (· = inventory) := fun _ _ hexec =>
  ⟨writeInventory inventory, Writer.text_of_exec hexec, parse_write h⟩

theorem Writer.ReadsBack.imp {writer : Writer} {P P' : Inventory → Prop}
    (h : writer.ReadsBack isPermission inventory path P) (himp : ∀ after, P after → P' after) :
    writer.ReadsBack isPermission inventory path P' := fun d d' hexec => by
  obtain ⟨text, htext, hread⟩ := h d d' hexec
  exact ⟨text, htext, himp _ hread⟩

theorem Writer.exists_exec (writer : Writer) (isPermission : ε → Bool) (inventory : Inventory) (path : String)
    {d : Disk String Text} (h : d (.temp 0) = none) :
    ∃ d', Exec step (writer.program isPermission inventory path) d (.done ()) d' := by
  cases writer with
  | plain => exact ⟨_, .call (show step d (.write (.named path) (writeInventory inventory)) (.ok ()) _ from rfl) .ret⟩
  | atomic =>
      exact ⟨_, .call (show step d (.touch "os.stat" (.named path)) (.ok ()) d from rfl)
        (.call (show step d .mkstemp (.ok (Path.temp 0)) _ from ⟨h, 0, [], rfl, rfl⟩)
        (.call (show step _ (.write (.temp 0) (writeInventory inventory)) (.ok ()) _ from rfl)
        (.call (show step _ (.touch "os.fsync" (.temp 0)) (.ok ()) _ from rfl)
        (.call (show step _ (.touch "os.chmod" (.temp 0)) (.ok ()) _ from rfl)
        (.call (show step _ (.touch "os.chown" (.temp 0)) (.ok ()) _ from rfl)
        (.call (show step _ (.replace (.temp 0) (.named path)) (.ok ()) _ from ⟨_, Function.update_self .., rfl⟩)
          .ret))))))⟩

theorem Writer.readsBack_set (writer : Writer) (h : inventory.WellFormed) {name : Text} {before lines : List Text}
    (hsection : inventory.lines? name = some before) (hlines : ∀ line ∈ lines, IsLine line ∧ isHeader line = false) :
    writer.ReadsBack isPermission (inventory.set name lines) path (SameButSection name lines inventory) := by
  have hset := h.set (h.names _ (Inventory.mem_of_lines? hsection)) hlines
  refine (writer.readsBack_of_wellFormed hset).imp fun after hafter => ?_
  rw [hafter]
  exact sameButSection_set hsection lines

end

theorem getLast?_universalNewlines {text : Text} (h : text.getLast? = some '\n') :
    (universalNewlines text).getLast? = some '\n' := by
  fun_induction universalNewlines text with
  | case1 => cases h
  | case2 rest ih =>
      cases rest with
      | nil => rfl
      | cons c rest =>
          rw [List.getLast?_cons, ih (by simpa [List.getLast?_cons] using h)]
          rfl
  | case3 c rest _ ih =>
      cases rest with
      | nil =>
          obtain rfl := Option.some.inj h
          rfl
      | cons d rest =>
          rw [List.getLast?_cons, ih (by simpa [List.getLast?_cons] using h)]
          rfl

theorem terminated_of_getLast? {text : Text} (h : text.getLast? = some '\n') : Terminated text := by
  intro c hc
  rw [getLast?_universalNewlines h] at hc
  exact (Option.some.inj hc).symm

/-- **Reading and writing are inverse.** For a text that ends in a newline, what is read of it is written so that it is
read back, by either writer; a line added to a section or taken out of it in between makes just that difference. -/
theorem inventory_written_and_read {text : Text} (h : text.getLast? = some '\n') (writer : Writer) {ε : Type}
    (isPermission : ε → Bool) (path : String) :
    writer.ReadsBack isPermission (parseInventory text) path (· = parseInventory text) ∧
    ∀ name lines, (parseInventory text).lines? name = some lines →
      (∀ line, IsLine line → isHeader line = false →
        writer.ReadsBack isPermission ((parseInventory text).set name (lines ++ [line])) path
          (SameButSection name (lines ++ [line]) (parseInventory text))) ∧
      ∀ front line back, lines = front ++ line :: back →
        writer.ReadsBack isPermission ((parseInventory text).set name (front ++ back)) path
          (SameButSection name (front ++ back) (parseInventory text)) := by
  have hwellFormed := wellFormed_parseInventory (terminated_of_getLast? h)
  refine ⟨writer.readsBack_of_wellFormed hwellFormed, fun name lines hsection => ⟨fun line hline hheader => ?_,
    fun front line back hlines => ?_⟩⟩
  · refine writer.readsBack_set hwellFormed hsection fun other hother => ?_
    rcases List.mem_append.mp hother with hother | hother
    · exact hwellFormed.lines _ (Inventory.mem_of_lines? hsection) other hother
    · rw [List.mem_singleton.mp hother]
      exact ⟨hline, hheader⟩
  · refine writer.readsBack_set hwellFormed hsection fun other hother => ?_
    refine hwellFormed.lines _ (Inventory.mem_of_lines? hsection) other ?_
    rw [hlines]
    rcases List.mem_append.mp hother with hother | hother
    · exact List.mem_append_left _ hother
    · exact List.mem_append_right _ (List.mem_cons_of_mem _ hother)

theorem inventory_written_and_read_one_section : Writer.atomic.ReadsBack (fun _ : Unit => false)
    ((parseInventory "[a]\nx\n".toList).set "a".toList ["x\n".toList, "y\n".toList]) "hosts"
    (SameButSection "a".toList ["x\n".toList, "y\n".toList] (parseInventory "[a]\nx\n".toList)) :=
  ((@inventory_written_and_read "[a]\nx\n".toList (by decide) .atomic Unit (fun _ => false) "hosts").2 "a".toList
    ["x\n".toList] (by decide)).1 "y\n".toList ⟨⟨"y".toList, rfl, by decide⟩, by decide⟩ (by decide)

end OciHpc.Resize
