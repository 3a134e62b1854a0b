import Mathlib.Logic.Function.Basic
import OciHpc.Base.Prog

/-!
# Files that are replaced as a whole

* `Files.sig`, `Disk`, `Files.step` : calls on files, of which any may fail, and what they do;
* `Files.replaceFile` : a temporary file is written and renamed to the target, and removed where that fails;
* `SameNamed` : the same files apart from the temporary ones;
* `replaceFile_spec` : whatever fails and wherever it is cut off, the target is the old file or the new one.
-/

namespace OciHpc.Files
open Prog

/-- A file, or a temporary file beside it. -/
inductive Path (N : Type)
  | named (name : N)
  | temp (k : Nat)
  deriving DecidableEq, Repr

inductive Call (N C : Type)
  | exists (path : Path N)
  | read (path : Path N)
  | mkstemp
  | write (path : Path N) (content : C)
  /-- A call that changes no content, by its name. -/
  | touch (operation : String) (path : Path N)
  /-- The process has the owner of the file. -/
  | sameOwner (path : Path N)
  | replace (source target : Path N)
  /-- `False` is a `FileNotFoundError`. -/
  | unlink (path : Path N)
  deriving DecidableEq, Repr

def Call.Ans {N C : Type} : Call N C → Type
  | .exists _ | .sameOwner _ | .unlink _ => Bool
  | .read _ => C
  | .mkstemp => Path N
  | .write .. | .touch .. | .replace .. => Unit

abbrev sig (N C : Type) : Sig := ⟨Call N C, Call.Ans⟩

abbrev Disk (N C : Type) := Path N → Option C

variable {N C ε : Type}

section
variable [DecidableEq N]

/-- What a call does. A write that fails may leave anything in its file; other calls that fail do nothing. -/
def step : Handler (sig N C) ε (Disk N C)
  | d, .exists path, .ok present, d' => present = (d path).isSome ∧ d' = d
  | d, .read path, .ok content, d' => d path = some content ∧ d' = d
  | d, .mkstemp, .ok path, d' => d path = none ∧ ∃ k content, path = .temp k ∧ d' = Function.update d path (some content)
  | d, .write path content, .ok _, d' => d' = Function.update d path (some content)
  | d, .write path _, .error _, d' => d' = d ∨ ∃ part, d' = Function.update d path (some part)
  | d, .touch _ _, .ok _, d' => d' = d
  | d, .sameOwner _, .ok _, d' => d' = d
  | d, .replace source target, .ok _, d' =>
      ∃ content, d source = some content ∧ d' = Function.update (Function.update d target (some content)) source none
  | d, .unlink path, .ok present, d' => present = (d path).isSome ∧ d' = Function.update d path none
  | d, _, .error _, d' => d' = d

abbrev ask (o : Call N C) : Prog (sig N C) ε o.Ans := perform (S := sig N C) o

def Call.Harmless : Call N C → Prop
  | .exists _ | .read _ | .touch .. | .sameOwner _ => True
  | .mkstemp | .write .. | .replace .. | .unlink _ => False

theorem eq_of_harmless {d d' : Disk N C} {o : Call N C} {r : Except ε o.Ans} (ho : o.Harmless) (h : step d o r d') :
    d' = d := by
  cases o with
  | «exists» path => cases r with
    | ok present => exact h.2
    | error e => exact h
  | read path => cases r with
    | ok content => exact h.2
    | error e => exact h
  | touch operation path => cases r <;> exact h
  | sameOwner path => cases r <;> exact h
  | mkstemp | write | replace | unlink => exact ho.elim

/-- A program that only looks leaves the files as they are. -/
theorem keeps_of_harmless {α : Type} {p : Prog (sig N C) ε α} (hp : p.Calls Call.Harmless) (d : Disk N C) :
    Keeps step (· = d) p :=
  keeps_of_calls hp fun _ _ _ _ ho hw hstep => (eq_of_harmless ho hstep).trans hw

end

/-! ## A file replaced -/

/-- `os.chown`, with a `PermissionError` passed over where the owner is right already. -/
def chown (isPermission : ε → Bool) (path owner : Path N) : Prog (sig N C) ε Unit :=
  (ask (.touch "os.chown" path)).attempt.bind fun
    | .ok _ => .ret ()
    | .error e =>
        if isPermission e then
          (ask (.sameOwner owner)).bind fun (same : Bool) => if same then .ret () else .throw e
        else .throw e

/-- `if os.path.exists(path): os.unlink(path)`. -/
def unlinkIfExists (path : Path N) : Prog (sig N C) ε Unit :=
  (ask (.exists path)).bind fun (present : Bool) =>
    if present then (ask (.unlink path)).bind fun _ => .ret () else .ret ()

/-- A temporary file is written, prepared and renamed; it is removed where one of these raises. -/
def replaceFile (target : N) (content : C) (prepare : Path N → Prog (sig N C) ε Unit) : Prog (sig N C) ε Unit :=
  (ask .mkstemp).bind fun temp =>
    ((ask (.write temp content)).bind fun _ =>
      (prepare temp).bind fun _ => ask (.replace temp (.named target))).attempt.bind fun
    | .ok _ => .ret ()
    | .error e => (unlinkIfExists temp).bind fun _ => .throw e

/-- The same files, temporary ones apart. -/
def SameNamed (d d' : Disk N C) : Prop := ∀ name, d' (.named name) = d (.named name)

theorem SameNamed.refl (d : Disk N C) : SameNamed d d := fun _ => rfl

theorem calls_chown (isPermission : ε → Bool) (path owner : Path N) :
    (chown isPermission path owner : Prog (sig N C) ε Unit).Calls Call.Harmless := by
  refine Calls.bind (calls_perform trivial).attempt fun r => ?_
  cases r with
  | ok _ => exact trivial
  | error e =>
      dsimp only
      split
      · refine Calls.bind (calls_perform trivial) fun same => ?_
        split <;> exact trivial
      · exact trivial

variable [DecidableEq N]

theorem sameNamed_update {d d' : Disk N C} (h : SameNamed d d') (k : Nat) (content : Option C) :
    SameNamed d (Function.update d' (.temp k) content) := fun name => by
  rw [Function.update_of_ne (by simp), h name]

/-- The file `name` has this content, and the others are as they were. -/
def Replaced (d : Disk N C) (name : N) (content : C) (d' : Disk N C) : Prop :=
  SameNamed (Function.update d (.named name) (some content)) d'

theorem Replaced.self {d d' : Disk N C} {name : N} {content : C} (h : Replaced d name content d') :
    d' (.named name) = some content := by
  rw [h name, Function.update_self]

theorem Replaced.other {d d' : Disk N C} {name other : N} {content : C} (h : Replaced d name content d')
    (hne : other ≠ name) : d' (.named other) = d (.named other) := by
  rw [h other, Function.update_of_ne (by simpa using hne)]

theorem unlinkIfExists_spec {d : Disk N C} (k : Nat) {w : Disk N C} (h : SameNamed d w) :
    wp step (unlinkIfExists (.temp k) : Prog (sig N C) ε Unit)
      ⟨fun _ => SameNamed d, fun _ => SameNamed d, SameNamed d⟩ w := by
  refine wp_perform_seq h (fun present w' hstep => ?_) fun e w' hstep => ?_
  · obtain rfl := hstep.2
    split
    · refine wp_perform_seq h (fun removed w' hstep => ?_) fun e w' hstep => ?_
      · rw [hstep.2]
        exact sameNamed_update h k none
      · rw [show w' = _ from hstep]
        exact h
    · exact h
  · rw [show w' = _ from hstep]
    exact h

/-- **The target is the old file or the new one.** -/
theorem replaceFile_spec {target : N} {content : C} {prepare : Path N → Prog (sig N C) ε Unit}
    (hprepare : ∀ temp, (prepare temp).Calls Call.Harmless) (d : Disk N C) :
    wp step (replaceFile target content prepare)
      ⟨fun _ => Replaced d target content, fun _ => SameNamed d, SameNamed d⟩ d := by
  refine wp_perform_seq (SameNamed.refl d) (fun temp w hmkstemp => ?_) fun e w hmkstemp => ?_
  · obtain ⟨-, k, blank, rfl, rfl⟩ := hmkstemp
    have hblank : SameNamed d (Function.update d (.temp k) (some blank)) := sameNamed_update (SameNamed.refl d) k _
    refine wp_seq_attempt (R := fun _ => Replaced d target content) (E := fun _ => SameNamed d) ?_ ?_ ?_
    · refine wp_perform_seq hblank (fun _ w hwrite => ?_) fun e w hwrite => ?_
      · have hw : SameNamed d w := by
          rw [show w = _ from hwrite]
          exact sameNamed_update hblank k _
        have htemp : w (.temp k) = some content := by
          rw [show w = _ from hwrite]
          exact Function.update_self ..
        refine wp_seq (R := fun _ w' => w' = w) (wp_mono (keeps_of_harmless (hprepare _) w w rfl) (fun _ _ h => h)
          (fun _ w' h => ?_) fun w' h => ?_) fun _ w' h => ?_
        · exact h ▸ hw
        · exact h ▸ hw
        · subst h
          rw [wp_perform]
          refine ⟨hw, fun _ w' hreplace => ?_, fun e w' hreplace => ?_⟩
          · obtain ⟨found, hfound, rfl⟩ := hreplace
            obtain rfl := Option.some.inj (htemp.symm.trans hfound)
            intro name
            rw [Function.update_of_ne (by simp)]
            by_cases hname : name = target
            · rw [hname, Function.update_self, Function.update_self]
            · rw [Function.update_of_ne (by simpa using hname), Function.update_of_ne (by simpa using hname)]
              exact hw name
          · rw [show w' = _ from hreplace]
            exact hw
      · obtain hsame | ⟨part, hpart⟩ := hwrite
        · rw [show w = _ from hsame]
          exact hblank
        · rw [show w = _ from hpart]
          exact sameNamed_update hblank k _
    · exact fun _ w' h => h
    · intro e w' h
      exact wp_seq (R := fun _ => SameNamed d) (unlinkIfExists_spec k h) fun _ w'' h'' => h''
  · rw [show w = _ from hmkstemp]
    exact SameNamed.refl d

/-- **A file can be replaced** where its preparation can return. -/
theorem exists_replaceFile {target : N} {content : C} {prepare : Path N → Prog (sig N C) ε Unit} {d : Disk N C}
    (h : d (.temp 0) = none) (hprepare : ∀ temp d, Exec step (prepare temp) d (.done ()) d) :
    ∃ d', Exec step (replaceFile target content prepare) d (.done ()) d' := by
  have hmkstemp : Exec step (ask .mkstemp : Prog (sig N C) ε (Path N)) d (.done (.temp 0))
      (Function.update d (.temp 0) (some content)) :=
    Exec.perform (show step d .mkstemp (.ok (.temp 0)) _ from ⟨h, 0, content, rfl, rfl⟩)
  have hwrite : Exec step (ask (.write (.temp 0) content) : Prog (sig N C) ε Unit)
      (Function.update d (.temp 0) (some content)) (.done ()) _ :=
    Exec.perform (show step _ (.write (.temp 0) content) (.ok ()) _ from rfl)
  have hreplace := fun w : Disk N C => fun hw : w (.temp 0) = some content =>
    (Exec.perform (show step w (.replace (.temp 0) (.named target)) (.ok ()) _ from ⟨content, hw, rfl⟩) :
      Exec step (ask (.replace (.temp 0) (.named target)) : Prog (sig N C) ε Unit) w (.done ()) _)
  exact ⟨_, hmkstemp.bind
    ((Exec.attempt (hwrite.bind ((hprepare _ _).bind (hreplace _ (Function.update_self ..))))).bind .ret)⟩

end OciHpc.Files
