import OciHpc.Base.Files
import OciHpc.Resize.TerraformState

/-!
# The Terraform state updated

`updateTFState` of `resize.py`: the state is rewritten beside itself and pushed, and then the variables are replaced.

* `TerraformCall`, `terraformStep` : the calls and what they do; in `steadyStep` the second temporary file can be made
  and the cleanup does not raise;
* `updateTFState` : the function, with its `finally`;
* `updateTFState_spec` : the files it leaves;
* `updateTFState_atomic` : before the push nothing has changed, and an update can be made again.
-/

namespace OciHpc.Resize
open Prog Files

/-! ## The calls -/

inductive TerraformFile
  | tfstate
  | variablesTf
  deriving DecidableEq, Repr

/-- A `RuntimeError`, a `ValueError` of `int`, an `OSError` or a `CalledProcessError`. -/
inductive TerraformError
  | runtime (message : String)
  | value
  | os (permission : Bool) (text : String)
  | process (text : String)
  deriving DecidableEq, Repr

abbrev TerraformPath := Files.Path TerraformFile

/-- The calls on the files of a cluster, and `terraform state push`. -/
inductive TerraformCall
  | isFile (file : TerraformFile)
  /-- The temporary file for the state, or the one for the variables. -/
  | mkstemp (file : TerraformFile)
  | read (file : TerraformFile)
  | fdopen (path : TerraformPath)
  | write (path : TerraformPath) (content : Text)
  /-- A call that changes no content, by its name. -/
  | touch (operation : String) (path : TerraformPath)
  | sameOwner
  | push (path : TerraformPath)
  | replace (path : TerraformPath) (file : TerraformFile)
  | fsyncDirectory
  /-- `os.close`, of a temporary file that was not opened. -/
  | close (file : TerraformFile)
  | exists (path : TerraformPath)
  | unlink (path : TerraformPath)
  deriving DecidableEq, Repr

def TerraformCall.Ans : TerraformCall → Type
  | .isFile _ | .sameOwner | .exists _ => Bool
  | .mkstemp _ => TerraformPath
  | .read _ => Text
  | .fdopen _ | .write .. | .touch .. | .push _ | .replace .. | .fsyncDirectory | .close _ | .unlink _ => Unit

abbrev terraformSig : Sig := ⟨TerraformCall, TerraformCall.Ans⟩

abbrev tf (o : TerraformCall) : Prog terraformSig TerraformError o.Ans := perform (S := terraformSig) o

@[ext] structure Terraform where
  files : Files.Disk TerraformFile Text
  pushed : List Text

def Terraform.setFile (w : Terraform) (path : TerraformPath) (content : Option Text) : Terraform :=
  { w with files := Function.update w.files path content }

/-- The state of the cluster is the one that was pushed. -/
def Terraform.push (w : Terraform) (content : Text) : Terraform :=
  ⟨Function.update w.files (.named .tfstate) (some content), w.pushed ++ [content]⟩

/-- What a call does. A write that fails may leave anything in its file; other calls that fail do nothing. -/
def terraformStep : Handler terraformSig TerraformError Terraform
  | w, .isFile file, .ok present, w' => present = (w.files (.named file)).isSome ∧ w' = w
  | w, .mkstemp _, .ok path, w' => w.files path = none ∧ ∃ k, path = .temp k ∧ w' = w.setFile path (some [])
  | w, .read file, .ok content, w' => w.files (.named file) = some content ∧ w' = w
  | w, .write path content, .ok _, w' => w' = w.setFile path (some content)
  | w, .write path _, .error _, w' => ∃ part, w' = w.setFile path (some part)
  | w, .push path, .ok _, w' => ∃ content, w.files path = some content ∧ w' = w.push content
  | w, .replace path file, .ok _, w' =>
      ∃ content, w.files path = some content ∧ w' = (w.setFile (.named file) (some content)).setFile path none
  | w, .exists path, .ok present, w' => present = (w.files path).isSome ∧ w' = w
  | w, .unlink path, .ok _, w' => w' = w.setFile path none
  | w, .fdopen _, .ok _, w' | w, .touch .., .ok _, w' | w, .sameOwner, .ok _, w' | w, .fsyncDirectory, .ok _, w'
  | w, .close _, .ok _, w' => w' = w
  | w, _, .error _, w' => w' = w

/-- The second `mkstemp`, which is outside the `try`, and what the `finally` calls. -/
def TerraformCall.Steady : TerraformCall → Prop
  | .mkstemp .variablesTf | .close _ | .exists _ | .unlink _ => True
  | _ => False

def steadyStep : Handler terraformSig TerraformError Terraform := fun w o r w' =>
  terraformStep w o r w' ∧ (o.Steady → ∃ a, r = .ok a)

/-! ## The function -/

/-- What the `finally` finds: the descriptors that are still open, and whether the second file is still there. -/
structure Held where
  stateFd : Bool
  variablesFd : Bool
  variablesPath : Bool

/-- `if os.path.exists(path): os.unlink(path)`. -/
def unlinkTemporary (path : TerraformPath) : Prog terraformSig TerraformError Unit :=
  (tf (.exists path)).bind fun (present : Bool) => if present then tf (.unlink path) else .ret ()

/-- The `finally`. -/
def cleanUp (held : Held) (statePath variablesPath : TerraformPath) : Prog terraformSig TerraformError Unit :=
  (if held.stateFd then tf (.close .tfstate) else .ret ()).bind fun _ =>
    (if held.variablesFd then tf (.close .variablesTf) else .ret ()).bind fun _ =>
      (unlinkTemporary statePath).bind fun _ =>
        if held.variablesPath then unlinkTemporary variablesPath else .ret ()

/-- A part of the `try`, and what follows it; where it raises, the `finally` is next. -/
def guarded {α β : Type} (cleanup : Prog terraformSig TerraformError Unit) (p : Prog terraformSig TerraformError α)
    (next : α → Prog terraformSig TerraformError β) : Prog terraformSig TerraformError β :=
  p.attempt.bind fun
    | .error e => cleanup.bind fun _ => .throw e
    | .ok a => next a

/-- `open` and `os.fdopen`. -/
def openState (statePath : TerraformPath) : Prog terraformSig TerraformError Text :=
  (tf (.read .tfstate)).bind fun (text : Text) => (tf (.fdopen statePath)).bind fun _ => .ret text

def writeState (size : Nat) (statePath : TerraformPath) (text : Text) : Prog terraformSig TerraformError Unit :=
  match rewriteState size text with
  | none => .throw .value
  | some written =>
      (tf (.write statePath written)).bind fun _ =>
        (tf (.touch "os.fsync" statePath)).bind fun _ =>
          if foundState text then .ret ()
          else .throw (.runtime "Terraform state does not contain the expected serial and instance pool size")

def openVariables (variablesPath : TerraformPath) : Prog terraformSig TerraformError Text :=
  (tf (.touch "os.stat" (.named .variablesTf))).bind fun _ =>
    (tf (.read .variablesTf)).bind fun (text : Text) => (tf (.fdopen variablesPath)).bind fun _ => .ret text

def writeVariables (isWord : Char → Bool) (size : Nat) (variablesPath : TerraformPath) (text : Text) :
    Prog terraformSig TerraformError Unit :=
  match rewriteVariables isWord size text with
  | none => .throw (.runtime "Terraform node_count variable has an unsupported format")
  | some written =>
      (tf (.write variablesPath written)).bind fun _ =>
        (tf (.touch "os.fsync" variablesPath)).bind fun _ =>
          if foundVariables text then .ret ()
          else .throw (.runtime "Terraform variables do not contain node_count")

/-- `os.chmod`, and `os.chown` with a `PermissionError` passed over where the owner is right already. -/
def takeOwner (path : TerraformPath) : Prog terraformSig TerraformError Unit :=
  (tf (.touch "os.chmod" path)).bind fun _ =>
    (tf (.touch "os.chown" path)).attempt.bind fun
      | .ok _ => .ret ()
      | .error (.os true text) =>
          (tf .sameOwner).bind fun (same : Bool) => if same then .ret () else .throw (.os true text)
      | .error e => .throw e

def pushState (statePath : TerraformPath) : Prog terraformSig TerraformError Unit :=
  (tf (.push statePath)).attempt.bind fun
    | .ok _ => .ret ()
    | .error (.os _ text) | .error (.process text) => .throw (.runtime ("Failed to update Terraform state: " ++ text))
    | .error e => .throw e

/-- The `try` of the function. -/
def withTemporaries (isWord : Char → Bool) (size : Nat) (statePath variablesPath : TerraformPath) :
    Prog terraformSig TerraformError Bool :=
  guarded (cleanUp ⟨true, true, true⟩ statePath variablesPath) (openState statePath) fun stateText =>
  guarded (cleanUp ⟨false, true, true⟩ statePath variablesPath) (writeState size statePath stateText) fun _ =>
  guarded (cleanUp ⟨false, true, true⟩ statePath variablesPath) (openVariables variablesPath) fun variablesText =>
  guarded (cleanUp ⟨false, false, true⟩ statePath variablesPath) (writeVariables isWord size variablesPath variablesText) fun _ =>
  guarded (cleanUp ⟨false, false, true⟩ statePath variablesPath) (takeOwner variablesPath) fun _ =>
  guarded (cleanUp ⟨false, false, true⟩ statePath variablesPath) (pushState statePath) fun _ =>
  guarded (cleanUp ⟨false, false, true⟩ statePath variablesPath) (tf (.replace variablesPath .variablesTf)) fun _ =>
  guarded (cleanUp ⟨false, false, false⟩ statePath variablesPath) (tf .fsyncDirectory) fun _ =>
  (cleanUp ⟨false, false, false⟩ statePath variablesPath).bind fun _ => .ret true

/-- `updateTFState`, for the absolute path of the inventory; `size` is a number of instances. -/
def updateTFState (isWord : Char → Bool) (inventoryPath : String) (size : Nat) :
    Prog terraformSig TerraformError Bool :=
  if inventoryPath = "/etc/ansible/hosts" then .ret false
  else
    (tf (.isFile .tfstate)).bind fun (present : Bool) =>
      if present = false then
        .throw (.runtime ("Terraform state was not found next to inventory " ++ inventoryPath))
      else
        (tf (.isFile .variablesTf)).bind fun (present : Bool) =>
          if present = false then
            .throw (.runtime ("Terraform variables file was not found next to inventory " ++ inventoryPath))
          else
            (tf (.mkstemp .tfstate)).bind fun statePath =>
              (tf (.mkstemp .variablesTf)).bind fun variablesPath => withTemporaries isWord size statePath variablesPath

/-! ## The files it leaves -/

/-- The same files, the two temporary ones apart. -/
def Beside (k₁ k₂ : Nat) (b w : Terraform) : Prop :=
  w.pushed = b.pushed ∧ ∀ path, path ≠ .temp k₁ → path ≠ .temp k₂ → w.files path = b.files path

structure NoTemporaries (k₁ k₂ : Nat) (b : Terraform) : Prop where
  first : b.files (.temp k₁) = none
  second : b.files (.temp k₂) = none

section
variable {k₁ k₂ : Nat} {b w : Terraform}

theorem Terraform.setFile_self {path : TerraformPath} {content : Option Text} :
    (w.setFile path content).files path = content := Function.update_self ..

theorem Terraform.setFile_of_ne {path other : TerraformPath} {content : Option Text} (h : other ≠ path) :
    (w.setFile path content).files other = w.files other := Function.update_of_ne h ..

theorem Terraform.push_of_ne {other : TerraformPath} {content : Text} (h : other ≠ .named .tfstate) :
    (w.push content).files other = w.files other := Function.update_of_ne h _ _

theorem Terraform.push_state {content : Text} : (w.push content).files (.named .tfstate) = some content := by
  show (w.setFile (.named .tfstate) (some content)).files (.named .tfstate) = some content
  exact Terraform.setFile_self

theorem Beside.setFirst (h : Beside k₁ k₂ b w) (content : Option Text) : Beside k₁ k₂ b (w.setFile (.temp k₁) content) :=
  ⟨h.1, fun path h₁ h₂ => (Terraform.setFile_of_ne h₁).trans (h.2 path h₁ h₂)⟩

theorem Beside.setSecond (h : Beside k₁ k₂ b w) (content : Option Text) : Beside k₁ k₂ b (w.setFile (.temp k₂) content) :=
  ⟨h.1, fun path h₁ h₂ => (Terraform.setFile_of_ne h₂).trans (h.2 path h₁ h₂)⟩

theorem Beside.setNamed (h : Beside k₁ k₂ b w) (file : TerraformFile) (content : Option Text) :
    Beside k₁ k₂ (b.setFile (.named file) content) (w.setFile (.named file) content) := by
  refine ⟨h.1, fun path h₁ h₂ => ?_⟩
  by_cases hpath : path = .named file
  · rw [hpath, Terraform.setFile_self, Terraform.setFile_self]
  · rw [Terraform.setFile_of_ne hpath, Terraform.setFile_of_ne hpath, h.2 path h₁ h₂]

theorem Beside.push (h : Beside k₁ k₂ b w) (content : Text) : Beside k₁ k₂ (b.push content) (w.push content) :=
  ⟨congrArg (· ++ [content]) h.1, (h.setNamed .tfstate (some content)).2⟩

theorem NoTemporaries.setNamed (h : NoTemporaries k₁ k₂ b) (file : TerraformFile) (content : Option Text) :
    NoTemporaries k₁ k₂ (b.setFile (.named file) content) :=
  ⟨(Terraform.setFile_of_ne (by simp)).trans h.first, (Terraform.setFile_of_ne (by simp)).trans h.second⟩

theorem NoTemporaries.push (h : NoTemporaries k₁ k₂ b) (content : Text) : NoTemporaries k₁ k₂ (b.push content) :=
  ⟨(h.setNamed .tfstate (some content)).first, (h.setNamed .tfstate (some content)).second⟩

theorem Beside.eq (h : Beside k₁ k₂ b w) (hb : NoTemporaries k₁ k₂ b) (h₁ : w.files (.temp k₁) = none)
    (h₂ : w.files (.temp k₂) = none) : w = b := by
  refine Terraform.ext (funext fun path => ?_) h.1
  by_cases hfirst : path = .temp k₁
  · rw [hfirst, h₁, hb.first]
  · by_cases hsecond : path = .temp k₂
    · rw [hsecond, h₂, hb.second]
    · exact h.2 path hfirst hsecond

theorem unlinkTemporary_spec (path : TerraformPath) (w : Terraform) :
    wp steadyStep (unlinkTemporary path) ⟨fun _ w' => w' = w.setFile path none, fun _ _ => False, fun _ => True⟩ w := by
  refine wp_perform_seq trivial (fun present w' hstep => ?_) fun e w' hstep => ?_
  · obtain ⟨⟨hpresent, rfl⟩, -⟩ := hstep
    cases present with
    | true =>
        refine (wp_perform _ _ _).mpr ⟨trivial, fun _ w' hunlink => hunlink.1, fun e w' hunlink => ?_⟩
        obtain ⟨a, ha⟩ := hunlink.2 trivial
        cases ha
    | false =>
        have hnone : w'.files path = none := Option.not_isSome_iff_eq_none.mp (by rw [← hpresent]; exact Bool.false_ne_true)
        show w' = w'.setFile path none
        rw [Terraform.setFile, ← hnone, Function.update_eq_self]
  · obtain ⟨a, ha⟩ := hstep.2 trivial
    cases ha

theorem close_spec (file : TerraformFile) (isOpen : Bool) (w : Terraform) :
    wp steadyStep (if isOpen then tf (.close file) else .ret ())
      ⟨fun _ w' => w' = w, fun _ _ => False, fun _ => True⟩ w := by
  cases isOpen with
  | true =>
      refine (wp_perform _ _ _).mpr ⟨trivial, fun _ w' hstep => hstep.1, fun e w' hstep => ?_⟩
      obtain ⟨a, ha⟩ := hstep.2 trivial
      cases ha
  | false => exact rfl

theorem cleanUp_spec (held : Held) (h : Beside k₁ k₂ b w) (hb : NoTemporaries k₁ k₂ b)
    (hheld : held.variablesPath = true ∨ w.files (.temp k₂) = none) :
    wp steadyStep (cleanUp held (.temp k₁) (.temp k₂)) ⟨fun _ w' => w' = b, fun _ _ => False, fun _ => True⟩ w := by
  refine wp_seq (close_spec .tfstate held.stateFd w) fun _ w' hw' => ?_
  obtain rfl := hw'
  refine wp_seq (close_spec .variablesTf held.variablesFd w') fun _ w'' hw'' => ?_
  obtain rfl := hw''
  refine wp_seq (unlinkTemporary_spec _ w'') fun _ w' hw' => ?_
  obtain rfl := hw'
  have hfirst := h.setFirst none
  have hnone : (w''.setFile (.temp k₁) none).files (.temp k₁) = none := Terraform.setFile_self
  split
  · refine wp_mono (unlinkTemporary_spec _ _) (fun _ w' hw' => ?_) (fun _ _ hfalse => hfalse) fun _ _ => trivial
    rw [show w' = _ from hw']
    refine (hfirst.setSecond none).eq hb ?_ Terraform.setFile_self
    by_cases hk : Files.Path.temp k₁ = (.temp k₂ : TerraformPath)
    · rw [hk, Terraform.setFile_self]
    · rw [Terraform.setFile_of_ne hk, hnone]
  · rename_i hpath
    refine hfirst.eq hb hnone ?_
    have habsent := hheld.resolve_left hpath
    by_cases hk : Files.Path.temp k₂ = (.temp k₁ : TerraformPath)
    · rw [hk, Terraform.setFile_self]
    · rw [Terraform.setFile_of_ne hk, habsent]

/-- A part of the `try`: where it raises, the temporary files are removed. -/
theorem wp_guarded {α β : Type} {held : Held} {p : Prog terraformSig TerraformError α}
    {next : α → Prog terraformSig TerraformError β} {Q : Post Terraform TerraformError β} {R : α → Terraform → Prop}
    {E : Terraform → Prop} (hp : wp terraformStep p ⟨R, fun _ => E, fun _ => True⟩ w) (hcut : Q.cut = fun _ => True)
    (hb : NoTemporaries k₁ k₂ b)
    (hfail : ∀ w', E w' → Beside k₁ k₂ b w' ∧ (held.variablesPath = true ∨ w'.files (.temp k₂) = none))
    (hexc : ∀ e, Q.exc e b) (hnext : ∀ a w', R a w' → wp steadyStep (next a) Q w') :
    wp steadyStep (guarded (cleanUp held (.temp k₁) (.temp k₂)) p next) Q w := by
  have hsteady : wp steadyStep p ⟨R, fun _ => E, fun _ => True⟩ w := wp_of_less (fun _ _ _ _ hstep => hstep.1) hp
  refine wp_seq_attempt (R := R) (E := fun _ => E) (hcut ▸ hsteady) hnext fun e w' he => ?_
  obtain ⟨hbeside, hheld⟩ := hfail w' he
  refine wp_seq (R := fun _ w'' => w'' = b) ?_ fun _ w'' hw'' => ?_
  · exact wp_mono (cleanUp_spec held hbeside hb hheld) (fun _ _ h => h) (fun _ _ hfalse => hfalse.elim)
      fun _ _ => hcut ▸ trivial
  · rw [hw'']
    exact hexc e

/-! ### The parts of the `try` -/

theorem wp_tf {o : TerraformCall} {R : o.Ans → Terraform → Prop} {E : Terraform → Prop}
    (hok : ∀ a w', terraformStep w o (.ok a) w' → R a w') (herr : ∀ e w', terraformStep w o (.error e) w' → E w') :
    wp terraformStep (tf o) ⟨R, fun _ => E, fun _ => True⟩ w :=
  (wp_perform _ _ _).mpr ⟨trivial, hok, herr⟩

theorem openState_spec (statePath : TerraformPath) (w : Terraform) :
    wp terraformStep (openState statePath)
      ⟨fun text w' => w' = w ∧ w.files (.named .tfstate) = some text, fun _ w' => w' = w, fun _ => True⟩ w := by
  refine wp_seq (wp_tf (fun (text : Text) w' hstep => (show w.files (.named .tfstate) = some text ∧ w' = w from hstep))
    fun _ _ hstep => hstep) fun (text : Text) w' hread => ?_
  obtain ⟨htext, rfl⟩ := hread
  refine wp_seq (wp_tf (fun _ w'' hstep => (show w'' = w' from hstep)) fun _ _ hstep => hstep) fun _ w'' hw'' => ?_
  exact ⟨hw'', htext⟩

theorem openVariables_spec (variablesPath : TerraformPath) (w : Terraform) :
    wp terraformStep (openVariables variablesPath)
      ⟨fun text w' => w' = w ∧ w.files (.named .variablesTf) = some text, fun _ w' => w' = w, fun _ => True⟩ w := by
  refine wp_seq (wp_tf (fun _ w' hstep => (show w' = w from hstep)) fun _ _ hstep => hstep) fun _ w' hw' => ?_
  obtain rfl := hw'
  refine wp_seq (wp_tf (fun (text : Text) w'' hstep =>
    (show w'.files (.named .variablesTf) = some text ∧ w'' = w' from hstep)) fun _ _ hstep => hstep)
    fun (text : Text) w'' hread => ?_
  obtain ⟨htext, rfl⟩ := hread
  refine wp_seq (wp_tf (fun _ w' hstep => (show w' = w'' from hstep)) fun _ _ hstep => hstep) fun _ w' hw' => ?_
  exact ⟨hw', htext⟩

/-- A temporary file is written, and the rest only looks. -/
theorem writeTemporary_spec {path : TerraformPath} {written : Text} {found : Bool} {e : TerraformError} (w : Terraform) :
    wp terraformStep ((tf (.write path written)).bind fun _ =>
        (tf (.touch "os.fsync" path)).bind fun _ => if found then .ret () else .throw e)
      ⟨fun _ w' => found = true ∧ w' = w.setFile path (some written),
        fun _ w' => w' = w ∨ ∃ part, w' = w.setFile path (some part), fun _ => True⟩ w := by
  refine wp_seq (wp_tf (fun _ w' hstep => (show w' = w.setFile path (some written) from hstep))
    fun _ w' hstep => .inr hstep) fun _ w' hw' => ?_
  obtain rfl := hw'
  refine wp_seq (wp_tf (fun _ w' hstep => (show w' = w.setFile path (some written) from hstep))
    fun _ w' hstep => .inr ⟨written, hstep⟩) fun _ w' hw' => ?_
  obtain rfl := hw'
  cases found with
  | true => exact ⟨rfl, rfl⟩
  | false => exact .inr ⟨written, rfl⟩

theorem writeState_spec (size : Nat) (statePath : TerraformPath) (text : Text) (w : Terraform) :
    wp terraformStep (writeState size statePath text)
      ⟨fun _ w' => ∃ written, rewriteState size text = some written ∧ foundState text = true ∧
          w' = w.setFile statePath (some written),
        fun _ w' => w' = w ∨ ∃ part, w' = w.setFile statePath (some part), fun _ => True⟩ w := by
  unfold writeState
  cases hwritten : rewriteState size text with
  | none => exact .inl rfl
  | some written =>
      exact wp_mono (writeTemporary_spec w) (fun _ w' h => ⟨written, rfl, h.1, h.2⟩) (fun _ _ h => h) fun _ _ => trivial

theorem writeVariables_spec (isWord : Char → Bool) (size : Nat) (variablesPath : TerraformPath) (text : Text)
    (w : Terraform) :
    wp terraformStep (writeVariables isWord size variablesPath text)
      ⟨fun _ w' => ∃ written, rewriteVariables isWord size text = some written ∧ foundVariables text = true ∧
          w' = w.setFile variablesPath (some written),
        fun _ w' => w' = w ∨ ∃ part, w' = w.setFile variablesPath (some part), fun _ => True⟩ w := by
  unfold writeVariables
  cases hwritten : rewriteVariables isWord size text with
  | none => exact .inl rfl
  | some written =>
      exact wp_mono (writeTemporary_spec w) (fun _ w' h => ⟨written, rfl, h.1, h.2⟩) (fun _ _ h => h) fun _ _ => trivial

theorem takeOwner_spec (path : TerraformPath) (w : Terraform) :
    wp terraformStep (takeOwner path) ⟨fun _ w' => w' = w, fun _ w' => w' = w, fun _ => True⟩ w := by
  refine wp_seq (wp_tf (fun _ w' hstep => (show w' = w from hstep)) fun _ _ hstep => hstep) fun _ w' hw' => ?_
  obtain rfl := hw'
  refine wp_seq_attempt (R := fun _ w'' => w'' = w') (E := fun _ w'' => w'' = w')
    (wp_tf (fun _ w'' hstep => hstep) fun _ _ hstep => hstep) (fun _ w'' hw'' => hw'') fun e w'' hw'' => ?_
  obtain rfl := hw''
  cases e with
  | os permission text =>
      cases permission with
      | true =>
          refine wp_seq (wp_tf (fun (same : Bool) w' hstep => (show w' = w'' from hstep)) fun _ _ hstep => hstep)
            fun (same : Bool) w' hw' => ?_
          cases same <;> exact hw'
      | false => rfl
  | runtime message => rfl
  | value => rfl
  | process text => rfl

theorem pushState_spec (statePath : TerraformPath) (w : Terraform) :
    wp terraformStep (pushState statePath)
      ⟨fun _ w' => ∃ content, w.files statePath = some content ∧ w' = w.push content, fun _ w' => w' = w, fun _ => True⟩
      w := by
  refine wp_seq_attempt (R := fun _ w' => ∃ content, w.files statePath = some content ∧ w' = w.push content)
    (E := fun _ w' => w' = w) (wp_tf (fun _ w' hstep => hstep) fun _ _ hstep => hstep) (fun _ w' hw' => hw')
    fun e w' hw' => ?_
  obtain rfl := hw'
  cases e <;> rfl

/-! ### The function -/

/-- The files have what is looked for, and these texts would be written; there are names for two temporary files. -/
structure Accepts (isWord : Char → Bool) (size : Nat) (w : Terraform) (stateText variablesText pushed written : Text) :
    Prop where
  state : w.files (.named .tfstate) = some stateText
  pushed : rewriteState size stateText = some pushed
  foundState : foundState stateText = true
  variablesTf : w.files (.named .variablesTf) = some variablesText
  written : rewriteVariables isWord size variablesText = some written
  foundVariables : foundVariables variablesText = true
  free : ∃ k₁ k₂, k₁ ≠ k₂ ∧ NoTemporaries k₁ k₂ w

def Terraform.updated (w : Terraform) (pushed written : Text) : Terraform :=
  (w.push pushed).setFile (.named .variablesTf) (some written)

/-- What an update leaves: all as it was, or the state pushed, or both files updated. -/
def updatePost (isWord : Char → Bool) (size : Nat) (w : Terraform) : Post Terraform TerraformError Bool where
  ret ok w' := ok = false ∧ w' = w ∨ ok = true ∧ ∃ stateText variablesText pushed written,
    Accepts isWord size w stateText variablesText pushed written ∧ w' = w.updated pushed written
  exc _ w' := w' = w ∨ ∃ stateText variablesText pushed written,
    Accepts isWord size w stateText variablesText pushed written ∧ (w' = w.push pushed ∨ w' = w.updated pushed written)
  cut _ := True

theorem withTemporaries_spec {isWord : Char → Bool} {size : Nat} {base : Terraform} (hbase : NoTemporaries k₁ k₂ base)
    (hne : k₁ ≠ k₂) (h : Beside k₁ k₂ base w) :
    wp steadyStep (withTemporaries isWord size (.temp k₁) (.temp k₂)) (updatePost isWord size base) w := by
  have hnamed : ∀ {w : Terraform} {file : TerraformFile}, Beside k₁ k₂ base w → w.files (.named file) = base.files (.named file) :=
    fun hw => hw.2 _ (by simp) (by simp)
  have hsame : ∀ {w : Terraform}, Beside k₁ k₂ base w → ∀ e, (updatePost isWord size base).exc e base := fun _ _ => .inl rfl
  refine wp_guarded (openState_spec _ w) rfl hbase (fun w' hw' => ⟨hw' ▸ h, .inl rfl⟩) (hsame h) fun stateText w' hread => ?_
  obtain ⟨rfl, hstate⟩ := hread
  rw [hnamed h] at hstate
  refine wp_guarded (writeState_spec size _ stateText w') rfl hbase (fun w'' hw'' => ⟨?_, .inl rfl⟩) (hsame h)
    fun _ w₁ hwritten => ?_
  · obtain rfl | ⟨part, rfl⟩ := hw''
    · exact h
    · exact h.setFirst _
  obtain ⟨pushed, hpushed, hfound, rfl⟩ := hwritten
  have h₁ := h.setFirst (some pushed)
  have hfirst : (w'.setFile (.temp k₁) (some pushed)).files (.temp k₁) = some pushed := Terraform.setFile_self
  generalize w'.setFile (.temp k₁) (some pushed) = w₁ at h₁ hfirst
  refine wp_guarded (openVariables_spec _ w₁) rfl hbase (fun w'' hw'' => ⟨hw'' ▸ h₁, .inl rfl⟩) (hsame h)
    fun variablesText w'' hread => ?_
  obtain ⟨rfl, hvariables⟩ := hread
  rw [hnamed h₁] at hvariables
  refine wp_guarded (writeVariables_spec isWord size _ variablesText w'') rfl hbase (fun w₂ hw₂ => ⟨?_, .inl rfl⟩) (hsame h)
    fun _ w₂ hwritten => ?_
  · obtain rfl | ⟨part, rfl⟩ := hw₂
    · exact h₁
    · exact h₁.setSecond _
  obtain ⟨written, hwrite, hfoundVariables, rfl⟩ := hwritten
  have haccepts : Accepts isWord size base stateText variablesText pushed written :=
    ⟨hstate, hpushed, hfound, hvariables, hwrite, hfoundVariables, k₁, k₂, hne, hbase⟩
  have h₂ := h₁.setSecond (some written)
  have hsecond : (w''.setFile (.temp k₂) (some written)).files (.temp k₂) = some written := Terraform.setFile_self
  have hstill : (w''.setFile (.temp k₂) (some written)).files (.temp k₁) = some pushed :=
    (Terraform.setFile_of_ne (by simpa using hne)).trans hfirst
  generalize w''.setFile (.temp k₂) (some written) = w₂ at h₂ hsecond hstill
  refine wp_guarded (takeOwner_spec _ w₂) rfl hbase (fun w₃ hw₃ => ⟨hw₃ ▸ h₂, .inl rfl⟩) (hsame h) fun _ w₃ hw₃ => ?_
  obtain rfl := hw₃
  refine wp_guarded (pushState_spec _ w₃) rfl hbase (fun w₄ hw₄ => ⟨hw₄ ▸ h₂, .inl rfl⟩) (hsame h) fun _ w₄ hpush => ?_
  obtain ⟨content, hcontent, rfl⟩ := hpush
  obtain rfl := Option.some.inj (hstill.symm.trans hcontent)
  have hpushBase := hbase.push pushed
  have h₄ := h₂.push pushed
  have hsecondPushed : (w₃.push pushed).files (.temp k₂) = some written :=
    (Terraform.push_of_ne (by simp)).trans hsecond
  generalize w₃.push pushed = w₄ at h₄ hsecondPushed
  refine wp_guarded (E := fun w' => w' = w₄) (R := fun _ w' => ∃ content, w₄.files (.temp k₂) = some content ∧
      w' = (w₄.setFile (.named .variablesTf) (some content)).setFile (.temp k₂) none)
    (wp_tf (fun _ _ hstep => hstep) fun _ _ hstep => hstep) rfl hpushBase (fun w₅ hw₅ => ⟨hw₅ ▸ h₄, .inl rfl⟩)
    (fun _ => .inr ⟨_, _, _, _, haccepts, .inl rfl⟩) fun _ w₅ hreplace => ?_
  obtain ⟨content, hcontent, rfl⟩ := hreplace
  obtain rfl := Option.some.inj (hsecondPushed.symm.trans hcontent)
  have hdone := hpushBase.setNamed .variablesTf (some written)
  have h₅ := (h₄.setNamed .variablesTf (some written)).setSecond none
  have hgone : ((w₄.setFile (.named .variablesTf) (some written)).setFile (.temp k₂) none).files (.temp k₂) = none :=
    Terraform.setFile_self
  generalize (w₄.setFile (.named .variablesTf) (some written)).setFile (.temp k₂) none = w₅ at h₅ hgone
  refine wp_guarded (E := fun w' => w' = w₅) (R := fun _ w' => w' = w₅)
    (wp_tf (fun _ _ hstep => hstep) fun _ _ hstep => hstep) rfl hdone (fun w₆ hw₆ => ⟨hw₆ ▸ h₅, .inr (hw₆ ▸ hgone)⟩)
    (fun _ => .inr ⟨_, _, _, _, haccepts, .inr rfl⟩) fun _ w₆ hw₆ => ?_
  obtain rfl := hw₆
  refine wp_seq (R := fun _ w' => w' = base.updated pushed written) (wp_mono (cleanUp_spec _ h₅ hdone (.inr hgone))
    (fun _ _ h => h) (fun _ _ hfalse => hfalse.elim) fun _ _ => trivial) fun _ w' hw' => ?_
  exact .inr ⟨rfl, _, _, _, _, haccepts, hw'⟩

/-- **What an update leaves**, where the second `mkstemp` and the cleanup do not raise. -/
theorem updateTFState_spec (isWord : Char → Bool) (inventoryPath : String) (size : Nat) (w : Terraform) :
    wp steadyStep (updateTFState isWord inventoryPath size) (updatePost isWord size w) w := by
  unfold updateTFState
  split
  · exact .inl ⟨rfl, rfl⟩
  refine wp_perform_seq trivial (fun (present : Bool) w' hstep => ?_) fun e w' hstep => .inl hstep.1
  obtain ⟨⟨-, rfl⟩, -⟩ := hstep
  cases present with
  | false => exact .inl rfl
  | true =>
      refine wp_perform_seq trivial (fun (present : Bool) w'' hstep => ?_) fun e w'' hstep => .inl hstep.1
      obtain ⟨⟨-, rfl⟩, -⟩ := hstep
      cases present with
      | false => exact .inl rfl
      | true =>
          refine wp_perform_seq trivial (fun statePath w₁ hstep => ?_) fun e w₁ hstep => .inl hstep.1
          obtain ⟨⟨hfirst, k₁, rfl, rfl⟩, -⟩ := hstep
          refine wp_perform_seq trivial (fun variablesPath w₂ hstep => ?_) fun e w₂ hstep => ?_
          · obtain ⟨⟨hsecond, k₂, rfl, rfl⟩, -⟩ := hstep
            have hne : Files.Path.temp k₂ ≠ (.temp k₁ : TerraformPath) := fun heq => by
              rw [heq, Terraform.setFile_self] at hsecond
              cases hsecond
            rw [Terraform.setFile_of_ne hne] at hsecond
            have hbeside : Beside k₁ k₂ w'' w'' := ⟨rfl, fun _ _ _ => rfl⟩
            exact withTemporaries_spec ⟨hfirst, hsecond⟩ (fun heq => hne (by rw [heq]))
              ((hbeside.setFirst _).setSecond _)
          · obtain ⟨a, ha⟩ := hstep.2 trivial
            cases ha

/-! ## A run that succeeds -/

theorem exec_tf {o : TerraformCall} {a : o.Ans} {w w' : Terraform} (h : terraformStep w o (.ok a) w') :
    Exec steadyStep (tf o) w (.done a) w' :=
  Exec.perform (show steadyStep w o (.ok a) w' from ⟨h, fun _ => ⟨a, rfl⟩⟩)

theorem exec_guarded {α β : Type} {cleanup : Prog terraformSig TerraformError Unit} {p : Prog terraformSig TerraformError α}
    {next : α → Prog terraformSig TerraformError β} {a : α} {w w₁ w₂ : Terraform} {outcome : Outcome TerraformError β}
    (hp : Exec steadyStep p w (.done a) w₁) (hnext : Exec steadyStep (next a) w₁ outcome w₂) :
    Exec steadyStep (guarded cleanup p next) w outcome w₂ := (Exec.attempt hp).bind hnext

theorem exec_unlinkTemporary (path : TerraformPath) (w : Terraform) :
    ∃ w', Exec steadyStep (unlinkTemporary path) w (.done ()) w' := by
  cases hpath : (w.files path).isSome with
  | true =>
      exact ⟨_, (exec_tf (show terraformStep w (.exists path) (.ok true) w from ⟨hpath.symm, rfl⟩)).bind
        (exec_tf (show terraformStep w (.unlink path) (.ok ()) _ from rfl))⟩
  | false =>
      exact ⟨w, (exec_tf (show terraformStep w (.exists path) (.ok false) w from ⟨hpath.symm, rfl⟩)).bind .ret⟩

theorem exec_writeTemporary {path : TerraformPath} {written : Text} {e : TerraformError} {found : Bool} (w : Terraform)
    (hfound : found = true) :
    Exec steadyStep ((tf (.write path written)).bind fun _ =>
      (tf (.touch "os.fsync" path)).bind fun _ => if found then .ret () else .throw e) w (.done ())
      (w.setFile path (some written)) := by
  subst hfound
  exact (exec_tf (show terraformStep w (.write path written) (.ok ()) _ from rfl)).bind
    ((exec_tf (show terraformStep _ (.touch "os.fsync" path) (.ok ()) _ from rfl)).bind .ret)

/-- **An update that is accepted can be made.** -/
theorem exists_updateTFState {isWord : Char → Bool} {inventoryPath : String} {size : Nat}
    {stateText variablesText pushed written : Text} (hpath : inventoryPath ≠ "/etc/ansible/hosts")
    (h : Accepts isWord size w stateText variablesText pushed written) :
    ∃ next, Exec steadyStep (updateTFState isWord inventoryPath size) w (.done true) next := by
  obtain ⟨k₁, k₂, hne, hfree⟩ := h.free
  have hne' : Files.Path.temp k₂ ≠ (.temp k₁ : TerraformPath) := fun heq => hne (Files.Path.temp.inj heq).symm
  have hstate : (w.files (.named .tfstate)).isSome = true := by rw [h.state]; rfl
  have hvariables : (w.files (.named .variablesTf)).isSome = true := by rw [h.variablesTf]; rfl
  -- the files after each part of the `try`
  let w₁ := w.setFile (.temp k₁) (some [])
  let w₂ := w₁.setFile (.temp k₂) (some [])
  let w₃ := w₂.setFile (.temp k₁) (some pushed)
  let w₄ := w₃.setFile (.temp k₂) (some written)
  let w₅ := w₄.push pushed
  let w₆ := (w₅.setFile (.named .variablesTf) (some written)).setFile (.temp k₂) none
  have hnamed₂ : ∀ file, w₂.files (.named file) = w.files (.named file) := fun file =>
    (Terraform.setFile_of_ne (by simp)).trans (Terraform.setFile_of_ne (by simp))
  have hnamed₃ : ∀ file, w₃.files (.named file) = w.files (.named file) := fun file =>
    (Terraform.setFile_of_ne (by simp)).trans (hnamed₂ file)
  have hfirst : w₄.files (.temp k₁) = some pushed :=
    (Terraform.setFile_of_ne (Ne.symm hne')).trans Terraform.setFile_self
  have hsecond : w₅.files (.temp k₂) = some written := (Terraform.push_of_ne (by simp)).trans Terraform.setFile_self
  have hopen : Exec steadyStep (openState (.temp k₁)) w₂ (.done stateText) w₂ :=
    (exec_tf (show terraformStep w₂ (.read .tfstate) (.ok stateText) w₂ from ⟨(hnamed₂ _).trans h.state, rfl⟩)).bind
      ((exec_tf (show terraformStep w₂ (.fdopen (.temp k₁)) (.ok ()) w₂ from rfl)).bind .ret)
  have hwrite : Exec steadyStep (writeState size (.temp k₁) stateText) w₂ (.done ()) w₃ := by
    rw [writeState, h.pushed]
    exact exec_writeTemporary w₂ h.foundState
  have hopen' : Exec steadyStep (openVariables (.temp k₂)) w₃ (.done variablesText) w₃ :=
    (exec_tf (show terraformStep w₃ (.touch "os.stat" (.named .variablesTf)) (.ok ()) w₃ from rfl)).bind
      ((exec_tf (show terraformStep w₃ (.read .variablesTf) (.ok variablesText) w₃ from
        ⟨(hnamed₃ _).trans h.variablesTf, rfl⟩)).bind
        ((exec_tf (show terraformStep w₃ (.fdopen (.temp k₂)) (.ok ()) w₃ from rfl)).bind .ret))
  have hwrite' : Exec steadyStep (writeVariables isWord size (.temp k₂) variablesText) w₃ (.done ()) w₄ := by
    rw [writeVariables, h.written]
    exact exec_writeTemporary w₃ h.foundVariables
  have howner : Exec steadyStep (takeOwner (.temp k₂)) w₄ (.done ()) w₄ :=
    (exec_tf (show terraformStep w₄ (.touch "os.chmod" (.temp k₂)) (.ok ()) w₄ from rfl)).bind
      ((Exec.attempt (exec_tf (show terraformStep w₄ (.touch "os.chown" (.temp k₂)) (.ok ()) w₄ from rfl))).bind .ret)
  have hpush : Exec steadyStep (pushState (.temp k₁)) w₄ (.done ()) w₅ :=
    (Exec.attempt (exec_tf (show terraformStep w₄ (.push (.temp k₁)) (.ok ()) w₅ from ⟨pushed, hfirst, rfl⟩))).bind .ret
  have hreplace : Exec steadyStep (tf (.replace (.temp k₂) .variablesTf)) w₅ (.done ()) w₆ :=
    exec_tf (show terraformStep w₅ (.replace (.temp k₂) .variablesTf) (.ok ()) w₆ from ⟨written, hsecond, rfl⟩)
  have hsync : Exec steadyStep (tf .fsyncDirectory) w₆ (.done ()) w₆ :=
    exec_tf (show terraformStep w₆ .fsyncDirectory (.ok ()) w₆ from rfl)
  obtain ⟨next, hunlink⟩ := exec_unlinkTemporary (.temp k₁) w₆
  have hclean : Exec steadyStep (cleanUp ⟨false, false, false⟩ (.temp k₁) (.temp k₂)) w₆ (.done ()) next :=
    Exec.bind .ret (Exec.bind .ret (hunlink.bind .ret))
  have htry : Exec steadyStep (withTemporaries isWord size (.temp k₁) (.temp k₂)) w₂ (.done true) next :=
    exec_guarded hopen (exec_guarded hwrite (exec_guarded hopen' (exec_guarded hwrite' (exec_guarded howner
      (exec_guarded hpush (exec_guarded hreplace (exec_guarded hsync (hclean.bind .ret))))))))
  refine ⟨next, ?_⟩
  rw [updateTFState, if_neg hpath]
  refine (exec_tf (show terraformStep w (.isFile .tfstate) (.ok true) w from ⟨hstate.symm, rfl⟩)).bind ?_
  refine (exec_tf (show terraformStep w (.isFile .variablesTf) (.ok true) w from ⟨hvariables.symm, rfl⟩)).bind ?_
  refine (exec_tf (show terraformStep w (.mkstemp .tfstate) (.ok (.temp k₁)) w₁ from ⟨hfree.first, k₁, rfl, rfl⟩)).bind ?_
  refine (exec_tf (show terraformStep w₁ (.mkstemp .variablesTf) (.ok (.temp k₂)) w₂ from
    ⟨(Terraform.setFile_of_ne hne').trans hfree.second, k₂, rfl, rfl⟩)).bind ?_
  exact htry

end

/-! ## Atomic and repeatable -/

structure PlainFiles (w : Terraform) : Prop where
  state : ∀ text, w.files (.named .tfstate) = some text → PlainState text
  variablesTf : ∀ text, w.files (.named .variablesTf) = some text → '\r' ∉ text

/-- What is promised of an update to `size` that ends so. -/
structure AtomicUpdate (isWord : Char → Bool) (inventoryPath : String) (size : Nat) (w : Terraform)
    (outcome : Outcome TerraformError Bool) (w' : Terraform) : Prop where
  /-- Where no state was pushed all files are as they were, and there is no file more. -/
  unpushed : w'.pushed = w.pushed → w' = w
  /-- Where it succeeds the two files differ in their numbers. -/
  succeeded : outcome = .done true → ∃ stateText variablesText pushed written,
    w.files (.named .tfstate) = some stateText ∧ w.files (.named .variablesTf) = some variablesText ∧
      w' = w.updated pushed written ∧ Updated (StateLineUpdated size) stateText pushed ∧
      Updated (VariablesLineUpdated size) variablesText written
  /-- Another update can be made of what it leaves. -/
  accepted : w'.pushed ≠ w.pushed → ∀ later, ∃ next,
    Exec steadyStep (updateTFState isWord inventoryPath later) w' (.done true) next
  /-- And it leaves what it would have left without this one, the serial apart. -/
  again : ∀ later next direct, Exec steadyStep (updateTFState isWord inventoryPath later) w' (.done true) next →
    Exec steadyStep (updateTFState isWord inventoryPath later) w (.done true) direct →
    next.files (.named .variablesTf) = direct.files (.named .variablesTf) ∧
      ∃ text text', next.files (.named .tfstate) = some text ∧ direct.files (.named .tfstate) = some text' ∧
        List.Forall₂ SameButSerial (fileLines text) (fileLines text')

section
variable {isWord : Char → Bool} {inventoryPath : String} {size : Nat} {w w' : Terraform}
  {stateText variablesText pushed written : Text}

theorem Terraform.updated_state : (w.updated pushed written).files (.named .tfstate) = some pushed :=
  (Terraform.setFile_of_ne (by simp)).trans Terraform.push_state

theorem Terraform.updated_variablesTf : (w.updated pushed written).files (.named .variablesTf) = some written :=
  Terraform.setFile_self

theorem pushed_ne (h : w'.pushed = w.pushed ++ [pushed]) : w'.pushed ≠ w.pushed := fun heq => by
  rw [heq] at h
  simpa using congrArg List.length h

theorem exec_updateTFState {outcome : Outcome TerraformError Bool}
    (h : Exec steadyStep (updateTFState isWord inventoryPath size) w outcome w') (hends : outcome ≠ .cut) :
    outcome ≠ .done true ∧ w' = w ∨ ∃ stateText variablesText pushed written,
      Accepts isWord size w stateText variablesText pushed written ∧
        (outcome ≠ .done true ∧ w' = w.push pushed ∨ w' = w.updated pushed written) := by
  have hpost := Exec.of_wp h (updateTFState_spec isWord inventoryPath size w)
  cases outcome with
  | cut => exact absurd rfl hends
  | done ok =>
      obtain ⟨rfl, rfl⟩ | ⟨rfl, s, v, p, t, haccepts, rfl⟩ := hpost
      · exact .inl ⟨by simp, rfl⟩
      · exact .inr ⟨s, v, p, t, haccepts, .inr rfl⟩
  | raised e =>
      obtain rfl | ⟨s, v, p, t, haccepts, rfl | rfl⟩ := hpost
      · exact .inl ⟨by simp, rfl⟩
      · exact .inr ⟨s, v, p, t, haccepts, .inl ⟨by simp, rfl⟩⟩
      · exact .inr ⟨s, v, p, t, haccepts, .inr rfl⟩

theorem files_of_exec {next : Terraform}
    (h : Exec steadyStep (updateTFState isWord inventoryPath size) w (.done true) next) :
    ∃ stateText variablesText pushed written, Accepts isWord size w stateText variablesText pushed written ∧
      next.files (.named .tfstate) = some pushed ∧ next.files (.named .variablesTf) = some written := by
  obtain ⟨hne, -⟩ | ⟨s, v, p, t, haccepts, ⟨hne, -⟩ | rfl⟩ := exec_updateTFState h (by simp)
  · exact absurd rfl hne
  · exact absurd rfl hne
  · exact ⟨s, v, p, t, haccepts, Terraform.updated_state, Terraform.updated_variablesTf⟩

theorem sameButSerial_refl (lines : List Text) : List.Forall₂ SameButSerial lines lines :=
  List.forall₂_same.mpr fun _ _ => .inl rfl

/-- After the push, with the variables replaced or not, the next update is accepted and writes what it would have written
before. -/
theorem Accepts.again (h : Accepts isWord size w stateText variablesText pushed written) (hplain : PlainFiles w)
    (hw' : w' = w.push pushed ∨ w' = w.updated pushed written) (later : Nat) :
    ∃ state' variables' next next' direct, Accepts isWord later w' state' variables' next next' ∧
      Accepts isWord later w stateText variablesText direct next' ∧
        List.Forall₂ SameButSerial (fileLines next) (fileLines direct) := by
  obtain ⟨hfound, next, direct, hnext, hdirect, hsame⟩ :=
    rewriteState_again (hplain.state _ h.state) h.foundState h.pushed later
  obtain ⟨hfoundVariables, next', hnext', hdirect'⟩ := rewriteVariables_again h.foundVariables h.written later
  obtain ⟨k₁, k₂, hne, hfree⟩ := h.free
  have hold : Accepts isWord later w stateText variablesText direct next' :=
    ⟨h.state, hdirect, h.foundState, h.variablesTf, hdirect', h.foundVariables, h.free⟩
  obtain rfl | rfl := hw'
  · exact ⟨pushed, variablesText, next, next', direct, ⟨Terraform.push_state, hnext, hfound,
      (Terraform.push_of_ne (by simp)).trans h.variablesTf, hdirect', h.foundVariables, k₁, k₂, hne, hfree.push pushed⟩,
      hold, hsame⟩
  · exact ⟨pushed, written, next, next', direct, ⟨Terraform.updated_state, hnext, hfound, Terraform.updated_variablesTf,
      hnext', hfoundVariables, k₁, k₂, hne, (hfree.push pushed).setNamed _ _⟩, hold, hsame⟩

theorem Accepts.unique {stateText' variablesText' pushed' written' : Text}
    (h : Accepts isWord size w stateText variablesText pushed written)
    (h' : Accepts isWord size w stateText' variablesText' pushed' written') : pushed = pushed' ∧ written = written' := by
  obtain rfl := Option.some.inj (h.state.symm.trans h'.state)
  obtain rfl := Option.some.inj (h.variablesTf.symm.trans h'.variablesTf)
  exact ⟨Option.some.inj (h.pushed.symm.trans h'.pushed), Option.some.inj (h.written.symm.trans h'.written)⟩

/-- **An update is atomic and repeatable**, where the files are plain, the second temporary file can be made and the
cleanup does not raise. -/
theorem updateTFState_atomic {outcome : Outcome TerraformError Bool} (hplain : PlainFiles w)
    (hrun : Exec steadyStep (updateTFState isWord inventoryPath size) w outcome w') (hends : outcome ≠ .cut) :
    AtomicUpdate isWord inventoryPath size w outcome w' := by
  obtain ⟨hne, rfl⟩ | ⟨stateText, variablesText, pushed, written, haccepts, hw'⟩ := exec_updateTFState hrun hends
  · refine ⟨fun _ => rfl, fun hdone => absurd hdone hne, fun hpushed => absurd rfl hpushed,
      fun later next direct hnext hdirect => ?_⟩
    obtain ⟨s, v, p, t, hfirst, hp, ht⟩ := files_of_exec hnext
    obtain ⟨s', v', p', t', hsecond, hp', ht'⟩ := files_of_exec hdirect
    obtain ⟨rfl, rfl⟩ := hfirst.unique hsecond
    exact ⟨ht.trans ht'.symm, p, p, hp, hp', sameButSerial_refl _⟩
  · have hforms : w' = w.push pushed ∨ w' = w.updated pushed written := hw'.imp_left And.right
    have hpushed : w'.pushed ≠ w.pushed := by
      obtain rfl | rfl := hforms
      · exact pushed_ne rfl
      · exact pushed_ne rfl
    have hpath : inventoryPath ≠ "/etc/ansible/hosts" := fun heq => by
      rw [updateTFState, if_pos heq] at hrun
      cases hrun
      exact hpushed rfl
    refine ⟨fun hsame => absurd hsame hpushed, fun hdone => ?_, fun _ later => ?_, fun later next direct hnext hdirect => ?_⟩
    · obtain ⟨hne, -⟩ | rfl := hw'
      · exact absurd hdone hne
      · exact ⟨stateText, variablesText, pushed, written, haccepts.state, haccepts.variablesTf, rfl,
          rewriteState_spec (hplain.state _ haccepts.state) haccepts.pushed,
          rewriteVariables_spec (hplain.variablesTf _ haccepts.variablesTf) haccepts.written⟩
    · obtain ⟨_, _, _, _, _, hlater, -, -⟩ := haccepts.again hplain hforms later
      exact exists_updateTFState hpath hlater
    · obtain ⟨_, _, p, t, p', hlater, halone, hsame⟩ := haccepts.again hplain hforms later
      obtain ⟨_, _, _, _, hfirst, hp, ht⟩ := files_of_exec hnext
      obtain ⟨_, _, _, _, hsecond, hp', ht'⟩ := files_of_exec hdirect
      obtain ⟨rfl, rfl⟩ := hlater.unique hfirst
      obtain ⟨rfl, rfl⟩ := halone.unique hsecond
      exact ⟨ht.trans ht'.symm, p, p', hp, hp', hsame⟩

end

/-! ## The variables, whatever raises -/

/-- The variables of the cluster, with the number of its nodes. -/
def Terraform.variablesTf (w : Terraform) : Option Text := w.files (.named .variablesTf)

def Rewritten (isWord : Char → Bool) (size : Nat) (before after : Option Text) : Prop :=
  ∃ text written, before = some text ∧ rewriteVariables isWord size text = some written ∧ foundVariables text = true ∧
    after = some written

/-- What an update that returns makes of the variables. -/
def Recounted (isWord : Char → Bool) (inventoryPath : String) (size : Nat) (before after : Option Text) : Prop :=
  if inventoryPath = "/etc/ansible/hosts" then after = before else Rewritten isWord size before after

/-- A call that leaves the variables as they are. -/
def TerraformCall.Aside : TerraformCall → Prop
  | .write path _ | .unlink path => ∃ k, path = .temp k
  | .replace .. => False
  | _ => True

section
variable {isWord : Char → Bool} {size : Nat} {k₁ k₂ : Nat} {w w' : Terraform}

theorem variablesTf_setTemp (k : Nat) (content : Option Text) : (w.setFile (.temp k) content).variablesTf = w.variablesTf :=
  Terraform.setFile_of_ne (by simp)

theorem variablesTf_push (content : Text) : (w.push content).variablesTf = w.variablesTf := Terraform.push_of_ne (by simp)

theorem variablesTf_of_aside {o : TerraformCall} {answer : Except TerraformError o.Ans} (ho : o.Aside)
    (h : terraformStep w o answer w') : w'.variablesTf = w.variablesTf := by
  have hsame : w' = w → w'.variablesTf = w.variablesTf := fun heq => heq ▸ rfl
  cases o with
  | write path content =>
    obtain ⟨k, rfl⟩ := ho
    cases answer with
    | ok _ => exact (show w' = _ from h) ▸ variablesTf_setTemp k _
    | error e =>
      obtain ⟨part, rfl⟩ := h
      exact variablesTf_setTemp k _
  | unlink path =>
    obtain ⟨k, rfl⟩ := ho
    cases answer with
    | ok _ => exact (show w' = _ from h) ▸ variablesTf_setTemp k _
    | error e => exact hsame h
  | mkstemp file =>
    cases answer with
    | ok path =>
      obtain ⟨-, k, rfl, rfl⟩ := h
      exact variablesTf_setTemp k _
    | error e => exact hsame h
  | push path =>
    cases answer with
    | ok _ =>
      obtain ⟨content, -, rfl⟩ := h
      exact variablesTf_push content
    | error e => exact hsame h
  | replace path file => exact ho.elim
  | isFile file | read file | «exists» path =>
    cases answer with
    | ok found => exact hsame h.2
    | error e => exact hsame h
  | fdopen path | touch operation path | sameOwner | fsyncDirectory | close file => cases answer <;> exact hsame h

theorem calls_cleanUp (held : Held) : (cleanUp held (.temp k₁) (.temp k₂)).Calls TerraformCall.Aside := by
  have hunlink : ∀ k, (unlinkTemporary (.temp k)).Calls TerraformCall.Aside := fun k => by
    refine Calls.bind (calls_perform trivial) fun (present : Bool) => ?_
    cases present with
    | true => exact calls_perform ⟨k, rfl⟩
    | false => trivial
  have hclose : ∀ (held : Bool) file, (if held then tf (.close file) else .ret () :
      Prog terraformSig TerraformError Unit).Calls TerraformCall.Aside := fun held file => by
    cases held with
    | true => exact calls_perform trivial
    | false => trivial
  refine (hclose _ _).bind fun _ => (hclose _ _).bind fun _ => (hunlink k₁).bind fun _ => ?_
  split
  · exact hunlink k₂
  · trivial

/-- A part of the `try`: where it raises, the variables are what they were. -/
theorem wp_guarded_variables {α β : Type} {held : Held} {p : Prog terraformSig TerraformError α}
    {next : α → Prog terraformSig TerraformError β} {Q : Post Terraform TerraformError β} {R : α → Terraform → Prop}
    {E : Terraform → Prop} {found : Option Text} (hp : wp terraformStep p ⟨R, fun _ => E, fun _ => True⟩ w)
    (hcut : Q.cut = fun _ => True) (hfail : ∀ w', E w' → w'.variablesTf = found)
    (hexc : ∀ e w', w'.variablesTf = found → Q.exc e w') (hnext : ∀ a w', R a w' → wp terraformStep (next a) Q w') :
    wp terraformStep (guarded (cleanUp held (.temp k₁) (.temp k₂)) p next) Q w := by
  refine wp_seq_attempt (R := R) (E := fun _ => E) (hcut ▸ hp) hnext fun e w' he => ?_
  have hclean : Keeps terraformStep (fun w => w.variablesTf = found) (cleanUp held (.temp k₁) (.temp k₂)) :=
    keeps_of_calls (calls_cleanUp held) fun _ _ _ _ ho hw hstep => (variablesTf_of_aside ho hstep).trans hw
  refine wp_seq (R := fun _ w'' => w''.variablesTf = found) ?_ fun _ w'' hw'' => hexc e w'' hw''
  exact wp_mono (hclean w' (hfail w' he)) (fun _ _ h => h) (fun e _ h => hexc e _ h) fun _ _ => hcut ▸ trivial

theorem withTemporaries_variables :
    wp terraformStep (withTemporaries isWord size (.temp k₁) (.temp k₂))
      ⟨fun _ w' => Rewritten isWord size w.variablesTf w'.variablesTf,
        fun _ w' => w'.variablesTf = w.variablesTf ∨ Rewritten isWord size w.variablesTf w'.variablesTf,
        fun _ => True⟩ w := by
  refine wp_guarded_variables (openState_spec _ w) rfl (fun w' hw' => hw' ▸ rfl) (fun _ _ => .inl)
    fun stateText w₁ hread => ?_
  obtain ⟨rfl, -⟩ := hread
  refine wp_guarded_variables (writeState_spec size _ stateText w₁) rfl (fun w' hw' => ?_) (fun _ _ => .inl)
    fun _ w₂ hwritten => ?_
  · obtain rfl | ⟨part, rfl⟩ := hw'
    · rfl
    · exact variablesTf_setTemp k₁ _
  obtain ⟨pushed, -, -, rfl⟩ := hwritten
  have hfound : (w₁.setFile (.temp k₁) (some pushed)).variablesTf = w₁.variablesTf := variablesTf_setTemp k₁ _
  generalize w₁.setFile (.temp k₁) (some pushed) = w₂ at hfound
  rw [← hfound]
  refine wp_guarded_variables (openVariables_spec _ w₂) rfl (fun w' hw' => hw' ▸ rfl) (fun _ _ => .inl)
    fun variablesText w₃ hread => ?_
  obtain ⟨rfl, htext⟩ := hread
  refine wp_guarded_variables (writeVariables_spec isWord size _ variablesText w₃) rfl (fun w' hw' => ?_) (fun _ _ => .inl)
    fun _ w₄ hwritten => ?_
  · obtain rfl | ⟨part, rfl⟩ := hw'
    · rfl
    · exact variablesTf_setTemp k₂ _
  obtain ⟨written, hwrite, hline, rfl⟩ := hwritten
  have hrewritten : Rewritten isWord size w₃.variablesTf (some written) :=
    ⟨variablesText, written, htext, hwrite, hline, rfl⟩
  have hsame : (w₃.setFile (.temp k₂) (some written)).variablesTf = w₃.variablesTf := variablesTf_setTemp k₂ _
  have hsecond : (w₃.setFile (.temp k₂) (some written)).files (.temp k₂) = some written := Terraform.setFile_self
  generalize w₃.setFile (.temp k₂) (some written) = w₄ at hsame hsecond
  refine wp_guarded_variables (takeOwner_spec _ w₄) rfl (fun w' hw' => hw' ▸ hsame) (fun _ _ => .inl) fun _ w₅ hw₅ => ?_
  obtain rfl := hw₅
  refine wp_guarded_variables (pushState_spec _ w₅) rfl (fun w' hw' => hw' ▸ hsame) (fun _ _ => .inl) fun _ w₆ hpush => ?_
  obtain ⟨content, -, rfl⟩ := hpush
  have hpushed : (w₅.push content).variablesTf = w₃.variablesTf := (variablesTf_push content).trans hsame
  have hkept : (w₅.push content).files (.temp k₂) = some written := (Terraform.push_of_ne (by simp)).trans hsecond
  generalize w₅.push content = w₆ at hpushed hkept
  refine wp_guarded_variables (E := fun w' => w' = w₆) (R := fun _ w' => w'.variablesTf = some written)
    (wp_tf (fun _ w' hreplace => ?_) fun _ _ hstep => hstep) rfl (fun w' hw' => hw' ▸ hpushed) (fun _ _ => .inl)
    fun _ w₇ hw₇ => ?_
  · obtain ⟨replaced, hreplaced, rfl⟩ := hreplace
    obtain rfl := Option.some.inj (hkept.symm.trans hreplaced)
    exact (variablesTf_setTemp k₂ none).trans Terraform.setFile_self
  refine wp_guarded_variables (E := fun w' => w' = w₇) (R := fun _ w' => w' = w₇)
    (wp_tf (fun _ _ hstep => hstep) fun _ _ hstep => hstep) rfl (fun w' hw' => hw' ▸ hw₇)
    (fun _ _ hw' => .inr (hw' ▸ hrewritten)) fun _ w₈ hw₈ => ?_
  obtain rfl := hw₈
  have hclean : Keeps terraformStep (fun w => w.variablesTf = some written)
      (cleanUp ⟨false, false, false⟩ (.temp k₁) (.temp k₂)) :=
    keeps_of_calls (calls_cleanUp _) fun _ _ _ _ ho hw hstep => (variablesTf_of_aside ho hstep).trans hw
  have hdone : ∀ w' : Terraform, w'.variablesTf = some written → Rewritten isWord size w₃.variablesTf w'.variablesTf :=
    fun w' hw' => hw' ▸ hrewritten
  refine wp_seq (R := fun _ w' => w'.variablesTf = some written) ?_ fun _ w' hw' => hdone w' hw'
  exact wp_mono (hclean w₈ hw₇) (fun _ _ h => h) (fun _ w' h => .inr (hdone w' h)) fun _ _ => trivial

/-- **The variables have the old number of nodes or the new one**, whatever raises, and the new one where the update
returns. -/
theorem updateTFState_variables (isWord : Char → Bool) (inventoryPath : String) (size : Nat) (w : Terraform) :
    wp terraformStep (updateTFState isWord inventoryPath size)
      ⟨fun _ w' => Recounted isWord inventoryPath size w.variablesTf w'.variablesTf,
        fun _ w' => w'.variablesTf = w.variablesTf ∨ Recounted isWord inventoryPath size w.variablesTf w'.variablesTf,
        fun _ => True⟩ w := by
  unfold updateTFState
  split
  · rename_i hpath
    show Recounted isWord inventoryPath size w.variablesTf w.variablesTf
    rw [Recounted, if_pos hpath]
  rename_i hpath
  simp only [Recounted, if_neg hpath]
  refine wp_perform_seq trivial (fun (present : Bool) w₁ hstep => ?_) fun e w₁ hstep =>
    .inl (congrArg Terraform.variablesTf (show w₁ = w from hstep))
  obtain ⟨-, rfl⟩ := hstep
  split
  · exact .inl rfl
  refine wp_perform_seq trivial (fun (present : Bool) w₂ hstep => ?_) fun e w₂ hstep =>
    .inl (congrArg Terraform.variablesTf (show w₂ = w₁ from hstep))
  obtain ⟨-, rfl⟩ := hstep
  split
  · exact .inl rfl
  refine wp_perform_seq trivial (fun statePath w₃ hstep => ?_) fun e w₃ hstep =>
    .inl (congrArg Terraform.variablesTf (show w₃ = w₂ from hstep))
  obtain ⟨-, k₁, rfl, rfl⟩ := hstep
  refine wp_perform_seq trivial (fun variablesPath w₄ hstep => ?_) fun e w₄ hstep =>
    .inl ((congrArg Terraform.variablesTf (show w₄ = _ from hstep)).trans (variablesTf_setTemp k₁ _))
  obtain ⟨-, k₂, rfl, rfl⟩ := hstep
  have hsame := (variablesTf_setTemp (w := w₂.setFile (.temp k₁) (some [])) k₂ (some [])).trans
    (variablesTf_setTemp (w := w₂) k₁ (some []))
  have hspec := @withTemporaries_variables isWord size k₁ k₂
    ((w₂.setFile (.temp k₁) (some [])).setFile (.temp k₂) (some []))
  rwa [hsame] at hspec

theorem Rewritten.again {before between after direct : Option Text} (h : Rewritten isWord size before between)
    (hafter : Rewritten isWord size between after) (hdirect : Rewritten isWord size before direct) : after = direct := by
  obtain ⟨text, written, rfl, hwritten, hline, rfl⟩ := h
  obtain ⟨text', written', htext, hafter, -, rfl⟩ := hafter
  obtain ⟨text'', written'', htext', hdirect, -, rfl⟩ := hdirect
  obtain rfl := Option.some.inj htext
  obtain rfl := Option.some.inj htext'
  obtain ⟨-, next, hnext, hnext'⟩ := rewriteVariables_again hline hwritten size
  rw [Option.some.inj (hafter.symm.trans hnext), Option.some.inj (hdirect.symm.trans hnext')]

theorem Rewritten.unique {before after direct : Option Text} (hafter : Rewritten isWord size before after)
    (hdirect : Rewritten isWord size before direct) : after = direct := by
  obtain ⟨text, written, rfl, hafter, -, rfl⟩ := hafter
  obtain ⟨text', written', htext, hdirect, -, rfl⟩ := hdirect
  obtain rfl := Option.some.inj htext
  exact hafter.symm.trans hdirect

/-- An update that raised, and was made again, leaves what one update leaves. -/
theorem Recounted.again {inventoryPath : String} {before between after direct : Option Text}
    (h : between = before ∨ Recounted isWord inventoryPath size before between)
    (hafter : Recounted isWord inventoryPath size between after)
    (hdirect : Recounted isWord inventoryPath size before direct) : after = direct := by
  unfold Recounted at h hafter hdirect
  split at h
  · obtain rfl := or_self_iff.mp h
    rw [if_pos ‹_›] at hafter hdirect
    exact hafter.trans hdirect.symm
  · rw [if_neg ‹_›] at hafter hdirect
    obtain rfl | h := h
    · exact hafter.unique hdirect
    · exact h.again hafter hdirect

end

/-! ### Two pools, with the files of one cluster -/

def poolState : Text := "\x7b\n  \"serial\": 4,\n  \"resources\": [\n      \"size\": 2,\n  ]\n\x7d\n".toList

def poolVariables : Text := "variable \"node_count\" \x7b default = \"2\" \x7d\n".toList

def poolFiles : Terraform where
  files
    | .named .tfstate => some poolState
    | .named .variablesTf => some poolVariables
    | .temp _ => none
  pushed := []

theorem plainState_of_all {text : Text} (hreturn : '\r' ∉ text)
    (h : (fileLines text).all (fun line => [serialKey, sizeKey].all fun key =>
      (PyStr.int (numberText key line)).all fun n => strip (numberText key line) == strInt n) = true) : PlainState text := by
  have hline : ∀ line ∈ fileLines text, ∀ key ∈ [serialKey, sizeKey], PlainNumber key line := by
    intro line hline key hkey _ n hn
    have hall := List.all_eq_true.mp (List.all_eq_true.mp h line hline) key hkey
    rw [hn] at hall
    simpa using hall
  exact ⟨hreturn, fun line hmem => hline line hmem _ (by simp), fun line hmem => hline line hmem _ (by simp)⟩

theorem plainFiles_poolFiles : PlainFiles poolFiles := by
  refine ⟨fun text htext => ?_, fun text htext => ?_⟩
  · obtain rfl := Option.some.inj htext
    exact plainState_of_all (by decide +kernel) (by decide +kernel)
  · obtain rfl := Option.some.inj htext
    decide +kernel

theorem accepts_poolFiles : Accepts (fun _ => false) 1 poolFiles poolState poolVariables
    "\x7b\n  \"serial\": 5,\n  \"resources\": [\n      \"size\": 1,\n  ]\n\x7d\n".toList
    "variable \"node_count\" \x7b default = \"1\" \x7d\n".toList :=
  ⟨rfl, by decide +kernel, by decide +kernel, rfl, by decide +kernel, by decide +kernel, 0, 1, by decide, rfl, rfl⟩

theorem updateTFState_atomic_poolFiles : ∃ w', Exec steadyStep (updateTFState (fun _ => false) "hosts" 1) poolFiles
    (.done true) w' ∧ AtomicUpdate (fun _ => false) "hosts" 1 poolFiles (.done true) w' := by
  have hpath : "hosts" ≠ "/etc/ansible/hosts" := by decide
  obtain ⟨w', hrun⟩ := exists_updateTFState hpath accepts_poolFiles
  exact ⟨w', hrun, updateTFState_atomic plainFiles_poolFiles hrun (by simp)⟩

/-- Where the second `mkstemp` raises, the first temporary file remains. -/
theorem mkstemp_outside_try : ¬ ∀ (isWord : Char → Bool) (inventoryPath : String) (size : Nat) (w w' : Terraform)
    (outcome : Outcome TerraformError Bool), PlainFiles w →
      Exec terraformStep (updateTFState isWord inventoryPath size) w outcome w' → outcome ≠ .cut →
        AtomicUpdate isWord inventoryPath size w outcome w' := by
  intro h
  have hrun : Exec terraformStep (updateTFState (fun _ => false) "hosts" 1) poolFiles
      (.raised (.os false "No space left on device")) (poolFiles.setFile (.temp 0) (some [])) := by
    rw [updateTFState, if_neg (by decide)]
    refine .call (show terraformStep poolFiles (.isFile .tfstate) (.ok true) poolFiles from ⟨rfl, rfl⟩) ?_
    refine .call (show terraformStep poolFiles (.isFile .variablesTf) (.ok true) poolFiles from ⟨rfl, rfl⟩) ?_
    refine .call (show terraformStep poolFiles (.mkstemp .tfstate) (.ok (.temp 0)) _ from ⟨rfl, 0, rfl, rfl⟩) ?_
    refine .call (show terraformStep _ (.mkstemp .variablesTf) (.error (.os false "No space left on device")) _ from rfl) ?_
    exact .throw
  have hsame := (h _ _ _ _ _ _ plainFiles_poolFiles hrun (by simp)).unpushed rfl
  have hfile := congrArg (fun w => w.files (.temp 0)) hsame
  rw [Terraform.setFile_self] at hfile
  cases hfile

end OciHpc.Resize
