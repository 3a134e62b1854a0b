import Mathlib.Logic.Relation
import OciHpc.Base.Prog

/-!
# Programs run under one lock

Any number of processes run programs that first ask for a lock, without waiting: a run that finds it taken ends at
once. So at most one run is under way, and its state is what is left of its program.

* `Locked.State`, `Locked.Step` : a world with the run under way, and what can happen: a run starts, makes a call,
  ends or is killed, another run is refused, or the world changes by itself;
* `Locked.Reach` : the states reached;
* `Locked.Reach.wp`, `Locked.Reach.invariant` : what every program keeps wherever it is cut off, and the outside
  keeps, holds in every state reached;
* `Locked.Reach.of_exec` : an execution of a program as a run.
-/

namespace OciHpc.Locked
variable {S : Sig} {ε α W : Type}

/-- The world, and what is left of the program that holds the lock. -/
structure State (S : Sig) (ε α W : Type) where
  world : W
  running : Option (Prog S ε α)

/-- One step: `body` are the programs that are run, `outside` what the world does by itself. -/
inductive Step (H : Handler S ε W) (outside : W → W → Prop) (body : Prog S ε α → Prop) :
    State S ε α W → State S ε α W → Prop
  | start {w : W} {p : Prog S ε α} : body p → Step H outside body ⟨w, none⟩ ⟨w, some p⟩
  | refused {w : W} {p : Prog S ε α} : Step H outside body ⟨w, some p⟩ ⟨w, some p⟩
  | call {w w' : W} {o : S.Call} {k : Except ε (S.Ans o) → Prog S ε α} {r : Except ε (S.Ans o)} :
      H w o r w' → Step H outside body ⟨w, some (.call o k)⟩ ⟨w', some (k r)⟩
  | returned {w : W} {a : α} : Step H outside body ⟨w, some (.ret a)⟩ ⟨w, none⟩
  | raised {w : W} {e : ε} : Step H outside body ⟨w, some (.throw e)⟩ ⟨w, none⟩
  | killed {w : W} {p : Prog S ε α} : Step H outside body ⟨w, some p⟩ ⟨w, none⟩
  | outside {w w' : W} {running : Option (Prog S ε α)} : outside w w' →
      Step H outside body ⟨w, running⟩ ⟨w', running⟩

/-- The states reached from one in which no run is under way. -/
def Reach (H : Handler S ε W) (outside : W → W → Prop) (body : Prog S ε α → Prop) (w : W) :
    State S ε α W → Prop :=
  Relation.ReflTransGen (Step H outside body) ⟨w, none⟩

variable {H : Handler S ε W} {outside : W → W → Prop} {body : Prog S ε α → Prop} {w₀ : W}

/-- However the program ends, or wherever it is cut off, `I` holds. -/
abbrev always (I : W → Prop) : Post W ε α := ⟨fun _ => I, fun _ => I, I⟩

/-- A change from outside leaves a postcondition as it is. -/
structure Stable (outside : W → W → Prop) (Q : Post W ε α) : Prop where
  ret : ∀ a w w', outside w w' → Q.ret a w → Q.ret a w'
  exc : ∀ e w w', outside w w' → Q.exc e w → Q.exc e w'
  cut : ∀ w w', outside w w' → Q.cut w → Q.cut w'

/-- Calls do not tell whether a change from outside came before them. -/
def Absorbs (H : Handler S ε W) (outside : W → W → Prop) : Prop :=
  ∀ w w' o r w'', outside w w' → H w' o r w'' → H w o r w''

/-- What a program will do it will do after a change from outside. -/
theorem wp_outside {Q : Post W ε α} (hstable : Stable outside Q) (habsorb : Absorbs H outside) {p : Prog S ε α}
    {w w' : W} (hw : outside w w') (h : p.wp H Q w) : p.wp H Q w' := by
  cases p with
  | ret a => exact hstable.ret a w w' hw h
  | throw e => exact hstable.exc e w w' hw h
  | call o k => exact ⟨hstable.cut w w' hw h.1, fun r w'' hr => h.2 r w'' (habsorb w w' o r w'' hw hr)⟩

/-- **The rule of runs**: what holds wherever a program is cut off holds in every state reached, and what is left of
a program still does what the program was to do. -/
theorem Reach.wp {Q : Post W ε α} (hinit : Q.cut w₀) (hbody : ∀ p, body p → ∀ w, Q.cut w → p.wp H Q w)
    (hret : ∀ a w, Q.ret a w → Q.cut w) (hexc : ∀ e w, Q.exc e w → Q.cut w) (hstable : Stable outside Q)
    (habsorb : Absorbs H outside) {s : State S ε α W} (h : Reach H outside body w₀ s) :
    Q.cut s.world ∧ ∀ p, s.running = some p → p.wp H Q s.world := by
  have hcut : ∀ p w, Prog.wp H p Q w → Q.cut w := by
    intro p w hp
    cases p with
    | ret a => exact hret a w hp
    | throw e => exact hexc e w hp
    | call o k => exact hp.1
  induction h with
  | refl => exact ⟨hinit, fun _ => nofun⟩
  | tail _ hstep ih =>
    obtain ⟨hI, hrun⟩ := ih
    cases hstep with
    | start hp =>
      refine ⟨hI, fun q hq => ?_⟩
      cases hq
      exact hbody _ hp _ hI
    | refused => exact ⟨hI, hrun⟩
    | call hr =>
      have hnext := (hrun _ rfl).2 _ _ hr
      refine ⟨hcut _ _ hnext, fun q hq => ?_⟩
      cases hq
      exact hnext
    | returned => exact ⟨hI, fun _ => nofun⟩
    | raised => exact ⟨hI, fun _ => nofun⟩
    | killed => exact ⟨hI, fun _ => nofun⟩
    | outside hout =>
      exact ⟨hstable.cut _ _ hout hI, fun q hq => wp_outside hstable habsorb hout (hrun q hq)⟩

/-- **The invariant rule.** -/
theorem Reach.invariant {I : W → Prop} (hinit : I w₀)
    (hbody : ∀ p, body p → ∀ w, I w → p.wp H (always I) w) (hkeep : ∀ w w', outside w w' → I w → I w')
    (habsorb : Absorbs H outside) {s : State S ε α W} (h : Reach H outside body w₀ s) : I s.world :=
  (h.wp (Q := always I) hinit hbody (fun _ _ h => h) (fun _ _ h => h)
    ⟨fun _ => hkeep, fun _ => hkeep, hkeep⟩ habsorb).1

/-- What is left of a program, run to its end. -/
theorem Reach.finish {p : Prog S ε α} {w w' : W} {out : Outcome ε α} (hexec : Exec H p w out w')
    (h : Reach H outside body w₀ ⟨w, some p⟩) : Reach H outside body w₀ ⟨w', none⟩ := by
  induction hexec with
  | ret => exact h.tail .returned
  | throw => exact h.tail .raised
  | cut => exact h.tail .killed
  | call hr _ ih => exact ih (h.tail (.call hr))

/-- An execution of a program, as a run. -/
theorem Reach.of_exec {w w' : W} {p : Prog S ε α} {out : Outcome ε α} (h : Reach H outside body w₀ ⟨w, none⟩)
    (hp : body p) (hexec : Exec H p w out w') : Reach H outside body w₀ ⟨w', none⟩ :=
  Reach.finish hexec (h.tail (.start hp))

/-- What is left of a program that is run against a function, whose answers are among those of the calls that pass. -/
theorem Reach.of_run {answer : W → (o : S.Call) → Except ε (S.Ans o) × W} (test : S.Call → Bool) {I : W → Prop}
    (hanswer : ∀ w o, I w → test o → H w o (answer w o).1 (answer w o).2 ∧ I (answer w o).2) {p : Prog S ε α} {w : W}
    (hI : I w) (hpass : p.passes answer test w) (h : Reach H outside body w₀ ⟨w, some p⟩) :
    Reach H outside body w₀ ⟨(p.run answer w).2, some (.ofExcept (p.run answer w).1)⟩ := by
  induction p generalizing w with
  | ret a => exact h
  | throw e => exact h
  | call o k ih =>
    unfold Prog.passes at hpass
    rw [Bool.and_eq_true] at hpass
    obtain ⟨hr, hI'⟩ := hanswer w o hI hpass.1
    exact ih _ hI' hpass.2 (h.tail (.call hr))

end OciHpc.Locked
