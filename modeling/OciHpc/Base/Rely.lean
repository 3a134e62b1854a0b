import OciHpc.Base.Concurrent
import OciHpc.Base.Locked

/-!
# Programs that interfere

Programs over the calls of one signature run side by side. Each is verified by itself, against an outside that changes
the world before every call, in any way that a relation allows.

* `After` : the outside that answers once the others have changed the world;
* `programs_wp` : where every call is such a change, every program does what it does by itself;
* `reach_of_exec` : an execution of one program, while the others stand still.
-/

namespace OciHpc.Interleave
open Locked

variable {ι W ε α : Type} {S : Sig} {H : Handler S ε W} {R : W → W → Prop}

/-- The others have changed the world by `R` when the call is made. -/
def After (R : W → W → Prop) (H : Handler S ε W) : Handler S ε W := fun w o r w' => ∃ w₁, R w w₁ ∧ H w₁ o r w'

theorem absorbs_after (htrans : ∀ w w' w'', R w w' → R w' w'' → R w w'') : Absorbs (After R H) R := by
  rintro w w' o r w'' hw ⟨w₁, hw₁, hr⟩
  exact ⟨w₁, htrans w w' w₁ hw hw₁, hr⟩

variable [DecidableEq ι]

/-- **The rule of interference**: every program does what it does by itself, where the calls of each are changes that
the others allow for. -/
theorem programs_wp {Q : Post W ε α} {c₀ c : Config ι W (Prog S ε α)} (hrefl : ∀ w, R w w)
    (htrans : ∀ w w' w'', R w w' → R w' w'' → R w w'') (hstable : Stable R Q) (hret : ∀ a w, Q.ret a w → Q.cut w)
    (hexc : ∀ e w, Q.exc e w → Q.cut w) (hcall : ∀ w o r w', Q.cut w → Q.cut w' → H w o r w' → R w w')
    (hcut : Q.cut c₀.shared) (hprogs : ∀ i, (c₀.proc i).wp (After R H) Q c₀.shared)
    (h : (programs S ε W α).Reach (Answered (fun _ => H) fun _ _ _ => True) c₀ c) :
    Q.cut c.shared ∧ ∀ i, (c.proc i).wp (After R H) Q c.shared := by
  refine programs_invariant (fun c => Q.cut c.shared ∧ ∀ i, (c.proc i).wp (After R H) Q c.shared) ⟨hcut, hprogs⟩
    (fun c i o k r w' hinv hproc _ hr => ?_) h
  obtain ⟨hnow, hall⟩ := hinv
  have hcall' := hall i
  rw [hproc] at hcall'
  have hnext : (k r).wp (After R H) Q w' := hcall'.2 r w' ⟨c.shared, hrefl _, hr⟩
  have hthen : Q.cut w' := by
    cases hk : k r with
    | ret a =>
        rw [hk] at hnext
        exact hret a w' hnext
    | throw e =>
        rw [hk] at hnext
        exact hexc e w' hnext
    | call o' k' =>
        rw [hk] at hnext
        exact hnext.1
  refine ⟨hthen, fun j => ?_⟩
  by_cases hj : j = i
  · subst hj
    simpa only [Function.update_self] using hnext
  · simp only [Function.update_of_ne hj]
    exact wp_outside hstable (absorbs_after htrans) (hcall _ o r w' hnow hthen hr) (hall j)

open Classical in
noncomputable def answering (e : ε) (o : S.Call) (r : Except ε (S.Ans o)) (w' : W) : Outside S ε W := fun w o' =>
  if h : o = o' then (h ▸ r, w') else (.error e, w)

theorem answering_self (e : ε) (o : S.Call) (r : Except ε (S.Ans o)) (w w' : W) : answering e o r w' w o = (r, w') := by
  rw [answering, dif_pos rfl]

/-- An execution of one program, while the others stand still. -/
theorem reach_of_exec (e : ε) {p : Prog S ε α} {w w' : W} {out : Outcome ε α} (hexec : Exec H p w out w') (i : ι)
    (procs : ι → Prog S ε α) (hproc : procs i = p) :
    ∃ last, (programs S ε W α).Reach (Answered (fun _ => H) fun _ _ _ => True) ⟨w, procs⟩
      ⟨w', Function.update procs i last⟩ := by
  have hstill : ∀ w (procs : ι → Prog S ε α), ∃ last,
      (programs S ε W α).Reach (Answered (fun _ => H) fun _ _ _ => True) ⟨w, procs⟩ ⟨w, Function.update procs i last⟩ :=
    fun w procs => ⟨procs i, by rw [Function.update_eq_self]; exact .refl⟩
  induction hexec generalizing procs with
  | ret => exact hstill _ procs
  | throw => exact hstill _ procs
  | cut => exact hstill _ procs
  | @call o k w w₁ w₂ r out hr _ ih =>
      obtain ⟨last, hlast⟩ := ih (Function.update procs i (k r)) (Function.update_self ..)
      rw [Function.update_idem] at hlast
      refine ⟨last, Machine.Reach.trans ?_ hlast⟩
      refine Machine.Reach.refl.tail i (answering e o r w₁) (fun o' k' hcall => ?_) ?_
      · obtain ⟨rfl, -⟩ := Prog.call.inj (hproc.symm.trans hcall)
        rw [answering_self]
        exact ⟨trivial, hr⟩
      · rw [Machine.move, programs]
        simp only [hproc, answering_self, Option.map_some]

end OciHpc.Interleave
