import OciHpc.Base.Interleave
import OciHpc.Base.Prog

/-!
# Programs that run side by side

Programs over the calls of one signature, interleaved before every call; the outside may tell them apart.

* `programs` : the machine whose processes are programs, an action being how the outside answers;
* `Answered` : the guard that the answer is one the outside may give;
* `programs_invariant` : what every call keeps holds in every configuration reached;
* `follow`, `reach_of_follow` : a schedule against an outside that is a function.
-/

namespace OciHpc.Interleave

variable {ι W ε α : Type} {S : Sig}

abbrev Outside (S : Sig) (ε W : Type) := W → (o : S.Call) → Except ε (S.Ans o) × W

/-- A process makes the next call of its program. -/
def programs (S : Sig) (ε W α : Type) : Machine W (Prog S ε α) (Outside S ε W) where
  step w p answer :=
    match p with
    | .ret _ => none
    | .throw _ => none
    | .call o k => some ((answer w o).2, k (answer w o).1)

/-- The outside `H` may answer so, and the call is one of those considered. -/
def Answered (H : ι → Handler S ε W) (G : W → ι → S.Call → Prop) :
    Machine.Guard ι W (Prog S ε α) (Outside S ε W) := fun c i answer =>
  ∀ o k, c.proc i = .call o k →
    G c.shared i o ∧ H i c.shared o (answer c.shared o).1 (answer c.shared o).2

theorem programs_step {w w' : W} {p p' : Prog S ε α} {answer : Outside S ε W}
    (h : (programs S ε W α).step w p answer = some (w', p')) :
    ∃ o k, p = .call o k ∧ w' = (answer w o).2 ∧ p' = k (answer w o).1 := by
  cases p with
  | ret a => cases h
  | throw e => cases h
  | call o k =>
      obtain ⟨rfl, rfl⟩ := Prod.mk.inj (Option.some.inj h)
      exact ⟨o, k, rfl, rfl, rfl⟩

variable [DecidableEq ι]

/-- **The invariant rule for programs.** -/
theorem programs_invariant {H : ι → Handler S ε W} {G : W → ι → S.Call → Prop} {c₀ c : Config ι W (Prog S ε α)}
    (Inv : Config ι W (Prog S ε α) → Prop) (init : Inv c₀)
    (keep : ∀ c i o k r w', Inv c → c.proc i = .call o k → G c.shared i o → H i c.shared o r w' →
      Inv ⟨w', Function.update c.proc i (k r)⟩)
    (h : (programs S ε W α).Reach (Answered H G) c₀ c) : Inv c := by
  refine Machine.Reach.invariant Inv init (fun c i answer w' p hinv hguard hstep => ?_) h
  obtain ⟨o, k, hcall, rfl, rfl⟩ := programs_step hstep
  obtain ⟨hG, hH⟩ := hguard o k hcall
  exact keep c i o k _ _ hinv hcall hG hH

/-- Process `i` makes its next call, if there is one and it is one of those considered. -/
def follow (answer : ι → Outside S ε W) (G : W → ι → S.Call → Prop) [∀ w i o, Decidable (G w i o)]
    (c : Config ι W (Prog S ε α)) (i : ι) : Option (Config ι W (Prog S ε α)) :=
  match c.proc i with
  | .ret _ => none
  | .throw _ => none
  | .call o k =>
      if G c.shared i o then
        some ⟨(answer i c.shared o).2, Function.update c.proc i (k (answer i c.shared o).1)⟩
      else none

theorem reach_of_follow {H : ι → Handler S ε W} {answer : ι → Outside S ε W} {G : W → ι → S.Call → Prop}
    [∀ w i o, Decidable (G w i o)] (hanswer : ∀ i w o, H i w o (answer i w o).1 (answer i w o).2)
    {c c' : Config ι W (Prog S ε α)} {schedule : List ι} (h : schedule.foldlM (follow answer G) c = some c') :
    (programs S ε W α).Reach (Answered H G) c c' := by
  induction schedule generalizing c with
  | nil =>
      obtain rfl : c = c' := Option.some.inj h
      exact Machine.Reach.refl
  | cons i rest ih =>
      rw [List.foldlM_cons] at h
      obtain ⟨c₁, hfirst, hrest⟩ := Option.bind_eq_some_iff.mp h
      refine Machine.Reach.trans ?_ (ih hrest)
      unfold follow at hfirst
      split at hfirst
      · cases hfirst
      · cases hfirst
      · rename_i o k hcall
        split at hfirst
        · rename_i hG
          refine Machine.Reach.refl.tail i (answer i) (fun o' k' hcall' => ?_) ?_
          · rw [hcall] at hcall'
            cases hcall'
            exact ⟨hG, hanswer i _ o⟩
          · rw [← hfirst, Machine.move, programs, hcall]
            rfl
        · cases hfirst

end OciHpc.Interleave
