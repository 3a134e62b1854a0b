import Mathlib.Data.List.Basic

/-!
# Programs that call a fallible outside

* `Prog` : a program whose every call to the outside may fail; `bind`, `tryCatch` and `forEach`;
* `Exec` : the executions in a world, which may be cut off before any call;
* `Prog.wp` : the weakest precondition, with one postcondition for each way to end, and its rules;
* `Exec.of_wp` : `wp` is sound for the executions;
* `Prog.run` : the execution against an outside that is a function.
-/

namespace OciHpc

/-- The calls a program makes and the type of what each answers. -/
structure Sig where
  Call : Type
  Ans : Call → Type

/-- A program over the calls of `S` that returns an `α` or raises an `ε`. -/
inductive Prog (S : Sig) (ε α : Type) : Type
  | ret (a : α)
  | throw (e : ε)
  | call (o : S.Call) (k : Except ε (S.Ans o) → Prog S ε α)

/-- What the outside may answer a call, and the world it leaves. -/
abbrev Handler (S : Sig) (ε W : Type) := W → (o : S.Call) → Except ε (S.Ans o) → W → Prop

/-- How an execution ends; `cut` is before a call. -/
inductive Outcome (ε α : Type)
  | done (a : α)
  | raised (e : ε)
  | cut

namespace Prog
variable {S : Sig} {ε α β W : Type}

/-! ## Building programs -/

/-- One call, raising its error. -/
def perform (o : S.Call) : Prog S ε (S.Ans o) :=
  .call o fun
    | .ok a => .ret a
    | .error e => .throw e

def bind : Prog S ε α → (α → Prog S ε β) → Prog S ε β
  | .ret a, f => f a
  | .throw e, _ => .throw e
  | .call o k, f => .call o fun r => (k r).bind f

/-- `try: p except: h`. -/
def tryCatch : Prog S ε α → (ε → Prog S ε α) → Prog S ε α
  | .ret a, _ => .ret a
  | .throw e, h => h e
  | .call o k, h => .call o fun r => (k r).tryCatch h

instance : Monad (Prog S ε) where
  pure := .ret
  bind := bind

/-- `p` with its error as a value. -/
def attempt (p : Prog S ε α) : Prog S ε (Except ε α) :=
  tryCatch (p.bind fun a => .ret (.ok a)) fun e => .ret (.error e)

def ofExcept : Except ε α → Prog S ε α
  | .ok a => .ret a
  | .error e => .throw e

/-- The program with every call made by a program over other calls. -/
def via {T : Sig} (f : (o : S.Call) → Prog T ε (S.Ans o)) : Prog S ε α → Prog T ε α
  | .ret a => .ret a
  | .throw e => .throw e
  | .call o k => (f o).attempt.bind fun r => (k r).via f

/-- `try: p finally: cleanup`. -/
def withFinally (p : Prog S ε α) (cleanup : Prog S ε Unit) : Prog S ε α :=
  p.attempt.bind fun result => cleanup.bind fun _ => ofExcept result

/-- `for x in xs: acc = f(acc, x)`. -/
def forEach (f : β → α → Prog S ε β) : List α → β → Prog S ε β
  | [], acc => .ret acc
  | x :: xs, acc => (f acc x).bind fun acc' => forEach f xs acc'

theorem bind_assoc {γ : Type} (p : Prog S ε α) (f : α → Prog S ε β) (g : β → Prog S ε γ) :
    (p.bind f).bind g = p.bind fun a => (f a).bind g := by
  induction p with
  | ret a => rfl
  | throw e => rfl
  | call o k ih => exact congrArg (Prog.call o) (funext ih)

theorem forEach_append (f : β → α → Prog S ε β) (xs ys : List α) (acc : β) :
    forEach f (xs ++ ys) acc = (forEach f xs acc).bind (forEach f ys) := by
  induction xs generalizing acc with
  | nil => rfl
  | cons x xs ih =>
    show (f acc x).bind (forEach f (xs ++ ys)) = ((f acc x).bind (forEach f xs)).bind (forEach f ys)
    rw [bind_assoc]
    exact congrArg (f acc x).bind (funext ih)

end Prog

/-! ## Executions -/

/-- `Exec H p w out w'` : in the world `w` the program can end with `out`, leaving `w'`. -/
inductive Exec {S : Sig} {ε α W : Type} (H : Handler S ε W) : Prog S ε α → W → Outcome ε α → W → Prop
  | ret {a : α} {w : W} : Exec H (.ret a) w (.done a) w
  | throw {e : ε} {w : W} : Exec H (.throw e) w (.raised e) w
  | cut {o : S.Call} {k : Except ε (S.Ans o) → Prog S ε α} {w : W} : Exec H (.call o k) w .cut w
  | call {o : S.Call} {k : Except ε (S.Ans o) → Prog S ε α} {w w₁ w₂ : W} {r : Except ε (S.Ans o)}
      {out : Outcome ε α} : H w o r w₁ → Exec H (k r) w₁ out w₂ → Exec H (.call o k) w out w₂

structure Post (W ε α : Type) where
  ret : α → W → Prop
  exc : ε → W → Prop
  cut : W → Prop

def Post.holds {W ε α : Type} (Q : Post W ε α) : Outcome ε α → W → Prop
  | .done a, w => Q.ret a w
  | .raised e, w => Q.exc e w
  | .cut, w => Q.cut w

namespace Prog
variable {S : Sig} {ε α β W : Type} {H : Handler S ε W}

def wp (H : Handler S ε W) : Prog S ε α → Post W ε α → W → Prop
  | .ret a, Q, w => Q.ret a w
  | .throw e, Q, w => Q.exc e w
  | .call o k, Q, w => Q.cut w ∧ ∀ r w', H w o r w' → (k r).wp H Q w'

@[simp] theorem wp_ret (a : α) (Q : Post W ε α) (w : W) : wp H (.ret a) Q w = Q.ret a w := rfl

@[simp] theorem wp_throw (e : ε) (Q : Post W ε α) (w : W) : wp H (.throw e) Q w = Q.exc e w := rfl

@[simp] theorem wp_pure (a : α) (Q : Post W ε α) (w : W) : wp H (pure a) Q w = Q.ret a w := rfl

theorem wp_call (o : S.Call) (k : Except ε (S.Ans o) → Prog S ε α) (Q : Post W ε α) (w : W) :
    wp H (.call o k) Q w = (Q.cut w ∧ ∀ r w', H w o r w' → wp H (k r) Q w') := rfl

theorem wp_perform (o : S.Call) (Q : Post W ε (S.Ans o)) (w : W) :
    wp H (perform o) Q w ↔
      Q.cut w ∧ (∀ a w', H w o (.ok a) w' → Q.ret a w') ∧ ∀ e w', H w o (.error e) w' → Q.exc e w' := by
  constructor
  · rintro ⟨hc, h⟩
    exact ⟨hc, fun a w' ha => h (.ok a) w' ha, fun e w' he => h (.error e) w' he⟩
  · rintro ⟨hc, hok, herr⟩
    refine ⟨hc, fun r w' hr => ?_⟩
    cases r with
    | ok a => exact hok a w' hr
    | error e => exact herr e w' hr

@[simp] theorem wp_bind (p : Prog S ε α) (f : α → Prog S ε β) (Q : Post W ε β) (w : W) :
    wp H (p.bind f) Q w = wp H p ⟨fun a w' => wp H (f a) Q w', Q.exc, Q.cut⟩ w := by
  induction p generalizing w with
  | ret a => rfl
  | throw e => rfl
  | call o k ih => simp only [bind, wp_call, ih]

@[simp] theorem wp_monad_bind (p : Prog S ε α) (f : α → Prog S ε β) (Q : Post W ε β) (w : W) :
    wp H (p >>= f) Q w = wp H p ⟨fun a w' => wp H (f a) Q w', Q.exc, Q.cut⟩ w := wp_bind p f Q w

@[simp] theorem wp_tryCatch (p : Prog S ε α) (h : ε → Prog S ε α) (Q : Post W ε α) (w : W) :
    wp H (p.tryCatch h) Q w = wp H p ⟨Q.ret, fun e w' => wp H (h e) Q w', Q.cut⟩ w := by
  induction p generalizing w with
  | ret a => rfl
  | throw e => rfl
  | call o k ih => simp only [tryCatch, wp_call, ih]

@[simp] theorem wp_attempt (p : Prog S ε α) (Q : Post W ε (Except ε α)) (w : W) :
    wp H p.attempt Q w =
      wp H p ⟨fun a w' => Q.ret (.ok a) w', fun e w' => Q.ret (.error e) w', Q.cut⟩ w := by
  simp only [attempt, wp_tryCatch, wp_bind, wp_ret]

theorem wp_ofExcept (x : Except ε α) (Q : Post W ε α) (w : W) :
    wp H (ofExcept x) Q w = match x with
      | .ok a => Q.ret a w
      | .error e => Q.exc e w := by
  cases x <;> rfl

@[simp] theorem wp_ofExcept_ok (a : α) (Q : Post W ε α) (w : W) :
    wp H (ofExcept (.ok a)) Q w = Q.ret a w := rfl

@[simp] theorem wp_ofExcept_error (e : ε) (Q : Post W ε α) (w : W) :
    wp H (ofExcept (.error e)) Q w = Q.exc e w := rfl

theorem wp_mono {p : Prog S ε α} {Q Q' : Post W ε α} {w : W} (h : wp H p Q w)
    (hret : ∀ a w', Q.ret a w' → Q'.ret a w') (hexc : ∀ e w', Q.exc e w' → Q'.exc e w')
    (hcut : ∀ w', Q.cut w' → Q'.cut w') : wp H p Q' w := by
  induction p generalizing w with
  | ret a => exact hret a w h
  | throw e => exact hexc e w h
  | call o k ih => exact ⟨hcut w h.1, fun r w' hr => ih r (h.2 r w' hr)⟩

theorem wp_true (H : Handler S ε W) (p : Prog S ε α) (w : W) :
    wp H p ⟨fun _ _ => True, fun _ _ => True, fun _ => True⟩ w := by
  induction p generalizing w with
  | ret a => trivial
  | throw e => trivial
  | call o k ih => exact ⟨trivial, fun r w' _ => ih r w'⟩

/-- An outside that does less. -/
theorem wp_of_less {H' : Handler S ε W} (hless : ∀ w o r w', H' w o r w' → H w o r w') {p : Prog S ε α}
    {Q : Post W ε α} {w : W} (h : wp H p Q w) : wp H' p Q w := by
  induction p generalizing w with
  | ret a => exact h
  | throw e => exact h
  | call o k ih => exact ⟨h.1, fun r w' hr => ih r (h.2 r w' (hless w o r w' hr))⟩

/-- Calls made through `f` against `H` behave as calls against `H'`. -/
def Through {T : Sig} (H : Handler T ε W) (f : (o : S.Call) → Prog T ε (S.Ans o)) (H' : Handler S ε W) : Prop :=
  ∀ o Q w, wp H (f o) Q w ↔
    Q.cut w ∧ (∀ a w', H' w o (.ok a) w' → Q.ret a w') ∧ ∀ e w', H' w o (.error e) w' → Q.exc e w'

theorem wp_via {T : Sig} {H : Handler T ε W} {f : (o : S.Call) → Prog T ε (S.Ans o)} {H' : Handler S ε W}
    (hf : Through H f H') (p : Prog S ε α) (Q : Post W ε α) (w : W) :
    wp H (p.via f) Q w ↔ wp H' p Q w := by
  induction p generalizing w with
  | ret a => rfl
  | throw e => rfl
  | call o k ih =>
      rw [via, wp_bind, wp_attempt, hf, wp_call]
      refine and_congr_right fun _ => ⟨fun ⟨hok, herr⟩ r w' hr => ?_, fun h => ⟨fun a w' hr => ?_, fun e w' hr => ?_⟩⟩
      · cases r with
        | ok a => exact (ih _ _).mp (hok a w' hr)
        | error e => exact (ih _ _).mp (herr e w' hr)
      · exact (ih _ _).mpr (h _ w' hr)
      · exact (ih _ _).mpr (h _ w' hr)

/-- **The sequence rule.** -/
theorem wp_seq {p : Prog S ε α} {f : α → Prog S ε β} {Q : Post W ε β} {w : W} {R : α → W → Prop}
    (h : wp H p ⟨R, Q.exc, Q.cut⟩ w) (hf : ∀ a w', R a w' → wp H (f a) Q w') : wp H (p.bind f) Q w := by
  rw [wp_bind]
  exact wp_mono h hf (fun _ _ he => he) (fun _ hc => hc)

/-- The sequence rule for a program whose error is handled. -/
theorem wp_seq_attempt {p : Prog S ε α} {f : Except ε α → Prog S ε β} {Q : Post W ε β} {w : W}
    {R : α → W → Prop} {E : ε → W → Prop} (h : wp H p ⟨R, E, Q.cut⟩ w)
    (hok : ∀ a w', R a w' → wp H (f (.ok a)) Q w') (herr : ∀ e w', E e w' → wp H (f (.error e)) Q w') :
    wp H (p.attempt.bind f) Q w := by
  rw [wp_bind, wp_attempt]
  exact wp_mono h hok herr (fun _ hc => hc)

/-- The sequence rule after a pure computation. -/
theorem wp_ofExcept_seq {x : Except ε α} {f : α → Prog S ε β} {Q : Post W ε β} {w : W}
    (hok : ∀ a, x = .ok a → wp H (f a) Q w) (herr : ∀ e, x = .error e → Q.exc e w) :
    wp H ((ofExcept x).bind f) Q w := by
  cases x with
  | ok a => exact hok a rfl
  | error e => exact herr e rfl

theorem wp_perform_seq {o : S.Call} {f : S.Ans o → Prog S ε β} {Q : Post W ε β} {w : W} (hcut : Q.cut w)
    (hok : ∀ a w', H w o (.ok a) w' → wp H (f a) Q w') (herr : ∀ e w', H w o (.error e) w' → Q.exc e w') :
    wp H ((perform o).bind f) Q w := by
  rw [wp_bind, wp_perform]
  exact ⟨hcut, hok, herr⟩

/-- The sequence rule after one call whose error is handled. -/
theorem wp_perform_attempt_seq {o : S.Call} {f : Except ε (S.Ans o) → Prog S ε β} {Q : Post W ε β} {w : W}
    (hcut : Q.cut w) (h : ∀ r w', H w o r w' → wp H (f r) Q w') :
    wp H ((perform o : Prog S ε (S.Ans o)).attempt.bind f) Q w := by
  rw [wp_bind, wp_attempt, wp_perform]
  exact ⟨hcut, fun a w' hr => h _ w' hr, fun e w' hr => h _ w' hr⟩

/-- **The loop rule**: an invariant of the items still to come and the accumulator. -/
theorem wp_forEach {f : β → α → Prog S ε β} {Q : Post W ε β} (Inv : List α → β → W → Prop)
    (hdone : ∀ acc w, Inv [] acc w → Q.ret acc w)
    (hstep : ∀ x xs acc w, Inv (x :: xs) acc w →
      wp H (f acc x) ⟨fun acc' w' => Inv xs acc' w', Q.exc, Q.cut⟩ w)
    {xs : List α} {acc : β} {w : W} (h : Inv xs acc w) : wp H (forEach f xs acc) Q w := by
  induction xs generalizing acc w with
  | nil => exact hdone acc w h
  | cons x xs ih =>
      rw [forEach, wp_bind]
      exact wp_mono (hstep x xs acc w h) (fun acc' w' h' => ih h') (fun _ _ he => he) (fun _ hc => hc)

/-- Every call the program may make satisfies `P`. -/
def Calls (P : S.Call → Prop) : Prog S ε α → Prop
  | .ret _ | .throw _ => True
  | .call o k => P o ∧ ∀ r, (k r).Calls P

@[simp] theorem calls_ret (P : S.Call → Prop) (a : α) : Calls P (.ret a : Prog S ε α) := trivial

@[simp] theorem calls_throw (P : S.Call → Prop) (e : ε) : Calls P (.throw e : Prog S ε α) := trivial

theorem calls_perform {P : S.Call → Prop} {o : S.Call} (h : P o) : Calls P (perform o : Prog S ε (S.Ans o)) :=
  ⟨h, fun r => by cases r <;> trivial⟩

theorem Calls.mono {P P' : S.Call → Prop} {p : Prog S ε α} (hp : p.Calls P) (h : ∀ o, P o → P' o) :
    p.Calls P' := by
  induction p with
  | ret a => trivial
  | throw e => trivial
  | call o k ih => exact ⟨h o hp.1, fun r => ih r (hp.2 r)⟩

theorem Calls.bind {P : S.Call → Prop} {p : Prog S ε α} {f : α → Prog S ε β} (hp : p.Calls P)
    (hf : ∀ a, (f a).Calls P) : (p.bind f).Calls P := by
  induction p with
  | ret a => exact hf a
  | throw e => trivial
  | call o k ih => exact ⟨hp.1, fun r => ih r (hp.2 r)⟩

theorem Calls.tryCatch {P : S.Call → Prop} {p : Prog S ε α} {h : ε → Prog S ε α} (hp : p.Calls P)
    (hh : ∀ e, (h e).Calls P) : (p.tryCatch h).Calls P := by
  induction p with
  | ret a => trivial
  | throw e => exact hh e
  | call o k ih => exact ⟨hp.1, fun r => ih r (hp.2 r)⟩

theorem Calls.attempt {P : S.Call → Prop} {p : Prog S ε α} (hp : p.Calls P) : p.attempt.Calls P := by
  refine Calls.tryCatch (hp.bind fun a => ?_) fun e => ?_
  · exact calls_ret ..
  · exact calls_ret ..

theorem calls_ofExcept (P : S.Call → Prop) (x : Except ε α) : Calls P (ofExcept x : Prog S ε α) := by
  cases x <;> trivial

theorem Calls.forEach_of_mem {P : S.Call → Prop} {f : β → α → Prog S ε β} {xs : List α}
    (hf : ∀ x ∈ xs, ∀ acc, (f acc x).Calls P) (acc : β) : (Prog.forEach f xs acc).Calls P := by
  induction xs generalizing acc with
  | nil => trivial
  | cons x xs ih => exact (hf x List.mem_cons_self acc).bind (ih fun y hy => hf y (List.mem_cons_of_mem _ hy))

theorem Calls.forEach {P : S.Call → Prop} {f : β → α → Prog S ε β} (hf : ∀ acc x, (f acc x).Calls P) (xs : List α)
    (acc : β) : (Prog.forEach f xs acc).Calls P := Calls.forEach_of_mem (fun x _ acc => hf acc x) acc

theorem Calls.via {T : Sig} {P : S.Call → Prop} {P' : T.Call → Prop} {f : (o : S.Call) → Prog T ε (S.Ans o)}
    {p : Prog S ε α} (hp : p.Calls P) (hf : ∀ o, P o → (f o).Calls P') : (p.via f).Calls P' := by
  induction p with
  | ret a => trivial
  | throw e => trivial
  | call o k ih => exact (hf o hp.1).attempt.bind fun r => ih r (hp.2 r)

theorem calls_true (p : Prog S ε α) : p.Calls fun _ => True := by
  induction p with
  | ret a => trivial
  | throw e => trivial
  | call o k ih => exact ⟨trivial, ih⟩

/-- A program meets its outside at its calls only. -/
theorem wp_of_calls {P : S.Call → Prop} {p : Prog S ε α} (hp : p.Calls P) {Q : Post W ε α} {w : W}
    (h : wp (fun w o r w' => P o ∧ H w o r w') p Q w) : wp H p Q w := by
  induction p generalizing w with
  | ret a => exact h
  | throw e => exact h
  | call o k ih => exact ⟨h.1, fun r w' hr => ih r (hp.2 r) (h.2 r w' ⟨hp.1, hr⟩)⟩

def MayCall (p : Prog S ε α) (o : S.Call) : Prop := ¬ p.Calls (· ≠ o)

theorem MayCall.of_calls {P : S.Call → Prop} {p : Prog S ε α} {o : S.Call} (h : p.MayCall o) (hp : p.Calls P) :
    P o := by
  by_contra hno
  refine h (hp.mono fun o' ho' => ?_)
  rintro rfl
  exact hno ho'

/-- A program that keeps `I` ends in `I`, however it ends. -/
def Keeps (H : Handler S ε W) (I : W → Prop) (p : Prog S ε α) : Prop :=
  ∀ w, I w → wp H p ⟨fun _ w' => I w', fun _ w' => I w', I⟩ w

/-- **The frame rule**: what every call of a program keeps, the program keeps. -/
theorem keeps_of_calls {P : S.Call → Prop} {I : W → Prop} {p : Prog S ε α} (hp : p.Calls P)
    (hcall : ∀ w o r w', P o → I w → H w o r w' → I w') : Keeps H I p := by
  intro w hw
  induction p generalizing w with
  | ret a => exact hw
  | throw e => exact hw
  | call o k ih => exact ⟨hw, fun r w' hr => ih r (hp.2 r) w' (hcall w o r w' hp.1 hw hr)⟩

theorem Keeps.bind {I : W → Prop} {p : Prog S ε α} {f : α → Prog S ε β} (hp : Keeps H I p) (hf : ∀ a, Keeps H I (f a)) :
    Keeps H I (p.bind f) := fun w hw => wp_seq (hp w hw) fun a w' h => hf a w' h

theorem Keeps.attempt {I : W → Prop} {p : Prog S ε α} (hp : Keeps H I p) : Keeps H I p.attempt := by
  intro w hw
  rw [wp_attempt]
  exact hp w hw

theorem Keeps.forEach {I : W → Prop} {f : β → α → Prog S ε β} {xs : List α} (hf : ∀ acc, ∀ x ∈ xs, Keeps H I (f acc x))
    (acc : β) : Keeps H I (Prog.forEach f xs acc) := by
  induction xs generalizing acc with
  | nil => exact fun w hw => hw
  | cons x xs ih =>
    exact (hf acc x List.mem_cons_self).bind (ih fun acc y hy => hf acc y (List.mem_cons_of_mem x hy))

theorem wp_and {p : Prog S ε α} {Q Q' : Post W ε α} {w : W} (h : wp H p Q w) (h' : wp H p Q' w) :
    wp H p ⟨fun a w' => Q.ret a w' ∧ Q'.ret a w', fun e w' => Q.exc e w' ∧ Q'.exc e w',
      fun w' => Q.cut w' ∧ Q'.cut w'⟩ w := by
  induction p generalizing w with
  | ret a => exact ⟨h, h'⟩
  | throw e => exact ⟨h, h'⟩
  | call o k ih => exact ⟨⟨h.1, h'.1⟩, fun r w' hr => ih r (h.2 r w' hr) (h'.2 r w' hr)⟩

/-- What every call keeps may be added to a postcondition. -/
theorem wp_and_keeps {I : W → Prop} {p : Prog S ε α} {Q : Post W ε α} {w : W} (hk : Keeps H I p) (hw : I w)
    (h : wp H p Q w) :
    wp H p ⟨fun a w' => Q.ret a w' ∧ I w', fun e w' => Q.exc e w' ∧ I w', fun w' => Q.cut w' ∧ I w'⟩ w :=
  wp_and h (hk w hw)

end Prog

variable {S : Sig} {ε α W : Type} {H : Handler S ε W}

/-- **Soundness of `wp`.** -/
theorem Exec.of_wp {p : Prog S ε α} {Q : Post W ε α} {w w' : W} {out : Outcome ε α}
    (hexec : Exec H p w out w') (h : p.wp H Q w) : Q.holds out w' := by
  induction hexec with
  | ret => exact h
  | throw => exact h
  | cut => exact h.1
  | call hr _ ih => exact ih (h.2 _ _ hr)

theorem Exec.bind {β : Type} {p : Prog S ε α} {f : α → Prog S ε β} {w w₁ w₂ : W} {a : α} {out : Outcome ε β}
    (hp : Exec H p w (.done a) w₁) (hf : Exec H (f a) w₁ out w₂) : Exec H (p.bind f) w out w₂ := by
  induction p generalizing w with
  | ret b =>
    cases hp
    exact hf
  | throw e => cases hp
  | call o k ih =>
    cases hp with
    | call hr hp => exact .call hr (ih _ hp)

theorem Exec.attempt {p : Prog S ε α} {w w' : W} {a : α} (h : Exec H p w (.done a) w') :
    Exec H p.attempt w (.done (.ok a)) w' := by
  induction p generalizing w with
  | ret b =>
    cases h
    exact .ret
  | throw e => cases h
  | call o k ih =>
    cases h with
    | call hr h => exact .call hr (ih _ h)

theorem Exec.bind_raised {β : Type} {p : Prog S ε α} {f : α → Prog S ε β} {w w' : W} {e : ε}
    (hp : Exec H p w (.raised e) w') : Exec H (p.bind f) w (.raised e) w' := by
  induction p generalizing w with
  | ret b => cases hp
  | throw e' =>
    cases hp
    exact .throw
  | call o k ih =>
    cases hp with
    | call hr hp => exact .call hr (ih _ hp)

theorem Exec.tryCatch_done {p : Prog S ε α} {h : ε → Prog S ε α} {w w' : W} {a : α}
    (hp : Exec H p w (.done a) w') : Exec H (p.tryCatch h) w (.done a) w' := by
  induction p generalizing w with
  | ret b => exact hp
  | throw e => cases hp
  | call o k ih =>
    cases hp with
    | call hr hp => exact .call hr (ih _ hp)

theorem Exec.tryCatch_raised {p : Prog S ε α} {h : ε → Prog S ε α} {w w₁ w₂ : W} {e : ε} {out : Outcome ε α}
    (hp : Exec H p w (.raised e) w₁) (hh : Exec H (h e) w₁ out w₂) : Exec H (p.tryCatch h) w out w₂ := by
  induction p generalizing w with
  | ret b => cases hp
  | throw e' =>
    cases hp
    exact hh
  | call o k ih =>
    cases hp with
    | call hr hp => exact .call hr (ih _ hp)

theorem Exec.attempt_raised {p : Prog S ε α} {w w' : W} {e : ε} (hp : Exec H p w (.raised e) w') :
    Exec H p.attempt w (.done (.error e)) w' := .tryCatch_raised hp.bind_raised .ret

theorem Exec.perform {o : S.Call} {w w' : W} {a : S.Ans o} (h : H w o (.ok a) w') :
    Exec H (Prog.perform o) w (.done a) w' := .call h .ret

/-! ## Pure computations -/

theorem bind_eq_ok {ε α β : Type} {x : Except ε α} {f : α → Except ε β} {b : β} (h : (x >>= f) = .ok b) :
    ∃ a, x = .ok a ∧ f a = .ok b := by
  cases x with
  | error e => cases h
  | ok a => exact ⟨a, rfl, h⟩

/-! ## An outside that is a function -/

/-- The execution against an outside that is a function. -/
def Prog.run (outside : W → (o : S.Call) → Except ε (S.Ans o) × W) : Prog S ε α → W → Except ε α × W
  | .ret a, w => (.ok a, w)
  | .throw e, w => (.error e, w)
  | .call o k, w => (k (outside w o).1).run outside (outside w o).2

def Prog.passes (outside : W → (o : S.Call) → Except ε (S.Ans o) × W) (test : S.Call → Bool) : Prog S ε α → W → Bool
  | .ret _, _ | .throw _, _ => true
  | .call o k, w => test o && (k (outside w o).1).passes outside test (outside w o).2

theorem Prog.passes_true (outside : W → (o : S.Call) → Except ε (S.Ans o) × W) (p : Prog S ε α) (w : W) :
    p.passes outside (fun _ => true) w = true := by
  induction p generalizing w with
  | ret a => rfl
  | throw e => rfl
  | call o k ih => exact ih _ _

def Outcome.ofExcept : Except ε α → Outcome ε α
  | .ok a => .done a
  | .error e => .raised e

theorem Exec.of_run {outside : W → (o : S.Call) → Except ε (S.Ans o) × W}
    (hout : ∀ w o, H w o (outside w o).1 (outside w o).2) (p : Prog S ε α) (w : W) :
    Exec H p w (.ofExcept (p.run outside w).1) (p.run outside w).2 := by
  induction p generalizing w with
  | ret a => exact .ret
  | throw e => exact .throw
  | call o k ih => exact .call (hout w o) (ih _ _)

end OciHpc
