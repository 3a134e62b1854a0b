import Mathlib.Data.List.Forall2
import OciHpc.Base.Prog

/-!
# The calls of an execution

* `Trace` : the executions of a program against any outside, with the calls made and their answers;
* `trace_bind`, `trace_attempt`, `trace_perform_bind`, `trace_forEach_attempt` : the traces of what a program is built
  from;
* `Trace.calls` : every call made is one the program may make;
* `Follows`, `Trace.of_wp` : the worlds along the calls, and what a precondition says of both;
* `Justified`, `Trace.justified` : each call is allowed by those before it;
* `Trace.of_run` : an outside that is a function gives a trace.
-/

namespace OciHpc
open Prog

/-- A call and its answer. -/
abbrev Event (S : Sig) (ε : Type) := (o : S.Call) × Except ε (S.Ans o)

/-- `Trace p out events` : the program can end with `out` after these calls. -/
inductive Trace {S : Sig} {ε α : Type} : Prog S ε α → Outcome ε α → List (Event S ε) → Prop
  | ret {a : α} : Trace (.ret a) (.done a) []
  | throw {e : ε} : Trace (.throw e) (.raised e) []
  | cut {o : S.Call} {k : Except ε (S.Ans o) → Prog S ε α} : Trace (.call o k) .cut []
  | call {o : S.Call} {k : Except ε (S.Ans o) → Prog S ε α} (r : Except ε (S.Ans o)) {out : Outcome ε α}
      {events : List (Event S ε)} : Trace (k r) out events → Trace (.call o k) out (⟨o, r⟩ :: events)

variable {S : Sig} {ε α β : Type}

/-! ## Sequences -/

/-- How `p` ends where `p.attempt` is not cut off. -/
def Outcome.attempted : Outcome ε α → Outcome ε (Except ε α)
  | .done a => .done (.ok a)
  | .raised e => .done (.error e)
  | .cut => .cut

theorem trace_ret {a : α} {out : Outcome ε α} {events : List (Event S ε)} :
    Trace (.ret a) out events ↔ out = .done a ∧ events = [] := by
  constructor
  · intro h
    cases h
    exact ⟨rfl, rfl⟩
  · rintro ⟨rfl, rfl⟩
    exact .ret

theorem trace_throw {e : ε} {out : Outcome ε α} {events : List (Event S ε)} :
    Trace (.throw e) out events ↔ out = .raised e ∧ events = [] := by
  constructor
  · intro h
    cases h
    exact ⟨rfl, rfl⟩
  · rintro ⟨rfl, rfl⟩
    exact .throw

/-- **A sequence**: the first part is done and the second goes on, or the first part does not end. -/
theorem trace_bind {p : Prog S ε α} {f : α → Prog S ε β} {out : Outcome ε β} {events : List (Event S ε)} :
    Trace (p.bind f) out events ↔
      (∃ a first rest, Trace p (.done a) first ∧ Trace (f a) out rest ∧ events = first ++ rest) ∨
      (∃ e, Trace p (.raised e) events ∧ out = .raised e) ∨ (Trace p .cut events ∧ out = .cut) := by
  constructor
  · intro h
    induction p generalizing events with
    | ret a => exact .inl ⟨a, [], events, .ret, h, rfl⟩
    | throw e =>
      obtain ⟨rfl, rfl⟩ := trace_throw.mp h
      exact .inr (.inl ⟨e, .throw, rfl⟩)
    | call o k ih =>
      cases h with
      | cut => exact .inr (.inr ⟨.cut, rfl⟩)
      | call r h =>
        rcases ih r h with ⟨a, first, rest, hp, hf, rfl⟩ | ⟨e, hp, hout⟩ | ⟨hp, hout⟩
        · exact .inl ⟨a, ⟨o, r⟩ :: first, rest, .call r hp, hf, rfl⟩
        · exact .inr (.inl ⟨e, .call r hp, hout⟩)
        · exact .inr (.inr ⟨.call r hp, hout⟩)
  · rintro (⟨a, first, rest, hp, hf, rfl⟩ | ⟨e, hp, rfl⟩ | ⟨hp, rfl⟩)
    · induction p generalizing first with
      | ret b =>
        obtain ⟨hdone, rfl⟩ := trace_ret.mp hp
        cases hdone
        exact hf
      | throw e => cases hp
      | call o k ih =>
        cases hp with
        | call r hp => exact .call r (ih r _ hp)
    · induction p generalizing events with
      | ret b => cases hp
      | throw e' =>
        obtain ⟨hraised, rfl⟩ := trace_throw.mp hp
        cases hraised
        exact .throw
      | call o k ih =>
        cases hp with
        | call r hp => exact .call r (ih r hp)
    · induction p generalizing events with
      | ret b => cases hp
      | throw e => cases hp
      | call o k ih =>
        cases hp with
        | cut => exact .cut
        | call r hp => exact .call r (ih r hp)

theorem trace_perform {o : S.Call} {out : Outcome ε (S.Ans o)} {events : List (Event S ε)} :
    Trace (perform o) out events ↔
      (∃ a, out = .done a ∧ events = [⟨o, .ok a⟩]) ∨ (∃ e, out = .raised e ∧ events = [⟨o, .error e⟩]) ∨
        (out = .cut ∧ events = []) := by
  constructor
  · intro h
    cases h with
    | cut => exact .inr (.inr ⟨rfl, rfl⟩)
    | call r h =>
      cases r with
      | ok a =>
        obtain ⟨rfl, rfl⟩ := trace_ret.mp h
        exact .inl ⟨a, rfl, rfl⟩
      | error e =>
        obtain ⟨rfl, rfl⟩ := trace_throw.mp h
        exact .inr (.inl ⟨e, rfl, rfl⟩)
  · rintro (⟨a, rfl, rfl⟩ | ⟨e, rfl, rfl⟩ | ⟨rfl, rfl⟩)
    · exact .call (.ok a) .ret
    · exact .call (.error e) .throw
    · exact .cut

/-- **An exception kept as a value** changes how the program ends and nothing else. -/
theorem trace_attempt {p : Prog S ε α} {out : Outcome ε (Except ε α)} {events : List (Event S ε)} :
    Trace p.attempt out events ↔ ∃ out', Trace p out' events ∧ out = out'.attempted := by
  constructor
  · intro h
    induction p generalizing events with
    | ret a =>
      obtain ⟨rfl, rfl⟩ := trace_ret.mp h
      exact ⟨_, .ret, rfl⟩
    | throw e =>
      obtain ⟨rfl, rfl⟩ := trace_ret.mp h
      exact ⟨_, .throw, rfl⟩
    | call o k ih =>
      cases h with
      | cut => exact ⟨_, .cut, rfl⟩
      | call r h =>
        obtain ⟨out', hp, hout⟩ := ih r h
        exact ⟨out', .call r hp, hout⟩
  · rintro ⟨out', hp, rfl⟩
    induction hp with
    | ret => exact .ret
    | throw => exact .ret
    | cut => exact .cut
    | call r _ ih => exact .call r ih

theorem trace_perform_bind {o : S.Call} {f : S.Ans o → Prog S ε β} {out : Outcome ε β} {events : List (Event S ε)} :
    Trace ((perform o).bind f) out events ↔
      (∃ a rest, events = ⟨o, .ok a⟩ :: rest ∧ Trace (f a) out rest) ∨
        (∃ e, out = .raised e ∧ events = [⟨o, .error e⟩]) ∨ (out = .cut ∧ events = []) := by
  constructor
  · intro h
    rcases trace_bind.mp h with ⟨a, first, rest, hp, hf, rfl⟩ | ⟨e, hp, hout⟩ | ⟨hp, hout⟩
    · rcases trace_perform.mp hp with ⟨a', ha, rfl⟩ | ⟨e, he, -⟩ | ⟨hc, -⟩
      · cases ha
        exact .inl ⟨a, rest, rfl, hf⟩
      · cases he
      · cases hc
    · rcases trace_perform.mp hp with ⟨a, ha, -⟩ | ⟨e', he, rfl⟩ | ⟨hc, -⟩
      · cases ha
      · cases he
        exact .inr (.inl ⟨e, hout, rfl⟩)
      · cases hc
    · rcases trace_perform.mp hp with ⟨a, ha, -⟩ | ⟨e, he, -⟩ | ⟨-, hevents⟩
      · cases ha
      · cases he
      · exact .inr (.inr ⟨hout, hevents⟩)
  · rintro (⟨a, rest, rfl, hf⟩ | ⟨e, rfl, rfl⟩ | ⟨rfl, rfl⟩)
    · exact .call (.ok a) hf
    · exact .call (.error e) .throw
    · exact .cut

/-- One call whose exception is kept as a value, and what follows it. -/
theorem trace_perform_attempt_bind {o : S.Call} {f : Except ε (S.Ans o) → Prog S ε β} {out : Outcome ε β}
    {events : List (Event S ε)} :
    Trace ((perform o : Prog S ε (S.Ans o)).attempt.bind f) out events ↔
      (∃ r rest, events = ⟨o, r⟩ :: rest ∧ Trace (f r) out rest) ∨ (out = .cut ∧ events = []) := by
  constructor
  · intro h
    rcases trace_bind.mp h with ⟨r, first, rest, hp, hf, rfl⟩ | ⟨e, hp, -⟩ | ⟨hp, hout⟩
    · obtain ⟨result, hperform, hresult⟩ := trace_attempt.mp hp
      rcases trace_perform.mp hperform with ⟨a, rfl, rfl⟩ | ⟨e, rfl, rfl⟩ | ⟨rfl, -⟩
      · cases hresult
        exact .inl ⟨_, rest, rfl, hf⟩
      · cases hresult
        exact .inl ⟨_, rest, rfl, hf⟩
      · cases hresult
    · obtain ⟨result, -, hresult⟩ := trace_attempt.mp hp
      cases result <;> cases hresult
    · obtain ⟨result, hperform, hresult⟩ := trace_attempt.mp hp
      rcases trace_perform.mp hperform with ⟨a, rfl, -⟩ | ⟨e, rfl, -⟩ | ⟨-, hevents⟩
      · cases hresult
      · cases hresult
      · exact .inr ⟨hout, hevents⟩
  · rintro (⟨r, rest, rfl, hf⟩ | ⟨rfl, rfl⟩)
    · cases r with
      | ok a => exact .call (.ok a) hf
      | error e => exact .call (.error e) hf
    · exact .cut

theorem trace_ofExcept_bind {x : Except ε α} {f : α → Prog S ε β} {out : Outcome ε β} {events : List (Event S ε)} :
    Trace ((Prog.ofExcept x).bind f) out events ↔
      (∃ a, x = .ok a ∧ Trace (f a) out events) ∨ (∃ e, x = .error e ∧ out = .raised e ∧ events = []) := by
  constructor
  · intro h
    cases x with
    | ok a => exact .inl ⟨a, rfl, h⟩
    | error e => exact .inr ⟨e, rfl, trace_throw.mp h⟩
  · rintro (⟨a, rfl, h⟩ | ⟨e, rfl, rfl, rfl⟩)
    · exact h
    · exact .throw

theorem Outcome.attempted_ne_raised (out : Outcome ε α) (e : ε) : out.attempted ≠ .raised e := by
  cases out <;> exact nofun

/-- **A loop that keeps the exceptions of its turns as values** makes a turn of every item. -/
theorem trace_forEach_attempt {γ : Type} {p : γ → Prog S ε α} {f : β → γ → Except ε α → β} {xs : List γ} {acc : β}
    {out : Outcome ε β} {events : List (Event S ε)}
    (h : Trace (forEach (fun acc x => (p x).attempt.bind fun r => .ret (f acc x r)) xs acc) out events) :
    out = .cut ∨ ∃ acc' pieces, out = .done acc' ∧ events = pieces.flatten ∧
      List.Forall₂ (fun x piece => ∃ result, result ≠ .cut ∧ Trace (p x) result piece) xs pieces := by
  induction xs generalizing acc events with
  | nil =>
    obtain ⟨rfl, rfl⟩ := trace_ret.mp h
    exact .inr ⟨acc, [], rfl, rfl, .nil⟩
  | cons x rest ih =>
    rcases trace_bind.mp h with ⟨acc', first, later, hturn, hrest, rfl⟩ | ⟨e, hturn, -⟩ | ⟨-, hout⟩
    · rcases ih hrest with hcut | ⟨last, pieces, rfl, rfl, hpieces⟩
      · exact .inl hcut
      rcases trace_bind.mp hturn with ⟨r, piece, none, hattempt, hret, rfl⟩ | ⟨e, -, hout⟩ | ⟨-, hout⟩
      · obtain ⟨-, rfl⟩ := trace_ret.mp hret
        obtain ⟨result, hp, hresult⟩ := trace_attempt.mp hattempt
        have hcut : result ≠ .cut := by
          rintro rfl
          cases hresult
        exact .inr ⟨last, piece :: pieces, rfl, by simp, .cons ⟨result, hcut, hp⟩ hpieces⟩
      · cases hout
      · cases hout
    · rcases trace_bind.mp hturn with ⟨r, piece, none, -, hret, rfl⟩ | ⟨e', hattempt, -⟩ | ⟨-, hout⟩
      · cases (trace_ret.mp hret).1
      · obtain ⟨result, -, hresult⟩ := trace_attempt.mp hattempt
        exact absurd hresult.symm (result.attempted_ne_raised e')
      · cases hout
    · exact .inl hout

theorem Trace.rest {p : Prog S ε α} {f : α → Prog S ε β} {a : α} {out : Outcome ε β} {first rest : List (Event S ε)}
    (hp : Trace p (.done a) first) (h : Trace (p.bind f) out (first ++ rest)) : Trace (f a) out rest := by
  induction p generalizing first with
  | ret b =>
    obtain ⟨hdone, rfl⟩ := trace_ret.mp hp
    cases hdone
    exact h
  | throw e => cases hp
  | call o k ih =>
    cases hp with
    | call r hp =>
      cases h with
      | call _ h => exact ih r hp h

/-- A program that is done twice at the start of the same calls is done with the same ones. -/
theorem Trace.same_done {p : Prog S ε α} {a b : α} {first first' rest rest' : List (Event S ε)} (h : Trace p (.done a) first)
    (h' : Trace p (.done b) first') (hevents : first ++ rest = first' ++ rest') : a = b ∧ first = first' := by
  induction p generalizing first first' with
  | ret c =>
    obtain ⟨hdone, rfl⟩ := trace_ret.mp h
    obtain ⟨hdone', rfl⟩ := trace_ret.mp h'
    cases hdone
    cases hdone'
    exact ⟨rfl, rfl⟩
  | throw e => cases h
  | call o k ih =>
    cases h with
    | call r h =>
      cases h' with
      | call r' h' =>
        obtain ⟨hevent, hlater⟩ := List.cons_eq_cons.mp hevents
        obtain rfl := eq_of_heq (Sigma.mk.inj hevent).2
        obtain ⟨rfl, rfl⟩ := ih r h h' hlater
        exact ⟨rfl, rfl⟩

/-- **A call of a loop** is made in the turn of an item, with the turns of the items before it done. -/
theorem trace_forEach_call {γ : Type} {f : β → γ → Prog S ε β} {xs : List γ} {acc : β} {out : Outcome ε β}
    {earlier later : List (Event S ε)} {event : Event S ε}
    (h : Trace (forEach f xs acc) out (earlier ++ event :: later)) :
    ∃ before x after acc' upTo within following rest result, xs = before ++ x :: after ∧
      Trace (forEach f before acc) (.done acc') upTo ∧ Trace (f acc' x) result (within ++ event :: following) ∧
      earlier = upTo ++ within ∧ later = following ++ rest := by
  induction xs generalizing acc earlier with
  | nil =>
    obtain ⟨-, hevents⟩ := trace_ret.mp h
    exact absurd hevents (by simp)
  | cons x xs ih =>
    obtain ⟨acc', first, rest, hturn, hrest, hevents⟩ | ⟨e, hturn, -⟩ | ⟨hturn, -⟩ := trace_bind.mp h
    · obtain ⟨within, hearlier, hafter⟩ | ⟨following, hfirst, hlater⟩ := List.append_eq_append_iff.mp hevents.symm
      · subst hearlier
        obtain ⟨before, y, after, acc'', upTo, within, following, last, result, rfl, hbefore, hcall, rfl, hlater⟩ :=
          ih (hafter ▸ hrest)
        refine ⟨x :: before, y, after, acc'', first ++ upTo, within, following, last, result, rfl, ?_, hcall,
          (List.append_assoc ..).symm, hlater⟩
        exact trace_bind.mpr (.inl ⟨acc', first, upTo, hturn, hbefore, rfl⟩)
      · cases following with
        | nil =>
          rw [List.append_nil] at hfirst
          rw [List.nil_append] at hlater
          subst hfirst
          obtain ⟨before, y, after, acc'', upTo, within, following, last, result, rfl, hbefore, hcall, hearlier, hlast⟩ :=
            @ih acc' [] (hlater ▸ hrest)
          obtain ⟨rfl, rfl⟩ := List.append_eq_nil_iff.mp hearlier.symm
          refine ⟨x :: before, y, after, acc'', first, [], following, last, result, rfl, ?_, hcall,
            (List.append_nil _).symm, hlast⟩
          exact trace_bind.mpr (.inl ⟨acc', first, [], hturn, hbefore, (List.append_nil _).symm⟩)
        | cons other following =>
          obtain ⟨rfl, rfl⟩ := List.cons_eq_cons.mp hlater
          subst hfirst
          exact ⟨[], x, xs, acc, [], earlier, following, rest, _, rfl, .ret, hturn, rfl, rfl⟩
    · exact ⟨[], x, xs, acc, [], earlier, later, [], _, rfl, .ret, hturn, rfl, (List.append_nil _).symm⟩
    · exact ⟨[], x, xs, acc, [], earlier, later, [], _, rfl, .ret, hturn, rfl, (List.append_nil _).symm⟩

/-! ## The calls that are made -/

theorem Trace.calls {p : Prog S ε α} {out : Outcome ε α} {events : List (Event S ε)} (h : Trace p out events)
    {P : S.Call → Prop} (hp : p.Calls P) : ∀ event ∈ events, P event.1 := by
  induction h with
  | ret | throw | cut => exact fun event hevent => absurd hevent List.not_mem_nil
  | call r _ ih =>
    intro event hevent
    rcases List.mem_cons.mp hevent with rfl | hevent
    · exact hp.1
    · exact ih (hp.2 r) event hevent

/-! ## The worlds along the calls -/

variable {W : Type}

/-- `Follows H w events w'` : from the world `w` the calls can be answered so, which leaves `w'`. -/
inductive Follows (H : Handler S ε W) : W → List (Event S ε) → W → Prop
  | nil {w : W} : Follows H w [] w
  | cons {o : S.Call} {r : Except ε (S.Ans o)} {events : List (Event S ε)} {w w₁ w₂ : W} :
      H w o r w₁ → Follows H w₁ events w₂ → Follows H w (⟨o, r⟩ :: events) w₂

variable {H : Handler S ε W}

theorem follows_append {first rest : List (Event S ε)} {w w' : W} :
    Follows H w (first ++ rest) w' ↔ ∃ w₁, Follows H w first w₁ ∧ Follows H w₁ rest w' := by
  induction first generalizing w with
  | nil =>
    refine ⟨fun h => ⟨w, .nil, h⟩, ?_⟩
    rintro ⟨w₁, hnil, h⟩
    cases hnil
    exact h
  | cons event first ih =>
    constructor
    · intro h
      cases h with
      | cons hr h =>
        obtain ⟨w₁, hfirst, hrest⟩ := ih.mp h
        exact ⟨w₁, .cons hr hfirst, hrest⟩
    · rintro ⟨w₁, hfirst, hrest⟩
      cases hfirst with
      | cons hr hfirst => exact .cons hr (ih.mpr ⟨w₁, hfirst, hrest⟩)

theorem Follows.keeps {I : W → Prop} {events : List (Event S ε)} {w w' : W} (h : Follows H w events w')
    (hcall : ∀ event ∈ events, ∀ w w', H w event.1 event.2 w' → I w → I w') (hw : I w) : I w' := by
  induction h with
  | nil => exact hw
  | cons hr _ ih =>
    exact ih (fun event hevent => hcall event (List.mem_cons_of_mem _ hevent)) (hcall _ List.mem_cons_self _ _ hr hw)

theorem Follows.map {V : Type} {H' : Handler S ε V} (f : W → V) (hf : ∀ w o r w', H w o r w' → H' (f w) o r (f w'))
    {events : List (Event S ε)} {w w' : W} (h : Follows H w events w') : Follows H' (f w) events (f w') := by
  induction h with
  | nil => exact .nil
  | cons hr _ ih => exact .cons (hf _ _ _ _ hr) ih

/-- The calls of an execution with the worlds along them. -/
theorem Trace.exec {p : Prog S ε α} {out : Outcome ε α} {events : List (Event S ε)} {w w' : W} (h : Trace p out events)
    (hw : Follows H w events w') : Exec H p w out w' := by
  induction h generalizing w with
  | ret =>
    cases hw
    exact .ret
  | throw =>
    cases hw
    exact .throw
  | cut =>
    cases hw
    exact .cut
  | call r _ ih =>
    cases hw with
    | cons hr hw => exact .call hr (ih hw)

/-- The outside that keeps the calls beside its world. -/
def Handler.logged (H : Handler S ε W) : Handler S ε (W × List (Event S ε)) := fun w o r w' =>
  H w.1 o r w'.1 ∧ w'.2 = w.2 ++ [⟨o, r⟩]

theorem Follows.logged {events : List (Event S ε)} {w w' : W} (h : Follows H w events w') (before : List (Event S ε)) :
    Follows H.logged (w, before) events (w', before ++ events) := by
  induction h generalizing before with
  | nil =>
    rw [List.append_nil]
    exact .nil
  | @cons o r events _ w₁ _ hr _ ih =>
    have hrest := ih (before ++ [⟨o, r⟩])
    rw [List.append_assoc, List.singleton_append] at hrest
    have hcall : H.logged (_, before) o r (w₁, before ++ [⟨o, r⟩]) := ⟨hr, rfl⟩
    exact .cons hcall hrest

/-- A precondition of the world alone. -/
theorem Prog.wp_logged {p : Prog S ε α} {Q : Post W ε α} {w : W × List (Event S ε)} (h : p.wp H Q w.1) :
    p.wp H.logged ⟨fun a w' => Q.ret a w'.1, fun e w' => Q.exc e w'.1, fun w' => Q.cut w'.1⟩ w := by
  induction p generalizing w with
  | ret a => exact h
  | throw e => exact h
  | call o k ih => exact ⟨h.1, fun r w' hr => ih r (h.2 r w'.1 hr.1)⟩

/-- **A precondition of the calls and the world.** -/
theorem Trace.of_wp {p : Prog S ε α} {Q : Post (W × List (Event S ε)) ε α} {out : Outcome ε α}
    {events : List (Event S ε)} {w w' : W} (h : Trace p out events) (hw : Follows H w events w')
    (hp : p.wp H.logged Q (w, [])) : Q.holds out (w', events) :=
  (h.exec (hw.logged [])).of_wp hp

/-! ## What comes before a call -/

/-- What a program adds to the log is a trace of it. -/
theorem Prog.wp_logged_trace {p : Prog S ε α} {Q : Post (W × List (Event S ε)) ε α} {w : W × List (Event S ε)}
    (h : p.wp H.logged Q w) : p.wp H.logged
      ⟨fun a w' => Q.ret a w' ∧ ∃ events, w'.2 = w.2 ++ events ∧ Trace p (.done a) events,
        fun e w' => Q.exc e w' ∧ ∃ events, w'.2 = w.2 ++ events ∧ Trace p (.raised e) events,
        fun w' => Q.cut w' ∧ ∃ events, w'.2 = w.2 ++ events ∧ Trace p .cut events⟩ w := by
  induction p generalizing w with
  | ret a => exact ⟨h, [], (List.append_nil _).symm, .ret⟩
  | throw e => exact ⟨h, [], (List.append_nil _).symm, .throw⟩
  | call o k ih =>
    have hcall : ∀ r (w' : W × List (Event S ε)) rest later, H.logged w o r w' → later = w'.2 ++ rest →
        later = w.2 ++ ⟨o, r⟩ :: rest := by
      intro r w' rest later hr hlog
      rw [hlog, hr.2, List.append_assoc, List.singleton_append]
    refine ⟨⟨h.1, [], (List.append_nil _).symm, .cut⟩, fun r w' hr => ?_⟩
    refine Prog.wp_mono (ih r (h.2 r w' hr)) ?_ ?_ ?_
    · intro a w'' ⟨hret, rest, hlog, hrest⟩
      exact ⟨hret, ⟨o, r⟩ :: rest, hcall r w' rest w''.2 hr hlog, .call r hrest⟩
    · intro e w'' ⟨hexc, rest, hlog, hrest⟩
      exact ⟨hexc, ⟨o, r⟩ :: rest, hcall r w' rest w''.2 hr hlog, .call r hrest⟩
    · intro w'' ⟨hcut, rest, hlog, hrest⟩
      exact ⟨hcut, ⟨o, r⟩ :: rest, hcall r w' rest w''.2 hr hlog, .call r hrest⟩

/-- The sequence rule, with what the first part adds to the log. -/
theorem Prog.wp_logged_seq {p : Prog S ε α} {f : α → Prog S ε β} {Q : Post (W × List (Event S ε)) ε β}
    {w : W × List (Event S ε)} {R : α → W × List (Event S ε) → Prop} (h : p.wp H.logged ⟨R, Q.exc, Q.cut⟩ w)
    (hf : ∀ a w' events, R a w' → w'.2 = w.2 ++ events → Trace p (.done a) events → (f a).wp H.logged Q w') :
    (p.bind f).wp H.logged Q w := by
  refine Prog.wp_seq (R := fun a w' => R a w' ∧ ∃ events, w'.2 = w.2 ++ events ∧ Trace p (.done a) events) ?_ ?_
  · exact Prog.wp_mono (Prog.wp_logged_trace h) (fun _ _ ha => ha) (fun _ _ he => he.1) fun _ hc => hc.1
  · intro a w' ⟨ha, events, hlog, htrace⟩
    exact hf a w' events ha hlog htrace

def anyAnswer : Handler S ε Unit := fun _ _ _ _ => True

theorem follows_anyAnswer (events : List (Event S ε)) : Follows anyAnswer () events () := by
  induction events with
  | nil => exact .nil
  | cons event events ih => exact .cons trivial ih

/-- Every call is one that is allowed after the calls before it. -/
def Justified (allowed : List (Event S ε) → S.Call → Prop) (events : List (Event S ε)) : Prop :=
  ∀ earlier event later, events = earlier ++ event :: later → allowed earlier event.1

section
variable {allowed : List (Event S ε) → S.Call → Prop}

theorem justified_nil : Justified allowed [] := fun _ _ _ h => absurd h.symm (by simp)

theorem Justified.snoc {events : List (Event S ε)} {event : Event S ε} (h : Justified allowed events)
    (hevent : allowed events event.1) : Justified allowed (events ++ [event]) := by
  intro earlier other later hsplit
  obtain rfl | ⟨front, last, rfl⟩ := List.eq_nil_or_concat later
  · obtain ⟨rfl, hlast⟩ := List.append_inj' hsplit rfl
    obtain rfl := List.singleton_inj.mp hlast
    exact hevent
  · have hfront : events = earlier ++ other :: front := by
      rw [List.concat_eq_append, ← List.cons_append, ← List.append_assoc] at hsplit
      exact (List.append_inj' hsplit rfl).1
    exact h earlier other front hfront

/-- A program whose calls are allowed after what is known. -/
theorem Prog.keeps_justified (hmono : ∀ {earlier later o}, earlier <+: later → allowed earlier o → allowed later o)
    {known : List (Event S ε)} {p : Prog S ε α} (hp : p.Calls (allowed known)) :
    Prog.Keeps anyAnswer.logged (fun w => Justified allowed w.2 ∧ known <+: w.2) p :=
  Prog.keeps_of_calls hp fun w o r w' ho hw hstep => by
    rw [hstep.2]
    exact ⟨hw.1.snoc (hmono hw.2 ho), hw.2.trans (List.prefix_append _ _)⟩

/-- **What a program keeps holds of its traces.** -/
theorem Trace.justified {p : Prog S ε α} {out : Outcome ε α} {events : List (Event S ε)} (h : Trace p out events)
    (hp : Prog.Keeps anyAnswer.logged (fun w => Justified allowed w.2) p) : Justified allowed events := by
  have hspec := h.of_wp (follows_anyAnswer events) (hp ((), []) justified_nil)
  cases out with
  | done a => exact hspec
  | raised e => exact hspec
  | cut => exact hspec

end

/-! ## An outside that is a function -/

/-- The calls of the execution against an outside that is a function. -/
def Prog.runEvents (outside : W → (o : S.Call) → Except ε (S.Ans o) × W) : Prog S ε α → W → List (Event S ε)
  | .ret _, _ | .throw _, _ => []
  | .call o k, w => ⟨o, (outside w o).1⟩ :: (k (outside w o).1).runEvents outside (outside w o).2

theorem Trace.of_run (outside : W → (o : S.Call) → Except ε (S.Ans o) × W) (p : Prog S ε α) (w : W) :
    Trace p (.ofExcept (p.run outside w).1) (p.runEvents outside w) := by
  induction p generalizing w with
  | ret a => exact .ret
  | throw e => exact .throw
  | call o k ih => exact .call _ (ih _ _)

theorem Follows.of_run {outside : W → (o : S.Call) → Except ε (S.Ans o) × W}
    (hout : ∀ w o, H w o (outside w o).1 (outside w o).2) (p : Prog S ε α) (w : W) :
    Follows H w (p.runEvents outside w) (p.run outside w).2 := by
  induction p generalizing w with
  | ret a => exact .nil
  | throw e => exact .nil
  | call o k ih => exact .cons (hout w o) (ih _ _)

theorem Prog.runEvents_bind {outside : W → (o : S.Call) → Except ε (S.Ans o) × W} {p : Prog S ε α} {f : α → Prog S ε β}
    {w : W} {a : α} (h : (p.run outside w).1 = .ok a) :
    (p.bind f).runEvents outside w = p.runEvents outside w ++ (f a).runEvents outside (p.run outside w).2 := by
  induction p generalizing w with
  | ret b =>
    obtain rfl := Except.ok.inj h
    rfl
  | throw e => cases h
  | call o k ih => exact congrArg (List.cons _) (ih _ h)

end OciHpc
