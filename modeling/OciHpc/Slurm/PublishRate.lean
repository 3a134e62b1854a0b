import Mathlib.Algebra.Order.Ring.Int
import Mathlib.Data.List.Chain
import OciHpc.Base.Locked
import OciHpc.Slurm.NotifyWorker

/-!
# The publish rate limit

The worker waits before each attempt to publish, and keeps the time of the last one in its lock file.

* `RateWorld`, `rateAnswers` : the clock, the lock file and the attempts; every other answer is arbitrary;
* `Spaced` : the attempts are apart, and the lock file still shows the last one as long as that matters;
* `attempts_apart` : the attempts of all runs are 6.1 s apart, so at most ten fall in a minute.
-/

namespace OciHpc.Slurm

/-- `now` is the clock, `clockRead` its last reading by the worker. An attempt is timed by the reading made for it;
the last attempt comes first. -/
structure RateWorld where
  now : Int
  lock : LockText
  clockRead : Int
  attempts : List Int

def WorkerCall.paced : WorkerCall → Bool
  | .clock | .sleep _ | .readLock | .truncateLock | .writeLock _ | .syncLock | .runOci .. => true
  | _ => false

def WorkerCall.isAttempt : WorkerCall → Bool
  | .runOci .. => true
  | _ => false

def WorkerCall.changesLock : WorkerCall → Bool
  | .truncateLock | .writeLock _ | .syncLock => true
  | _ => false

theorem paced_of_changesLock {call : WorkerCall} (h : call.changesLock) : call.paced := by
  cases call <;> first | rfl | cases h

/-- Any call takes time. A lock file that could not be written may hold anything; a sleep lasts at least as long as
asked. Every outcome of an attempt, and every answer of the calls that are not `paced`, is possible. -/
inductive rateAnswers : Handler workerSig WorkerError RateWorld
  | clock (w : RateWorld) (t : Int) (later : w.now ≤ t) :
      rateAnswers w .clock (.ok t) { w with now := t, clockRead := t }
  | slept (w : RateWorld) (d t : Int) (later : w.now ≤ t) (enough : w.now + d ≤ t) :
      rateAnswers w (.sleep d) (.ok ()) { w with now := t }
  | readLock (w : RateWorld) (t : Int) (later : w.now ≤ t) :
      rateAnswers w .readLock (.ok w.lock) { w with now := t }
  | truncated (w : RateWorld) (t : Int) (later : w.now ≤ t) :
      rateAnswers w .truncateLock (.ok ()) { w with now := t, lock := .blank }
  | wrote (w : RateWorld) (time t : Int) (later : w.now ≤ t) :
      rateAnswers w (.writeLock time) (.ok ()) { w with now := t, lock := .number time }
  | synced (w : RateWorld) (t : Int) (later : w.now ≤ t) :
      rateAnswers w .syncLock (.ok ()) { w with now := t }
  | lockFailed (w : RateWorld) (call : WorkerCall) (e : WorkerError) (text : LockText) (t : Int) (later : w.now ≤ t)
      (changes : call.changesLock) : rateAnswers w call (.error e) { w with now := t, lock := text }
  | failed (w : RateWorld) (call : WorkerCall) (e : WorkerError) (t : Int) (later : w.now ≤ t)
      (keeps : call.changesLock = false) (noAttempt : call.isAttempt = false) :
      rateAnswers w call (.error e) { w with now := t }
  | ran (w : RateWorld) (executable region path : String) (r : Except WorkerError OciResult) (t : Int)
      (later : w.now ≤ t) :
      rateAnswers w (.runOci executable region path) r { w with now := t, attempts := w.clockRead :: w.attempts }
  | other (w : RateWorld) (call : WorkerCall) (r : Except WorkerError call.Ans) (t : Int) (later : w.now ≤ t)
      (notPaced : call.paced = false) : rateAnswers w call r { w with now := t }

/-- Between the calls and the runs nothing changes but the clock. -/
def timePasses (w w' : RateWorld) : Prop := w.now ≤ w'.now ∧ w' = { w with now := w'.now }

/-! ## Times with a gap -/

/-- Times, the last one first, with a gap between one and the next. -/
def Apart (gap : Int) (times : List Int) : Prop := times.IsChain fun later earlier => earlier + gap ≤ later

theorem Apart.cons {gap t : Int} {times : List Int} (htimes : Apart gap times)
    (hhead : ∀ last ∈ times.head?, last + gap ≤ t) : Apart gap (t :: times) := by
  unfold Apart
  rw [List.isChain_cons]
  exact ⟨hhead, htimes⟩

theorem Apart.filter {gap : Int} {times : List Int} (hgap : 0 ≤ gap) (h : Apart gap times) (p : Int → Bool) :
    Apart gap (times.filter p) := by
  have : IsTrans Int fun later earlier => earlier + gap ≤ later := ⟨fun a b c hab hbc => by omega⟩
  exact (h.pairwise.filter p).isChain

/-- From the first of the times to the last. -/
theorem Apart.span {gap start : Int} {times : List Int} {last : Int} (h : Apart gap (last :: times))
    (hstart : ∀ t ∈ last :: times, start ≤ t) : start + gap * times.length ≤ last := by
  induction times generalizing last with
  | nil => simpa using hstart last
  | cons previous times ih =>
    unfold Apart at h
    rw [List.isChain_cons_cons] at h
    have hprevious := ih h.2 fun t ht => hstart t (List.mem_cons_of_mem _ ht)
    have hlast := h.1
    rw [List.length_cons, Nat.cast_succ, Int.mul_add, Int.mul_one]
    omega

/-- **How many times fall in a half-open window.** -/
theorem Apart.length_window {gap width : Int} {n : Nat} {times : List Int} (hgap : 0 < gap) (hwidth : width ≤ gap * n)
    (h : Apart gap times) (start : Int) :
    (times.filter fun t => start ≤ t ∧ t < start + width).length ≤ n := by
  have hfilter := h.filter hgap.le fun t => decide (start ≤ t ∧ t < start + width)
  have hmem : ∀ t ∈ times.filter fun t => start ≤ t ∧ t < start + width, start ≤ t ∧ t < start + width := by
    intro t ht
    simpa using (List.mem_filter.mp ht).2
  generalize (times.filter fun t => decide (start ≤ t ∧ t < start + width)) = inside at hfilter hmem ⊢
  cases inside with
  | nil => exact Nat.zero_le n
  | cons last inside =>
    have hspan := hfilter.span fun t ht => (hmem t ht).1
    have hlast := (hmem last List.mem_cons_self).2
    have hlt : gap * inside.length < gap * n := by omega
    have := lt_of_mul_lt_mul_left hlt hgap.le
    rw [List.length_cons]
    omega

/-! ## The lock file and the attempts -/

/-- The attempts are apart. If the last was within the interval, the lock file holds a time no earlier than it. -/
structure Spaced (w : RateWorld) : Prop where
  apart : Apart minPublishInterval w.attempts
  kept : ∀ last ∈ w.attempts.head?,
    (∃ time, w.lock = .number time ∧ last ≤ time ∧ time ≤ w.now) ∨ last + minPublishInterval ≤ w.now

structure Rested (w : RateWorld) : Prop where
  apart : Apart minPublishInterval w.attempts
  rested : ∀ last ∈ w.attempts.head?, last + minPublishInterval ≤ w.now

/-- The attempt to come was timed after the interval, and recorded. -/
structure SlotTaken (w : RateWorld) : Prop where
  apart : Apart minPublishInterval w.attempts
  rested : ∀ last ∈ w.attempts.head?, last + minPublishInterval ≤ w.clockRead
  recorded : w.lock = .number w.clockRead
  read : w.clockRead ≤ w.now

theorem Rested.spaced {w : RateWorld} (h : Rested w) : Spaced w :=
  ⟨h.apart, fun last hlast => .inr (h.rested last hlast)⟩

/-- Where the last attempt is past, nothing that is done to the lock file matters. -/
theorem Rested.later {w : RateWorld} (h : Rested w) {t : Int} (ht : w.now ≤ t) (text : LockText) (clockRead : Int) :
    Rested ⟨t, text, clockRead, w.attempts⟩ :=
  ⟨h.apart, fun last hlast => (h.rested last hlast).trans ht⟩

theorem SlotTaken.spaced {w : RateWorld} (h : SlotTaken w) : Spaced w :=
  ⟨h.apart, fun last hlast => .inr ((h.rested last hlast).trans h.read)⟩

theorem Spaced.later {w : RateWorld} (h : Spaced w) {t : Int} (ht : w.now ≤ t) (clockRead : Int) :
    Spaced { w with now := t, clockRead := clockRead } := by
  refine ⟨h.apart, fun last hlast => ?_⟩
  obtain ⟨time, hlock, hlast, htime⟩ | hrested := h.kept last hlast
  · exact .inl ⟨time, hlock, hlast, htime.trans ht⟩
  · exact .inr (hrested.trans ht)

theorem SlotTaken.later {w : RateWorld} (h : SlotTaken w) {t : Int} (ht : w.now ≤ t) : SlotTaken { w with now := t } :=
  ⟨h.apart, h.rested, h.recorded, h.read.trans ht⟩

theorem SlotTaken.attempt {w : RateWorld} (h : SlotTaken w) {t : Int} (ht : w.now ≤ t) :
    Spaced { w with now := t, attempts := w.clockRead :: w.attempts } := by
  refine ⟨h.apart.cons h.rested, fun last hlast => .inl ⟨w.clockRead, h.recorded, ?_, h.read.trans ht⟩⟩
  rw [List.head?_cons, Option.mem_some_iff] at hlast
  exact hlast.ge

/-! ## The calls that do not concern the rate limit -/

def Unpaced {α : Type} (p : Worker α) : Prop := p.Calls fun call : WorkerCall => call.paced = false

theorem unpaced_work {call : WorkerCall} (h : call.paced = false) : Unpaced (work call) := Prog.calls_perform h

theorem rateAnswers_unpaced {w w' : RateWorld} {call : WorkerCall} {r : Except WorkerError call.Ans}
    (hcall : call.paced = false) (h : rateAnswers w call r w') : ∃ t, w.now ≤ t ∧ w' = { w with now := t } := by
  cases h with
  | failed _ _ e t later => exact ⟨t, later, rfl⟩
  | other _ _ r t later => exact ⟨t, later, rfl⟩
  | lockFailed _ _ e text t later changes => cases hcall.symm.trans (paced_of_changesLock changes)
  | _ => cases hcall

theorem Unpaced.keeps {α : Type} {p : Worker α} {I : RateWorld → Prop} (hp : Unpaced p)
    (hI : ∀ w t, w.now ≤ t → I w → I { w with now := t }) : p.Keeps rateAnswers I := by
  refine Prog.keeps_of_calls hp fun w call r w' hcall hw h => ?_
  obtain ⟨t, ht, rfl⟩ := rateAnswers_unpaced hcall h
  exact hI w t ht hw

theorem Unpaced.spaced {α : Type} {p : Worker α} (hp : Unpaced p) : p.Keeps rateAnswers Spaced :=
  hp.keeps fun w _ ht hw => hw.later ht w.clockRead

theorem Unpaced.slotTaken {α : Type} {p : Worker α} (hp : Unpaced p) : p.Keeps rateAnswers SlotTaken :=
  hp.keeps fun _ _ ht hw => hw.later ht

/-! ## The wait and the record -/

theorem Spaced.failed {w w' : RateWorld} {call : WorkerCall} {e : WorkerError} (h : Spaced w)
    (hcall : call.changesLock = false) (hattempt : call.isAttempt = false)
    (hfailed : rateAnswers w call (.error e) w') : Spaced w' := by
  cases hfailed with
  | failed _ _ _ t later => exact h.later later w.clockRead
  | other _ _ _ t later => exact h.later later w.clockRead
  | lockFailed _ _ _ text t later changes => cases hcall.symm.trans changes
  | ran => cases hattempt

theorem Rested.failed {w w' : RateWorld} {call : WorkerCall} {e : WorkerError} (h : Rested w)
    (hattempt : call.isAttempt = false)
    (hfailed : rateAnswers w call (.error e) w') : Rested w' := by
  cases hfailed with
  | failed _ _ _ t later => exact h.later later w.lock w.clockRead
  | other _ _ _ t later => exact h.later later w.lock w.clockRead
  | lockFailed _ _ _ text t later => exact h.later later text w.clockRead
  | ran => cases hattempt

/-- The delay is enough: the lock file holds the last attempt or a later time, unless the attempt is past. -/
theorem Spaced.slept {w : RateWorld} (h : Spaced w) {time t : Int} (hlock : w.lock = .number time)
    (ht : w.now + min minPublishInterval (max 0 (minPublishInterval - (w.now - time))) ≤ t) :
    ∀ last ∈ w.attempts.head?, last + minPublishInterval ≤ t := by
  intro last hlast
  have hinterval : minPublishInterval = 6100000 := rfl
  obtain ⟨time', hlock', hlast', htime'⟩ | hrested := h.kept last hlast
  · rw [hlock] at hlock'
    cases hlock'
    omega
  · omega

theorem Spaced.past {w : RateWorld} (h : Spaced w) (hlock : ∀ time, w.lock ≠ .number time) :
    ∀ last ∈ w.attempts.head?, last + minPublishInterval ≤ w.now := by
  intro last hlast
  obtain ⟨time, htime, _⟩ | hrested := h.kept last hlast
  · exact absurd htime (hlock time)
  · exact hrested

theorem waitForPublishSlot_rested {w : RateWorld} (h : Spaced w) :
    waitForPublishSlot.wp rateAnswers ⟨fun _ => Rested, fun _ => Spaced, Spaced⟩ w := by
  obtain ⟨now₀, lock, clockRead, attempts⟩ := w
  unfold waitForPublishSlot
  refine Prog.wp_perform_seq h (fun text w₁ hread => ?_) fun e w₁ => h.failed rfl rfl
  cases hread with
  | other _ _ _ t later notPaced => cases notPaced
  | readLock _ t later =>
    have h₁ := h.later later clockRead
    refine Prog.wp_perform_seq h₁ (fun now w₂ hclock => ?_) fun e w₂ => h₁.failed rfl rfl
    cases hclock with
    | other _ _ _ t later notPaced => cases notPaced
    | clock _ now later =>
      have h₂ := h₁.later later now
      cases lock with
      | number time =>
        dsimp only
        split
        case isTrue hdelay =>
          rw [work, Prog.wp_perform]
          refine ⟨h₂, fun _ w₃ hslept => ?_, fun e w₃ => h₂.failed rfl rfl⟩
          cases hslept with
          | other _ _ _ t later notPaced => cases notPaced
          | slept _ _ t later enough => exact ⟨h₂.apart, h₂.slept rfl enough⟩
        case isFalse hdelay =>
          refine ⟨h₂.apart, h₂.slept rfl ?_⟩
          dsimp only
          omega
      | blank => exact ⟨h₂.apart, h₂.past nofun⟩
      | malformed => exact ⟨h₂.apart, h₂.past nofun⟩

/-- Before the call fails or succeeds, the attempt to come is timed. -/
theorem recordPublishAttempt_slotTaken {w : RateWorld} (h : Rested w) (hclock : w.clockRead = w.now) :
    (recordPublishAttempt w.clockRead).wp rateAnswers ⟨fun _ => SlotTaken, fun _ => Spaced, Spaced⟩ w := by
  unfold recordPublishAttempt
  refine Prog.wp_perform_seq h.spaced (fun _ w₁ htruncated => ?_) fun e w₁ he => (h.failed rfl he).spaced
  cases htruncated with
  | other _ _ _ t later notPaced => cases notPaced
  | truncated _ t₁ later₁ =>
    have h₁ : Rested { w with now := t₁, lock := .blank } := h.later later₁ .blank w.clockRead
    refine Prog.wp_perform_seq h₁.spaced (fun _ w₂ hwrote => ?_) fun e w₂ he => (h₁.failed rfl he).spaced
    cases hwrote with
    | other _ _ _ t later notPaced => cases notPaced
    | wrote _ _ t₂ later₂ =>
      have h₂ : Rested { w with now := t₂, lock := .number w.clockRead } := h₁.later later₂ _ w.clockRead
      rw [work, Prog.wp_perform]
      refine ⟨h₂.spaced, fun _ w₃ hsynced => ?_, fun e w₃ he => (h₂.failed rfl he).spaced⟩
      cases hsynced with
      | other _ _ _ t later notPaced => cases notPaced
      | synced _ t₃ later₃ =>
        refine ⟨h.apart, fun last hlast => ?_, rfl, hclock.le.trans (later₁.trans (later₂.trans later₃))⟩
        exact hclock ▸ h.rested last hlast

theorem takeSlot_slotTaken {w : RateWorld} (h : Spaced w) :
    takeSlot.wp rateAnswers ⟨fun _ => SlotTaken, fun _ => Spaced, Spaced⟩ w := by
  unfold takeSlot
  refine Prog.wp_seq (waitForPublishSlot_rested h) fun _ w₁ h₁ => ?_
  refine Prog.wp_perform_seq h₁.spaced (fun now w₂ hclock => ?_) fun e w₂ he => (h₁.failed rfl he).spaced
  cases hclock with
  | other _ _ _ t later notPaced => cases notPaced
  | clock _ now later => exact recordPublishAttempt_slotTaken (h₁.later later w₁.lock now) rfl

/-! ## The run -/

theorem unpaced_bind {α β : Type} {p : Worker α} {f : α → Worker β} (hp : Unpaced p) (hf : ∀ a, Unpaced (f a)) :
    Unpaced (p.bind f) := Prog.Calls.bind hp hf

theorem unpaced_exceptOs {α : Type} {p handler : Worker α} (hp : Unpaced p) (hh : Unpaced handler) :
    Unpaced (exceptOs p handler) := by
  refine Prog.Calls.tryCatch hp fun e => ?_
  split
  · exact hh
  · trivial

theorem unpaced_findOci : Unpaced findOci := by
  refine unpaced_bind (unpaced_work rfl) fun found => ?_
  cases found with
  | some executable => trivial
  | none =>
    refine unpaced_bind (unpaced_work rfl) fun found => ?_
    cases found with
    | true => trivial
    | false =>
      refine unpaced_bind (unpaced_work rfl) fun found => ?_
      cases found <;> trivial

theorem unpaced_executableOrFound (executable : Option String) : Unpaced (executableOrFound executable) := by
  cases executable with
  | none => exact unpaced_findOci
  | some executable =>
    unfold executableOrFound
    dsimp only
    split
    · exact unpaced_findOci
    · trivial

theorem unpaced_removeInput (path : String) : Unpaced (removeInput path) := by
  refine unpaced_bind (unpaced_work rfl) fun left => ?_
  cases left with
  | true => exact unpaced_exceptOs (unpaced_work rfl) trivial
  | false => trivial

theorem unpaced_moveAside (name failedName : FileName) : Unpaced (moveAside name failedName) :=
  unpaced_bind (unpaced_work rfl) fun _ => unpaced_work rfl

theorem unpaced_expire (name : FileName) : Unpaced (expire name) :=
  unpaced_bind (unpaced_moveAside name name) fun _ => unpaced_work rfl

theorem unpaced_discard (name : FileName) : Unpaced (discard name) :=
  unpaced_bind (unpaced_work rfl) fun _ => unpaced_work rfl

theorem unpaced_removeTemporary (path : String) : Unpaced (removeTemporary path) := by
  refine unpaced_bind (unpaced_work rfl) fun left => ?_
  cases left with
  | true => exact unpaced_work rfl
  | false => trivial

theorem unpaced_atomicWrite (name : FileName) (message : Dict) : Unpaced (atomicWrite name message) := by
  refine unpaced_bind (unpaced_work rfl) fun path => unpaced_bind (Prog.Calls.attempt ?_) fun result => ?_
  · exact unpaced_bind (unpaced_work rfl) fun _ => unpaced_work rfl
  · exact unpaced_bind (unpaced_removeTemporary path) fun _ => Prog.calls_ofExcept _ result

theorem unpaced_markRetry (name : FileName) (message : Option Dict) (now : Int) :
    Unpaced (markRetry name message now) := by
  unfold markRetry
  dsimp only
  split
  · exact unpaced_expire name
  · exact unpaced_bind (unpaced_atomicWrite name _) fun _ => unpaced_work rfl

theorem unpaced_onError (name : FileName) (loaded : Option Dict) (progress : Progress) (error : WorkerError) :
    Unpaced (onError name loaded progress error) := by
  have hreport : Unpaced (work (.report name)) := unpaced_work rfl
  unfold onError
  split
  · refine unpaced_bind (unpaced_exceptOs ?_ hreport) fun _ => trivial
    exact unpaced_bind (unpaced_moveAside name name) fun _ => hreport
  · split
    · exact unpaced_bind hreport fun _ => trivial
    · refine unpaced_bind (Prog.Calls.attempt (unpaced_bind (unpaced_work rfl) fun now => ?_)) fun result => ?_
      · exact unpaced_markRetry name loaded now
      · cases result with
        | ok => trivial
        | error retryError =>
          dsimp only
          split
          · exact unpaced_bind hreport fun _ => trivial
          · trivial

theorem unpaced_removeDelivered (name : FileName) : Unpaced (removeDelivered name) := by
  refine unpaced_bind (unpaced_exceptOs (unpaced_work rfl) ?_) fun _ => unpaced_work rfl
  exact unpaced_bind (unpaced_exceptOs (unpaced_moveAside name _) trivial) fun _ => unpaced_work rfl

/-- The end of the work on a message, whatever came before. -/
theorem settle_spaced {name : FileName} {message : Dict} {progress : Progress} {p : Worker Unit} {w : RateWorld}
    (hp : p.wp rateAnswers (Locked.always Spaced) w) :
    (settle name message progress p).wp rateAnswers (Locked.always Spaced) w := by
  refine Prog.wp_seq_attempt hp (fun _ w' h => h) fun error w' h => ?_
  exact (unpaced_onError name (some message) progress error).spaced w' h

theorem finally_spaced {α : Type} {p : Worker α} {cleanup : Worker Unit} {w : RateWorld}
    (hp : p.wp rateAnswers (Locked.always Spaced) w) (hcleanup : Unpaced cleanup) :
    (Prog.withFinally p cleanup).wp rateAnswers (Locked.always Spaced) w := by
  refine Prog.wp_seq_attempt hp (fun a w₁ h₁ => ?_) fun e w₁ h₁ => ?_
  · exact (unpaced_bind hcleanup fun _ => Prog.calls_ofExcept _ _).spaced w₁ h₁
  · exact (unpaced_bind hcleanup fun _ => Prog.calls_ofExcept _ _).spaced w₁ h₁

theorem attempt_spaced {executable region topicId title body : String} (inputPath : String) {w : RateWorld}
    (h : SlotTaken w) :
    ((work (.writeInput inputPath topicId title body)).bind fun _ => work (.runOci executable region inputPath)).wp
      rateAnswers (Locked.always Spaced) w := by
  refine Prog.wp_seq (Prog.wp_mono ((unpaced_work rfl).slotTaken w h) (fun _ _ h => h) (fun _ _ h => h.spaced)
    fun _ h => h.spaced) fun _ w₁ h₁ => ?_
  refine ⟨h₁.spaced, fun r w₂ hran => ?_⟩
  cases hran with
  | failed _ _ e t later keeps noAttempt => cases noAttempt
  | lockFailed _ _ e text t later changes => cases changes
  | other _ _ r t later notPaced => cases notPaced
  | ran _ _ _ _ _ t later =>
    have h₂ := h₁.attempt later
    cases r with
    | ok => exact h₂
    | error => exact h₂

theorem publish_spaced (message : Dict) (executable : Option String) {w : RateWorld} (h : SlotTaken w) :
    (publish message executable).wp rateAnswers (Locked.always Spaced) w := by
  unfold publish
  refine Prog.wp_ofExcept_seq (fun _ _ => ?_) fun _ _ => h.spaced
  refine Prog.wp_ofExcept_seq (fun _ _ => ?_) fun _ _ => h.spaced
  refine Prog.wp_seq (Prog.wp_mono ((unpaced_executableOrFound executable).slotTaken w h) (fun _ _ h => h) (fun _ _ h => h.spaced) fun _ h => h.spaced)
    fun executable w₁ h₁ => ?_
  refine Prog.wp_seq (Prog.wp_mono ((unpaced_work rfl).slotTaken w₁ h₁) (fun _ _ h => h) (fun _ _ h => h.spaced)
    fun _ h => h.spaced) fun inputPath w₂ h₂ => ?_
  refine Prog.wp_seq (finally_spaced (attempt_spaced inputPath h₂) (unpaced_removeInput inputPath))
    fun result w₃ h₃ => ?_
  split
  · exact h₃
  · exact h₃

theorem handleMessage_spaced (executable : Option String) (activeTopics : Dict) (name : FileName) (message : Dict)
    (progress : Progress) {w : RateWorld} (h : Spaced w) :
    (handleMessage executable activeTopics name message progress).wp rateAnswers (Locked.always Spaced) w := by
  unfold handleMessage
  refine Prog.wp_seq ((unpaced_work rfl).spaced w h) fun now w₁ h₁ => ?_
  split
  · exact h₁
  · split
    · exact settle_spaced ((unpaced_expire name).spaced w₁ h₁)
    · split
      · exact settle_spaced ((unpaced_discard name).spaced w₁ h₁)
      · split
        · exact h₁
        · refine Prog.wp_seq_attempt (takeSlot_slotTaken h₁) (fun _ w₂ h₂ => settle_spaced ?_) fun error w₂ h₂ => ?_
          · refine Prog.wp_seq (publish_spaced message executable h₂) fun _ w₃ h₃ => ?_
            exact (unpaced_removeDelivered name).spaced w₃ h₃
          · exact (unpaced_onError name (some message) progress error).spaced w₂ h₂

theorem examine_spaced (executable : Option String) (activeTopics : Dict) (progress : Progress) (name : FileName)
    {w : RateWorld} (h : Spaced w) :
    (examine executable activeTopics progress name).wp rateAnswers (Locked.always Spaced) w := by
  have hread : Unpaced ((work (.openMessage name)).bind fun content => .ofExcept (validateMessage content)) :=
    unpaced_bind (unpaced_work rfl) fun content => Prog.calls_ofExcept _ _
  refine Prog.wp_seq_attempt (hread.spaced w h) (fun message w₁ h₁ => ?_) fun error w₁ h₁ => ?_
  · exact handleMessage_spaced executable activeTopics name message progress h₁
  · exact (unpaced_onError name none progress error).spaced w₁ h₁

theorem unpaced_queuedMessageNames : Unpaced queuedMessageNames := by
  refine unpaced_bind (unpaced_work rfl) fun names => unpaced_bind ?_ fun aged => trivial
  refine Prog.Calls.forEach (fun aged name => ?_) _ []
  exact unpaced_bind (unpaced_exceptOs (unpaced_work rfl) trivial) fun age => trivial

theorem processQueue_spaced (executable : Option String) {w : RateWorld} (h : Spaced w) :
    (processQueue true executable).wp rateAnswers (Locked.always Spaced) w := by
  refine Prog.wp_seq ((unpaced_work rfl).spaced w h) fun registry w₁ h₁ => ?_
  split
  · exact h₁
  · refine Prog.wp_seq (unpaced_queuedMessageNames.spaced w₁ h₁) fun names w₂ h₂ => ?_
    refine Prog.wp_seq (Prog.wp_forEach (fun _ _ => Spaced) (fun _ _ h => h) (fun name _ progress w h => ?_) h₂)
      fun progress w₃ h₃ => h₃
    exact examine_spaced executable _ progress name h

theorem timePasses_spaced (w w' : RateWorld) (hw : timePasses w w') (h : Spaced w) : Spaced w' := by
  obtain ⟨hlater, hw⟩ := hw
  rw [hw]
  exact h.later hlater w.clockRead

/-- Time that passes before a call may as well pass in the call. -/
theorem rateAnswers_absorbs : Locked.Absorbs rateAnswers timePasses := by
  intro w w' call r w'' hw h
  obtain ⟨hlater, hw⟩ := hw
  obtain ⟨now, lock, clockRead, attempts⟩ := w'
  cases hw
  cases h with
  | clock _ t later => exact .clock w t (hlater.trans later)
  | slept _ d t later enough => exact .slept w d t (hlater.trans later) ((Int.add_le_add_right hlater d).trans enough)
  | readLock _ t later => exact .readLock w t (hlater.trans later)
  | truncated _ t later => exact .truncated w t (hlater.trans later)
  | wrote _ time t later => exact .wrote w time t (hlater.trans later)
  | synced _ t later => exact .synced w t (hlater.trans later)
  | lockFailed _ _ e text t later changes => exact .lockFailed w call e text t (hlater.trans later) changes
  | failed _ _ e t later keeps noAttempt => exact .failed w call e t (hlater.trans later) keeps noAttempt
  | ran _ executable region path r t later => exact .ran w executable region path r t (hlater.trans later)
  | other _ _ r t later notPaced => exact .other w call r t (hlater.trans later) notPaced

/-- **The attempts to publish are at least 6.1 s apart, and at most ten fall in a window of a minute.** Any number of
runs, each of which may be killed between any two steps. -/
theorem attempts_apart {w : RateWorld} {s : Locked.State workerSig WorkerError Nat RateWorld} (hfirst : w.attempts = [])
    (hreach : Locked.Reach rateAnswers timePasses IsRun w s) :
    Apart minPublishInterval s.world.attempts ∧
      ∀ start, (s.world.attempts.filter fun t => start ≤ t ∧ t < start + 60000000).length ≤ 10 := by
  have hinit : Spaced w := by
    constructor
    · rw [hfirst]
      exact List.isChain_nil
    · rw [hfirst]
      exact fun last => nofun
  have hspaced : Spaced s.world := by
    refine hreach.invariant hinit ?_ timePasses_spaced rateAnswers_absorbs
    rintro _ ⟨executable, rfl⟩ w h
    exact processQueue_spaced executable h
  exact ⟨hspaced.apart, hspaced.apart.length_window (by decide) (by decide)⟩

def twoMessage : Json :=
  .obj [("version", .int 1), ("id", .str "m1"), ("created_at", .int 100), ("expires_at", .int 7300),
    ("next_attempt_at", .int 100), ("attempts", .int 0), ("region", .str "us-phoenix-1"),
    ("topic_id", .str "ocid1.onstopic.ann"), ("username", .str "ann"), ("job_id", .str "17"), ("mail_type", .str "END"),
    ("title", .str "Job 17 ended"), ("body", .str "done")]

/-- Two messages, the first of which is refused by the service. -/
def twoOutside (w : RateWorld) : (call : WorkerCall) → Except WorkerError call.Ans × RateWorld
  | .readRegistry => (.ok (.json (.obj [("config", .obj [("enabled", .bool true)]),
      ("users", .obj [("ann", .obj [("topic_id", .str "ocid1.onstopic.ann")])])])), w)
  | .listSpool => (.ok [PyText.ofString "a.json", PyText.ofString "b.json"], w)
  | .modifiedAt _ => (.ok 50, w)
  | .openMessage _ => (.ok twoMessage, w)
  | .time => (.ok 101, w)
  | .readLock => (.ok w.lock, w)
  | .clock => (.ok (w.now + 1), { w with now := w.now + 1, clockRead := w.now + 1 })
  | .sleep duration => (.ok (), { w with now := w.now + max 0 duration })
  | .truncateLock => (.ok (), { w with lock := .blank })
  | .writeLock time => (.ok (), { w with lock := .number time })
  | .syncLock => (.ok (), w)
  | .runOci _ _ _ => (.ok ⟨if w.attempts.isEmpty then 1 else 0, "TooManyRequests"⟩,
      { w with attempts := w.clockRead :: w.attempts })
  | .which => (.ok (some "/usr/bin/oci"), w)
  | .isExecutable _ => (.ok true, w)
  | .exists _ => (.ok false, w)
  | .mkstemp => (.ok "/var/spool/slurm-oci-notify/.publish-input-a.tmp", w)
  | .makeFailed | .moveToFailed _ _ | .unlink _ | .writeInput .. | .writeTemporary .. | .replaceMessage _ _
  | .unlinkTemporary _ | .report _ | .log => (.ok (), w)

theorem twoOutside_answers (w : RateWorld) (call : WorkerCall) :
    rateAnswers w call (twoOutside w call).1 (twoOutside w call).2 := by
  cases call with
  | readLock => exact .readLock w w.now le_rfl
  | clock => exact .clock w (w.now + 1) (by omega)
  | sleep duration => exact .slept w duration _ (by omega) (by omega)
  | truncateLock => exact .truncated w w.now le_rfl
  | writeLock time => exact .wrote w time w.now le_rfl
  | syncLock => exact .synced w w.now le_rfl
  | runOci executable region path => exact .ran w executable region path _ w.now le_rfl
  | _ => exact .other w _ _ w.now le_rfl rfl

theorem attempts_apart_two :
    let run := (processQueue true none).run twoOutside ⟨100000000, .blank, 0, []⟩
    run.2.attempts = [106100003, 100000002] ∧ Apart minPublishInterval run.2.attempts ∧
      ∀ start, (run.2.attempts.filter fun t => start ≤ t ∧ t < start + 60000000).length ≤ 10 := by
  have hexec := Exec.of_run twoOutside_answers (processQueue true none) ⟨100000000, .blank, 0, []⟩
  have hreach : Locked.Reach rateAnswers timePasses IsRun ⟨100000000, .blank, 0, []⟩ _ :=
    .of_exec .refl ⟨none, rfl⟩ hexec
  exact ⟨by decide +kernel, attempts_apart rfl hreach⟩

end OciHpc.Slurm
