import Mathlib.Data.List.Dedup
import OciHpc.Slurm.QueueWorld

/-!
# The worker neither loses nor duplicates

* `Frame`, `Handling`, `Holding`, `MayMove` : what is known while a message is worked on;
* a lemma for each part of the worker: what it keeps, and what holds where it raises;
* `examine_spec`, `processQueue_spec` : one message, one run;
* `delivers_of_foreseen` : every run whose calls have foreseen answers;
* `undecodable_name_stops` : a file name that cannot be written to the log stops a run.
-/

namespace OciHpc.Slurm
open OciHpc.ClusterCli (RegistryFile)

/-! ## What is known -/

/-- What a run keeps while it works on a message; at most `limit` attempts were made. -/
structure Frame where
  registry : RegistryFile
  listing : List FileName
  examined : List FileName
  limit : Nat

structure Frame.Holds (f : Frame) (w : QueueWorld) : Prop where
  kept : Kept w
  registry : w.run.registry = f.registry
  listing : w.run.listing = f.listing
  examined : w.run.examined = f.examined
  arrived : ∀ name ∈ f.listing, name ∈ w.arrived
  attempts : w.run.attempts ≤ f.limit
  limit : f.limit ≤ maxPublishAttemptsPerRun

structure Handling (f : Frame) (name : FileName) (w : QueueWorld) : Prop extends f.Holds w where
  current : w.run.current = name
  listed : name ∈ f.listing

structure Holding (f : Frame) (name : FileName) (content : MessageFile) (w : QueueWorld) : Prop
    extends Handling f name w where
  queue : w.queue name = some content

/-- If the file is still in the queue, there is a reason to move it away. -/
structure MayMove (f : Frame) (name : FileName) (w : QueueWorld) : Prop extends Handling f name w where
  justified : ∀ content, w.queue name = some content → ∀ failedName,
    MayLeave ⟨name, content, some failedName, w.run⟩

structure Steady (I : QueueWorld → Prop) : Prop where
  stable : ∀ w w', Arrivals w w' → I w → I w'
  kept : ∀ w, I w → Kept w

variable {f : Frame} {name : FileName} {content : MessageFile} {message : Dict}

theorem Frame.Holds.grown {w w' : QueueWorld} (h : f.Holds w) (hw : Grown w w') : f.Holds w' where
  kept := hw.kept h.kept
  registry := hw.run ▸ h.registry
  listing := hw.run ▸ h.listing
  examined := hw.run ▸ h.examined
  arrived := fun name hname => (hw.arrived name (h.arrived name hname)).1
  attempts := hw.run ▸ h.attempts
  limit := h.limit

theorem Handling.grown {w w' : QueueWorld} (h : Handling f name w) (hw : Grown w w') : Handling f name w' where
  toHolds := h.toHolds.grown hw
  current := hw.run ▸ h.current
  listed := h.listed

theorem Handling.queue_grown {w w' : QueueWorld} (h : Handling f name w) (hw : Grown w w') :
    w'.queue name = w.queue name := (hw.arrived name (h.arrived name h.listed)).2

theorem steady_handling : Steady (Handling f name) :=
  ⟨fun _ _ hw h => h.grown (grown_of_arrivals hw), fun _ h => h.kept⟩

theorem steady_holding : Steady (Holding f name content) := by
  refine ⟨fun w w' hw h => ⟨h.toHandling.grown (grown_of_arrivals hw), ?_⟩, fun _ h => h.kept⟩
  exact (h.toHandling.queue_grown (grown_of_arrivals hw)).trans h.queue

theorem steady_mayMove : Steady (MayMove f name) := by
  refine ⟨fun w w' hw h => ⟨h.toHandling.grown (grown_of_arrivals hw), ?_⟩, fun _ h => h.kept⟩
  intro content hqueue failedName
  have hgrown := grown_of_arrivals hw
  rw [h.toHandling.queue_grown hgrown] at hqueue
  rw [hgrown.run]
  exact h.justified content hqueue failedName

theorem Steady.and_run {I : QueueWorld → Prop} (hI : Steady I) (P : RunInfo → Prop) :
    Steady fun w => I w ∧ P w.run := by
  refine ⟨fun w w' hw h => ⟨hI.stable w w' hw h.1, ?_⟩, fun w h => hI.kept w h.1⟩
  rw [(grown_of_arrivals hw).run]
  exact h.2

/-! ## Calls without an effect on the queue -/

def WorkerCall.quiet : WorkerCall → Bool
  | .readRegistry | .listSpool | .openMessage _ | .time | .moveToFailed _ _ | .unlink _ | .writeInput .. | .runOci ..
  | .writeTemporary .. | .replaceMessage _ _ => false
  | _ => true

theorem after_quiet {w : QueueWorld} {call : WorkerCall} (hquiet : call.quiet) (r : Except WorkerError call.Ans) :
    w.after call r = w := by
  cases call <;> first | rfl | cases hquiet

def Raised (call : WorkerCall) (e : WorkerError) : Prop := Foreseen call (.error e) ∧ ∃ w : QueueWorld, w.Raises call e

theorem quiet_spec {I : QueueWorld → Prop} (hI : Steady I) {call : WorkerCall} (hquiet : call.quiet) {w : QueueWorld}
    (h : I w) : (work call).wp foreseenAnswers ⟨fun _ => I, fun e w' => Raised call e ∧ I w', Kept⟩ w := by
  refine ⟨hI.kept w h, fun r w' hr => ?_⟩
  obtain ⟨hforeseen, w₁, harrivals, rfl, hanswer⟩ := hr
  have h₁ := hI.stable w w₁ harrivals h
  cases r with
  | ok a => exact (after_quiet hquiet (.ok a)).symm ▸ h₁
  | error e => exact ⟨⟨hforeseen, w₁, hanswer⟩, (after_quiet hquiet (.error e)).symm ▸ h₁⟩

theorem quiet_seq {β : Type} {I : QueueWorld → Prop} (hI : Steady I) {call : WorkerCall} (hquiet : call.quiet)
    {p : call.Ans → Worker β} {R : β → QueueWorld → Prop} {E : WorkerError → QueueWorld → Prop} {w : QueueWorld} (h : I w)
    (hok : ∀ a w', I w' → (p a).wp foreseenAnswers ⟨R, E, Kept⟩ w') (herr : ∀ e w', Raised call e → I w' → E e w') :
    ((work call).bind p).wp foreseenAnswers ⟨R, E, Kept⟩ w :=
  Prog.wp_seq (Prog.wp_mono (quiet_spec hI hquiet h) (fun _ _ h => h) (fun e w' h => herr e w' h.1 h.2) fun _ h => h) hok

/-- The calls that raise nothing but an `OSError`, if their answers are foreseen. -/
def WorkerCall.plain : WorkerCall → Bool
  | .readRegistry | .openMessage _ | .report _ | .log | .runOci .. | .writeTemporary .. => false
  | _ => true

theorem isOs_of_raised {call : WorkerCall} {e : WorkerError} (hplain : call.plain) (h : Raised call e) : e.isOs := by
  obtain ⟨hforeseen, w, he⟩ := h
  cases call with
  | readLock => exact hforeseen
  | listSpool | modifiedAt | makeFailed | moveToFailed | unlink | truncateLock | writeLock | syncLock | mkstemp
  | writeInput | replaceMessage | unlinkTemporary => exact he
  | time | clock | sleep | which | isExecutable | «exists» => exact he.elim
  | readRegistry | openMessage | report | log | runOci | writeTemporary => cases hplain

/-- The sequence rule after a call that raises nothing but an `OSError`. -/
theorem plain_seq {β : Type} {I : QueueWorld → Prop} (hI : Steady I) {call : WorkerCall} (hquiet : call.quiet)
    (hplain : call.plain) {p : call.Ans → Worker β} {R : β → QueueWorld → Prop} {E : WorkerError → QueueWorld → Prop}
    {w : QueueWorld} (h : I w) (hok : ∀ a w', I w' → (p a).wp foreseenAnswers ⟨R, E, Kept⟩ w')
    (herr : ∀ e w', e.isOs → I w' → E e w') : ((work call).bind p).wp foreseenAnswers ⟨R, E, Kept⟩ w :=
  quiet_seq hI hquiet h hok fun e w' he => herr e w' (isOs_of_raised hplain he)

theorem plain_spec {I : QueueWorld → Prop} (hI : Steady I) {call : WorkerCall} (hquiet : call.quiet)
    (hplain : call.plain) {w : QueueWorld} (h : I w) :
    (work call).wp foreseenAnswers ⟨fun _ => I, fun e w' => e.isOs ∧ I w', Kept⟩ w :=
  Prog.wp_mono (quiet_spec hI hquiet h) (fun _ _ h => h) (fun _ _ h => ⟨isOs_of_raised hplain h.1, h.2⟩) fun _ h => h

/-- The line is written: its name can be encoded. -/
theorem report_spec {I : QueueWorld → Prop} (hI : Steady I) {w : QueueWorld} (h : I w) :
    (work (.report name)).wp foreseenAnswers ⟨fun _ => I, fun _ _ => False, Kept⟩ w := by
  refine Prog.wp_mono (quiet_spec hI rfl h) (fun _ _ h => h) (fun e w' he => ?_) fun _ h => h
  obtain ⟨hencodes, w₁, hencode, -⟩ := he.1
  exact hencodes hencode

theorem log_spec {I : QueueWorld → Prop} (hI : Steady I) {w : QueueWorld} (h : I w) :
    (work .log).wp foreseenAnswers ⟨fun _ => I, fun e w' => e.isMalformed ∧ I w', Kept⟩ w := by
  refine Prog.wp_mono (quiet_spec hI rfl h) (fun _ _ h => h) (fun e w' he => ?_) fun _ h => h
  obtain ⟨-, w₁, hmalformed⟩ := he.1
  exact ⟨hmalformed, he.2⟩

/-! ## The wait and the record -/

theorem takeSlot_spec {I : QueueWorld → Prop} (hI : Steady I) {w : QueueWorld} (h : I w) :
    takeSlot.wp foreseenAnswers ⟨fun _ => I, fun e w' => e.isOs ∧ I w', Kept⟩ w := by
  have hraises : ∀ (e : WorkerError) w', e.isOs → I w' → e.isOs ∧ I w' := fun _ _ he h => ⟨he, h⟩
  refine Prog.wp_seq (R := fun _ => I) ?_ fun _ w₁ h₁ => ?_
  · refine plain_seq hI rfl rfl h (fun text w₁ h₁ => plain_seq hI rfl rfl h₁ (fun now w₂ h₂ => ?_) hraises) hraises
    cases text with
    | number time =>
      dsimp only
      split
      · exact plain_spec hI rfl rfl h₂
      · exact h₂
    | blank => exact h₂
    | malformed => exact h₂
  · refine plain_seq hI rfl rfl h₁ (fun now w₂ h₂ => ?_) hraises
    refine plain_seq hI rfl rfl h₂ (fun _ w₃ h₃ => ?_) hraises
    exact plain_seq hI rfl rfl h₃ (fun _ w₄ h₄ => plain_spec hI rfl rfl h₄) hraises

/-! ## Moving and replacing files -/

structure Gone (f : Frame) (name : FileName) (w : QueueWorld) : Prop extends Handling f name w where
  queue : w.queue name = none

theorem Gone.mayMove {w : QueueWorld} (h : Gone f name w) : MayMove f name w :=
  ⟨h.toHandling, fun _ hqueue => nomatch h.queue.symm.trans hqueue⟩

theorem steady_gone : Steady (Gone f name) := by
  refine ⟨fun w w' hw h => ⟨h.toHandling.grown (grown_of_arrivals hw), ?_⟩, fun _ h => h.kept⟩
  exact (h.toHandling.queue_grown (grown_of_arrivals hw)).trans h.queue

theorem Handling.leave {w : QueueWorld} (h : Handling f name w) {failedName : Option FileName}
    (hqueue : w.queue name ≠ none)
    (hjustified : ∀ content, w.queue name = some content → MayLeave ⟨name, content, failedName, w.run⟩) :
    Gone f name (w.leave name failedName) := by
  obtain ⟨content, hcontent⟩ := Option.ne_none_iff_exists'.mp hqueue
  have hkept := h.kept.leave hcontent (hjustified content hcontent)
  rw [leave_eq hcontent] at hkept ⊢
  exact ⟨⟨⟨hkept, h.registry, h.listing, h.examined, h.arrived, h.attempts, h.limit⟩, h.current, h.listed⟩, if_pos rfl⟩

/-- Removing or moving a file: it leaves, or the call fails and changes nothing. -/
theorem moveToFailed_spec {I : QueueWorld → Prop} (hI : Steady I) {failedName : FileName}
    (hhandling : ∀ w, I w → Handling f name w)
    (hjustified : ∀ w, I w → ∀ content, w.queue name = some content →
      MayLeave ⟨name, content, some failedName, w.run⟩) {w : QueueWorld} (h : I w) :
    (work (.moveToFailed name failedName)).wp foreseenAnswers
      ⟨fun _ => Gone f name, fun e w' => e.isOs ∧ I w', Kept⟩ w := by
  refine ⟨hI.kept w h, fun r w' hr => ?_⟩
  obtain ⟨-, w₁, harrivals, rfl, hanswer⟩ := hr
  have h₁ := hI.stable w w₁ harrivals h
  cases r with
  | ok a => exact (hhandling w₁ h₁).leave hanswer (hjustified w₁ h₁)
  | error e => exact ⟨hanswer, h₁⟩

theorem unlink_spec {I : QueueWorld → Prop} (hI : Steady I) (hhandling : ∀ w, I w → Handling f name w)
    (hjustified : ∀ w, I w → ∀ content, w.queue name = some content → MayLeave ⟨name, content, none, w.run⟩)
    {w : QueueWorld} (h : I w) :
    (work (.unlink name)).wp foreseenAnswers ⟨fun _ => Gone f name, fun e w' => e.isOs ∧ I w', Kept⟩ w := by
  refine ⟨hI.kept w h, fun r w' hr => ?_⟩
  obtain ⟨-, w₁, harrivals, rfl, hanswer⟩ := hr
  have h₁ := hI.stable w w₁ harrivals h
  cases r with
  | ok a => exact (hhandling w₁ h₁).leave hanswer (hjustified w₁ h₁)
  | error e => exact ⟨hanswer, h₁⟩

theorem moveAside_spec {I : QueueWorld → Prop} (hI : Steady I) {failedName : FileName}
    (hhandling : ∀ w, I w → Handling f name w)
    (hjustified : ∀ w, I w → ∀ content, w.queue name = some content →
      MayLeave ⟨name, content, some failedName, w.run⟩) {w : QueueWorld} (h : I w) :
    (moveAside name failedName).wp foreseenAnswers ⟨fun _ => Gone f name, fun e w' => e.isOs ∧ I w', Kept⟩ w :=
  plain_seq hI rfl rfl h (fun _ _ h₁ => moveToFailed_spec hI hhandling hjustified h₁) fun _ _ he h => ⟨he, h⟩

theorem moveAside_mayMove (failedName : FileName) {w : QueueWorld} (h : MayMove f name w) :
    (moveAside name failedName).wp foreseenAnswers
      ⟨fun _ => Gone f name, fun e w' => e.isOs ∧ MayMove f name w', Kept⟩ w :=
  moveAside_spec steady_mayMove (fun _ h => h.toHandling) (fun _ h content hqueue => h.justified content hqueue _) h

theorem exceptOs_spec {α : Type} {p handler : Worker α} {I : QueueWorld → Prop} {R : α → QueueWorld → Prop}
    {E : WorkerError → QueueWorld → Prop} {w : QueueWorld}
    (hp : p.wp foreseenAnswers ⟨R, fun e w' => e.isOs ∧ I w', Kept⟩ w)
    (hhandler : ∀ w', I w' → handler.wp foreseenAnswers ⟨R, E, Kept⟩ w') :
    (exceptOs p handler).wp foreseenAnswers ⟨R, E, Kept⟩ w := by
  unfold exceptOs
  rw [Prog.wp_tryCatch]
  refine Prog.wp_mono hp (fun _ _ h => h) (fun e w' h => ?_) fun _ h => h
  dsimp only
  rw [if_pos h.1]
  exact hhandler w' h.2

theorem quarantine_spec {w : QueueWorld} (h : MayMove f name w) :
    (exceptOs (quarantine name) (work (.report name))).wp foreseenAnswers
      ⟨fun _ => Handling f name, fun _ _ => False, Kept⟩ w := by
  refine exceptOs_spec (I := Handling f name) ?_ fun w' h' => report_spec steady_handling h'
  refine Prog.wp_seq (Prog.wp_mono (moveAside_mayMove name h) (fun _ _ h => h.toHandling)
    (fun e w' h => ⟨h.1, h.2.toHandling⟩) fun _ h => h) fun _ w₁ h₁ => ?_
  exact Prog.wp_mono (report_spec steady_handling h₁) (fun _ _ h => h) (fun _ _ => nofun) fun _ h => h

theorem Kept.withFiles {w : QueueWorld} (hw : Kept w) (inputs : String → Option PublishRequest)
    (temporary : String → Option Dict) : Kept { w with inputs := inputs, temporary := temporary } :=
  ⟨hw.justified, hw.once, hw.accounted, hw.gone, hw.queued, hw.limited⟩

theorem Holding.withFiles {w : QueueWorld} (h : Holding f name content w) (inputs : String → Option PublishRequest)
    (temporary : String → Option Dict) :
    Holding f name content { w with inputs := inputs, temporary := temporary } :=
  ⟨⟨⟨h.kept.withFiles inputs temporary, h.registry, h.listing, h.examined, h.arrived, h.attempts, h.limit⟩, h.current,
    h.listed⟩, h.queue⟩

/-- The file stays in the queue, with another content or its old one. -/
theorem atomicWrite_spec (message : Dict) {w : QueueWorld} (h : Holding f name content w) :
    (atomicWrite name message).wp foreseenAnswers
      ⟨fun _ => Handling f name, fun e w' => e.isRetained ∧ Handling f name w', Kept⟩ w := by
  have hretained : ∀ (e : WorkerError) w', e.isOs → Handling f name w' → e.isRetained ∧ Handling f name w' :=
    fun _ _ he h => ⟨isRetained_of_isOs he, h⟩
  have hcleanup : ∀ path w₁, Handling f name w₁ → (removeTemporary path).wp foreseenAnswers
      ⟨fun _ => Handling f name, fun e w' => e.isRetained ∧ Handling f name w', Kept⟩ w₁ := by
    intro path w₁ h₁
    refine plain_seq steady_handling rfl rfl h₁ (fun left w₂ h₂ => ?_) hretained
    cases left with
    | true =>
      exact Prog.wp_mono (plain_spec steady_handling rfl rfl h₂) (fun _ _ h => h)
        (fun e w' h => hretained e w' h.1 h.2) fun _ h => h
    | false => exact h₂
  refine plain_seq steady_holding rfl rfl h (fun path w₁ h₁ => ?_) fun e w' he h => hretained e w' he h.toHandling
  refine Prog.wp_seq_attempt (R := fun _ => Handling f name) (E := fun e w' => e.isRetained ∧ Handling f name w') ?_
    (fun _ w₂ h₂ => ?_) fun e w₂ h₂ => ?_
  · refine Prog.wp_seq (R := fun _ => Holding f name content) ⟨h₁.kept, fun r w₂ hr => ?_⟩ fun _ w₂ h₂ =>
      ⟨h₂.kept, fun r w₃ hr => ?_⟩
    · obtain ⟨hforeseen, w', harrivals, rfl, -⟩ := hr
      have h' := steady_holding.stable _ _ harrivals h₁
      cases r with
      | ok => exact h'.withFiles w'.inputs _
      | error e => exact ⟨hforeseen, h'.toHandling⟩
    · obtain ⟨-, w', harrivals, rfl, hanswer⟩ := hr
      have h' := steady_holding.stable _ _ harrivals h₂
      cases r with
      | error e => exact hretained e w' hanswer h'.toHandling
      | ok =>
        change Handling f name (w'.after (.replaceMessage path name) (.ok ()))
        obtain ⟨written, hwritten⟩ := Option.ne_none_iff_exists'.mp hanswer
        unfold QueueWorld.after
        dsimp only
        rw [hwritten]
        refine ⟨⟨h'.kept.put (h'.queue ▸ nofun) _, h'.registry, h'.listing, h'.examined, h'.arrived, h'.attempts,
          h'.limit⟩, h'.current, h'.listed⟩
  · exact Prog.wp_seq (hcleanup path w₂ h₂) fun _ w₃ h₃ => h₃
  · exact Prog.wp_seq (hcleanup path w₂ h₂.2) fun _ w₃ h₃ => ⟨h₂.1, h₃⟩

/-! ## The retry -/

theorem valid_of_message (h : content.message = some message) : Valid message := by
  cases content with
  | json j =>
    unfold MessageFile.message at h
    dsimp only at h
    cases hvalidate : validateMessage j with
    | ok m =>
      rw [hvalidate] at h
      cases h
      exact (validateMessage_eq_ok.mp hvalidate).2
    | error e =>
      rw [hvalidate] at h
      cases h
  | garbled => cases h
  | nested => cases h

theorem expiryOf_valid (h : Valid message) (now : Int) : expiryOf message now = countField message "expires_at" := by
  have hcount := h.counts "expires_at" (by decide)
  unfold expiryOf countField
  generalize Dict.get? message "expires_at" = value at hcount
  cases value with
  | none => cases hcount
  | some value =>
    cases value with
    | int n => rfl
    | _ => cases hcount

theorem time_spec {w : QueueWorld} (h : Holding f name content w) :
    (work .time).wp foreseenAnswers
      ⟨fun now w' => Holding f name content w' ∧ w'.run.now = now, fun _ _ => False, Kept⟩ w := by
  refine ⟨h.kept, fun r w' hr => ?_⟩
  obtain ⟨-, w₁, harrivals, rfl, hanswer⟩ := hr
  have h₁ := steady_holding.stable _ _ harrivals h
  cases r with
  | error e => exact hanswer
  | ok now =>
    have hkept : Kept (w₁.after .time (.ok now)) := h₁.kept.withRun h₁.kept.limited
    exact ⟨⟨⟨⟨hkept, h₁.registry, h₁.listing, h₁.examined, h₁.arrived, h₁.attempts, h₁.limit⟩, h₁.current, h₁.listed⟩,
      h₁.queue⟩, rfl⟩

/-- A message that could not be read has no expiry: it is moved away. -/
theorem Holding.mayMove_invalid {w : QueueWorld} (h : Holding f name content w) (hinvalid : content.message = none) :
    MayMove f name w := by
  refine ⟨h.toHandling, fun content' hqueue failedName => ?_⟩
  cases h.queue.symm.trans hqueue
  exact .invalid nofun hinvalid

theorem Holding.mayMove_expired {w : QueueWorld} (h : Holding f name content w) (hloaded : content.message = some message)
    (hexpired : countField message "expires_at" ≤ w.run.now) : MayMove f name w := by
  refine ⟨h.toHandling, fun content' hqueue failedName => ?_⟩
  cases h.queue.symm.trans hqueue
  exact .expired nofun hloaded hexpired

theorem Holding.mayMove_delivered {w : QueueWorld} (h : Holding f name content w)
    (hloaded : content.message = some message) (hpublished : w.run.published = some (requestOf message)) :
    MayMove f name w := by
  refine ⟨h.toHandling, fun content' hqueue failedName => ?_⟩
  cases h.queue.symm.trans hqueue
  exact .delivered h.current hloaded hpublished

/-- `loaded` is the message of the file, if it was read and valid. -/
theorem markRetry_spec {loaded : Option Dict} {now : Int} {w : QueueWorld} (h : Holding f name content w)
    (hloaded : content.message = loaded) (hnow : w.run.now = now) :
    (markRetry name loaded now).wp foreseenAnswers
      ⟨fun _ => Handling f name, fun e w' => e.isRetained ∧ Handling f name w', Kept⟩ w := by
  have hlog : ∀ w₁, Handling f name w₁ → (work .log).wp foreseenAnswers
      ⟨fun _ => Handling f name, fun e w' => e.isRetained ∧ Handling f name w', Kept⟩ w₁ := fun w₁ h₁ =>
    Prog.wp_mono (log_spec steady_handling h₁) (fun _ _ h => h)
      (fun _ _ h => ⟨isRetained_of_isMalformed h.1, h.2⟩) fun _ h => h
  unfold markRetry
  dsimp only
  split
  case isTrue hexpired =>
    have hmay : MayMove f name w := by
      cases loaded with
      | none => exact h.mayMove_invalid hloaded
      | some message =>
        refine h.mayMove_expired hloaded ?_
        rw [hnow, ← expiryOf_valid (valid_of_message hloaded) now]
        exact hexpired
    refine Prog.wp_seq (Prog.wp_mono (moveAside_mayMove name hmay) (fun _ _ h => h) (fun e w' h => ?_) fun _ h => h)
      fun _ w₁ h₁ => hlog w₁ h₁.toHandling
    exact ⟨isRetained_of_isOs h.1, h.2.toHandling⟩
  case isFalse => exact Prog.wp_seq (atomicWrite_spec _ h) fun _ w₁ h₁ => hlog w₁ h₁

/-! ## The handlers -/

/-- The errors the handlers can deal with. -/
inductive Recoverable (f : Frame) (name : FileName) : Option Dict → WorkerError → QueueWorld → Prop
  | malformed {loaded : Option Dict} {e : WorkerError} {w : QueueWorld} (malformed : e.isMalformed)
      (mayMove : MayMove f name w) : Recoverable f name loaded e w
  | unread {e : WorkerError} {w : QueueWorld} (os : e.isOs) (handling : Handling f name w) : Recoverable f name none e w
  | retried {content : MessageFile} {e : WorkerError} {w : QueueWorld} (malformed : e.isMalformed = false)
      (read : content.message = none → e.isOs = false) (holding : Holding f name content w) :
      Recoverable f name content.message e w

/-- Every such error is dealt with. -/
theorem onError_spec {loaded : Option Dict} {progress : Progress} {error : WorkerError} {w : QueueWorld}
    (h : Recoverable f name loaded error w) :
    (onError name loaded progress error).wp foreseenAnswers
      ⟨fun progress' w' => Handling f name w' ∧ progress'.publishAttempts = progress.publishAttempts,
        fun _ _ => False, Kept⟩ w := by
  unfold onError
  cases h with
  | malformed hmalformed hmay =>
    rw [if_pos hmalformed]
    exact Prog.wp_seq (quarantine_spec hmay) fun _ w₁ h₁ => ⟨h₁, rfl⟩
  | unread hos hhandling =>
    rw [if_neg (by simp [isMalformed_of_isOs hos]), if_pos (by simp [hos])]
    exact Prog.wp_seq (report_spec steady_handling hhandling) fun _ w₁ h₁ => ⟨h₁, rfl⟩
  | @retried content e w hmalformed hread hholding =>
    have hloaded : (error.isOs && content.message.isNone) = false := by
      cases hmessage : content.message with
      | none => rw [hread hmessage, Bool.false_and]
      | some => exact Bool.and_false _
    rw [if_neg (by simp [hmalformed]), if_neg (by simp [hloaded])]
    refine Prog.wp_seq_attempt (R := fun _ => Handling f name) (E := fun e w' => e.isRetained ∧ Handling f name w') ?_
      (fun _ w₁ h₁ => ⟨h₁, rfl⟩) fun e w₁ h₁ => ?_
    · refine Prog.wp_seq (Prog.wp_mono (time_spec hholding) (fun _ _ h => h) (fun _ _ => nofun) fun _ h => h)
        fun now w₁ h₁ => markRetry_spec h₁.1 rfl h₁.2
    · dsimp only
      rw [if_pos h₁.1]
      exact Prog.wp_seq (report_spec steady_handling h₁.2) fun _ w₂ h₂ => ⟨h₂, rfl⟩

theorem settle_spec {progress : Progress} {p : Worker Unit} {w : QueueWorld}
    (hp : p.wp foreseenAnswers ⟨fun _ => Handling f name, Recoverable f name (some message), Kept⟩ w) :
    (settle name message progress p).wp foreseenAnswers
      ⟨fun progress' w' => Handling f name w' ∧ progress'.publishAttempts = progress.publishAttempts,
        fun _ _ => False, Kept⟩ w :=
  Prog.wp_seq_attempt hp (fun _ _ h => ⟨h, rfl⟩) fun _ _ h => onError_spec h

theorem Recoverable.of_holding {e : WorkerError} {w : QueueWorld} (hmalformed : e.isMalformed = false)
    (h : Holding f name content w) (hloaded : content.message = some message) :
    Recoverable f name (some message) e w := by
  rw [← hloaded]
  exact .retried hmalformed (fun hnone => nomatch hloaded.symm.trans hnone) h

/-! ## The ways a message leaves -/

theorem expire_spec {w : QueueWorld} (h : Holding f name content w) (hloaded : content.message = some message)
    (hexpired : countField message "expires_at" ≤ w.run.now) :
    (expire name).wp foreseenAnswers ⟨fun _ => Handling f name, Recoverable f name (some message), Kept⟩ w := by
  have hI : Steady fun w => Holding f name content w ∧ countField message "expires_at" ≤ w.run.now :=
    steady_holding.and_run fun run => countField message "expires_at" ≤ run.now
  refine Prog.wp_seq (Prog.wp_mono (moveAside_spec hI (fun _ h => h.1.toHandling) (fun w h content hqueue => ?_)
    ⟨h, hexpired⟩) (fun _ _ h => h) (fun e w' h => ?_) fun _ h => h) fun _ w₁ h₁ => ?_
  · exact (h.1.mayMove_expired hloaded h.2).justified content hqueue name
  · exact .of_holding (isMalformed_of_isOs h.1) h.2.1 hloaded
  · exact Prog.wp_mono (log_spec steady_gone h₁) (fun _ _ h => h.toHandling) (fun _ _ h => .malformed h.1 h.2.mayMove)
      fun _ h => h

theorem discard_spec {topics : Dict} {w : QueueWorld} (h : Holding f name content w)
    (hloaded : content.message = some message) (htopics : loadActiveTopics f.registry = some topics)
    (hrerouted : Dict.get? topics (textField message "username") ≠ some (.str (textField message "topic_id"))) :
    (discard name).wp foreseenAnswers ⟨fun _ => Handling f name, Recoverable f name (some message), Kept⟩ w := by
  refine Prog.wp_seq (Prog.wp_mono (unlink_spec steady_holding (fun _ h => h.toHandling)
    (fun w h content' hqueue => ?_) h) (fun _ _ h => h) (fun e w' h => ?_) fun _ h => h) fun _ w₁ h₁ => ?_
  · cases h.queue.symm.trans hqueue
    exact .rerouted rfl hloaded (h.registry ▸ htopics) hrerouted
  · exact .of_holding (isMalformed_of_isOs h.1) h.2 hloaded
  · exact Prog.wp_mono (log_spec steady_gone h₁) (fun _ _ h => h.toHandling) (fun _ _ h => .malformed h.1 h.2.mayMove)
      fun _ h => h

theorem removeDelivered_spec {w : QueueWorld} (h : Holding f name content w) (hloaded : content.message = some message)
    (hpublished : w.run.published = some (requestOf message)) :
    (removeDelivered name).wp foreseenAnswers
      ⟨fun _ => Handling f name, Recoverable f name (some message), Kept⟩ w := by
  have hI : Steady fun w => Holding f name content w ∧ w.run.published = some (requestOf message) :=
    steady_holding.and_run fun run => run.published = some (requestOf message)
  have hjustified : ∀ w, (Holding f name content w ∧ w.run.published = some (requestOf message)) →
      ∀ content', w.queue name = some content' → ∀ failedName, MayLeave ⟨name, content', failedName, w.run⟩ := by
    rintro w ⟨h, hpublished⟩ content' hqueue failedName
    cases h.queue.symm.trans hqueue
    exact .delivered h.current hloaded hpublished
  refine Prog.wp_seq (R := fun _ => MayMove f name) ?_ fun _ w₁ h₁ => ?_
  · refine exceptOs_spec (Prog.wp_mono (unlink_spec hI (fun _ h => h.1.toHandling)
      (fun w h content hqueue => hjustified w h content hqueue none) ⟨h, hpublished⟩) (fun _ _ h => h.mayMove)
      (fun _ _ h => h) fun _ h => h) fun w₁ h₁ => ?_
    refine Prog.wp_seq (R := fun _ => MayMove f name) ?_ fun _ w₂ h₂ => ?_
    · refine exceptOs_spec (Prog.wp_mono (moveAside_spec hI (fun _ h => h.1.toHandling)
        (fun w h content hqueue => hjustified w h content hqueue _) h₁) (fun _ _ h => h.mayMove)
        (fun _ _ h => h) fun _ h => h) fun w₂ h₂ => ?_
      exact h₂.1.mayMove_delivered hloaded h₂.2
    · exact Prog.wp_mono (report_spec steady_mayMove h₂) (fun _ _ h => h) (fun _ _ => nofun) fun _ h => h
  · exact Prog.wp_mono (log_spec steady_mayMove h₁) (fun _ _ h => h.toHandling) (fun _ _ h => .malformed h.1 h.2)
      fun _ h => h

/-! ## Publishing -/

def Frame.oneMore (f : Frame) : Frame := { f with limit := f.limit + 1 }

theorem Holding.oneMore {w : QueueWorld} (h : Holding f name content w) (hlimit : f.limit < maxPublishAttemptsPerRun) :
    Holding f.oneMore name content w :=
  ⟨⟨⟨h.kept, h.registry, h.listing, h.examined, h.arrived, h.attempts.trans (Nat.le_succ _), hlimit⟩, h.current,
    h.listed⟩, h.queue⟩

theorem Holding.attempt {w : QueueWorld} (h : Holding f name content w) (hlimit : f.limit < maxPublishAttemptsPerRun)
    (request : Option PublishRequest) (succeeded : Bool) :
    Holding f.oneMore name content (w.attempt request succeeded) := by
  have hkept : Kept (w.attempt request succeeded) := by
    refine h.kept.attempt ?_ (Nat.lt_of_le_of_lt h.attempts hlimit) request succeeded
    rw [h.current, h.queue]
    exact nofun
  exact ⟨⟨⟨hkept, h.registry, h.listing, h.examined, h.arrived, Nat.succ_le_succ h.attempts, hlimit⟩, h.current,
    h.listed⟩, h.queue⟩

theorem findOci_spec {I : QueueWorld → Prop} (hI : Steady I) {w : QueueWorld} (h : I w) :
    findOci.wp foreseenAnswers ⟨fun _ => I, fun e w' => e.isMalformed = false ∧ I w', Kept⟩ w := by
  have hos : ∀ (e : WorkerError) w', e.isOs → I w' → e.isMalformed = false ∧ I w' :=
    fun _ _ he h => ⟨isMalformed_of_isOs he, h⟩
  refine plain_seq hI rfl rfl h (fun found w₁ h₁ => ?_) hos
  cases found with
  | some executable => exact h₁
  | none =>
    refine plain_seq hI rfl rfl h₁ (fun found w₂ h₂ => ?_) hos
    cases found with
    | true => exact h₂
    | false =>
      refine plain_seq hI rfl rfl h₂ (fun found w₃ h₃ => ?_) hos
      cases found with
      | true => exact h₃
      | false => exact ⟨rfl, h₃⟩

theorem executableOrFound_spec (executable : Option String) {I : QueueWorld → Prop} (hI : Steady I) {w : QueueWorld}
    (h : I w) : (executableOrFound executable).wp foreseenAnswers
      ⟨fun _ => I, fun e w' => e.isMalformed = false ∧ I w', Kept⟩ w := by
  cases executable with
  | none => exact findOci_spec hI h
  | some executable =>
    unfold executableOrFound
    dsimp only
    split
    · exact findOci_spec hI h
    · exact h

theorem removeInput_spec {I : QueueWorld → Prop} (hI : Steady I) (path : String) {w : QueueWorld} (h : I w) :
    (removeInput path).wp foreseenAnswers ⟨fun _ => I, fun _ _ => False, Kept⟩ w := by
  refine Prog.wp_seq (Prog.wp_mono (quiet_spec hI rfl h) (fun _ _ h => h) (fun e w' h => ?_) fun _ h => h)
    fun left w₁ h₁ => ?_
  · obtain ⟨⟨-, w₁, hnever⟩, -⟩ := h
    exact hnever
  · cases left with
    | true => exact exceptOs_spec (plain_spec hI rfl rfl h₁) fun _ h => h
    | false => exact h₁

theorem attempt_spec {executable region : String} (inputPath : String) (hlimit : f.limit < maxPublishAttemptsPerRun)
    {w : QueueWorld} (h : Holding f name content w) :
    ((work (.writeInput inputPath (textField message "topic_id") (textField message "title")
      (textField message "body"))).bind fun _ => work (.runOci executable region inputPath)).wp foreseenAnswers
      ⟨fun result w' => Holding f.oneMore name content w' ∧
          (result.returncode = 0 → w'.run.published = some (requestOf message)),
        fun e w' => e.isMalformed = false ∧ Holding f.oneMore name content w', Kept⟩ w := by
  refine Prog.wp_seq (R := fun _ w' => Holding f name content w' ∧ w'.inputs inputPath = some (requestOf message))
    ⟨h.kept, fun r w₁ hr => ?_⟩ fun _ w₁ h₁ => ⟨h₁.1.kept, fun r w₂ hr => ?_⟩
  · obtain ⟨-, w', harrivals, rfl, hanswer⟩ := hr
    have h' := steady_holding.stable _ _ harrivals h
    cases r with
    | ok => exact ⟨h'.withFiles _ w'.temporary, if_pos rfl⟩
    | error e => exact ⟨isMalformed_of_isOs hanswer, h'.oneMore hlimit⟩
  · obtain ⟨hforeseen, w', harrivals, rfl, -⟩ := hr
    have h' := steady_holding.stable _ _ harrivals h₁.1
    have hinput : w'.inputs inputPath = some (requestOf message) := (grown_of_arrivals harrivals).inputs ▸ h₁.2
    cases r with
    | ok result =>
      refine ⟨h'.attempt hlimit _ _, fun hreturncode => ?_⟩
      change (if decide (result.returncode = 0) = true then w'.inputs inputPath else _) = _
      rw [if_pos (decide_eq_true hreturncode), hinput]
    | error e => exact ⟨hforeseen, h'.attempt hlimit _ _⟩

theorem publish_spec (executable : Option String) (hlimit : f.limit < maxPublishAttemptsPerRun) {w : QueueWorld}
    (h : Holding f name content w) (hvalid : Valid message) :
    (publish message executable).wp foreseenAnswers
      ⟨fun _ w' => Holding f.oneMore name content w' ∧ w'.run.published = some (requestOf message),
        fun e w' => e.isMalformed = false ∧ Holding f.oneMore name content w', Kept⟩ w := by
  have hraise : ∀ (e : WorkerError) w', e.isMalformed = false ∧ Holding f name content w' →
      e.isMalformed = false ∧ Holding f.oneMore name content w' := fun _ _ h => ⟨h.1, h.2.oneMore hlimit⟩
  unfold publish
  -- the checks of the queue are made again here, and cannot fail
  refine Prog.wp_ofExcept_seq (fun _ _ => ?_) fun e he => ?_
  · refine Prog.wp_ofExcept_seq (fun _ _ => ?_) fun e he => ?_
    · refine Prog.wp_seq (Prog.wp_mono (executableOrFound_spec executable steady_holding h) (fun _ _ h => h) hraise fun _ h => h) fun executable w₁ h₁ => ?_
      refine plain_seq steady_holding rfl rfl h₁ (fun inputPath w₂ h₂ => ?_)
        fun e w' he h => ⟨isMalformed_of_isOs he, h.oneMore hlimit⟩
      refine Prog.wp_seq (R := fun result w' => Holding f.oneMore name content w' ∧
        (result.returncode = 0 → w'.run.published = some (requestOf message))) ?_ fun result w₃ h₃ => ?_
      · refine Prog.wp_seq_attempt (attempt_spec inputPath hlimit h₂) (fun result w₃ h₃ => ?_) fun e w₃ h₃ => ?_
        · have hI : Steady fun w => Holding f.oneMore name content w ∧
              (result.returncode = 0 → w.run.published = some (requestOf message)) :=
            steady_holding.and_run fun run => result.returncode = 0 → run.published = some (requestOf message)
          exact Prog.wp_seq (Prog.wp_mono (removeInput_spec hI inputPath h₃) (fun _ _ h => h) (fun _ _ => nofun)
            fun _ h => h) fun _ w₄ h₄ => h₄
        · exact Prog.wp_seq (Prog.wp_mono (removeInput_spec steady_holding inputPath h₃.2) (fun _ _ h => h)
            (fun _ _ => nofun) fun _ h => h) fun _ w₄ h₄ => ⟨h₃.1, h₄⟩
      · split
        case isTrue => exact ⟨rfl, h₃.1⟩
        case isFalse hreturncode => exact ⟨h₃.1, h₃.2 (not_not.mp hreturncode)⟩
    · rw [rejectIf, if_neg (by simp [hvalid.topic])] at he
      cases he
  · rw [rejectIf, if_neg (by simp [hvalid.region])] at he
    cases he

/-! ## One message -/

theorem handleMessage_spec (executable : Option String) {topics : Dict} {progress : Progress} {w : QueueWorld}
    (h : Holding f name content w) (hloaded : content.message = some message)
    (htopics : loadActiveTopics f.registry = some topics) (hlimit : f.limit = progress.publishAttempts) :
    (handleMessage executable topics name message progress).wp foreseenAnswers
      ⟨fun progress' => Handling { f with limit := progress'.publishAttempts } name, fun _ _ => False, Kept⟩ w := by
  have hsame : ∀ {progress' : Progress} {w'}, progress'.publishAttempts = progress.publishAttempts → Handling f name w' →
      Handling { f with limit := progress'.publishAttempts } name w' := by
    intro progress' w' heq h
    rw [heq, ← hlimit]
    exact h
  unfold handleMessage
  refine Prog.wp_seq (Prog.wp_mono (time_spec h) (fun _ _ h => h) (fun _ _ => nofun) fun _ h => h)
    fun now w₁ ⟨h₁, hnow⟩ => ?_
  split
  case isTrue => exact hsame rfl h₁.toHandling
  case isFalse =>
    split
    case isTrue hexpired =>
      exact Prog.wp_mono (settle_spec (expire_spec h₁ hloaded (hnow ▸ hexpired))) (fun _ _ h => hsame h.2 h.1)
        (fun _ _ => nofun) fun _ h => h
    case isFalse =>
      split
      case isTrue hrerouted =>
        exact Prog.wp_mono (settle_spec (discard_spec h₁ hloaded htopics hrerouted)) (fun _ _ h => hsame h.2 h.1)
          (fun _ _ => nofun) fun _ h => h
      case isFalse =>
        split
        case isTrue => exact hsame rfl h₁.toHandling
        case isFalse hmax =>
          have hmore : f.limit < maxPublishAttemptsPerRun := by omega
          refine Prog.wp_seq_attempt (takeSlot_spec steady_holding h₁) (fun _ w₂ h₂ => ?_) fun e w₂ h₂ => ?_
          · refine Prog.wp_mono (@settle_spec f.oneMore name _ _ _ _ ?_) (fun progress' w' h => ?_)
              (fun _ _ => nofun) fun _ h => h
            · refine Prog.wp_seq (Prog.wp_mono (publish_spec executable hmore h₂ (valid_of_message hloaded))
                (fun _ _ h => h) (fun e w' h => .of_holding h.1 h.2 hloaded) fun _ h => h) fun _ w₃ h₃ => ?_
              exact removeDelivered_spec h₃.1 hloaded h₃.2
            · have heq : f.oneMore = { f with limit := progress'.publishAttempts } := by
                rw [h.2, ← hlimit]
                rfl
              obtain ⟨hhandling, -⟩ := h
              rw [heq] at hhandling
              exact hhandling
          · exact Prog.wp_mono (onError_spec (.of_holding (isMalformed_of_isOs h₂.1) h₂.2 hloaded))
              (fun _ _ h => hsame h.2 h.1) (fun _ _ => nofun) fun _ h => h

theorem rejectIf_error {condition : Prop} [Decidable condition] {text : String} {e : WorkerError}
    (h : rejectIf condition text = .error e) : e.isMalformed := by
  unfold rejectIf at h
  split at h
  · cases h
    rfl
  · cases h

theorem rejectField_error {fields : List String} {check : Option Json → Bool} {e : WorkerError}
    (h : rejectField fields check message = .error e) : e.isMalformed := by
  unfold rejectField at h
  split at h
  · cases h
    rfl
  · cases h

theorem isMalformed_bind {α β : Type} {x : Except WorkerError α} {rest : α → Except WorkerError β} {e : WorkerError}
    (h : (x >>= rest) = .error e) (hx : x = .error e → e.isMalformed) (hrest : ∀ a, rest a = .error e → e.isMalformed) :
    e.isMalformed := by
  cases x with
  | ok a => exact hrest a h
  | error e' =>
    cases h
    exact hx rfl

theorem validateMessage_error {content : Json} {e : WorkerError} (h : validateMessage content = .error e) :
    e.isMalformed := by
  unfold validateMessage at h
  split at h
  · refine isMalformed_bind h rejectIf_error fun _ h => ?_
    refine isMalformed_bind h rejectField_error fun _ h => ?_
    refine isMalformed_bind h rejectField_error fun _ h => ?_
    refine isMalformed_bind h rejectIf_error fun _ h => ?_
    refine isMalformed_bind h rejectIf_error fun _ h => ?_
    refine isMalformed_bind h rejectIf_error fun _ h => ?_
    refine isMalformed_bind h rejectIf_error fun _ h => ?_
    refine isMalformed_bind h rejectIf_error fun _ h => ?_
    cases h
  · cases h
    rfl

def Frame.examine (f : Frame) (name : FileName) : Frame := { f with examined := name :: f.examined }

/-- Reading a message: it is valid, or the handlers can deal with the error. -/
theorem read_spec (hlisted : name ∈ f.listing) {w : QueueWorld} (h : f.Holds w) :
    ((work (.openMessage name)).bind fun content => .ofExcept (validateMessage content)).wp foreseenAnswers
      ⟨fun message w' => ∃ content, Holding (f.examine name) name content w' ∧ content.message = some message,
        Recoverable (f.examine name) name none, Kept⟩ w := by
  have hopened : ∀ w₁ r, f.Holds w₁ → Handling (f.examine name) name (w₁.after (.openMessage name) r) := by
    intro w₁ r h₁
    have hkept : Kept (w₁.after (.openMessage name) r) := h₁.kept.withRun h₁.kept.limited
    exact ⟨⟨hkept, h₁.registry, h₁.listing, congrArg (name :: ·) h₁.examined, h₁.arrived, h₁.attempts, h₁.limit⟩, rfl,
      hlisted⟩
  refine Prog.wp_seq (R := fun content w' => Holding (f.examine name) name (.json content) w')
    ⟨h.kept, fun r w₁ hr => ?_⟩ fun content w₁ h₁ => ?_
  · obtain ⟨-, w', harrivals, rfl, hanswer⟩ := hr
    have h' := hopened w' r (h.grown (grown_of_arrivals harrivals))
    cases r with
    | ok content => exact ⟨h', hanswer⟩
    | error e =>
      obtain hos | ⟨hqueue, hmalformed⟩ | ⟨hqueue, hos, hmalformed⟩ := hanswer
      · exact .unread hos h'
      · exact .malformed hmalformed (Holding.mayMove_invalid ⟨h', hqueue⟩ rfl)
      · exact @Recoverable.retried _ _ .nested _ _ hmalformed (fun _ => hos) ⟨h', hqueue⟩
  · rw [Prog.wp_ofExcept]
    cases hvalidate : validateMessage content with
    | ok message => exact ⟨_, h₁, by rw [MessageFile.message, hvalidate]; rfl⟩
    | error e =>
      exact .malformed (validateMessage_error hvalidate) (h₁.mayMove_invalid (by rw [MessageFile.message, hvalidate]; rfl))

/-- **One message**: no error leaves the loop, and the message counts as examined. -/
theorem examine_spec (executable : Option String) {topics : Dict} {progress : Progress} {w : QueueWorld}
    (hlisted : name ∈ f.listing) (h : f.Holds w) (htopics : loadActiveTopics f.registry = some topics)
    (hlimit : f.limit = progress.publishAttempts) :
    (examine executable topics progress name).wp foreseenAnswers
      ⟨fun progress' => ({ f.examine name with limit := progress'.publishAttempts } : Frame).Holds, fun _ _ => False,
        Kept⟩ w := by
  refine Prog.wp_seq_attempt (read_spec hlisted h) (fun message w₁ h₁ => ?_) fun e w₁ h₁ => ?_
  · obtain ⟨content, hholding, hloaded⟩ := h₁
    exact Prog.wp_mono (handleMessage_spec executable hholding hloaded htopics hlimit) (fun _ _ h => h.toHolds)
      (fun _ _ => nofun) fun _ h => h
  · refine Prog.wp_mono (onError_spec h₁) (fun progress' w' h => ?_) (fun _ _ => nofun) fun _ h => h
    obtain ⟨hhandling, hattempts⟩ := h
    dsimp only
    rw [hattempts, ← hlimit]
    exact hhandling.toHolds

/-! ## One run -/

theorem queuedMessageNames_spec {w : QueueWorld} (h : Kept w) (hattempts : w.run.attempts = 0) :
    queuedMessageNames.wp foreseenAnswers
      ⟨fun names w' => (∀ name, name ∈ w'.run.listing ↔ name ∈ names) ∧
          (⟨w.run.registry, w'.run.listing, w.run.examined, 0⟩ : Frame).Holds w',
        fun _ w' => Kept w' ∧ w'.run.listing = w.run.listing, Kept⟩ w := by
  refine Prog.wp_seq (R := fun names w' => w'.run.listing = names.filter isJsonFile ∧
    (⟨w.run.registry, w'.run.listing, w.run.examined, 0⟩ : Frame).Holds w') ⟨h, fun r w₁ hr => ?_⟩
    fun names w₁ ⟨hlisting, h₁⟩ => ?_
  · obtain ⟨-, w', harrivals, rfl, hanswer⟩ := hr
    have hgrown := grown_of_arrivals harrivals
    have h' := hgrown.kept h
    cases r with
    | error e => exact ⟨h', congrArg RunInfo.listing hgrown.run⟩
    | ok names =>
      have hkept : Kept (w'.after .listSpool (.ok names)) := h'.withRun h'.limited
      have hregistry : w'.run.registry = w.run.registry := congrArg RunInfo.registry hgrown.run
      have hexamined : w'.run.examined = w.run.examined := congrArg RunInfo.examined hgrown.run
      refine ⟨rfl, hkept, hregistry, rfl, hexamined, fun name hname => ?_, ?_, Nat.zero_le _⟩
      · obtain ⟨hname, hjson⟩ := List.mem_filter.mp hname
        exact h'.queued name (((hanswer.2 name hjson).mp hname))
      · exact ((congrArg RunInfo.attempts hgrown.run).trans hattempts).le
  · have hI : Steady fun w' => w'.run.listing = w₁.run.listing ∧
        (⟨w.run.registry, w₁.run.listing, w.run.examined, 0⟩ : Frame).Holds w' :=
      ⟨fun _ _ hw h => ⟨(congrArg RunInfo.listing (grown_of_arrivals hw).run).trans h.1, h.2.grown (grown_of_arrivals hw)⟩,
        fun _ h => h.2.kept⟩
    refine Prog.wp_seq (R := fun (aged : List (Int × FileName)) w' => aged.map (·.2) = names.filter isJsonFile ∧
      w'.run.listing = w₁.run.listing ∧ (⟨w.run.registry, w₁.run.listing, w.run.examined, 0⟩ : Frame).Holds w') ?_
      fun aged w₂ h₂ => ?_
    · refine Prog.wp_forEach (fun rest (aged : List (Int × FileName)) w' =>
        aged.map (·.2) ++ rest = names.filter isJsonFile ∧ w'.run.listing = w₁.run.listing ∧
          (⟨w.run.registry, w₁.run.listing, w.run.examined, 0⟩ : Frame).Holds w') (fun aged w' h => ?_)
        (fun name rest aged w' h => ?_) ⟨rfl, rfl, h₁⟩
      · rw [List.append_nil] at h
        exact h
      · refine Prog.wp_seq (exceptOs_spec (plain_spec hI rfl rfl h.2) fun _ h => h) fun age w'' h'' => ?_
        refine ⟨?_, h''⟩
        rw [List.map_append, List.append_assoc]
        exact h.1
    · obtain ⟨haged, hsame, hholds⟩ := h₂
      refine ⟨fun name => ?_, hsame ▸ hholds⟩
      rw [hsame, hlisting, ← haged]
      exact ((List.perm_insertionSort queuedBefore aged).map _).mem_iff.symm

def Examined (w : QueueWorld) : Prop := ∀ name ∈ w.run.listing, name ∈ w.run.examined

/-- **One run.** -/
theorem processQueue_spec (executable : Option String) {w : QueueWorld} (h : Kept w) :
    (processQueue true executable).wp foreseenAnswers
      ⟨fun _ w' => Kept w' ∧ Examined w', fun _ w' => Kept w' ∧ Examined w', Kept⟩ w := by
  refine Prog.wp_seq (R := fun registry w' => Kept w' ∧ w'.run = .start registry) ⟨h, fun r w₁ hr => ?_⟩
    fun registry w₁ ⟨h₁, hstart⟩ => ?_
  · obtain ⟨-, w', harrivals, rfl, -⟩ := hr
    have h' := (grown_of_arrivals harrivals).kept h
    cases r with
    | ok registry => exact ⟨h'.withRun (Nat.zero_le _), rfl⟩
    | error e => exact ⟨h'.withRun (Nat.zero_le _), fun _ => nofun⟩
  · have hnone : ∀ w', Kept w' → w'.run.listing = w₁.run.listing → Kept w' ∧ Examined w' := by
      intro w' hw' hlisting
      refine ⟨hw', fun name hname => ?_⟩
      rw [hlisting, hstart] at hname
      cases hname
    cases htopics : loadActiveTopics registry with
    | none => exact hnone w₁ h₁ rfl
    | some topics =>
      refine Prog.wp_seq (Prog.wp_mono (queuedMessageNames_spec h₁ (by rw [hstart]; rfl)) (fun _ _ h => h)
        (fun e w' h => hnone w' h.1 h.2) fun _ h => h) fun names w₂ ⟨hnames, h₂⟩ => ?_
      refine Prog.wp_seq (Prog.wp_forEach (fun rest progress w' => ∃ f : Frame, f.Holds w' ∧
        loadActiveTopics f.registry = some topics ∧ f.limit = progress.publishAttempts ∧
        (∀ name ∈ rest, name ∈ f.listing) ∧ ∀ name ∈ f.listing, name ∈ f.examined ∨ name ∈ rest)
        (fun progress w' h => ?_) (fun name rest progress w' h => ?_) ?_) fun progress w₃ h₃ => h₃
      · obtain ⟨f, hholds, -, -, -, hexamined⟩ := h
        refine ⟨hholds.kept, fun name hname => ?_⟩
        rw [hholds.listing] at hname
        rw [hholds.examined]
        exact (hexamined name hname).resolve_right List.not_mem_nil
      · obtain ⟨f, hholds, hregistry, hlimit, hrest, hexamined⟩ := h
        refine Prog.wp_mono (examine_spec executable (hrest name List.mem_cons_self) hholds hregistry hlimit)
          (fun progress' w'' h => ?_) (fun _ _ => nofun) fun _ h => h
        refine ⟨_, h, hregistry, rfl, fun n hn => hrest n (List.mem_cons_of_mem _ hn), fun n hn => ?_⟩
        obtain hexamined | hn := hexamined n hn
        · exact .inl (List.mem_cons_of_mem _ hexamined)
        · obtain rfl | hn := List.mem_cons.mp hn
          · exact .inl List.mem_cons_self
          · exact .inr hn
      · refine ⟨_, h₂, ?_, rfl, fun name => (hnames name).mpr, fun name hname => .inr ((hnames name).mp hname)⟩
        rw [hstart]
        exact htopics

/-- **The worker neither loses nor duplicates**, in every sequence of runs whose calls have foreseen answers. -/
theorem delivers_of_foreseen {w : QueueWorld} {s : Locked.State workerSig WorkerError Nat QueueWorld}
    (hinit : Untouched w) (hreach : Locked.Reach foreseenAnswers Arrivals IsRun w s) : Delivers s := by
  have hgrows : ∀ w w', Arrivals w w' → Kept w ∧ Examined w → Kept w' ∧ Examined w' := by
    intro w w' hw h
    have hgrown := grown_of_arrivals hw
    refine ⟨hgrown.kept h.1, ?_⟩
    unfold Examined
    rw [hgrown.run]
    exact h.2
  obtain ⟨hkept, hrunning⟩ := hreach.wp
    (Q := ⟨fun _ w => Kept w ∧ Examined w, fun _ w => Kept w ∧ Examined w, Kept⟩) hinit.kept
    (fun p ⟨executable, hp⟩ w hw => hp ▸ processQueue_spec executable hw) (fun _ _ h => h.1) (fun _ _ h => h.1)
    ⟨fun _ => hgrows, fun _ => hgrows, fun _ _ hw => (grown_of_arrivals hw).kept⟩ foreseenAnswers_absorbs
  refine ⟨hkept, fun hfinished => ?_⟩
  cases hrun : s.running with
  | none => rw [hrun] at hfinished; exact hfinished.elim
  | some p =>
    have hwp := hrunning p hrun
    rw [hrun] at hfinished
    cases p with
    | ret a => exact hwp.2
    | throw e => exact hwp.2
    | call o k => exact hfinished.elim

/-! ## Runs on a spool -/

def spoolOf (files : List (FileName × MessageFile)) : QueueWorld where
  queue := fun name => files.lookup name
  arrived := files.map (·.1)
  inputs := fun _ => none
  temporary := fun _ => none
  run := .start .absent
  events := []

theorem spoolOf_untouched (files : List (FileName × MessageFile)) : Untouched (spoolOf files) := by
  refine ⟨rfl, rfl, fun name => ?_⟩
  rw [spoolOf, ← Option.isSome_iff_ne_none, List.lookup_isSome_iff, List.mem_map]
  constructor
  · rintro ⟨file, hfile, hname⟩
    exact ⟨file, hfile, (eq_of_beq hname).symm⟩
  · rintro ⟨file, hfile, rfl⟩
    exact ⟨file, hfile, beq_self_eq_true _⟩

/-- The files answer as they are, longer names are newer, `ann` has a Topic and the OCI CLI succeeds. No message can be
written back. -/
def spoolAnswer (w : QueueWorld) : (call : WorkerCall) → Except WorkerError call.Ans
  | .readRegistry => .ok (.json (.obj [("config", .obj [("enabled", .bool true)]),
      ("users", .obj [("ann", .obj [("topic_id", .str "ocid1.onstopic.ann")])])]))
  | .listSpool => .ok (w.arrived.dedup.filter fun name => (w.queue name).isSome)
  | .modifiedAt name => .ok name.length
  | .openMessage name =>
    match w.queue name with
    | some (.json content) => .ok content
    | some .garbled => .error (.value "Expecting value")
    | some .nested => .error (.runtime "maximum recursion depth exceeded")
    | none => .error (.os "ENOENT")
  | .moveToFailed name _ | .unlink name => if w.queue name = none then .error (.os "ENOENT") else .ok ()
  | .replaceMessage _ _ => .error (.os "EROFS")
  | .report name => if PyText.encode name = none then .error (.value "surrogates not allowed") else .ok ()
  | .time => .ok 101
  | .clock => .ok 100000000
  | .readLock => .ok .blank
  | .which => .ok (some "/usr/bin/oci")
  | .isExecutable _ => .ok true
  | .exists _ => .ok false
  | .mkstemp => .ok "/var/spool/slurm-oci-notify/.publish-input-a.tmp"
  | .runOci _ _ _ => .ok ⟨0, ""⟩
  | .makeFailed | .sleep _ | .truncateLock | .writeLock _ | .syncLock | .writeInput .. | .writeTemporary ..
  | .unlinkTemporary _ | .log => .ok ()

def spoolOutside (w : QueueWorld) (call : WorkerCall) : Except WorkerError call.Ans × QueueWorld :=
  (spoolAnswer w call, w.after call (spoolAnswer w call))

def AllArrived (w : QueueWorld) : Prop := ∀ name, w.queue name ≠ none → name ∈ w.arrived

theorem spoolAnswer_possible (w : QueueWorld) (call : WorkerCall) (h : AllArrived w) :
    match spoolAnswer w call with
    | .ok a => w.Returns call a
    | .error e => w.Raises call e := by
  cases call with
  | listSpool =>
    refine ⟨(List.nodup_dedup _).filter _, fun name _ => ?_⟩
    rw [List.mem_filter, List.mem_dedup, Option.isSome_iff_ne_none]
    exact ⟨fun hname => hname.2, fun hname => ⟨h name hname, hname⟩⟩
  | openMessage name =>
    cases hqueue : w.queue name with
    | none =>
      simp only [spoolAnswer, hqueue]
      exact .inl rfl
    | some content =>
      cases content with
      | json content =>
        simp only [spoolAnswer, hqueue]
        exact hqueue
      | garbled =>
        simp only [spoolAnswer, hqueue]
        exact .inr (.inl ⟨hqueue, rfl⟩)
      | nested =>
        simp only [spoolAnswer, hqueue]
        exact .inr (.inr ⟨hqueue, rfl, rfl⟩)
  | moveToFailed name failedName =>
    by_cases hqueue : w.queue name = none
    · simp only [spoolAnswer, if_pos hqueue]
      exact rfl
    · simp only [spoolAnswer, if_neg hqueue]
      exact hqueue
  | unlink name =>
    by_cases hqueue : w.queue name = none
    · simp only [spoolAnswer, if_pos hqueue]
      exact rfl
    · simp only [spoolAnswer, if_neg hqueue]
      exact hqueue
  | report name =>
    by_cases hencode : PyText.encode name = none
    · simp only [spoolAnswer, if_pos hencode]
      exact ⟨hencode, rfl⟩
    · simp only [spoolAnswer, if_neg hencode]
      exact hencode
  | replaceMessage path name => exact rfl
  | _ => trivial

theorem AllArrived.leave {w : QueueWorld} (h : AllArrived w) (name : FileName) (failedName : Option FileName) :
    AllArrived (w.leave name failedName) := by
  cases hqueue : w.queue name with
  | none =>
    unfold QueueWorld.leave
    rw [hqueue]
    exact h
  | some content =>
    rw [leave_eq hqueue]
    intro n hn
    dsimp only at hn
    split at hn
    · exact absurd rfl hn
    · exact h n hn

/-- No message is written back, so the queue only shrinks. -/
theorem AllArrived.after {w : QueueWorld} (h : AllArrived w) (call : WorkerCall) :
    AllArrived (w.after call (spoolAnswer w call)) := by
  cases call with
  | moveToFailed name failedName =>
    by_cases hqueue : w.queue name = none
    · simp only [spoolAnswer, if_pos hqueue]
      exact h
    · simp only [spoolAnswer, if_neg hqueue]
      exact h.leave name (some failedName)
  | unlink name =>
    by_cases hqueue : w.queue name = none
    · simp only [spoolAnswer, if_pos hqueue]
      exact h
    · simp only [spoolAnswer, if_neg hqueue]
      exact h.leave name none
  | openMessage name => exact h
  | report name =>
    by_cases hencode : PyText.encode name = none
    · simp only [spoolAnswer, if_pos hencode]
      exact h
    · simp only [spoolAnswer, if_neg hencode]
      exact h
  | _ => exact h

theorem spoolOutside_answers (w : QueueWorld) (call : WorkerCall) (h : AllArrived w) :
    queueAnswers w call (spoolOutside w call).1 (spoolOutside w call).2 ∧ AllArrived (spoolOutside w call).2 :=
  ⟨⟨w, .refl, rfl, spoolAnswer_possible w call h⟩, h.after call⟩

/-- The call writes no line with a name that cannot be encoded. -/
def WorkerCall.encodable : WorkerCall → Bool
  | .report name => (PyText.encode name).isSome
  | _ => true

theorem spoolOutside_foreseen (w : QueueWorld) (call : WorkerCall) (h : AllArrived w) (hencodable : call.encodable) :
    foreseenAnswers w call (spoolOutside w call).1 (spoolOutside w call).2 ∧ AllArrived (spoolOutside w call).2 := by
  obtain ⟨hanswers, harrived⟩ := spoolOutside_answers w call h
  refine ⟨⟨?_, hanswers⟩, harrived⟩
  cases call with
  | report name => exact Option.isSome_iff_ne_none.mp hencodable
  | _ => trivial

def annMessage : Json :=
  .obj [("version", .int 1), ("id", .str "m1"), ("created_at", .int 100), ("expires_at", .int 7300),
    ("next_attempt_at", .int 100), ("attempts", .int 0), ("region", .str "us-phoenix-1"),
    ("topic_id", .str "ocid1.onstopic.ann"), ("username", .str "ann"), ("job_id", .str "17"), ("mail_type", .str "END"),
    ("title", .str "Job 17 ended"), ("body", .str "done")]

def goodName : FileName := PyText.ofString "message.json"

theorem finished_ofExcept {α : Type} (result : Except WorkerError α) : Finished (some (.ofExcept result : Worker α)) := by
  cases result <;> trivial

theorem reach_start (H : Handler workerSig WorkerError QueueWorld) (w : QueueWorld) :
    Locked.Reach H Arrivals IsRun w ⟨w, some (processQueue true none)⟩ := .tail .refl (.start ⟨none, rfl⟩)

def twoFiles : List (FileName × MessageFile) := [(PyText.ofString "a.json", .garbled), (goodName, .json annMessage)]

/-- A file that is no JSON is moved away, and the message after it is delivered and removed. -/
theorem delivers_of_foreseen_two :
    let run := (processQueue true none).run spoolOutside (spoolOf twoFiles)
    run.2.run.examined = [goodName, PyText.ofString "a.json"] ∧ run.2.events.length = 3 ∧
      Delivers ⟨run.2, some (.ofExcept run.1)⟩ := by
  have hpasses : (processQueue true none).passes spoolOutside WorkerCall.encodable (spoolOf twoFiles) := by decide +kernel
  have hreach := Locked.Reach.of_run WorkerCall.encodable spoolOutside_foreseen
    (fun name => ((spoolOf_untouched twoFiles).arrived name).mp) hpasses (reach_start foreseenAnswers (spoolOf twoFiles))
  exact ⟨by decide +kernel, by decide +kernel, delivers_of_foreseen (spoolOf_untouched twoFiles) hreach⟩

/-- `b"\xff.json"`. -/
def undecodableName : FileName := .surrogate 0x4ff :: PyText.ofString ".json"

def undecodableFiles : List (FileName × MessageFile) := [(undecodableName, .garbled), (goodName, .json annMessage)]

/-- **A file name that cannot be written to the log ends the run**: the file is no JSON and is moved away, the line about
it raises, and the message after it is not examined. -/
theorem undecodable_name_stops : ¬ ∀ w s, Untouched w → Locked.Reach queueAnswers Arrivals IsRun w s → Delivers s := by
  intro h
  have hreach := Locked.Reach.of_run (fun _ => true) (fun w call h _ => spoolOutside_answers w call h)
    (fun name => ((spoolOf_untouched undecodableFiles).arrived name).mp) (Prog.passes_true spoolOutside _ _)
    (reach_start queueAnswers (spoolOf undecodableFiles))
  have hdelivers := (h _ _ (spoolOf_untouched undecodableFiles) hreach).2
  have hlisting : goodName ∈ ((processQueue true none).run spoolOutside (spoolOf undecodableFiles)).2.run.listing := by
    decide +kernel
  have hexamined : goodName ∉ ((processQueue true none).run spoolOutside (spoolOf undecodableFiles)).2.run.examined := by
    decide +kernel
  generalize (processQueue true none).run spoolOutside (spoolOf undecodableFiles) = run at hdelivers hlisting hexamined
  exact hexamined (hdelivers (finished_ofExcept run.1) goodName hlisting)

end OciHpc.Slurm
