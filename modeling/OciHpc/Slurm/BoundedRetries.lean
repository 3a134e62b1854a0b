import Mathlib
import OciHpc.Slurm.MailProg
import OciHpc.Slurm.WorkerQueue

/-!
# Bounded retries

A message as the mail program queues it, whose every publish fails.

* `retryDelay`, `retryWait` : the wait after an attempt, and after all attempts;
* `RetryWorld`, `retryAnswers` : the message among the other files, the time, and what is asked of the failures;
* `Resting`, `Ready`, `Trying` : what is known between the runs, before an attempt, and before it is recorded;
* `retries_bounded` : the attempts are few and apart, and an expired message is moved to the failed ones;
* `retries_fall_short` : a gap of less than a minute, a message that is never tried again, a run that ends too soon.
-/

namespace OciHpc.Slurm
open OciHpc.ClusterCli (RegistryFile)

/-! ## The delays -/

/-- The delay that `mark_retry` sets where so many tries came before. -/
def retryDelay (tried : Nat) : Int := min 3600 (60 * 2 ^ min tried 6)

def retryWait : Nat → Int
  | 0 => 0
  | tried + 1 => retryWait tried + retryDelay tried

theorem retryDelay_mono {m n : Nat} (h : m ≤ n) : retryDelay m ≤ retryDelay n := by
  have hpow : (2 : Int) ^ min m 6 ≤ 2 ^ min n 6 := pow_le_pow_right₀ (by norm_num) (min_le_min_right 6 h)
  unfold retryDelay
  omega

theorem retryDelay_nonneg (tried : Nat) : 0 ≤ retryDelay tried := (by decide : 0 ≤ retryDelay 0).trans (retryDelay_mono tried.zero_le)

/-- From the seventh try on the cap holds, with or without the bound on the exponent. -/
theorem retryDelay_eq (tried : Nat) : retryDelay tried = min 3600 (60 * 2 ^ tried) := by
  unfold retryDelay
  obtain hle | hlt := le_or_gt tried 6
  · rw [Nat.min_eq_left hle]
  · have hpow : (2 : Int) ^ 6 ≤ 2 ^ tried := pow_le_pow_right₀ (by norm_num) hlt.le
    rw [Nat.min_eq_right hlt.le]
    omega

theorem retryWait_mono : Monotone retryWait :=
  monotone_nat_of_le_succ fun tried => le_add_of_nonneg_right (retryDelay_nonneg tried)

theorem retryWait_nonneg (tried : Nat) : 0 ≤ retryWait tried := retryWait_mono tried.zero_le

theorem le_six_of_retryWait_lt {tried : Nat} (h : retryWait tried < 7200) : tried ≤ 6 := by
  by_contra hlt
  have hwait : retryWait 7 ≤ retryWait tried := retryWait_mono (by omega)
  have hseven : retryWait 7 = 7380 := by decide
  omega

/-! ## The message among the other files -/

/-- `int(time.time())`, of a time in microseconds. -/
def wholeSeconds (time : Int) : Int := time / 1000000

theorem wholeSeconds_mono {t t' : Int} (h : t ≤ t') : wholeSeconds t ≤ wholeSeconds t' :=
  Int.ediv_le_ediv (by norm_num) h

/-- What is so many seconds later by whole seconds is less than a second short of it. -/
theorem lt_of_wholeSeconds_le {t t' delay : Int} (h : wholeSeconds t + delay ≤ wholeSeconds t') :
    t + 1000000 * delay < t' + 1000000 := by
  unfold wholeSeconds at h
  omega

/-- The file of the message `name`, as long as it is queued; `clock` is the time, in microseconds, when it was last
read, a run began or a publish was begun, `current` the file last opened and `readings` the readings since. An attempt
is timed by the moment in which the publish begins. -/
structure RetryWorld where
  clock : Int
  content : Option Dict
  failed : Bool
  temporary : String → Option Dict
  current : FileName
  readings : Nat
  examined : List FileName
  attempts : List Int

def RetryWorld.start (queued : Dict) : RetryWorld := ⟨0, some queued, false, fun _ => none, [], 0, [], []⟩

section
variable (name : FileName) (queued : Dict) (fails : WorkerError → Prop)

/-- What a call that returns at the time `now` leaves. After the lock file is synced, `publish_attempts += 1` and the
publish follow. -/
def RetryWorld.after (w : RetryWorld) (now : Int) : (call : WorkerCall) → Except WorkerError call.Ans → RetryWorld
  | .readRegistry, _ => { w with examined := [] }
  | .openMessage n, .ok _ => { w with current := n, readings := 0, examined := n :: w.examined }
  | .openMessage n, .error _ => { w with current := n, readings := 0 }
  | .time, .ok _ => { w with clock := now, readings := w.readings + 1 }
  | .syncLock, .ok _ => if w.current = name then { w with clock := now, attempts := w.attempts ++ [now] } else w
  | .moveToFailed n _, .ok _ => if n = name then { w with content := none, failed := true } else w
  | .unlink n, .ok _ => if n = name then { w with content := none } else w
  | .writeTemporary path message, .ok _ =>
    { w with temporary := fun p => if p = path then some message else w.temporary p }
  | .replaceMessage path n, .ok _ => if n = name then { w with content := w.temporary path } else w
  | _, _ => w

/-- The answers of a call that returns at the time `now`: where the registry can be read the user of the message has
the Topic, and the OCI CLI fails to publish it. -/
def RetryWorld.Returns (w : RetryWorld) (now : Int) : (call : WorkerCall) → call.Ans → Prop
  | .readRegistry, registry => ∀ topics, loadActiveTopics registry = some topics →
      Dict.get? topics (textField queued "username") = Dict.get? queued "topic_id"
  | .listSpool, names => w.content ≠ none → name ∈ names
  | .openMessage n, content => n = name → ∃ message, w.content = some message ∧ content = .obj message
  | .time, reading => reading = wholeSeconds now
  | .moveToFailed n _, _ | .unlink n, _ => n = name → w.content ≠ none
  | .runOci .., result => w.current = name → result.returncode ≠ 0
  | .replaceMessage path n, _ => n = name → w.temporary path ≠ none
  | _, _ => True

/-- The errors of a call. As long as the message is queued its file can be read and moved, and a retry, which follows
the second reading of the clock, is recorded; `fails` are the errors on the way to a publish and in it. -/
def RetryWorld.Raises (w : RetryWorld) : WorkerCall → WorkerError → Prop
  | .time, _ => False
  | .readRegistry, _ | .listSpool, _ | .modifiedAt _, _ => True
  | .openMessage n, e => n = name → w.content = none ∧ e.isOs
  | .makeFailed, e => w.current = name → w.content = none ∧ e.isOs
  | .moveToFailed n _, e => n = name → w.content = none ∧ e.isOs
  | .mkstemp, e => w.current = name → w.readings < 2 ∧ fails e
  | .writeTemporary .., _ => w.current ≠ name
  | .replaceMessage path _, _ => w.current = name → w.temporary path = none
  | .log, e | .report _, e => e.isMalformed
  | _, e => w.current = name → fails e

/-- The time does not go back. -/
def retryAnswers : Handler workerSig WorkerError RetryWorld := fun w call r w' =>
  ∃ now, w.clock ≤ now ∧ w' = w.after name now call r ∧
    match r with
    | .ok a => w.Returns name queued now call a
    | .error e => w.Raises name fails call e

/-- Every publish fails, and none with a `ValueError` or a `TypeError`: what fails so is not tried again. -/
abbrev failingAnswers : Handler workerSig WorkerError RetryWorld :=
  retryAnswers name queued fun e => e.isMalformed = false

/-- Runs one after the other, at times that do not go back. A run whose lock was taken does nothing; no run is cut
off, for then a retry is not recorded. -/
inductive RetryRuns : RetryWorld → RetryWorld → Prop
  | refl (w : RetryWorld) : RetryRuns w w
  | step {w₀ w w' : RetryWorld} {now : Int} {acquired : Bool} {executable : Option String}
      {out : Outcome WorkerError Nat} : RetryRuns w₀ w → w.clock ≤ now →
      Exec (retryAnswers name queued fails) (processQueue acquired executable) { w with clock := now } out w' →
      out ≠ .cut → RetryRuns w₀ w'

end

/-! ## What is known -/

/-- The attempts so far are few, and by whole seconds each is a delay after the one before. -/
structure BackedOff (attempts : List Int) : Prop where
  few : attempts.length ≤ 7
  gaps : ∀ i t t', attempts[i]? = some t → attempts[i + 1]? = some t' →
    wholeSeconds t + retryDelay i ≤ wholeSeconds t'

theorem backedOff_nil : BackedOff [] := ⟨Nat.zero_le 7, nofun⟩

/-- One attempt more, a delay after the last. -/
theorem BackedOff.append {attempts : List Int} {now : Int} (h : BackedOff attempts) (hfew : attempts.length ≤ 6)
    (hlast : ∀ t ∈ attempts.getLast?, wholeSeconds t + retryDelay (attempts.length - 1) ≤ wholeSeconds now) :
    BackedOff (attempts ++ [now]) := by
  refine ⟨?_, fun i t t' ht ht' => ?_⟩
  · rw [List.length_append, List.length_singleton]
    omega
  · obtain hlt | hle := Nat.lt_or_ge (i + 1) attempts.length
    · rw [List.getElem?_append_left (by omega)] at ht
      rw [List.getElem?_append_left hlt] at ht'
      exact h.gaps i t t' ht ht'
    · have hi : i + 1 = attempts.length := by
        have hbound := (List.getElem?_eq_some_iff.mp ht').1
        rw [List.length_append, List.length_singleton] at hbound
        omega
      have hnow : t' = now := by
        rw [hi, List.getElem?_append_right (Nat.le_refl _), Nat.sub_self] at ht'
        exact (Option.some.inj ht').symm
      rw [List.getElem?_append_left (by omega)] at ht
      have hlastIs : attempts.getLast? = some t := by
        rw [List.getLast?_eq_getElem?, ← hi]
        exact ht
      have hgap := hlast t hlastIs
      rw [← hi] at hgap
      rw [hnow]
      exact hgap

/-- What the mail program writes of the times: the message expires two hours after `created`. -/
structure QueuedAt (queued : Dict) (created : Int) : Prop where
  nonneg : 0 ≤ created
  expires : Dict.get? queued "expires_at" = some (.int (created + 7200))
  due : Dict.get? queued "next_attempt_at" = some (.int created)
  attempts : Dict.get? queued "attempts" = some (.int 0)

theorem queuedAt_of_messageJson {m : MessageTexts} {queued : Dict} (h : messageJson m = .ok (.obj queued)) :
    QueuedAt queued m.now := by
  unfold messageJson at h
  obtain ⟨username, -, h⟩ := bind_eq_ok h
  obtain ⟨jobId, -, h⟩ := bind_eq_ok h
  obtain ⟨event, -, h⟩ := bind_eq_ok h
  obtain ⟨title, -, h⟩ := bind_eq_ok h
  obtain ⟨body, -, h⟩ := bind_eq_ok h
  cases h
  exact ⟨Int.natCast_nonneg m.now, rfl, rfl, rfl⟩

/-- The message after so many tries, due at `next`: nothing but its counters has changed, the delays have been waited,
and the last attempt is a delay before. -/
structure Scheduled (queued : Dict) (created : Int) (attempts : List Int) (message : Dict) (tried : Nat)
    (next : Int) : Prop where
  same : ∀ field, field ≠ "attempts" → field ≠ "next_attempt_at" → Dict.get? message field = Dict.get? queued field
  counted : Dict.get? message "attempts" = some (.int tried)
  due : Dict.get? message "next_attempt_at" = some (.int next)
  recorded : attempts.length ≤ tried
  waited : created + retryWait tried ≤ next
  spaced : ∀ t ∈ attempts.getLast?, wholeSeconds t + retryDelay (attempts.length - 1) ≤ next

section
variable {name : FileName} {queued message : Dict} {created : Int} {w w' : RetryWorld}

theorem QueuedAt.scheduled (h : QueuedAt queued created) : Scheduled queued created [] queued 0 created where
  same _ _ _ := rfl
  counted := h.attempts
  due := h.due
  recorded := Nat.le_refl 0
  waited := (add_zero created).le
  spaced := nofun

theorem textField_congr {m m' : Dict} {field : String} (h : Dict.get? m field = Dict.get? m' field) :
    textField m field = textField m' field := by
  unfold textField
  rw [h]

theorem countField_congr {m m' : Dict} {field : String} (h : Dict.get? m field = Dict.get? m' field) :
    countField m field = countField m' field := by
  unfold countField
  rw [h]

theorem countField_eq {m : Dict} {field : String} {n : Int} (h : Dict.get? m field = some (.int n)) :
    countField m field = n := by
  unfold countField
  rw [h]

theorem Scheduled.expires {attempts : List Int} {tried : Nat} {next : Int} (hqueued : QueuedAt queued created)
    (h : Scheduled queued created attempts message tried next) : countField message "expires_at" = created + 7200 :=
  countField_eq ((h.same "expires_at" (by decide) (by decide)).trans hqueued.expires)

/-- The user has the Topic of the message. -/
theorem Scheduled.registered {attempts : List Int} {tried : Nat} {next : Int} {topics : Dict} (hvalid : Valid message)
    (hregistered : Dict.get? topics (textField queued "username") = Dict.get? queued "topic_id")
    (h : Scheduled queued created attempts message tried next) :
    Dict.get? topics (textField message "username") = some (.str (textField message "topic_id")) := by
  have husername : Dict.get? message "username" = Dict.get? queued "username" := h.same _ (by decide) (by decide)
  have htopicId : Dict.get? message "topic_id" = Dict.get? queued "topic_id" := h.same _ (by decide) (by decide)
  have hstr := hvalid.texts "topic_id" (by decide)
  rw [textField_congr husername, hregistered, ← htopicId]
  unfold textField
  unfold isStr at hstr
  split at hstr
  · rename_i s hs
    rw [hs]
    rfl
  · cases hstr

theorem Scheduled.valid {attempts : List Int} {tried : Nat} {next : Int} (hqueued : QueuedAt queued created)
    (h : Scheduled queued created attempts message tried next) (hvalid : Valid queued) : Valid message := by
  have htext : ∀ field ∈ textFields, Dict.get? message field = Dict.get? queued field := by
    intro field hfield
    apply h.same
    · rintro rfl
      exact absurd hfield (by decide)
    · rintro rfl
      exact absurd hfield (by decide)
  have hfields : ∀ field ∈ textFields, textField message field = textField queued field :=
    fun field hfield => textField_congr (htext field hfield)
  have hversion : Dict.get? message "version" = Dict.get? queued "version" := h.same _ (by decide) (by decide)
  have hcreated : Dict.get? message "created_at" = Dict.get? queued "created_at" := h.same _ (by decide) (by decide)
  have hexpires : Dict.get? message "expires_at" = Dict.get? queued "expires_at" := h.same _ (by decide) (by decide)
  refine ⟨?_, fun field hfield => ?_, fun field hfield => ?_, ?_, ?_, ?_, ?_, ?_⟩
  · unfold Dict.getD
    rw [hversion]
    exact hvalid.version
  · rw [htext field hfield]
    exact hvalid.texts field hfield
  · have hnext : 0 ≤ next := (add_nonneg hqueued.nonneg (retryWait_nonneg tried)).trans h.waited
    unfold countFields at hfield
    simp only [List.mem_cons, List.not_mem_nil, or_false] at hfield
    obtain rfl | rfl | rfl | rfl := hfield
    · rw [hcreated]
      exact hvalid.counts _ (by decide)
    · rw [hexpires]
      exact hvalid.counts _ (by decide)
    · rw [h.due]
      exact decide_eq_true hnext
    · rw [h.counted]
      exact decide_eq_true (Int.natCast_nonneg tried)
  · rw [countField_congr hcreated, countField_congr hexpires]
    exact hvalid.expiry
  · rw [hfields _ (by decide)]
    exact hvalid.region
  · rw [hfields _ (by decide)]
    exact hvalid.topic
  · rw [hfields _ (by decide)]
    exact hvalid.title
  · rw [hfields "title" (by decide), hfields "body" (by decide)]
    exact hvalid.payload

variable (queued created) in
/-- Between the runs, and while other files are worked on. -/
structure Resting (w : RetryWorld) : Prop where
  history : BackedOff w.attempts
  moved : w.content = none → w.failed = true
  early : w.failed = true → Valid queued → created + 7200 ≤ wholeSeconds w.clock
  scheduled : ∀ message, w.content = some message →
    ∃ tried next, Scheduled queued created w.attempts message tried next

/-- Expired and due. -/
def Overdue (w : RetryWorld) : Prop :=
  ∀ message, w.content = some message →
    countField message "expires_at" ≤ wholeSeconds w.clock ∧ countField message "next_attempt_at" ≤ wholeSeconds w.clock

/-- The message has left the queue. -/
structure Moved (queued : Dict) (created : Int) (w : RetryWorld) : Prop where
  resting : Resting queued created w
  content : w.content = none

/-! ## Other files -/

/-- What the work on another file leaves as it is. -/
structure SameMessage (w w' : RetryWorld) : Prop where
  content : w'.content = w.content
  failed : w'.failed = w.failed
  current : w'.current = w.current
  examined : w'.examined = w.examined
  attempts : w'.attempts = w.attempts
  clock : w.clock ≤ w'.clock

theorem SameMessage.refl (w : RetryWorld) : SameMessage w w := ⟨rfl, rfl, rfl, rfl, rfl, Int.le_refl _⟩

theorem SameMessage.trans {w₁ w₂ w₃ : RetryWorld} (h : SameMessage w₁ w₂) (h' : SameMessage w₂ w₃) :
    SameMessage w₁ w₃ :=
  ⟨h'.content.trans h.content, h'.failed.trans h.failed, h'.current.trans h.current, h'.examined.trans h.examined,
    h'.attempts.trans h.attempts, h.clock.trans h'.clock⟩

theorem Resting.same (h : Resting queued created w) (hsame : SameMessage w w') : Resting queued created w' where
  history := hsame.attempts ▸ h.history
  moved := hsame.content ▸ hsame.failed ▸ h.moved
  early := fun hfailed hvalid => (h.early (hsame.failed ▸ hfailed) hvalid).trans (wholeSeconds_mono hsame.clock)
  scheduled := hsame.content ▸ hsame.attempts ▸ h.scheduled

theorem Overdue.same (h : Overdue w) (hsame : SameMessage w w') : Overdue w' := by
  intro message hmessage
  obtain ⟨hexpires, hdue⟩ := h message (hsame.content ▸ hmessage)
  exact ⟨hexpires.trans (wholeSeconds_mono hsame.clock), hdue.trans (wholeSeconds_mono hsame.clock)⟩

theorem Moved.same (h : Moved queued created w) (hsame : SameMessage w w') : Moved queued created w' :=
  ⟨h.resting.same hsame, hsame.content.trans h.content⟩

/-- A call that neither opens a file nor moves, removes or replaces that of the message. -/
def WorkerCall.spares (name : FileName) : WorkerCall → Bool
  | .readRegistry | .openMessage _ => false
  | .moveToFailed n _ | .unlink n | .replaceMessage _ n => n ≠ name
  | _ => true

theorem sameMessage_of_spares {call : WorkerCall} {r : Except WorkerError call.Ans} (hspares : call.spares name)
    (hcurrent : w.current ≠ name) (h : failingAnswers name queued w call r w') : SameMessage w w' := by
  obtain ⟨now, hnow, rfl, hanswer⟩ := h
  have hrefl := SameMessage.refl w
  cases r with
  | error e =>
    cases call with
    | readRegistry | openMessage => cases hspares
    | _ => exact hrefl
  | ok a =>
    cases call with
    | readRegistry | openMessage => cases hspares
    | time => exact ⟨rfl, rfl, rfl, rfl, rfl, hnow⟩
    | syncLock =>
      show SameMessage w (if w.current = name then _ else w)
      rw [if_neg hcurrent]
      exact hrefl
    | moveToFailed n failedName =>
      show SameMessage w (if n = name then _ else w)
      rw [if_neg (of_decide_eq_true hspares)]
      exact hrefl
    | unlink n =>
      show SameMessage w (if n = name then _ else w)
      rw [if_neg (of_decide_eq_true hspares)]
      exact hrefl
    | replaceMessage path n =>
      show SameMessage w (if n = name then _ else w)
      rw [if_neg (of_decide_eq_true hspares)]
      exact hrefl
    | writeTemporary => exact ⟨rfl, rfl, rfl, rfl, rfl, Int.le_refl _⟩
    | _ => exact hrefl

def Spares (name : FileName) {α : Type} (p : Worker α) : Prop := p.Calls fun call : WorkerCall => call.spares name = true

theorem Spares.sameMessage {α : Type} {p : Worker α} (hp : Spares name p) (hcurrent : w.current ≠ name) :
    p.wp (failingAnswers name queued) (Locked.always (SameMessage w)) w := by
  refine Prog.keeps_of_calls hp (fun w₁ call r w₂ hspares h₁ h => ?_) w (.refl w)
  exact h₁.trans (sameMessage_of_spares hspares (h₁.current ▸ hcurrent) h)

theorem spares_work {call : WorkerCall} (h : call.spares name) : Spares name (work call) := Prog.calls_perform h

theorem spares_bind {α β : Type} {p : Worker α} {f : α → Worker β} (hp : Spares name p) (hf : ∀ a, Spares name (f a)) :
    Spares name (p.bind f) := Prog.Calls.bind hp hf

theorem spares_exceptOs {α : Type} {p handler : Worker α} (hp : Spares name p) (hh : Spares name handler) :
    Spares name (exceptOs p handler) := by
  refine Prog.Calls.tryCatch hp fun e => ?_
  split
  · exact hh
  · trivial

section
variable {n : FileName} (hn : n ≠ name)
include hn

theorem spares_moveAside (failedName : FileName) : Spares name (moveAside n failedName) :=
  spares_bind (spares_work rfl) fun _ => spares_work (decide_eq_true hn)

theorem spares_atomicWrite (message : Dict) : Spares name (atomicWrite n message) := by
  refine spares_bind (spares_work rfl) fun path => spares_bind (Prog.Calls.attempt ?_) fun result => ?_
  · exact spares_bind (spares_work rfl) fun _ => spares_work (decide_eq_true hn)
  · refine spares_bind (spares_bind (spares_work rfl) fun left => ?_) fun _ => Prog.calls_ofExcept _ result
    cases left with
    | true => exact spares_work rfl
    | false => trivial

theorem spares_onError (loaded : Option Dict) (progress : Progress) (error : WorkerError) :
    Spares name (onError n loaded progress error) := by
  have hreport : Spares name (work (.report n)) := spares_work rfl
  unfold onError
  split
  · refine spares_bind (spares_exceptOs ?_ hreport) fun _ => trivial
    exact spares_bind (spares_moveAside hn n) fun _ => hreport
  · split
    · exact spares_bind hreport fun _ => trivial
    · refine spares_bind (Prog.Calls.attempt (spares_bind (spares_work rfl) fun now => ?_)) fun result => ?_
      · unfold markRetry
        dsimp only
        split
        · exact spares_bind (spares_moveAside hn n) fun _ => spares_work rfl
        · exact spares_bind (spares_atomicWrite hn _) fun _ => spares_work rfl
      · cases result with
        | ok => trivial
        | error retryError =>
          dsimp only
          split
          · exact spares_bind hreport fun _ => trivial
          · trivial

theorem spares_settle {message : Dict} {progress : Progress} {p : Worker Unit} (hp : Spares name p) :
    Spares name (settle n message progress p) := by
  refine spares_bind hp.attempt fun result => ?_
  cases result with
  | ok => trivial
  | error e => exact spares_onError hn (some message) progress e

theorem spares_removeDelivered : Spares name (removeDelivered n) := by
  refine spares_bind (spares_exceptOs (spares_work (decide_eq_true hn)) ?_) fun _ => spares_work rfl
  exact spares_bind (spares_exceptOs (spares_moveAside hn _) trivial) fun _ => spares_work rfl

end

theorem spares_takeSlot : Spares name takeSlot := by
  refine spares_bind ?_ fun _ => ?_
  · refine spares_bind (spares_work rfl) fun text => spares_bind (spares_work rfl) fun now => ?_
    cases text with
    | number time =>
      dsimp only
      split
      · exact spares_work rfl
      · trivial
    | _ => trivial
  · exact spares_bind (spares_work rfl) fun now => spares_bind (spares_work rfl) fun _ =>
      spares_bind (spares_work rfl) fun _ => spares_work rfl

theorem spares_findOci : Spares name findOci := by
  refine spares_bind (spares_work rfl) fun found => ?_
  cases found with
  | some executable => trivial
  | none =>
    refine spares_bind (spares_work rfl) fun found => ?_
    cases found with
    | true => trivial
    | false =>
      refine spares_bind (spares_work rfl) fun found => ?_
      cases found <;> trivial

theorem spares_executableOrFound (executable : Option String) : Spares name (executableOrFound executable) := by
  unfold executableOrFound
  split
  · split
    · exact spares_findOci
    · trivial
  · exact spares_findOci

theorem spares_removeInput (path : String) : Spares name (removeInput path) := by
  refine spares_bind (spares_work rfl) fun left => ?_
  cases left with
  | true => exact spares_exceptOs (spares_work rfl) trivial
  | false => trivial

theorem spares_publish (message : Dict) (executable : Option String) : Spares name (publish message executable) := by
  refine spares_bind (Prog.calls_ofExcept _ _) fun _ => spares_bind (Prog.calls_ofExcept _ _) fun _ => ?_
  refine spares_bind (spares_executableOrFound executable) fun executable => spares_bind (spares_work rfl) fun path => ?_
  refine spares_bind (spares_bind (Prog.Calls.attempt ?_) fun result => ?_) fun result => ?_
  · exact spares_bind (spares_work rfl) fun _ => spares_work rfl
  · exact spares_bind (spares_removeInput path) fun _ => Prog.calls_ofExcept _ result
  · split <;> trivial

theorem spares_handleMessage {n : FileName} (hn : n ≠ name) (executable : Option String) (activeTopics message : Dict)
    (progress : Progress) : Spares name (handleMessage executable activeTopics n message progress) := by
  refine spares_bind (spares_work rfl) fun now => ?_
  split
  · trivial
  · split
    · exact spares_settle hn (spares_bind (spares_moveAside hn n) fun _ => spares_work rfl)
    · split
      · exact spares_settle hn (spares_bind (spares_work (decide_eq_true hn)) fun _ => spares_work rfl)
      · split
        · trivial
        · refine spares_bind spares_takeSlot.attempt fun result => ?_
          cases result with
          | ok => exact spares_settle hn (spares_bind (spares_publish message executable) fun _ => spares_removeDelivered hn)
          | error e => exact spares_onError hn (some message) progress e

/-! ## A try -/

/-- However a part of a run ends; runs are not cut off. -/
abbrev ends {α : Type} (R : α → RetryWorld → Prop) (E : WorkerError → RetryWorld → Prop) :
    Post RetryWorld WorkerError α := ⟨R, E, fun _ => True⟩

variable (name queued message created) in
/-- The try is under way and is not recorded yet. -/
structure Trying (tried : Nat) (w : RetryWorld) : Prop where
  current : w.current = name
  read : 1 ≤ w.readings
  content : w.content = some message
  same : ∀ field, field ≠ "attempts" → field ≠ "next_attempt_at" → Dict.get? message field = Dict.get? queued field
  counted : Dict.get? message "attempts" = some (.int tried)
  history : BackedOff w.attempts
  recorded : w.attempts.length ≤ tried + 1
  waited : created + retryWait tried ≤ wholeSeconds w.clock
  last : ∀ t ∈ w.attempts.getLast?, wholeSeconds t ≤ wholeSeconds w.clock
  early : w.failed = true → Valid queued → created + 7200 ≤ wholeSeconds w.clock

variable (name queued message created) in
/-- The message is due and has not expired. -/
structure Ready (tried : Nat) (w : RetryWorld) : Prop extends Trying name queued message created tried w where
  few : tried ≤ 6
  attempted : w.attempts.length ≤ tried
  spaced : ∀ t ∈ w.attempts.getLast?, wholeSeconds t + retryDelay (w.attempts.length - 1) ≤ wholeSeconds w.clock

theorem ready_of_scheduled {tried : Nat} {next : Int} (hcurrent : w.current = name) (hread : 1 ≤ w.readings)
    (hcontent : w.content = some message) (hresting : Resting queued created w)
    (h : Scheduled queued created w.attempts message tried next)
    (hdue : next ≤ wholeSeconds w.clock) (hexpires : wholeSeconds w.clock < created + 7200) :
    Ready name queued message created tried w where
  current := hcurrent
  read := hread
  content := hcontent
  same := h.same
  counted := h.counted
  history := hresting.history
  early := hresting.early
  recorded := Nat.le_succ_of_le h.recorded
  waited := h.waited.trans hdue
  last := by
    intro t ht
    have hspaced := h.spaced t ht
    have hnonneg := retryDelay_nonneg (w.attempts.length - 1)
    omega
  few := by
    have hwaited := h.waited
    apply le_six_of_retryWait_lt
    omega
  attempted := h.recorded
  spaced := fun t ht => (h.spaced t ht).trans hdue

theorem Ready.attempt {tried : Nat} {now : Int} (h : Ready name queued message created tried w) (hnow : w.clock ≤ now) :
    Trying name queued message created tried { w with clock := now, attempts := w.attempts ++ [now] } where
  current := h.current
  read := h.read
  content := h.content
  same := h.same
  counted := h.counted
  history := h.history.append (h.attempted.trans h.few) fun t ht => (h.spaced t ht).trans (wholeSeconds_mono hnow)
  early := fun hfailed hvalid => (h.early hfailed hvalid).trans (wholeSeconds_mono hnow)
  recorded := by
    have hattempted := h.attempted
    show (w.attempts ++ [now]).length ≤ tried + 1
    rw [List.length_append, List.length_singleton]
    omega
  waited := h.waited.trans (wholeSeconds_mono hnow)
  last := by
    intro t ht
    have ht' : (w.attempts ++ [now]).getLast? = some t := ht
    rw [List.getLast?_append, List.getLast?_singleton] at ht'
    obtain rfl := Option.some.inj ht'
    exact Int.le_refl _

/-- The message with the try counted, due a delay from now. -/
def retried (message : Dict) (tried : Nat) (now : Int) : Dict :=
  Dict.set (Dict.set message "attempts" (.int (tried + 1))) "next_attempt_at" (.int (now + retryDelay tried))

theorem Trying.scheduled {tried : Nat} (h : Trying name queued message created tried w) :
    Scheduled queued created w.attempts (retried message tried (wholeSeconds w.clock)) (tried + 1)
      (wholeSeconds w.clock + retryDelay tried) where
  same := by
    intro field hattempts hnext
    unfold retried
    rw [Dict.get?_set_ne _ _ hnext, Dict.get?_set_ne _ _ hattempts]
    exact h.same field hattempts hnext
  counted := by
    unfold retried
    rw [Dict.get?_set_ne _ _ (by decide), Dict.get?_set_self]
    rfl
  due := Dict.get?_set_self ..
  recorded := h.recorded
  waited := by
    have hwaited := h.waited
    show created + (retryWait tried + retryDelay tried) ≤ _
    omega
  spaced := by
    intro t ht
    have hlast := h.last t ht
    have hrecorded := h.recorded
    have hdelay : retryDelay (w.attempts.length - 1) ≤ retryDelay tried := retryDelay_mono (by omega)
    omega

/-! ## Calls without an effect on the message -/

def WorkerCall.inert : WorkerCall → Bool
  | .readRegistry | .openMessage _ | .time | .syncLock | .moveToFailed _ _ | .unlink _ | .writeTemporary ..
  | .replaceMessage _ _ => false
  | _ => true

theorem after_inert {call : WorkerCall} (hinert : call.inert) (now : Int) (r : Except WorkerError call.Ans) :
    w.after name now call r = w := by
  cases call <;> first | rfl | cases hinert

theorem inert_spec {call : WorkerCall} (hinert : call.inert) (w : RetryWorld) :
    (work call).wp (failingAnswers name queued)
      (ends (fun a w' => w' = w ∧ ∃ now, w.Returns name queued now call a)
        fun e w' => w' = w ∧ w.Raises name (fun e => e.isMalformed = false) call e) w := by
  refine ⟨trivial, fun r w' h => ?_⟩
  obtain ⟨now, -, rfl, hanswer⟩ := h
  cases r with
  | ok a => exact ⟨after_inert hinert now _, now, hanswer⟩
  | error e => exact ⟨after_inert hinert now _, hanswer⟩

theorem inert_seq {β : Type} {call : WorkerCall} (hinert : call.inert) {p : call.Ans → Worker β}
    {R : β → RetryWorld → Prop} {E : WorkerError → RetryWorld → Prop}
    (hok : ∀ a, (∃ now, w.Returns name queued now call a) → (p a).wp (failingAnswers name queued) (ends R E) w)
    (herr : ∀ e, w.Raises name (fun e => e.isMalformed = false) call e → E e w) :
    ((work call).bind p).wp (failingAnswers name queued) (ends R E) w := by
  refine Prog.wp_seq (R := fun a w' => w' = w ∧ ∃ now, w.Returns name queued now call a) ?_ ?_
  · refine Prog.wp_mono (inert_spec hinert w) (fun _ _ h => h) (fun e w' h => ?_) fun _ h => h
    obtain ⟨rfl, hraises⟩ := h
    exact herr e hraises
  · intro a w' h
    obtain ⟨rfl, hreturns⟩ := h
    exact hok a hreturns

theorem inert_last {call : WorkerCall} (hinert : call.inert) {R : call.Ans → RetryWorld → Prop}
    {E : WorkerError → RetryWorld → Prop} (hok : ∀ a, (∃ now, w.Returns name queued now call a) → R a w)
    (herr : ∀ e, w.Raises name (fun e => e.isMalformed = false) call e → E e w) : (work call).wp (failingAnswers name queued) (ends R E) w := by
  refine Prog.wp_mono (inert_spec hinert w) (fun a w' h => ?_) (fun e w' h => ?_) fun _ h => h
  · obtain ⟨rfl, hreturns⟩ := h
    exact hok a hreturns
  · obtain ⟨rfl, hraises⟩ := h
    exact herr e hraises

/-! ## The parts of a try -/

theorem takeSlot_trying {tried : Nat} (h : Ready name queued message created tried w) :
    takeSlot.wp (failingAnswers name queued) (ends (fun _ => Trying name queued message created tried)
      fun e w' => e.isMalformed = false ∧ Trying name queued message created tried w') w := by
  have hraises : ∀ e : WorkerError, (w.current = name → e.isMalformed = false) →
      e.isMalformed = false ∧ Trying name queued message created tried w := fun e he => ⟨he h.current, h.toTrying⟩
  refine Prog.wp_seq (R := fun _ w' => w' = w) ?_ fun _ w' hsame => ?_
  · refine inert_seq rfl (fun text _ => inert_seq rfl (fun now _ => ?_) hraises) hraises
    cases text with
    | number time =>
      dsimp only
      split
      · exact inert_last rfl (fun _ _ => rfl) hraises
      · exact rfl
    | _ => exact rfl
  · rw [hsame]
    refine inert_seq rfl (fun now _ => inert_seq rfl (fun _ _ => inert_seq rfl (fun _ _ => ?_) hraises) hraises) hraises
    refine ⟨trivial, fun r w₁ hr => ?_⟩
    obtain ⟨now, hnow, rfl, hanswer⟩ := hr
    cases r with
    | ok a =>
      show Trying name queued message created tried (if w.current = name then _ else w)
      rw [if_pos h.current]
      exact h.attempt hnow
    | error e => exact hraises e hanswer

theorem findOci_still (hcurrent : w.current = name) : findOci.wp (failingAnswers name queued)
    (ends (fun _ w' => w' = w) fun e w' => e.isMalformed = false ∧ w' = w) w := by
  have hraises : ∀ e : WorkerError, (w.current = name → e.isMalformed = false) → e.isMalformed = false ∧ w = w :=
    fun e he => ⟨he hcurrent, rfl⟩
  refine inert_seq rfl (fun found _ => ?_) hraises
  cases found with
  | some executable => exact rfl
  | none =>
    refine inert_seq rfl (fun found _ => ?_) hraises
    cases found with
    | true => exact rfl
    | false =>
      refine inert_seq rfl (fun found _ => ?_) hraises
      cases found with
      | true => exact rfl
      | false => exact ⟨rfl, rfl⟩

theorem executableOrFound_still (executable : Option String) (hcurrent : w.current = name) :
    (executableOrFound executable).wp (failingAnswers name queued)
      (ends (fun _ w' => w' = w) fun e w' => e.isMalformed = false ∧ w' = w) w := by
  unfold executableOrFound
  split
  · split
    · exact findOci_still hcurrent
    · exact rfl
  · exact findOci_still hcurrent

theorem removeInput_still (path : String) (hcurrent : w.current = name) :
    (removeInput path).wp (failingAnswers name queued)
      (ends (fun _ w' => w' = w) fun e w' => e.isMalformed = false ∧ w' = w) w := by
  refine inert_seq rfl (fun left _ => ?_) fun e he => ⟨he hcurrent, rfl⟩
  cases left with
  | false => exact rfl
  | true =>
    show Prog.wp _ (Prog.tryCatch _ _) _ w
    rw [Prog.wp_tryCatch]
    refine inert_last rfl (fun _ _ => rfl) fun e he => ?_
    split
    · exact rfl
    · exact ⟨he hcurrent, rfl⟩

theorem publish_fails (executable : Option String) (hvalid : Valid message) (hcurrent : w.current = name) :
    (publish message executable).wp (failingAnswers name queued)
      (ends (fun _ _ => False) fun e w' => e.isMalformed = false ∧ w' = w) w := by
  have hregion : rejectIf (matchesRegion (textField message "region") = false) "invalid OCI region" = .ok () :=
    if_neg (by simp [hvalid.region])
  have htopic : rejectIf (isTopicOcid (textField message "topic_id") = false) "invalid Notifications topic OCID" = .ok () :=
    if_neg (by simp [hvalid.topic])
  unfold publish
  dsimp only
  rw [hregion, htopic]
  show Prog.wp _ ((executableOrFound executable).bind _) _ w
  refine Prog.wp_seq (executableOrFound_still executable hcurrent) fun executable w₁ hsame => ?_
  subst hsame
  refine inert_seq rfl (fun path _ => ?_) fun e he => ⟨(he hcurrent).2, rfl⟩
  refine Prog.wp_seq (R := fun (result : OciResult) w' => result.returncode ≠ 0 ∧ w' = w₁) ?_ fun result w₂ hfailed => ?_
  · refine Prog.wp_seq_attempt (R := fun (result : OciResult) w' => result.returncode ≠ 0 ∧ w' = w₁)
      (E := fun e w' => e.isMalformed = false ∧ w' = w₁) ?_ ?_ ?_
    · refine inert_seq rfl (fun _ _ => ?_) fun e he => ⟨he hcurrent, rfl⟩
      exact inert_last rfl (fun result ⟨_, hresult⟩ => ⟨hresult hcurrent, rfl⟩) fun e he => ⟨he hcurrent, rfl⟩
    · intro result w₂ hfailed
      obtain ⟨hcode, rfl⟩ := hfailed
      refine Prog.wp_seq (removeInput_still path hcurrent) fun _ w₃ hsame => ?_
      exact ⟨hcode, hsame⟩
    · intro e w₂ hfailed
      obtain ⟨hmalformed, rfl⟩ := hfailed
      refine Prog.wp_seq (removeInput_still path hcurrent) fun _ w₃ hsame => ?_
      exact ⟨hmalformed, hsame⟩
  · obtain ⟨hcode, rfl⟩ := hfailed
    rw [if_pos hcode]
    exact ⟨rfl, rfl⟩

/-! ## The record of a try -/

theorem moved_of_leaves (hhistory : BackedOff w.attempts) (hearly : Valid queued → created + 7200 ≤ wholeSeconds w.clock) :
    Moved queued created { w with content := none, failed := true } :=
  ⟨⟨hhistory, fun _ => rfl, fun _ => hearly, nofun⟩, rfl⟩

theorem moveAside_queued (hcurrent : w.current = name) (hcontent : w.content ≠ none) :
    (moveAside name name).wp (failingAnswers name queued)
      (ends (fun _ w' => w' = { w with content := none, failed := true }) fun _ _ => False) w := by
  refine inert_seq rfl (fun _ _ => ?_) fun e he => hcontent (he hcurrent).1
  refine ⟨trivial, fun r w₁ hr => ?_⟩
  obtain ⟨now, -, rfl, hanswer⟩ := hr
  cases r with
  | ok a =>
    show (if name = name then _ else w) = _
    rw [if_pos rfl]
  | error e => exact hcontent (hanswer rfl).1

/-- A message that has left the queue cannot be moved again. -/
theorem moveAside_left (hcurrent : w.current = name) (hcontent : w.content = none) :
    (moveAside name name).wp (failingAnswers name queued)
      (ends (fun _ _ => False) fun e w' => e.isOs ∧ w' = w) w := by
  refine inert_seq rfl (fun _ _ => ?_) fun e he => ⟨(he hcurrent).2, rfl⟩
  refine ⟨trivial, fun r w₁ hr => ?_⟩
  obtain ⟨now, -, rfl, hanswer⟩ := hr
  cases r with
  | ok a => exact hanswer rfl hcontent
  | error e => exact ⟨(hanswer rfl).2, rfl⟩

theorem atomicWrite_retried {value : Dict} (hcurrent : w.current = name) (hread : 2 ≤ w.readings) :
    (atomicWrite name value).wp (failingAnswers name queued)
      (ends (fun _ => SameMessage { w with content := some value })
        fun _ => SameMessage { w with content := some value }) w := by
  refine inert_seq rfl (fun path _ => ?_) fun e he => absurd (he hcurrent).1 (by omega)
  refine Prog.wp_seq_attempt (R := fun _ => SameMessage { w with content := some value }) (E := fun _ _ => False)
    ⟨trivial, fun r w₁ hr => ?_⟩ ?_ ?_
  · obtain ⟨now, -, rfl, hanswer⟩ := hr
    cases r with
    | error e => exact hanswer hcurrent
    | ok a =>
      refine ⟨trivial, fun r w₂ hr => ?_⟩
      obtain ⟨now, -, rfl, hanswer⟩ := hr
      cases r with
      | error e =>
        have hnone := (if_pos rfl).symm.trans (hanswer hcurrent)
        cases hnone
      | ok a =>
        show SameMessage _ (if name = name then _ else _)
        rw [if_pos rfl]
        refine ⟨?_, rfl, rfl, rfl, rfl, Int.le_refl _⟩
        exact if_pos rfl
  · intro _ w₁ h₁
    refine Prog.wp_seq (R := fun _ => SameMessage { w with content := some value }) ?_ fun _ w₂ h₂ => h₂
    refine inert_seq rfl (fun left _ => ?_) fun _ _ => h₁
    cases left with
    | true => exact inert_last rfl (fun _ _ => h₁) fun _ _ => h₁
    | false => exact h₁
  · exact fun _ _ h => h.elim

theorem markRetry_resting {tried : Nat} (hqueued : QueuedAt queued created) (hread : 2 ≤ w.readings)
    (h : Trying name queued message created tried w) :
    (markRetry name (some message) (wholeSeconds w.clock)).wp (failingAnswers name queued)
      (ends (fun _ => Resting queued created) fun _ => Resting queued created) w := by
  have hexpires : expiryOf message (wholeSeconds w.clock) = created + 7200 := by
    have hget : Dict.get? message "expires_at" = some (.int (created + 7200)) :=
      (h.same "expires_at" (by decide) (by decide)).trans hqueued.expires
    unfold expiryOf
    rw [hget]
  have hdelay : min 3600 (60 * 2 ^ (min (countField message "attempts" + 1 - 1) 6).toNat) = retryDelay tried := by
    rw [countField_eq h.counted, Int.add_sub_cancel]
    have hmin : (min (tried : Int) 6).toNat = min tried 6 := by omega
    rw [hmin]
    rfl
  unfold markRetry
  dsimp only [Option.getD_some]
  rw [hexpires, hdelay]
  split
  case isTrue hpast =>
    refine Prog.wp_seq (Prog.wp_mono (moveAside_queued h.current (by rw [h.content]; exact Option.some_ne_none _))
      (fun _ _ h => h) (fun _ _ h => h.elim) fun _ h => h) fun _ w₁ hmoved => ?_
    rw [hmoved]
    have hresting : Resting queued created { w with content := none, failed := true } :=
      (moved_of_leaves h.history fun _ => hpast).resting
    exact inert_last rfl (fun _ _ => hresting) fun _ _ => hresting
  case isFalse hpast =>
    rw [countField_eq h.counted]
    have hresting : Resting queued created
        { w with content := some (retried message tried (wholeSeconds w.clock)) } := by
      refine ⟨h.history, nofun, h.early, fun m hm => ?_⟩
      obtain rfl := Option.some.inj hm
      exact ⟨tried + 1, _, h.scheduled⟩
    refine Prog.wp_seq (Prog.wp_mono (atomicWrite_retried h.current hread) (fun _ _ h => h)
      (fun _ _ hsame => hresting.same hsame) fun _ h => h) fun _ w₁ hsame => ?_
    have h₁ := hresting.same hsame
    exact inert_last rfl (fun _ _ => h₁) fun _ _ => h₁

/-! ## The handlers -/

/-- A failed try is recorded, or the message is moved. -/
theorem onError_trying {tried : Nat} {error : WorkerError} (progress : Progress) (hqueued : QueuedAt queued created)
    (herror : error.isMalformed = false) (h : Trying name queued message created tried w) :
    (onError name (some message) progress error).wp (failingAnswers name queued)
      (ends (fun _ => Resting queued created) fun _ => Resting queued created) w := by
  unfold onError
  rw [if_neg (by simp [herror]), if_neg (by simp)]
  refine Prog.wp_seq_attempt (R := fun _ => Resting queued created) (E := fun _ => Resting queued created) ?_
    (fun _ _ h => h) fun retryError w₁ h₁ => ?_
  · refine Prog.wp_seq (R := fun reading w' => reading = wholeSeconds w'.clock ∧ 2 ≤ w'.readings ∧
      Trying name queued message created tried w') ⟨trivial, fun r w₁ hr => ?_⟩ fun reading w₁ hreading => ?_
    · obtain ⟨now, hnow, rfl, hanswer⟩ := hr
      cases r with
      | error e => exact hanswer.elim
      | ok reading =>
        have hlater := wholeSeconds_mono hnow
        refine ⟨hanswer, Nat.succ_le_succ h.read, h.current, Nat.le_succ_of_le h.read, h.content, h.same, h.counted,
          h.history, h.recorded, h.waited.trans hlater, fun t ht => (h.last t ht).trans hlater,
          fun hfailed hvalid => (h.early hfailed hvalid).trans hlater⟩
    · obtain ⟨rfl, hread, h₁⟩ := hreading
      exact markRetry_resting hqueued hread h₁
  · dsimp only
    split
    · exact inert_seq rfl (fun _ _ => h₁) fun _ _ => h₁
    · exact h₁

theorem quarantine_moved (hcurrent : w.current = name) (hresting : Resting queued created w)
    (hleaves : w.content ≠ none → Valid queued → created + 7200 ≤ wholeSeconds w.clock) :
    (exceptOs (quarantine name) (work (.report name))).wp (failingAnswers name queued)
      (ends (fun _ => Moved queued created) fun _ => Moved queued created) w := by
  unfold exceptOs quarantine
  rw [Prog.wp_tryCatch]
  by_cases hcontent : w.content = none
  · have hmoved : Moved queued created w := ⟨hresting, hcontent⟩
    refine Prog.wp_seq (Prog.wp_mono (moveAside_left hcurrent hcontent) (fun _ _ h => h) (fun e w₁ h => ?_) fun _ h => h)
      fun _ _ h => h.elim
    obtain ⟨hos, rfl⟩ := h
    dsimp only
    rw [if_pos hos]
    exact inert_last rfl (fun _ _ => hmoved) fun _ _ => hmoved
  · refine Prog.wp_seq (Prog.wp_mono (moveAside_queued hcurrent hcontent) (fun _ _ h => h) (fun _ _ h => h.elim)
      fun _ h => h) fun _ w₁ h₁ => ?_
    rw [h₁]
    have hmoved : Moved queued created { w with content := none, failed := true } :=
      moved_of_leaves hresting.history (hleaves hcontent)
    refine inert_last rfl (fun _ _ => hmoved) fun e _ => ?_
    split
    · exact inert_last rfl (fun _ _ => hmoved) fun _ _ => hmoved
    · exact hmoved

theorem onError_malformed {error : WorkerError} (loaded : Option Dict) (progress : Progress) (herror : error.isMalformed)
    (hcurrent : w.current = name) (hresting : Resting queued created w)
    (hleaves : w.content ≠ none → Valid queued → created + 7200 ≤ wholeSeconds w.clock) :
    (onError name loaded progress error).wp (failingAnswers name queued)
      (ends (fun _ => Moved queued created) fun _ => Moved queued created) w := by
  unfold onError
  rw [if_pos herror]
  exact Prog.wp_seq (quarantine_moved hcurrent hresting hleaves) fun _ _ h => h

theorem settle_expire (progress : Progress) (hcurrent : w.current = name) (hcontent : w.content ≠ none)
    (hresting : Resting queued created w) (hexpired : created + 7200 ≤ wholeSeconds w.clock) :
    (settle name message progress (expire name)).wp (failingAnswers name queued)
      (ends (fun _ => Moved queued created) fun _ => Moved queued created) w := by
  have hmoved : Moved queued created { w with content := none, failed := true } :=
    moved_of_leaves hresting.history fun _ => hexpired
  refine Prog.wp_seq_attempt (R := fun _ => Moved queued created)
    (E := fun e w' => e.isMalformed ∧ w'.current = name ∧ Moved queued created w') ?_ (fun _ _ h => h) fun e w₁ h₁ => ?_
  · refine Prog.wp_seq (Prog.wp_mono (moveAside_queued hcurrent hcontent) (fun _ _ h => h) (fun _ _ h => h.elim)
      fun _ h => h) fun _ w₁ h₁ => ?_
    rw [h₁]
    exact inert_last rfl (fun _ _ => hmoved) fun e he => ⟨he, hcurrent, hmoved⟩
  · exact onError_malformed (some message) progress h₁.1 h₁.2.1 h₁.2.2.resting fun hne => absurd h₁.2.2.content hne

/-- What a run leaves of the message: an overdue one is moved. -/
def Handled (queued : Dict) (created : Int) (overdue : Prop) (w : RetryWorld) : Prop :=
  Resting queued created w ∧ (overdue → w.content = none)

theorem Moved.handled {overdue : Prop} (h : Moved queued created w) : Handled queued created overdue w :=
  ⟨h.resting, fun _ => h.content⟩

theorem handleMessage_resting {overdue : Prop} {topics : Dict} (executable : Option String) (progress : Progress)
    (hqueued : QueuedAt queued created) (hregistered : Dict.get? topics (textField queued "username") = Dict.get? queued "topic_id")
    (hcurrent : w.current = name) (hcontent : w.content = some message) (hvalid : Valid message)
    (hresting : Resting queued created w) (hoverdue : overdue → Overdue w) :
    (handleMessage executable topics name message progress).wp (failingAnswers name queued)
      (ends (fun _ => Handled queued created overdue) fun _ => Handled queued created overdue) w := by
  obtain ⟨tried, next, hscheduled⟩ := hresting.scheduled message hcontent
  have hexpires := hscheduled.expires hqueued
  have hnext : countField message "next_attempt_at" = next := countField_eq hscheduled.due
  have htopic := hscheduled.registered hvalid hregistered
  refine Prog.wp_seq (R := fun reading w' => reading = wholeSeconds w'.clock ∧ 1 ≤ w'.readings ∧ SameMessage w w')
    ⟨trivial, fun r w₁ hr => ?_⟩ fun reading w₁ hreading => ?_
  · obtain ⟨now, hnow, rfl, hanswer⟩ := hr
    cases r with
    | error e => exact hanswer.elim
    | ok reading => exact ⟨hanswer, Nat.le_add_left 1 _, rfl, rfl, rfl, rfl, rfl, hnow⟩
  · obtain ⟨rfl, hread, hsame⟩ := hreading
    have h₁ := hresting.same hsame
    have hcontent₁ : w₁.content = some message := hsame.content.trans hcontent
    have hcurrent₁ : w₁.current = name := hsame.current.trans hcurrent
    have hlate : overdue → created + 7200 ≤ wholeSeconds w₁.clock ∧ next ≤ wholeSeconds w₁.clock := by
      intro ho
      obtain ⟨hlate, hdue⟩ := (hoverdue ho).same hsame message hcontent₁
      exact ⟨hexpires ▸ hlate, hnext ▸ hdue⟩
    rw [hexpires, hnext, if_neg (not_not_intro htopic)]
    split
    case isTrue hearly => exact ⟨h₁, fun ho => absurd (hlate ho).2 (not_le.mpr hearly)⟩
    case isFalse hdue =>
      split
      case isTrue hexpired =>
        exact Prog.wp_mono (settle_expire progress hcurrent₁ (by rw [hcontent₁]; exact Option.some_ne_none _) h₁ hexpired)
          (fun _ _ h => h.handled) (fun _ _ h => h.handled) fun _ h => h
      case isFalse hexpired =>
        have hnot : ¬ overdue := fun ho => hexpired (hlate ho).1
        have hhandled : ∀ w', Resting queued created w' → Handled queued created overdue w' :=
          fun w' h => ⟨h, fun ho => absurd ho hnot⟩
        split
        · exact hhandled w₁ h₁
        · have hscheduled₁ : Scheduled queued created w₁.attempts message tried next := hsame.attempts ▸ hscheduled
          have hready := ready_of_scheduled hcurrent₁ hread hcontent₁ h₁ hscheduled₁ (not_lt.mp hdue) (not_le.mp hexpired)
          have herror : ∀ (progress : Progress) (e : WorkerError) (w' : RetryWorld), e.isMalformed = false →
              Trying name queued message created tried w' →
              (onError name (some message) progress e).wp (failingAnswers name queued)
                (ends (fun _ => Handled queued created overdue) fun _ => Handled queued created overdue) w' :=
            fun progress e w' he h => Prog.wp_mono (onError_trying progress hqueued he h) (fun _ => hhandled)
              (fun _ => hhandled) fun _ h => h
          refine Prog.wp_seq_attempt (takeSlot_trying hready) (fun _ w₂ h₂ => ?_) fun e w₂ h₂ => herror _ e w₂ h₂.1 h₂.2
          refine Prog.wp_seq_attempt (R := fun _ _ => False)
            (E := fun e w' => e.isMalformed = false ∧ Trying name queued message created tried w') ?_ (fun _ _ h => h.elim)
            fun e w₃ h₃ => herror _ e w₃ h₃.1 h₃.2
          refine Prog.wp_seq (Prog.wp_mono (publish_fails executable hvalid h₂.current) (fun _ _ h => h)
            (fun e w₃ h => ?_) fun _ h => h) fun _ _ h => h.elim
          exact ⟨h.1, h.2 ▸ h₂⟩

/-! ## A run -/

/-- What the loop keeps: an overdue message is still to come, or has been moved. -/
structure Looping (name : FileName) (queued : Dict) (created : Int) (overdue : Prop) (rest : List FileName)
    (w : RetryWorld) : Prop where
  resting : Resting queued created w
  unexamined : overdue → w.content = none ∨ (Overdue w ∧ name ∉ w.examined)
  coming : overdue → w.content = none ∨ name ∈ rest

def RunEnds (name : FileName) (queued : Dict) (created : Int) (overdue : Prop) (w : RetryWorld) : Prop :=
  Resting queued created w ∧ (overdue → name ∈ w.examined → w.content = none)

theorem Looping.runEnds {overdue : Prop} {rest : List FileName} (h : Looping name queued created overdue rest w) :
    RunEnds name queued created overdue w :=
  ⟨h.resting, fun ho hexamined => (h.unexamined ho).elim id fun hlater => absurd hexamined hlater.2⟩

/-- The message itself is read and handled, or set aside with what the reading raised. -/
theorem examine_handled {overdue : Prop} {topics : Dict} (executable : Option String) (progress : Progress)
    (hqueued : QueuedAt queued created)
    (hregistered : Dict.get? topics (textField queued "username") = Dict.get? queued "topic_id")
    (hresting : Resting queued created w) (hoverdue : overdue → w.content = none ∨ Overdue w) :
    (examine executable topics progress name).wp (failingAnswers name queued)
      (ends (fun _ => Handled queued created overdue) fun _ => Handled queued created overdue) w := by
  refine Prog.wp_seq_attempt
    (R := fun message w' => Valid message ∧ w'.content = some message ∧ w'.current = name ∧ Resting queued created w' ∧
      (overdue → Overdue w'))
    (E := fun e w' => w'.current = name ∧ Resting queued created w' ∧
      ((e.isMalformed ∧ (w'.content ≠ none → ¬ Valid queued)) ∨ (e.isOs ∧ w'.content = none))) ?_ ?_ ?_
  · refine ⟨trivial, fun r w₁ hr => ?_⟩
    obtain ⟨now, -, rfl, hanswer⟩ := hr
    cases r with
    | error e =>
      obtain ⟨hcontent, hos⟩ := hanswer rfl
      exact ⟨rfl, ⟨hresting.history, hresting.moved, hresting.early, hresting.scheduled⟩, .inr ⟨hos, hcontent⟩⟩
    | ok content =>
      obtain ⟨message, hcontent, rfl⟩ := hanswer rfl
      have h₁ : Resting queued created (w.after name now (.openMessage name) (.ok (.obj message))) :=
        ⟨hresting.history, hresting.moved, hresting.early, hresting.scheduled⟩
      show Prog.wp _ (Prog.ofExcept (validateMessage (.obj message))) _ _
      rw [Prog.wp_ofExcept]
      cases hvalidate : validateMessage (.obj message) with
      | ok message' =>
        obtain ⟨hsame, hvalid⟩ := validateMessage_eq_ok.mp hvalidate
        cases hsame
        refine ⟨hvalid, hcontent, rfl, h₁, fun ho m hm => ?_⟩
        obtain hnone | hlate := hoverdue ho
        · exact nomatch hcontent.symm.trans hnone
        · exact hlate m hm
      | error e =>
        refine ⟨rfl, h₁, .inl ⟨validateMessage_error hvalidate, fun _ hvalid => ?_⟩⟩
        obtain ⟨tried, next, hscheduled⟩ := hresting.scheduled message hcontent
        have hok := validateMessage_eq_ok.mpr ⟨rfl, hscheduled.valid hqueued hvalid⟩
        exact nomatch hok.symm.trans hvalidate
  · rintro message w₁ ⟨hvalid, hcontent, hcurrent, hresting, hoverdue⟩
    exact handleMessage_resting executable progress hqueued hregistered hcurrent hcontent hvalid hresting hoverdue
  · rintro e w₁ ⟨hcurrent, hresting, ⟨hmalformed, hinvalid⟩ | ⟨hos, hnone⟩⟩
    · exact Prog.wp_mono (onError_malformed none progress hmalformed hcurrent hresting
        fun hne hvalid => absurd hvalid (hinvalid hne)) (fun _ _ h => h.handled) (fun _ _ h => h.handled) fun _ h => h
    · have hmoved : Handled queued created overdue w₁ := ⟨hresting, fun _ => hnone⟩
      show Prog.wp _ (onError name none progress e) _ w₁
      unfold onError
      rw [if_neg (by simp [isMalformed_of_isOs hos]), if_pos (by simp [hos])]
      exact inert_seq rfl (fun _ _ => hmoved) fun _ _ => hmoved

theorem Looping.next {overdue : Prop} {rest : List FileName} {n : FileName} (hn : n ≠ name)
    (h : Looping name queued created overdue (n :: rest) w) {w' : RetryWorld} (hsame : SameMessage w w') :
    Looping name queued created overdue rest w' := by
  refine ⟨h.resting.same hsame, fun ho => ?_, fun ho => ?_⟩
  · obtain hnone | ⟨hlate, hexamined⟩ := h.unexamined ho
    · exact .inl (hsame.content.trans hnone)
    · exact .inr ⟨hlate.same hsame, hsame.examined ▸ hexamined⟩
  · obtain hnone | hcoming := h.coming ho
    · exact .inl (hsame.content.trans hnone)
    · exact .inr ((List.mem_cons.mp hcoming).resolve_left (Ne.symm hn))

/-- Another file is opened, and from then on the calls spare the message. -/
theorem examine_other {overdue : Prop} {rest : List FileName} {n : FileName} (hn : n ≠ name)
    (executable : Option String) (topics : Dict) (progress : Progress)
    (h : Looping name queued created overdue (n :: rest) w) :
    (examine executable topics progress n).wp (failingAnswers name queued)
      (ends (fun _ => Looping name queued created overdue rest) fun _ => RunEnds name queued created overdue) w := by
  have hrest : ∀ {w₁ : RetryWorld}, w₁.current = n → Looping name queued created overdue (n :: rest) w₁ →
      ∀ {p : Worker Progress}, Spares name p → p.wp (failingAnswers name queued)
        (ends (fun _ => Looping name queued created overdue rest) fun _ => RunEnds name queued created overdue) w₁ := by
    intro w₁ hcurrent h₁ p hp
    exact Prog.wp_mono (hp.sameMessage (by rw [hcurrent]; exact hn)) (fun _ _ => h₁.next hn)
      (fun _ _ hsame => (h₁.next hn hsame).runEnds) fun _ _ => trivial
  refine Prog.wp_seq_attempt
    (R := fun _ w' => w'.current = n ∧ Looping name queued created overdue (n :: rest) w')
    (E := fun _ w' => w'.current = n ∧ Looping name queued created overdue (n :: rest) w') ?_
    (fun message w₁ h₁ => hrest h₁.1 h₁.2 (spares_handleMessage hn executable topics message progress))
    fun e w₁ h₁ => hrest h₁.1 h₁.2 (spares_onError hn none progress e)
  refine ⟨trivial, fun r w₁ hr => ?_⟩
  obtain ⟨now, -, rfl, -⟩ := hr
  have hresting : ∀ examined, Resting queued created { w with current := n, readings := 0, examined := examined } :=
    fun examined => ⟨h.resting.history, h.resting.moved, h.resting.early, h.resting.scheduled⟩
  cases r with
  | error e => exact ⟨rfl, hresting _, h.unexamined, h.coming⟩
  | ok content =>
    have h₁ : Looping name queued created overdue (n :: rest) (w.after name now (.openMessage n) (.ok content)) := by
      refine ⟨hresting _, fun ho => ?_, h.coming⟩
      obtain hnone | ⟨hlate, hexamined⟩ := h.unexamined ho
      · exact .inl hnone
      · exact .inr ⟨hlate, fun hmem => (List.mem_cons.mp hmem).elim (Ne.symm hn) hexamined⟩
    show Prog.wp _ (Prog.ofExcept (validateMessage content)) _ _
    rw [Prog.wp_ofExcept]
    cases validateMessage content with
    | ok message => exact ⟨rfl, h₁⟩
    | error e => exact ⟨rfl, h₁⟩

theorem examine_looping {overdue : Prop} {topics : Dict} {rest : List FileName} {n : FileName}
    (executable : Option String) (progress : Progress) (hqueued : QueuedAt queued created)
    (hregistered : Dict.get? topics (textField queued "username") = Dict.get? queued "topic_id")
    (h : Looping name queued created overdue (n :: rest) w) :
    (examine executable topics progress n).wp (failingAnswers name queued)
      (ends (fun _ => Looping name queued created overdue rest) fun _ => RunEnds name queued created overdue) w := by
  by_cases hn : n = name
  · subst hn
    exact Prog.wp_mono
      (examine_handled executable progress hqueued hregistered h.resting fun ho => (h.unexamined ho).imp_right And.left)
      (fun _ _ h => ⟨h.1, fun ho => .inl (h.2 ho), fun ho => .inl (h.2 ho)⟩) (fun _ _ h => ⟨h.1, fun ho _ => h.2 ho⟩)
      fun _ h => h
  · exact examine_other hn executable topics progress h

/-- The names listed are sorted, and none is left out. -/
theorem queuedMessageNames_lists (hjson : isJsonFile name) :
    queuedMessageNames.wp (failingAnswers name queued)
      (ends (fun names w' => w' = w ∧ (w.content ≠ none → name ∈ names)) fun _ w' => w' = w) w := by
  refine inert_seq rfl (fun names ⟨_, hlisted⟩ => ?_) fun _ _ => rfl
  refine Prog.wp_seq (R := fun (aged : List (Int × FileName)) w' => w' = w ∧ aged.map (·.2) = names.filter isJsonFile) ?_
    fun aged w₁ haged => ?_
  · refine Prog.wp_forEach (fun rest (aged : List (Int × FileName)) w' =>
      w' = w ∧ aged.map (·.2) ++ rest = names.filter isJsonFile) (fun aged w₁ h => ?_) (fun n rest aged w₁ h => ?_) ⟨rfl, rfl⟩
    · rw [List.append_nil] at h
      exact h
    · obtain ⟨rfl, hsplit⟩ := h
      refine Prog.wp_seq (R := fun _ w' => w' = w₁) ?_ fun age w₂ hsame => ?_
      · show Prog.wp _ (Prog.tryCatch _ _) _ _
        rw [Prog.wp_tryCatch]
        refine inert_last rfl (fun _ _ => rfl) fun e _ => ?_
        split
        · exact rfl
        · exact rfl
      · refine ⟨hsame, ?_⟩
        rw [List.map_append, List.append_assoc]
        exact hsplit
  · obtain ⟨rfl, haged⟩ := haged
    refine ⟨rfl, fun hcontent => ?_⟩
    have hmem : name ∈ aged.map (·.2) := by
      rw [haged, List.mem_filter]
      exact ⟨hlisted hcontent, hjson⟩
    exact ((List.perm_insertionSort queuedBefore aged).map _).mem_iff.mpr hmem

theorem processQueue_runEnds (overdue : Prop) {acquired : Bool} (executable : Option String) (hjson : isJsonFile name)
    (hqueued : QueuedAt queued created) (hresting : Resting queued created w)
    (hoverdue : overdue → acquired = true ∧ Overdue w) :
    (processQueue acquired executable).wp (failingAnswers name queued)
      (ends (fun _ w' => RunEnds name queued created overdue w' ∧ (overdue → w'.content = none))
        fun _ => RunEnds name queued created overdue) w := by
  cases acquired with
  | false =>
    have hnot : ¬ overdue := fun ho => nomatch (hoverdue ho).1
    exact ⟨⟨hresting, fun ho => absurd ho hnot⟩, fun ho => absurd ho hnot⟩
  | true =>
    have hfresh : Resting queued created { w with examined := [] } :=
      ⟨hresting.history, hresting.moved, hresting.early, hresting.scheduled⟩
    have hends : RunEnds name queued created overdue { w with examined := [] } :=
      ⟨hfresh, fun _ hexamined => absurd hexamined List.not_mem_nil⟩
    refine Prog.wp_seq (R := fun registry w' => w' = { w with examined := [] } ∧ ∀ topics,
      loadActiveTopics registry = some topics →
        Dict.get? topics (textField queued "username") = Dict.get? queued "topic_id")
      ⟨trivial, fun r w₁ hr => ?_⟩ fun registry w₁ h₁ => ?_
    · obtain ⟨now, -, rfl, hanswer⟩ := hr
      cases r with
      | error e => exact hends
      | ok registry => exact ⟨rfl, hanswer⟩
    · obtain ⟨rfl, htopics⟩ := h₁
      split
      case h_1 => exact hends
      case h_2 topics hload =>
      have hregistered := htopics topics hload
      refine Prog.wp_seq (Prog.wp_mono (queuedMessageNames_lists hjson) (fun _ _ h => h) (fun _ w₂ h => h ▸ hends)
        fun _ h => h) fun names w₂ hnames => ?_
      obtain ⟨rfl, hlisted⟩ := hnames
      refine Prog.wp_seq (R := fun _ w' => Looping name queued created overdue [] w') ?_ fun progress w₃ h₃ => ?_
      · refine Prog.wp_forEach (fun rest _ w' => Looping name queued created overdue rest w') (fun _ _ h => h)
          (fun n rest progress w' h => examine_looping executable progress hqueued hregistered h) ?_
        refine ⟨hfresh, fun ho => .inr ⟨(hoverdue ho).2, List.not_mem_nil⟩, fun ho => ?_⟩
        by_cases hcontent : w.content = none
        · exact .inl hcontent
        · exact .inr (hlisted hcontent)
      · exact ⟨h₃.runEnds, fun ho => (h₃.coming ho).resolve_right List.not_mem_nil⟩

/-! ## All runs -/

theorem resting_start (hqueued : QueuedAt queued created) : Resting queued created (.start queued) where
  history := backedOff_nil
  moved := nofun
  early := nofun
  scheduled := by
    intro message hmessage
    obtain rfl := Option.some.inj hmessage
    exact ⟨0, created, hqueued.scheduled⟩

theorem Resting.later {now : Int} (h : Resting queued created w) (hnow : w.clock ≤ now) :
    Resting queued created { w with clock := now } :=
  h.same ⟨rfl, rfl, rfl, rfl, rfl, hnow⟩

theorem resting_of_runs (hjson : isJsonFile name) (hqueued : QueuedAt queued created)
    (hruns : RetryRuns name queued (fun e => e.isMalformed = false) w w') (h : Resting queued created w) : Resting queued created w' := by
  induction hruns with
  | refl => exact h
  | step hruns hnow hexec hend ih =>
    have hrun := hexec.of_wp (processQueue_runEnds False _ hjson hqueued (ih.later hnow) False.elim)
    rename_i out
    cases out with
    | done n => exact hrun.1.1
    | raised e => exact hrun.1
    | cut => exact absurd rfl hend

end

/-! ## A message of `ann` -/

def annTexts : MessageTexts where
  id := "m1"
  now := 100
  region := .str "us-phoenix-1"
  topicId := .str "ocid1.onstopic.ann"
  username := PyText.ofString "ann"
  jobId := PyText.ofString "17"
  event := PyText.ofString "END"
  title := PyText.ofString "Job 17 ended"
  body := PyText.ofString "done"

def annQueued : Dict :=
  [("version", .int 1), ("id", .str "m1"), ("created_at", .int 100), ("expires_at", .int 7300),
    ("next_attempt_at", .int 100), ("attempts", .int 0), ("region", .str "us-phoenix-1"),
    ("topic_id", .str "ocid1.onstopic.ann"), ("username", .str "ann"), ("job_id", .str "17"), ("mail_type", .str "END"),
    ("title", .str "Job 17 ended"), ("body", .str "done")]

section
variable (registry : RegistryFile) (published : Except WorkerError OciResult)

/-- Nothing takes time in a run, and every publish ends so. -/
def failingAnswer (w : RetryWorld) : (call : WorkerCall) → Except WorkerError call.Ans
  | .readRegistry => .ok registry
  | .listSpool => .ok [goodName]
  | .modifiedAt _ => .ok 0
  | .openMessage n =>
    match w.content with
    | some message => if n = goodName then .ok (.obj message) else .error (.os "ENOENT")
    | none => .error (.os "ENOENT")
  | .moveToFailed _ _ | .unlink _ => if w.content = none then .error (.os "ENOENT") else .ok ()
  | .replaceMessage path _ => if w.temporary path = none then .error (.os "ENOENT") else .ok ()
  | .time => .ok (wholeSeconds w.clock)
  | .clock => .ok w.clock
  | .readLock => .ok .blank
  | .which => .ok (some "/usr/bin/oci")
  | .isExecutable _ => .ok true
  | .exists _ => .ok false
  | .mkstemp => .ok "/var/spool/slurm-oci-notify/.retry-a"
  | .runOci _ _ _ => published
  | .makeFailed | .sleep _ | .truncateLock | .writeLock _ | .syncLock | .writeInput .. | .writeTemporary ..
  | .unlinkTemporary _ | .report _ | .log => .ok ()

def failingOutside (w : RetryWorld) (call : WorkerCall) : Except WorkerError call.Ans × RetryWorld :=
  (failingAnswer registry published w call, w.after goodName w.clock call (failingAnswer registry published w call))

def afterRun (now : Int) (w : RetryWorld) : RetryWorld :=
  ((processQueue true none).run (failingOutside registry published) { w with clock := now }).2

end

section
variable {registry : RegistryFile} {published : Except WorkerError OciResult} {fails : WorkerError → Prop}
variable (hfails : ∀ e : WorkerError, e.isMalformed = false → fails e)
  (hregistry : ∀ topics, loadActiveTopics registry = some topics →
    Dict.get? topics "ann" = some (.str "ocid1.onstopic.ann"))
  (hpublished : match published with
    | .ok result => result.returncode ≠ 0
    | .error e => fails e)
include hfails hregistry hpublished

theorem failingOutside_answers (w : RetryWorld) (call : WorkerCall) :
    retryAnswers goodName annQueued fails w call (failingOutside registry published w call).1
      (failingOutside registry published w call).2 := by
  refine ⟨w.clock, Int.le_refl _, rfl, ?_⟩
  cases call with
  | readRegistry => exact hregistry
  | listSpool => exact fun _ => List.mem_singleton_self _
  | openMessage n =>
    cases hcontent : w.content with
    | none =>
      simp only [failingOutside, failingAnswer, hcontent]
      exact fun _ => ⟨hcontent, rfl⟩
    | some message =>
      by_cases hn : n = goodName
      · simp only [failingOutside, failingAnswer, hcontent, if_pos hn]
        exact fun _ => ⟨message, hcontent, rfl⟩
      · simp only [failingOutside, failingAnswer, hcontent, if_neg hn]
        exact fun hname => absurd hname hn
  | moveToFailed n failedName =>
    by_cases hcontent : w.content = none
    · simp only [failingOutside, failingAnswer, if_pos hcontent]
      exact fun _ => ⟨hcontent, rfl⟩
    · simp only [failingOutside, failingAnswer, if_neg hcontent]
      exact fun _ => hcontent
  | unlink n =>
    by_cases hcontent : w.content = none
    · simp only [failingOutside, failingAnswer, if_pos hcontent]
      exact fun _ => hfails _ rfl
    · simp only [failingOutside, failingAnswer, if_neg hcontent]
      exact fun _ => hcontent
  | replaceMessage path n =>
    by_cases htemporary : w.temporary path = none
    · simp only [failingOutside, failingAnswer, if_pos htemporary]
      exact fun _ => htemporary
    · simp only [failingOutside, failingAnswer, if_neg htemporary]
      exact fun _ => htemporary
  | time => exact rfl
  | runOci executable region path =>
    cases published with
    | ok result => exact fun _ => hpublished
    | error e => exact fun _ => hpublished
  | _ => trivial

theorem retryRuns_afterRun {w : RetryWorld} {now : Int}
    (hruns : RetryRuns goodName annQueued fails (.start annQueued) w) (hnow : w.clock ≤ now) :
    RetryRuns goodName annQueued fails (.start annQueued) (afterRun registry published now w) := by
  refine hruns.step hnow (Exec.of_run (failingOutside_answers hfails hregistry hpublished) (processQueue true none) _) ?_
  cases ((processQueue true none).run (failingOutside registry published) { w with clock := now }).1 with
  | ok a => exact nofun
  | error e => exact nofun

end

theorem loadActiveTopics_annRegistry (topics : Dict) (h : loadActiveTopics (.json (.obj annRegistry)) = some topics) :
    Dict.get? topics "ann" = some (.str "ocid1.onstopic.ann") := by
  obtain rfl := Option.some.inj h
  decide

/-- `ann` has her Topic, and the service answers with an error. -/
def afterRefusal : Int → RetryWorld → RetryWorld := afterRun (.json (.obj annRegistry)) (.ok ⟨1, "ServiceError: 503"⟩)

theorem retryRuns_afterRefusal {fails : WorkerError → Prop} (hfails : ∀ e : WorkerError, e.isMalformed = false → fails e)
    {w : RetryWorld} {now : Int} (hruns : RetryRuns goodName annQueued fails (.start annQueued) w) (hnow : w.clock ≤ now) :
    RetryRuns goodName annQueued fails (.start annQueued) (afterRefusal now w) :=
  retryRuns_afterRun hfails loadActiveTopics_annRegistry (by decide : (1 : Int) ≠ 0) hruns hnow

/-- An overdue message stays where it is in a run that cannot read the registry. -/
theorem overdue_message_stays {fails : WorkerError → Prop} (hfails : ∀ e : WorkerError, e.isMalformed = false → fails e)
    {w : RetryWorld} (hcontent : w.content = some (retried annQueued 0 100)) :
    Overdue { w with clock := 7300000000 } ∧
    ∃ e w', Exec (retryAnswers goodName annQueued fails) (processQueue true none) { w with clock := 7300000000 }
      (.raised e) w' ∧ w'.content ≠ none := by
  constructor
  · intro message hmessage
    obtain rfl := Option.some.inj (hcontent.symm.trans hmessage)
    exact (by decide : countField (retried annQueued 0 100) "expires_at" ≤ wholeSeconds 7300000000 ∧
      countField (retried annQueued 0 100) "next_attempt_at" ≤ wholeSeconds 7300000000)
  · have hanswers : ∀ w call, retryAnswers goodName annQueued fails w call
        (failingOutside (.unreadable "EIO") (.ok ⟨1, "ServiceError: 503"⟩) w call).1
        (failingOutside (.unreadable "EIO") (.ok ⟨1, "ServiceError: 503"⟩) w call).2 :=
      failingOutside_answers hfails nofun (by decide : (1 : Int) ≠ 0)
    refine ⟨_, _, Exec.of_run hanswers (processQueue true none) { w with clock := 7300000000 }, ?_⟩
    show w.content ≠ none
    rw [hcontent]
    exact Option.some_ne_none _

end OciHpc.Slurm
