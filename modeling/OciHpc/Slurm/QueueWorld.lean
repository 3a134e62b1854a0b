import OciHpc.Base.Locked
import OciHpc.Slurm.NotifyWorker

/-!
# The spool around the worker

What the files of the spool and the OCI CLI answer the worker, and what it leaves behind.

* `QueueWorld` : the queued files, with the history of attempts and departures and the facts a run has read;
* `QueueWorld.after`, `queueAnswers` : the effect of a call, and the answers it may have;
* `Arrives` : producers put new files into the queue at any moment;
* `MayLeave` : the reasons for which a file may leave the queue;
* `Foreseen` : the answers the handlers of a message are made for;
* `Kept` : what every moment of every run keeps.
-/

namespace OciHpc.Slurm
open OciHpc.ClusterCli (RegistryFile)

/-! ## The world -/

/-- What `json.load` finds in a file: a value, no JSON or no text (`ValueError`), or more nesting than Python reads
(`RecursionError`). -/
inductive MessageFile
  | json (content : Json)
  | garbled
  | nested

/-- The message of a file that passes the checks. -/
def MessageFile.message : MessageFile → Option Dict
  | .json content => (validateMessage content).toOption
  | _ => none

structure PublishRequest where
  topicId : String
  title : String
  body : String
  deriving DecidableEq

def requestOf (message : Dict) : PublishRequest :=
  ⟨textField message "topic_id", textField message "title", textField message "body"⟩

/-- What the last run has read and done. `current` is the name last opened, `published` the request the OCI CLI has
accepted since. -/
structure RunInfo where
  registry : RegistryFile
  listing : List FileName
  examined : List FileName
  current : FileName
  now : Int
  published : Option PublishRequest
  attempts : Nat

def RunInfo.start (registry : RegistryFile) : RunInfo := ⟨registry, [], [], [], 0, none, 0⟩

/-- A file that left the queue: removed, or moved to the failed messages under a name. -/
structure Departure where
  name : FileName
  content : MessageFile
  failedName : Option FileName
  run : RunInfo

inductive QueueEvent
  | attempt (name : FileName)
  | departure (departure : Departure)

/-- The `.json` files of the spool, every name that was ever there, the files the worker writes on the way, and the
history, the last event first. -/
structure QueueWorld where
  queue : FileName → Option MessageFile
  arrived : List FileName
  inputs : String → Option PublishRequest
  temporary : String → Option Dict
  run : RunInfo
  events : List QueueEvent

def QueueWorld.leave (w : QueueWorld) (name : FileName) (failedName : Option FileName) : QueueWorld :=
  match w.queue name with
  | some content =>
    { w with
      queue := fun n => if n = name then none else w.queue n
      events := .departure ⟨name, content, failedName, w.run⟩ :: w.events }
  | none => w

def QueueWorld.attempt (w : QueueWorld) (request : Option PublishRequest) (succeeded : Bool) : QueueWorld :=
  { w with
    run := { w.run with
      attempts := w.run.attempts + 1
      published := if succeeded then request else w.run.published }
    events := .attempt w.run.current :: w.events }

def QueueWorld.after (w : QueueWorld) : (call : WorkerCall) → Except WorkerError call.Ans → QueueWorld
  | .readRegistry, .ok registry => { w with run := .start registry }
  | .readRegistry, .error _ => { w with run := .start .absent }
  | .listSpool, .ok names => { w with run := { w.run with listing := names.filter isJsonFile } }
  | .openMessage name, _ =>
    { w with run := { w.run with
        current := name, published := none, examined := name :: w.run.examined } }
  | .time, .ok now => { w with run := { w.run with now := now } }
  | .moveToFailed name failedName, .ok _ => w.leave name (some failedName)
  | .unlink name, .ok _ => w.leave name none
  | .writeInput path topicId title body, .ok _ =>
    { w with inputs := fun p => if p = path then some ⟨topicId, title, body⟩ else w.inputs p }
  | .runOci _ _ inputPath, .ok result => w.attempt (w.inputs inputPath) (result.returncode = 0)
  | .runOci _ _ _, .error _ => w.attempt none false
  | .writeTemporary path message, .ok _ =>
    { w with temporary := fun p => if p = path then some message else w.temporary p }
  | .replaceMessage path name, .ok _ =>
    match w.temporary path with
    | some message => { w with queue := fun n => if n = name then some (.json (.obj message)) else w.queue n }
    | none => w
  | _, _ => w

def QueueWorld.Returns (w : QueueWorld) : (call : WorkerCall) → call.Ans → Prop
  | .listSpool, names => names.Nodup ∧ ∀ name, isJsonFile name → (name ∈ names ↔ w.queue name ≠ none)
  | .openMessage name, content => w.queue name = some (.json content)
  | .moveToFailed name _, _ | .unlink name, _ => w.queue name ≠ none
  | .replaceMessage path _, _ => w.temporary path ≠ none
  | .report name, _ => PyText.encode name ≠ none
  | _, _ => True

/-- The errors of a call. A file operation raises an `OSError`; text that cannot be decoded or encoded raises a
`ValueError`; what is nested too deeply raises a `RuntimeError`. A line of the log that quotes a message may always
fail, for JSON has escapes for what UTF-8 has not. -/
def QueueWorld.Raises (w : QueueWorld) : WorkerCall → WorkerError → Prop
  | .time, _ | .clock, _ | .sleep _, _ | .which, _ | .isExecutable _, _ | .exists _, _ => False
  | .readRegistry, _ => True
  | .openMessage name, e =>
    e.isOs ∨ (w.queue name = some .garbled ∧ e.isMalformed) ∨
      (w.queue name = some .nested ∧ e.isOs = false ∧ e.isMalformed = false)
  | .report name, e => PyText.encode name = none ∧ e.isMalformed
  | .log, e => e.isMalformed
  | .readLock, e => e.isOs ∨ e.isMalformed
  | .runOci .., e => e.isOs ∨ e.isMalformed ∨ e = .timeout
  | .writeTemporary .., _ => True
  | _, e => e.isOs

/-- A producer puts a file into the queue, under a new name. -/
inductive Arrives : QueueWorld → QueueWorld → Prop
  | intro (w : QueueWorld) (name : FileName) (content : MessageFile) : isJsonFile name → name ∉ w.arrived →
      Arrives w { w with
        queue := fun n => if n = name then some content else w.queue n
        arrived := name :: w.arrived }

abbrev Arrivals : QueueWorld → QueueWorld → Prop := Relation.ReflTransGen Arrives

/-- The answers a call may have, after any arrivals. -/
def queueAnswers : Handler workerSig WorkerError QueueWorld := fun w call r w'' =>
  ∃ w', Arrivals w w' ∧ w'' = w'.after call r ∧
    match r with
    | .ok a => w'.Returns call a
    | .error e => w'.Raises call e

theorem queueAnswers_absorbs : Locked.Absorbs queueAnswers Arrivals := by
  rintro w w' call r w'' hw ⟨w₁, hw₁, h⟩
  exact ⟨w₁, hw.trans hw₁, h⟩

/-! ## What the worker is to keep -/

/-- The reasons for which a file may leave the queue. -/
inductive MayLeave : Departure → Prop
  | delivered {d : Departure} {message : Dict} (current : d.run.current = d.name)
      (loaded : d.content.message = some message) (published : d.run.published = some (requestOf message)) : MayLeave d
  | invalid {d : Departure} (moved : d.failedName ≠ none) (invalid : d.content.message = none) : MayLeave d
  | expired {d : Departure} {message : Dict} (moved : d.failedName ≠ none) (loaded : d.content.message = some message)
      (expired : countField message "expires_at" ≤ d.run.now) : MayLeave d
  | rerouted {d : Departure} {message topics : Dict} (removed : d.failedName = none)
      (loaded : d.content.message = some message)
      (registry : loadActiveTopics d.run.registry = some topics)
      (rerouted : Dict.get? topics (textField message "username") ≠ some (.str (textField message "topic_id"))) :
      MayLeave d

structure Kept (w : QueueWorld) : Prop where
  justified : ∀ d, .departure d ∈ w.events → MayLeave d
  once : w.events.Pairwise fun later earlier =>
    ∀ name, later = .attempt name → ∀ d, earlier = .departure d → d.name ≠ name
  accounted : ∀ name ∈ w.arrived, w.queue name ≠ none ∨ ∃ d, .departure d ∈ w.events ∧ d.name = name
  gone : ∀ d, .departure d ∈ w.events → w.queue d.name = none ∧ d.name ∈ w.arrived
  queued : ∀ name, w.queue name ≠ none → name ∈ w.arrived
  limited : w.run.attempts ≤ maxPublishAttemptsPerRun

/-- A spool before the first run. -/
structure Untouched (w : QueueWorld) : Prop where
  events : w.events = []
  attempts : w.run.attempts = 0
  arrived : ∀ name, w.queue name ≠ none ↔ name ∈ w.arrived

def Finished {α : Type} : Option (Worker α) → Prop
  | some (.ret _) | some (.throw _) => True
  | _ => False

/-- **Neither lost nor duplicated**, and a run that has ended, whatever went wrong with some messages, has examined
all that were listed. -/
def Delivers (s : Locked.State workerSig WorkerError Nat QueueWorld) : Prop :=
  Kept s.world ∧ (Finished s.running → ∀ name ∈ s.world.run.listing, name ∈ s.world.run.examined)

/-- The answers the handlers of a message are made for: the name of a file in a line of the log can be encoded, the
lock file and what the OCI CLI prints can be decoded, and a message that was read can be written. -/
def Foreseen : (call : WorkerCall) → Except WorkerError call.Ans → Prop
  | .report name, _ => PyText.encode name ≠ none
  | .readLock, .error e => e.isOs
  | .runOci .., .error e => e.isMalformed = false
  | .writeTemporary .., .error e => e.isRetained
  | _, _ => True

def foreseenAnswers : Handler workerSig WorkerError QueueWorld := fun w call r w' =>
  Foreseen call r ∧ queueAnswers w call r w'

theorem foreseenAnswers_absorbs : Locked.Absorbs foreseenAnswers Arrivals :=
  fun w w' call r w'' hw h => ⟨h.1, queueAnswers_absorbs w w' call r w'' hw h.2⟩

theorem isMalformed_of_isOs {e : WorkerError} (h : e.isOs) : e.isMalformed = false := by
  cases e <;> first | rfl | cases h

theorem isRetained_of_isOs {e : WorkerError} (h : e.isOs) : e.isRetained := by
  cases e <;> first | rfl | cases h

theorem isRetained_of_isMalformed {e : WorkerError} (h : e.isMalformed) : e.isRetained := by
  cases e <;> first | rfl | cases h

/-! ## Arrivals -/

structure Grown (w w' : QueueWorld) : Prop where
  run : w'.run = w.run
  events : w'.events = w.events
  inputs : w'.inputs = w.inputs
  temporary : w'.temporary = w.temporary
  arrived : ∀ name ∈ w.arrived, name ∈ w'.arrived ∧ w'.queue name = w.queue name
  kept : Kept w → Kept w'

theorem Arrives.kept {w w' : QueueWorld} (h : Arrives w w') (hw : Kept w) : Kept w' := by
  obtain ⟨name, content, -, hnew⟩ := h
  refine ⟨hw.justified, hw.once, fun n hn => ?_, fun d hd => ?_, fun n hn => ?_, hw.limited⟩
  · dsimp only
    split
    case isTrue => exact .inl nofun
    case isFalse hne => exact hw.accounted n ((List.mem_cons.mp hn).resolve_left hne)
  · obtain ⟨hgone, harrived⟩ := hw.gone d hd
    have hne : d.name ≠ name := fun heq => hnew (heq ▸ harrived)
    exact ⟨(if_neg hne).trans hgone, List.mem_cons_of_mem _ harrived⟩
  · dsimp only at hn
    split at hn
    case isTrue heq => exact heq ▸ List.mem_cons_self
    case isFalse => exact List.mem_cons_of_mem _ (hw.queued n hn)

theorem Arrives.grown {w w' : QueueWorld} (h : Arrives w w') : Grown w w' := by
  refine ⟨?_, ?_, ?_, ?_, ?_, h.kept⟩
  all_goals obtain ⟨name, content, -, hnew⟩ := h
  · rfl
  · rfl
  · rfl
  · rfl
  · intro n hn
    have hne : n ≠ name := fun heq => hnew (heq ▸ hn)
    exact ⟨List.mem_cons_of_mem _ hn, if_neg hne⟩

theorem grown_of_arrivals {w w' : QueueWorld} (h : Arrivals w w') : Grown w w' := by
  induction h with
  | refl => exact ⟨rfl, rfl, rfl, rfl, fun name hname => ⟨hname, rfl⟩, id⟩
  | tail _ hstep ih =>
    have hlast := hstep.grown
    refine ⟨hlast.run.trans ih.run, hlast.events.trans ih.events, hlast.inputs.trans ih.inputs,
      hlast.temporary.trans ih.temporary, fun name hname => ?_, fun hw => hlast.kept (ih.kept hw)⟩
    obtain ⟨harrived, hqueue⟩ := ih.arrived name hname
    obtain ⟨harrived', hqueue'⟩ := hlast.arrived name harrived
    exact ⟨harrived', hqueue'.trans hqueue⟩

/-! ## Effects on the files -/

theorem leave_eq {w : QueueWorld} {name : FileName} {content : MessageFile} (h : w.queue name = some content)
    (failedName : Option FileName) : w.leave name failedName = { w with
      queue := fun n => if n = name then none else w.queue n
      events := .departure ⟨name, content, failedName, w.run⟩ :: w.events } := by
  unfold QueueWorld.leave
  rw [h]

theorem Kept.leave {w : QueueWorld} (hw : Kept w) {name : FileName} {content : MessageFile}
    {failedName : Option FileName} (hqueue : w.queue name = some content)
    (hjustified : MayLeave ⟨name, content, failedName, w.run⟩) : Kept (w.leave name failedName) := by
  rw [leave_eq hqueue]
  have harrived : name ∈ w.arrived := hw.queued name (hqueue ▸ nofun)
  refine ⟨fun d hd => ?_, List.pairwise_cons.mpr ⟨fun _ _ _ => nofun, hw.once⟩, fun n hn => ?_, fun d hd => ?_,
    fun n hn => ?_, hw.limited⟩
  · obtain heq | hd := List.mem_cons.mp hd
    · cases heq
      exact hjustified
    · exact hw.justified d hd
  · dsimp only
    split
    case isTrue heq => exact .inr ⟨_, List.mem_cons_self, heq.symm⟩
    case isFalse =>
      obtain hqueued | ⟨d, hd, hname⟩ := hw.accounted n hn
      · exact .inl hqueued
      · exact .inr ⟨d, List.mem_cons_of_mem _ hd, hname⟩
  · obtain heq | hd := List.mem_cons.mp hd
    · cases heq
      exact ⟨if_pos rfl, harrived⟩
    · obtain ⟨hgone, hgoneArrived⟩ := hw.gone d hd
      refine ⟨?_, hgoneArrived⟩
      dsimp only
      split
      · rfl
      · exact hgone
  · dsimp only at hn
    split at hn
    case isTrue => exact absurd rfl hn
    case isFalse => exact hw.queued n hn

/-- An attempt for a file that is in the queue. -/
theorem Kept.attempt {w : QueueWorld} (hw : Kept w) (hqueue : w.queue w.run.current ≠ none)
    (hlimit : w.run.attempts < maxPublishAttemptsPerRun) (request : Option PublishRequest) (succeeded : Bool) :
    Kept (w.attempt request succeeded) := by
  refine ⟨fun d hd => hw.justified d ((List.mem_cons.mp hd).resolve_left nofun), ?_, fun n hn => ?_, fun d hd => ?_,
    hw.queued, hlimit⟩
  · refine List.pairwise_cons.mpr ⟨fun event hevent name hname d hd => ?_, hw.once⟩
    cases hname
    rw [hd] at hevent
    exact fun heq => hqueue (heq ▸ (hw.gone d hevent).1)
  · obtain hqueued | ⟨d, hd, hname⟩ := hw.accounted n hn
    · exact .inl hqueued
    · exact .inr ⟨d, List.mem_cons_of_mem _ hd, hname⟩
  · exact hw.gone d ((List.mem_cons.mp hd).resolve_left nofun)

theorem Kept.put {w : QueueWorld} (hw : Kept w) {name : FileName} (hqueue : w.queue name ≠ none)
    (content : MessageFile) : Kept { w with queue := fun n => if n = name then some content else w.queue n } := by
  refine ⟨hw.justified, hw.once, fun n hn => ?_, fun d hd => ?_, fun n hn => ?_, hw.limited⟩
  · dsimp only
    split
    case isTrue => exact .inl nofun
    case isFalse => exact hw.accounted n hn
  · obtain ⟨hgone, harrived⟩ := hw.gone d hd
    have hne : d.name ≠ name := fun heq => hqueue (heq ▸ hgone)
    exact ⟨(if_neg hne).trans hgone, harrived⟩
  · dsimp only at hn
    split at hn
    case isTrue heq => exact heq ▸ hw.queued name hqueue
    case isFalse => exact hw.queued n hn

theorem Kept.withRun {w : QueueWorld} (hw : Kept w) {run : RunInfo} (hlimit : run.attempts ≤ maxPublishAttemptsPerRun) :
    Kept { w with run := run } :=
  ⟨hw.justified, hw.once, hw.accounted, hw.gone, hw.queued, hlimit⟩

theorem Untouched.kept {w : QueueWorld} (h : Untouched w) : Kept w := by
  refine ⟨?_, ?_, fun name hname => .inl ((h.arrived name).mpr hname), ?_, fun name => (h.arrived name).mp, ?_⟩
  · simp [h.events]
  · simp [h.events]
  · simp [h.events]
  · simp [h.attempts]

end OciHpc.Slurm
