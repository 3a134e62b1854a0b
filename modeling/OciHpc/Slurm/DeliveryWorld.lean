import Mathlib.Logic.Relation
import OciHpc.Base.Locked
import OciHpc.Slurm.QueueWorld
import OciHpc.Slurm.Submission

/-!
# From the mail program to the OCI CLI

The mail programs, the worker and whoever replaces the registry, at work side by side.

* `World` : the registries there have been, the queue, and what was queued and published;
* `World.after`, `answers` : the effect of a worker's call, and the answers it may have;
* `Around` : a mail program puts a message in place, or the registry is replaced;
* `Private` : a request carries the notification of a job to the Topic of the job's user;
* `Traced` : every queued message is one that a mail program has queued, and every request is private;
* `Mild`, `Steady` : the calls that cannot change this.
-/

namespace OciHpc.Slurm.Delivery
open OciHpc.ClusterCli (RegistryFile)
open PyText (ofString)

/-! ## The world -/

/-- A message that a mail program put in place, with the registry, the command line and the environment it had. -/
structure Submission where
  registry : Dict
  arguments : List PyText
  environ : String → Option PyText
  content : Json

/-- A request that the OCI CLI was run on, with the registry that the worker had read, and `now`, the time that it read
before the wait for a publish slot. -/
structure Publication where
  region : String
  request : Option PublishRequest
  registry : RegistryFile
  now : Int

/-- `registries` begins with the one in place; `registry` and `now` are what a worker has read last. -/
structure World where
  registries : List RegistryFile
  queue : FileName → Option MessageFile
  inputs : String → Option PublishRequest
  temporary : String → Option Dict
  registry : RegistryFile
  now : Int
  submissions : List Submission
  publications : List Publication

def World.after (w : World) : (call : WorkerCall) → Except WorkerError call.Ans → World
  | .readRegistry, .ok registry => { w with registry := registry }
  | .time, .ok now => { w with now := now }
  | .moveToFailed name _, .ok _ => { w with queue := fun n => if n = name then none else w.queue n }
  | .unlink name, .ok _ => { w with queue := fun n => if n = name then none else w.queue n }
  | .writeInput path topicId title body, .ok _ =>
    { w with inputs := fun p => if p = path then some ⟨topicId, title, body⟩ else w.inputs p }
  | .runOci _ region path, _ => { w with publications := ⟨region, w.inputs path, w.registry, w.now⟩ :: w.publications }
  | .writeTemporary path message, .ok _ =>
    { w with temporary := fun p => if p = path then some message else w.temporary p }
  | .replaceMessage path name, .ok _ =>
    match w.temporary path with
    | some message => { w with queue := fun n => if n = name then some (.json (.obj message)) else w.queue n }
    | none => w
  | _, _ => w

def World.Returns (w : World) : (call : WorkerCall) → call.Ans → Prop
  | .readRegistry, registry => w.registries.head? = some registry
  | .openMessage name, content => w.queue name = some (.json content)
  | .replaceMessage path _, _ => w.temporary path ≠ none
  | _, _ => True

/-- What happens around the worker: the registry is replaced, or a mail program that has read a registry puts a file in
place, under any name. -/
inductive Around (py : Python) : World → World → Prop
  | registers (w : World) (registry : RegistryFile) : Around py w { w with registries := registry :: w.registries }
  | queues (w : World) {registry : Dict} {arguments : List PyText} {environ : String → Option PyText}
      {temporary : String → Option Json} {out : Outcome MailError Bool} {spool : Spool} {file : String × Json} :
      .json (.obj registry) ∈ w.registries →
      Exec mailAnswers (queueMessage py registry arguments environ) ⟨temporary, []⟩ out spool → file ∈ spool.placed →
      Around py w { w with
        queue := fun n => if n = ofString file.1 then some (.json file.2) else w.queue n
        submissions := ⟨registry, arguments, environ, file.2⟩ :: w.submissions }

abbrev Arounds (py : Python) : World → World → Prop := Relation.ReflTransGen (Around py)

/-- The answers a call may have, after anything around it: any call may fail, with any error. -/
def answers (py : Python) : Handler workerSig WorkerError World := fun w call r w'' =>
  ∃ w', Arounds py w w' ∧ w'' = w'.after call r ∧ ∀ a, r = .ok a → w'.Returns call a

theorem answers_absorbs {py : Python} : Locked.Absorbs (answers py) (Arounds py) := by
  rintro w w' call r w'' hw ⟨w₁, hw₁, h⟩
  exact ⟨w₁, hw.trans hw₁, h⟩

/-- The queue is empty, and nothing was published. -/
structure Fresh (w : World) : Prop where
  queue : ∀ name, w.queue name = none
  submissions : w.submissions = []
  publications : w.publications = []

/-! ## What is published -/

/-- The request carries these texts: it goes to the Topic they are addressed to, which is the Topic of their user in the
registry that the worker has read, before they expire. -/
structure Carries (p : Publication) (m : MessageTexts) : Prop where
  request : ∃ topicId title body, p.request = some ⟨topicId, title, body⟩ ∧ m.topicId = .str topicId ∧
    PyText.encode m.title = some title ∧ PyText.encode m.body = some body
  route : ∃ topics username, loadActiveTopics p.registry = some topics ∧ PyText.encode m.username = some username ∧
    Dict.get? topics username = some m.topicId
  region : m.region = .str p.region
  unexpired : p.now < m.now + 7200

/-- **Private**: the request carries the notification that a mail program made of its job, for the job's user. -/
def Private (py : Python) (w : World) (p : Publication) : Prop :=
  p.registry ∈ w.registries ∧ ∃ s ∈ w.submissions, .json (.obj s.registry) ∈ w.registries ∧
    ∃ m, Composed py s.registry s.arguments s.environ m ∧ messageJson m = .ok s.content ∧ Carries p m

/-! ## What is queued -/

/-- The messages are the same, the record of the attempts aside. -/
def SameMail (message original : Dict) : Prop :=
  ∀ field, field ≠ "attempts" → field ≠ "next_attempt_at" → Dict.get? message field = Dict.get? original field

/-- The message is one that a mail program has queued. -/
def Mine (w : World) (message : Dict) : Prop :=
  ∃ s ∈ w.submissions, ∃ original, s.content = .obj original ∧ SameMail message original

structure Traced (py : Python) (w : World) : Prop where
  queued : ∀ name content, w.queue name = some (.json content) → ∃ message, content = .obj message ∧ Mine w message
  submitted : ∀ s ∈ w.submissions, .json (.obj s.registry) ∈ w.registries ∧
    Holds py s.registry s.arguments s.environ s.content
  published : ∀ p ∈ w.publications, Private py w p

/-- During a run: `registry` is what it has read. -/
structure Ready (py : Python) (registry : RegistryFile) (w : World) : Prop extends Traced py w where
  current : w.registry = registry
  known : registry ∈ w.registries

structure Handling (py : Python) (registry : RegistryFile) (message : Dict) (w : World) : Prop
    extends Ready py registry w where
  mine : Mine w message

structure Timed (py : Python) (registry : RegistryFile) (message : Dict) (now : Int) (w : World) : Prop
    extends Handling py registry message w where
  now : w.now = now

variable {py : Python} {registry : RegistryFile} {message : Dict} {now : Int} {w w' : World}

theorem Fresh.traced (h : Fresh w) : Traced py w := by
  refine ⟨fun name content hcontent => ?_, fun s hs => ?_, fun p hp => ?_⟩
  · rw [h.queue] at hcontent
    cases hcontent
  · rw [h.submissions] at hs
    cases hs
  · rw [h.publications] at hp
    cases hp

/-! ## What happens around -/

/-- The lists only grow. -/
structure Grown (w w' : World) : Prop where
  registries : ∀ registry ∈ w.registries, registry ∈ w'.registries
  submissions : ∀ s ∈ w.submissions, s ∈ w'.submissions

theorem Grown.mine (h : Grown w w') (hw : Mine w message) : Mine w' message := by
  obtain ⟨s, hs, hmine⟩ := hw
  exact ⟨s, h.submissions s hs, hmine⟩

theorem Grown.isPrivate (h : Grown w w') {p : Publication} (hp : Private py w p) : Private py w' p := by
  obtain ⟨hregistry, s, hs, hread, hcarries⟩ := hp
  exact ⟨h.registries _ hregistry, s, h.submissions s hs, h.registries _ hread, hcarries⟩

theorem Around.grown (h : Around py w w') : Grown w w' := by
  cases h with
  | registers => exact ⟨fun _ => List.mem_cons_of_mem _, fun _ h => h⟩
  | queues => exact ⟨fun _ h => h, fun _ => List.mem_cons_of_mem _⟩

/-- What is written of a message is an object. -/
theorem messageJson_obj {m : MessageTexts} {content : Json} (h : messageJson m = .ok content) :
    ∃ original, content = .obj original := by
  unfold messageJson at h
  obtain ⟨username, -, h⟩ := bind_eq_ok h
  obtain ⟨jobId, -, h⟩ := bind_eq_ok h
  obtain ⟨event, -, h⟩ := bind_eq_ok h
  obtain ⟨title, -, h⟩ := bind_eq_ok h
  obtain ⟨body, -, h⟩ := bind_eq_ok h
  cases h
  exact ⟨_, rfl⟩

/-- A mail program queues the notification of its job. -/
theorem Around.traced (h : Around py w w') (hw : Traced py w) : Traced py w' := by
  have hgrown := h.grown
  have hpublished : ∀ p ∈ w.publications, Private py w' p := fun p hp => hgrown.isPrivate (hw.published p hp)
  cases h with
  | registers registry =>
    refine ⟨fun name content hcontent => ?_, fun s hs => ?_, hpublished⟩
    · obtain ⟨message, hmessage, hmine⟩ := hw.queued name content hcontent
      exact ⟨message, hmessage, hgrown.mine hmine⟩
    · obtain ⟨hread, hholds⟩ := hw.submitted s hs
      exact ⟨hgrown.registries _ hread, hholds⟩
  | @queues registry arguments environ temporary out spool file hread hexec hfile =>
    have hholds := queueMessage_composed hexec file hfile
    refine ⟨fun name content hcontent => ?_, fun s hs => ?_, hpublished⟩
    · dsimp only at hcontent
      split at hcontent
      case isTrue =>
        cases hcontent
        obtain ⟨m, -, hm⟩ := hholds
        obtain ⟨original, horiginal⟩ := messageJson_obj hm
        exact ⟨original, horiginal, _, List.mem_cons_self, original, horiginal, fun _ _ _ => rfl⟩
      case isFalse =>
        obtain ⟨message, hmessage, hmine⟩ := hw.queued name content hcontent
        exact ⟨message, hmessage, hgrown.mine hmine⟩
    · obtain rfl | hs := List.mem_cons.mp hs
      · exact ⟨hread, hholds⟩
      · exact hw.submitted s hs

/-- What the worker has read and written is not touched. -/
structure Unread (w w' : World) : Prop where
  registry : w'.registry = w.registry
  now : w'.now = w.now
  inputs : w'.inputs = w.inputs
  temporary : w'.temporary = w.temporary

theorem Around.unread (h : Around py w w') : Unread w w' := by
  cases h with
  | registers => exact ⟨rfl, rfl, rfl, rfl⟩
  | queues => exact ⟨rfl, rfl, rfl, rfl⟩

theorem unread_of_arounds (h : Arounds py w w') : Unread w w' := by
  induction h with
  | refl => exact ⟨rfl, rfl, rfl, rfl⟩
  | tail _ hstep ih =>
    have hlast := hstep.unread
    exact ⟨hlast.registry.trans ih.registry, hlast.now.trans ih.now, hlast.inputs.trans ih.inputs,
      hlast.temporary.trans ih.temporary⟩

/-! ## The calls without an effect on what is traced -/

/-- The calls that read no registry and no time, publish nothing and put nothing in place. -/
def mild : WorkerCall → Bool
  | .readRegistry | .time | .runOci .. | .replaceMessage .. => false
  | _ => true

/-- They change the files the worker writes on the way, and may remove messages. -/
theorem after_mild (w : World) {call : WorkerCall} (hmild : mild call = true) (r : Except WorkerError call.Ans) :
    ∃ queue inputs temporary, w.after call r = { w with queue := queue, inputs := inputs, temporary := temporary } ∧
      ∀ name content, queue name = some content → w.queue name = some content := by
  have hremove : ∀ name n content, (if n = name then none else w.queue n) = some content →
      w.queue n = some content := by
    intro name n content hcontent
    split at hcontent
    · cases hcontent
    · exact hcontent
  cases call with
  | readRegistry | time | runOci | replaceMessage => cases hmild
  | moveToFailed name failedName =>
    cases r with
    | ok => exact ⟨_, _, _, rfl, hremove name⟩
    | error => exact ⟨_, _, _, rfl, fun _ _ h => h⟩
  | unlink name =>
    cases r with
    | ok => exact ⟨_, _, _, rfl, hremove name⟩
    | error => exact ⟨_, _, _, rfl, fun _ _ h => h⟩
  | _ => cases r <;> exact ⟨_, _, _, rfl, fun _ _ h => h⟩

/-- What happens around, and the mild calls, keep it. -/
structure Steady (py : Python) (I : World → Prop) : Prop where
  around : ∀ w w', Around py w w' → I w → I w'
  after : ∀ w (call : WorkerCall) (r : Except WorkerError call.Ans), mild call = true → I w → I (w.after call r)

theorem Steady.arounds {I : World → Prop} (hI : Steady py I) (h : Arounds py w w') (hw : I w) : I w' := by
  induction h with
  | refl => exact hw
  | tail _ hstep ih => exact hI.around _ _ hstep ih

theorem steady_traced : Steady py (Traced py) := by
  refine ⟨fun w w' h hw => h.traced hw, fun w call r hmild hw => ?_⟩
  obtain ⟨queue, inputs, temporary, hafter, hqueue⟩ := after_mild w hmild r
  rw [hafter]
  exact ⟨fun name content hcontent => hw.queued name content (hqueue name _ hcontent), hw.submitted, hw.published⟩

theorem steady_ready : Steady py (Ready py registry) := by
  refine ⟨fun w w' h hw => ?_, fun w call r hmild hw => ?_⟩
  · exact ⟨h.traced hw.toTraced, h.unread.registry.trans hw.current, h.grown.registries _ hw.known⟩
  · have htraced := steady_traced.after w call r hmild hw.toTraced
    obtain ⟨queue, inputs, temporary, hafter, -⟩ := after_mild w hmild r
    rw [hafter] at htraced ⊢
    exact ⟨htraced, hw.current, hw.known⟩

theorem steady_handling : Steady py (Handling py registry message) := by
  refine ⟨fun w w' h hw => ⟨steady_ready.around w w' h hw.toReady, h.grown.mine hw.mine⟩, fun w call r hmild hw => ?_⟩
  have hready := steady_ready.after w call r hmild hw.toReady
  obtain ⟨queue, inputs, temporary, hafter, -⟩ := after_mild w hmild r
  rw [hafter] at hready ⊢
  exact ⟨hready, hw.mine⟩

theorem steady_timed : Steady py (Timed py registry message now) := by
  refine ⟨fun w w' h hw => ⟨steady_handling.around w w' h hw.toHandling, h.unread.now.trans hw.now⟩,
    fun w call r hmild hw => ?_⟩
  have hhandling := steady_handling.after w call r hmild hw.toHandling
  obtain ⟨queue, inputs, temporary, hafter, -⟩ := after_mild w hmild r
  rw [hafter] at hhandling ⊢
  exact ⟨hhandling, hw.now⟩

def Mild {α : Type} (p : Worker α) : Prop := p.Calls fun call : WorkerCall => mild call = true

theorem Mild.keeps {α : Type} {p : Worker α} {I : World → Prop} (hp : Mild p) (hI : Steady py I) :
    p.Keeps (answers py) I := by
  refine Prog.keeps_of_calls hp fun w call r w'' hmild hw h => ?_
  obtain ⟨w', harounds, rfl, -⟩ := h
  exact hI.after w' call r hmild (hI.arounds harounds hw)

end OciHpc.Slurm.Delivery
