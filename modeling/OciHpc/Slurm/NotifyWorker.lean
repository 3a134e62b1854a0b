import Mathlib.Algebra.Ring.Int.Defs
import Mathlib.Data.List.Lex
import Mathlib.Data.List.Sort
import OciHpc.Base.Prog
import OciHpc.Base.PyUnicode
import OciHpc.ClusterCli.Registry
import OciHpc.Slurm.QueuedMessage

/-!
# The notification worker

`slurm_oci_notify_worker.py` delivers the queued notifications.

* `WorkerCall` : what the worker asks of the operating system and of the OCI CLI;
* `publish`, `markRetry`, `quarantine`, `expire` : what may be done with a message;
* `waitForPublishSlot`, `recordPublishAttempt` : the rate limit, kept in the lock file;
* `examine`, `processQueue` : one message, and one run of the worker.

A line of the log that holds what cannot be encoded raises: such lines are calls, `report` where the line quotes the
name of the file, `log` where it quotes texts of the message. The others are left out.
-/

namespace OciHpc.Slurm
open OciHpc.ClusterCli (RegistryFile)

/-- The name of a file, with a lone surrogate for each byte that is no UTF-8. -/
abbrev FileName := PyText

/-- `name.endswith(".json")`. -/
def isJsonFile (name : FileName) : Bool := (PyText.ofString ".json").isSuffixOf name

/-- An exception of the first handler of a message. -/
def WorkerError.isMalformed : WorkerError → Bool
  | .value _ | .type _ => true
  | _ => false

def WorkerError.isOs : WorkerError → Bool
  | .os _ => true
  | _ => false

/-- `isinstance(error, (OSError, TypeError, ValueError))`. -/
def WorkerError.isRetained : WorkerError → Bool
  | .os _ | .type _ | .value _ => true
  | _ => false

def maxPublishAttemptsPerRun : Nat := 10

/-- `MIN_PUBLISH_INTERVAL_SECONDS`, in microseconds. -/
def minPublishInterval : Int := 6100000

/-- The text of the lock file: nothing, a time in microseconds, or no number. -/
inductive LockText
  | blank
  | number (time : Int)
  | malformed
  deriving DecidableEq, Repr

/-- `result.returncode`, with `result.stderr or result.stdout or "OCI CLI failed"`. -/
structure OciResult where
  returncode : Int
  detail : String
  deriving DecidableEq, Repr

/-- A `time` is `int(time.time())`, or the `now` of a run on a clock that stands still. A `clock` is read in
microseconds; `writeLock` writes and flushes the text of a time. -/
inductive WorkerCall
  | readRegistry
  | listSpool
  | modifiedAt (name : FileName)
  | openMessage (name : FileName)
  | time
  | makeFailed
  | moveToFailed (name failedName : FileName)
  | unlink (name : FileName)
  | readLock
  | clock
  | sleep (duration : Int)
  | truncateLock
  | writeLock (time : Int)
  | syncLock
  | which
  | isExecutable (path : String)
  | mkstemp
  | writeInput (path topicId title body : String)
  | runOci (executable region inputPath : String)
  | writeTemporary (path : String) (message : Dict)
  | replaceMessage (temporaryPath : String) (name : FileName)
  | exists (path : String)
  | unlinkTemporary (path : String)
  | report (name : FileName)
  | log

abbrev WorkerCall.Ans : WorkerCall → Type
  | .readRegistry => RegistryFile
  | .listSpool => List FileName
  | .modifiedAt _ | .time | .clock => Int
  | .openMessage _ => Json
  | .readLock => LockText
  | .which => Option String
  | .isExecutable _ | .exists _ => Bool
  | .mkstemp => String
  | .runOci .. => OciResult
  | _ => Unit

abbrev workerSig : Sig := ⟨WorkerCall, WorkerCall.Ans⟩

abbrev Worker (α : Type) := Prog workerSig WorkerError α

def work (call : WorkerCall) : Worker call.Ans := Prog.perform (S := workerSig) call

/-- `try: p except OSError: handler`. -/
def exceptOs {α : Type} (p handler : Worker α) : Worker α :=
  p.tryCatch fun e => if e.isOs then handler else .throw e

/-! ## The registry -/

/-- The Topics of the users; `none` where the registry cannot be read. -/
def loadActiveTopics : RegistryFile → Option Dict
  | .json (.obj registry) =>
    match Dict.getD registry "config" (.obj []), Dict.getD registry "users" (.obj []) with
    | .obj config, .obj users =>
      if !(Dict.getD config "enabled" .null).truthy then some []
      else some (users.filterMap fun (username, details) =>
        match details with
        | .obj fields =>
          let topicId := Dict.getD fields "topic_id" .null
          if topicId.truthy then some (username, topicId) else none
        | _ => none)
    | _, _ => none
  | _ => none

/-! ## What may be done with a message -/

def findOci : Worker String :=
  (work .which).bind fun
    | some executable => .ret executable
    | none =>
      let candidate := fun path other => (work (.isExecutable path)).bind fun found => if found then .ret path else other
      candidate "/usr/local/bin/oci"
        (candidate "/usr/bin/oci" (.throw (.runtime "OCI CLI executable was not found")))

/-- Removing a temporary file, if it is still there. -/
def removeTemporary (path : String) : Worker Unit :=
  (work (.exists path)).bind fun left => if left then work (.unlinkTemporary path) else .ret ()

/-- Removing the request; that it stays is only logged. -/
def removeInput (path : String) : Worker Unit :=
  (work (.exists path)).bind fun left => if left then exceptOs (work (.unlinkTemporary path)) (.ret ()) else .ret ()

/-- `executable or find_oci()`. -/
def executableOrFound : Option String → Worker String
  | some executable => if executable = "" then findOci else .ret executable
  | none => findOci

def publish (message : Dict) (executable : Option String) : Worker Unit :=
  let region := textField message "region"
  let topicId := textField message "topic_id"
  (Prog.ofExcept (rejectIf (matchesRegion region = false) "invalid OCI region")).bind fun _ =>
    (Prog.ofExcept (rejectIf (isTopicOcid topicId = false) "invalid Notifications topic OCID")).bind fun _ =>
      (executableOrFound executable).bind fun executable =>
        (work .mkstemp).bind fun inputPath =>
          (Prog.withFinally
            ((work (.writeInput inputPath topicId (textField message "title") (textField message "body"))).bind fun _ =>
              work (.runOci executable region inputPath))
            (removeInput inputPath)).bind fun result =>
            if result.returncode ≠ 0 then .throw (.runtime result.detail) else .ret ()

/-- The file goes to the directory of failed messages. -/
def moveAside (name failedName : FileName) : Worker Unit :=
  (work .makeFailed).bind fun _ => work (.moveToFailed name failedName)

def quarantine (name : FileName) : Worker Unit := (moveAside name name).bind fun _ => work (.report name)

def expire (name : FileName) : Worker Unit := (moveAside name name).bind fun _ => work .log

def atomicWrite (name : FileName) (message : Dict) : Worker Unit :=
  (work .mkstemp).bind fun temporaryPath =>
    Prog.withFinally
      ((work (.writeTemporary temporaryPath message)).bind fun _ => work (.replaceMessage temporaryPath name))
      (removeTemporary temporaryPath)

/-- `int(message.get("expires_at", now))`. -/
def expiryOf (message : Dict) (now : Int) : Int :=
  match Dict.get? message "expires_at" with
  | some (.int n) => n
  | _ => now

/-- The message to be tried again; `none` where it was not loaded, `{}` in the source. -/
def markRetry (name : FileName) (message : Option Dict) (now : Int) : Worker Unit :=
  let message := message.getD []
  let attempts := countField message "attempts" + 1
  if expiryOf message now ≤ now then (moveAside name name).bind fun _ => work .log
  else
    let delay := min 3600 (60 * 2 ^ (min (attempts - 1) 6).toNat)
    (atomicWrite name
      (Dict.set (Dict.set message "attempts" (.int attempts)) "next_attempt_at" (.int (now + delay)))).bind fun _ =>
      work .log

/-- The message of a user who has another Topic now, or none. -/
def discard (name : FileName) : Worker Unit := (work (.unlink name)).bind fun _ => work .log

/-- A delivered message is removed or, where it cannot be, archived. -/
def removeDelivered (name : FileName) : Worker Unit :=
  (exceptOs (work (.unlink name))
    ((exceptOs (moveAside name (name ++ PyText.ofString ".delivered")) (.ret ())).bind fun _ =>
      work (.report name))).bind fun _ => work .log

/-! ## The rate limit -/

def waitForPublishSlot : Worker Unit :=
  (work .readLock).bind fun lastPublishAt => (work .clock).bind fun currentTime =>
    match lastPublishAt with
    | .number lastPublishAt =>
      let delay := min minPublishInterval (max 0 (minPublishInterval - (currentTime - lastPublishAt)))
      if 0 < delay then work (.sleep delay) else .ret ()
    | _ => .ret ()

def recordPublishAttempt (timestamp : Int) : Worker Unit :=
  (work .truncateLock).bind fun _ => (work (.writeLock timestamp)).bind fun _ => work .syncLock

def takeSlot : Worker Unit :=
  waitForPublishSlot.bind fun _ => (work .clock).bind fun timestamp => recordPublishAttempt timestamp

/-! ## One run -/

/-- When the file was modified, 0 where it cannot be told. -/
def queueAge (name : FileName) : Worker Int := exceptOs (work (.modifiedAt name)) (.ret 0)

/-- Older first, then by name. -/
def queuedBefore (a b : Int × FileName) : Prop :=
  a.1 < b.1 ∨ (a.1 = b.1 ∧ a.2.map PyChar.code ≤ b.2.map PyChar.code)

instance : DecidableRel queuedBefore := fun _ _ => inferInstanceAs (Decidable (_ ∨ _))

def queuedMessageNames : Worker (List FileName) :=
  (work .listSpool).bind fun names =>
    (Prog.forEach (fun aged name => (queueAge name).bind fun age => .ret (aged ++ [(age, name)]))
      (names.filter isJsonFile) []).bind fun aged =>
      .ret ((aged.insertionSort queuedBefore).map (·.2))

structure Progress where
  processed : Nat
  publishAttempts : Nat
  deriving DecidableEq, Repr

def Progress.next (progress : Progress) : Progress := { progress with processed := progress.processed + 1 }

/-- The handlers of one message, `loaded` if it was read and valid. -/
def onError (name : FileName) (loaded : Option Dict) (progress : Progress) (error : WorkerError) : Worker Progress :=
  if error.isMalformed then
    (exceptOs (quarantine name) (work (.report name))).bind fun _ => .ret progress.next
  else if error.isOs && loaded.isNone then (work (.report name)).bind fun _ => .ret progress
  else
    ((work .time).bind fun retryNow => markRetry name loaded retryNow).attempt.bind fun
      | .ok _ => .ret progress.next
      | .error retryError =>
        if retryError.isRetained then (work (.report name)).bind fun _ => .ret progress.next else .throw retryError

def settle (name : FileName) (message : Dict) (progress : Progress) (p : Worker Unit) : Worker Progress :=
  p.attempt.bind fun
    | .ok _ => .ret progress.next
    | .error error => onError name (some message) progress error

def handleMessage (executable : Option String) (activeTopics : Dict) (name : FileName) (message : Dict)
    (progress : Progress) : Worker Progress :=
  (work .time).bind fun now =>
    if now < countField message "next_attempt_at" then .ret progress
    else if countField message "expires_at" ≤ now then settle name message progress (expire name)
    else if Dict.get? activeTopics (textField message "username") ≠ some (.str (textField message "topic_id")) then
      settle name message progress (discard name)
    else if maxPublishAttemptsPerRun ≤ progress.publishAttempts then .ret progress
    else
      takeSlot.attempt.bind fun
        | .error error => onError name (some message) progress error
        | .ok _ =>
          settle name message { progress with publishAttempts := progress.publishAttempts + 1 }
            ((publish message executable).bind fun _ => removeDelivered name)

def examine (executable : Option String) (activeTopics : Dict) (progress : Progress) (name : FileName) :
    Worker Progress :=
  ((work (.openMessage name)).bind fun content => .ofExcept (validateMessage content)).attempt.bind fun
    | .error error => onError name none progress error
    | .ok message => handleMessage executable activeTopics name message progress

/-- A run; `acquired` is the answer of `flock` on the lock file. -/
def processQueue (acquired : Bool) (executable : Option String) : Worker Nat :=
  if !acquired then .ret 0
  else
    (work .readRegistry).bind fun registry =>
      match loadActiveTopics registry with
      | none => .throw (.runtime "notification registry is temporarily unavailable")
      | some activeTopics =>
        queuedMessageNames.bind fun names =>
          (Prog.forEach (examine executable activeTopics) names ⟨0, 0⟩).bind fun progress => .ret progress.processed

def IsRun (p : Worker Nat) : Prop := ∃ executable, p = processQueue true executable

end OciHpc.Slurm
