import OciHpc.Base.PyUnicode
import OciHpc.Slurm.QueuedMessage

/-!
# The body of a notification

`slurm_oci_mailprog.py` renders a job's environment as a table and cuts it to the size of a publish request.

* `sanitizeTitle`, `normalizeEvent` : the title and the event of a message;
* `buildNotificationBody` : the table;
* `bisect`, `fitBodyToPublishLimit`, `buildNotificationBodyForPublish` : the longest values that fit, as far as the
  binary search finds them;
* `sanitizeTitle_byteLength`, `buildNotificationBodyForPublish_fits` : whatever the texts, both limits are kept.
-/

namespace OciHpc.Slurm
open PyText (ofString join)

abbrev MailError := String

def truncationSuffix : PyText := ofString "\n\n[message truncated by slurm-oci-mailprog]"

def tableLabelWidth : Nat := 18

def tableValueWidth : Nat := 52

/-! ## Title and event -/

/-- `value or default`. -/
def orElse (value : PyText) (default : String) : PyText := if value.isEmpty then ofString default else value

def titleText (py : Python) (title event jobId : PyText) : PyText :=
  let blank := fun c => if c = .scalar '\r' ∨ c = .scalar '\n' then PyChar.scalar ' ' else c
  let cleaned := join " " (PyText.split py.isSpace (title.map blank))
  if cleaned.isEmpty then
    ofString "[Slurm] job " ++ orElse jobId "unknown" ++ ofString " " ++ orElse event "notification"
  else cleaned

def sanitizeTitle (py : Python) (title event jobId : PyText) : Except MailError PyText :=
  let title := titleText py title event jobId
  match PyText.chars title with
  | none => .error "UnicodeEncodeError"
  | some _ => .ok (if maxTitleBytes < PyText.byteLength title then PyText.takeBytes maxTitleBytes title else title)

def eventAliases : List (String × String) :=
  [("BEGAN", "BEGIN"), ("ENDED", "END"), ("FAILED", "FAIL"), ("REQUEUED", "REQUEUE"),
    ("REACHED TIME LIMIT", "TIME_LIMIT"), ("REACHED 90% OF TIME LIMIT", "TIME_LIMIT_90"),
    ("REACHED 80% OF TIME LIMIT", "TIME_LIMIT_80"), ("REACHED 50% OF TIME LIMIT", "TIME_LIMIT_50"),
    ("INVALID DEPENDENCY", "INVALID_DEPEND"), ("STAGEOUT/TEARDOWN", "STAGE_OUT")]

/-- `SAFE_EVENT.match(_)`: its `$` also matches before a newline at the end. -/
def isSafeEvent (event : PyText) : Bool :=
  let body := if event.getLast? = some (.scalar '\n') then event.dropLast else event
  !body.isEmpty && body.all fun
    | .scalar c => ('A' ≤ c && c ≤ 'Z') || ('0' ≤ c && c ≤ '9') || c == '_' || c == '*' || c == ',' || c == '-'
    | .surrogate _ => false

def normalizeEvent (py : Python) (value : PyText) : PyText :=
  let upper := (PyText.strip py.isSpace value).flatMap py.upper
  let normalized := match eventAliases.find? fun e => ofString e.1 = upper with
    | some e => ofString e.2
    | none => upper
  if isSafeEvent normalized then normalized else ofString "UNKNOWN"

/-! ## The table -/

def displayWidth (py : Python) (value : PyText) : Nat :=
  (value.map fun c => if py.combining c then 0 else if py.wide c then 2 else 1).sum

/-- `value` is `none` for `None`. -/
def normalizeTableValue (py : Python) (value : Option PyText) : PyText :=
  match value with
  | none => ofString "-"
  | some value =>
    let character := fun c =>
      if py.isSpace c then ofString " "
      else if c = .scalar '|' then ofString "\\x7c"
      else if py.otherCategory c then ofString "?"
      else [c]
    orElse (join " " (PyText.split py.isSpace (value.flatMap character))) "-"

def limitTableValue (py : Python) (value : Option PyText) (maximumCharacters : Option Nat) : PyText :=
  let value := normalizeTableValue py value
  match maximumCharacters with
  | none => value
  | some maximum => if value.length ≤ maximum then value else value.take maximum

/-- The loop over the characters, with the reversed chunk read so far and its width. -/
def displayChunks (py : Python) (width : Nat) : PyText → Nat → PyText → List PyText
  | current, _, [] => if current.isEmpty then [] else [current.reverse]
  | current, currentWidth, c :: rest =>
    let characterWidth := displayWidth py [c]
    if !current.isEmpty && width < currentWidth + characterWidth then
      current.reverse :: displayChunks py width [c] characterWidth rest
    else displayChunks py width (c :: current) (currentWidth + characterWidth) rest

def wrapTableValue (py : Python) (value : PyText) (width : Nat) : List PyText :=
  match displayChunks py width [] 0 value with
  | [] => [[]]
  | chunks => chunks

def padTableValue (py : Python) (value : PyText) (width : Nat) : PyText :=
  value ++ List.replicate (width - displayWidth py value) (.scalar ' ')

/-- What the environment says of the job; `environ` is `os.environ.get`. -/
structure Job where
  clusterName : Option PyText
  environ : String → Option PyText
  username : PyText
  event : PyText
  jobId : PyText

/-- `a or b`. -/
def firstNonempty (a b : Option PyText) : Option PyText :=
  match a with
  | some (c :: rest) => some (c :: rest)
  | _ => b

def notificationFields (job : Job) : List (String × Option PyText) :=
  [("Cluster", job.clusterName), ("Job ID", some job.jobId), ("Job name", job.environ "SLURM_JOB_NAME"),
    ("User", some job.username), ("Event", some job.event), ("State", job.environ "SLURM_JOB_STATE"),
    ("Partition", job.environ "SLURM_JOB_PARTITION"), ("Nodes", job.environ "SLURM_JOB_NODELIST"),
    ("Queued time", firstNonempty (job.environ "SLURM_JOB_QEUEUED_TIME") (job.environ "SLURM_JOB_QUEUED_TIME")),
    ("Run time", job.environ "SLURM_JOB_RUN_TIME"), ("Exit code", job.environ "SLURM_JOB_EXIT_CODE_MAX"),
    ("Termination signal", job.environ "SLURM_JOB_TERM_SIGNAL_MAX"),
    ("Working directory", job.environ "SLURM_JOB_WORK_DIR"), ("Standard output", job.environ "SLURM_JOB_STDOUT"),
    ("Standard error", job.environ "SLURM_JOB_STDERR")]

def tableLine (py : Python) (label : String) (value : PyText) : PyText :=
  ofString "| " ++ padTableValue py (ofString label) tableLabelWidth ++ ofString " | " ++
    padTableValue py value tableValueWidth ++ ofString " |"

/-- The lines of a field; only the first has the label. -/
def fieldLines (py : Python) (label : String) (value : PyText) : List PyText :=
  match wrapTableValue py value tableValueWidth with
  | [] => []
  | first :: rest => tableLine py label first :: rest.map (tableLine py "")

def tableBorder : PyText :=
  ofString "+" ++ List.replicate (tableLabelWidth + 2) (.scalar '-') ++ ofString "+" ++
    List.replicate (tableValueWidth + 2) (.scalar '-') ++ ofString "+"

def buildNotificationBody (py : Python) (job : Job) (maximumValueCharacters : Option Nat) : PyText :=
  let fields := (notificationFields job).map fun e => (e.1, limitTableValue py e.2 maximumValueCharacters)
  let cluster := limitTableValue py job.clusterName maximumValueCharacters
  join "\n" ([ofString "Slurm Job Notification", [], tableBorder, tableLine py "Item" (ofString "Value"), tableBorder] ++
    fields.flatMap (fun e => fieldLines py e.1 e.2) ++ [tableBorder, [],
      ofString "This message was generated automatically by Slurm on cluster \"" ++ cluster ++ ofString "\"."])

/-! ## Cutting to the limit -/

/-- `publish_payload_size`. -/
def textPayloadSize (title body : PyText) : Nat := payloadSize (PyText.dumpsLength title) (PyText.dumpsLength body)

def fits (title body : PyText) : Bool := textPayloadSize title body ≤ maxPublishPayloadBytes

theorem upper_half_smaller {low high : Int} (h : low ≤ high) :
    (high + 1 - ((low + high) / 2 + 1)).toNat < (high + 1 - low).toNat := by omega

theorem lower_half_smaller {low high : Int} (h : low ≤ high) :
    ((low + high) / 2 - 1 + 1 - low).toNat < (high + 1 - low).toNat := by omega

/-- The binary search for the last candidate that fits, with the best one found so far. -/
def bisect (fits : PyText → Bool) (candidate : Nat → PyText) (low high : Int) (best : Option PyText) : Option PyText :=
  if _h : low ≤ high then
    if fits (candidate ((low + high) / 2).toNat) then
      bisect fits candidate ((low + high) / 2 + 1) high (some (candidate ((low + high) / 2).toNat))
    else bisect fits candidate low ((low + high) / 2 - 1) best
  else best
termination_by (high + 1 - low).toNat
decreasing_by
  · exact upper_half_smaller _h
  · exact lower_half_smaller _h

def fitBodyToPublishLimit (title body : PyText) : PyText :=
  if fits title body then body
  else (bisect (fits title) (fun midpoint => body.take midpoint ++ truncationSuffix) 0 body.length
    (some truncationSuffix)).getD truncationSuffix

def buildNotificationBodyForPublish (py : Python) (title : PyText) (job : Job) : PyText :=
  let body := buildNotificationBody py job none
  if fits title body then body
  else
    let values := (notificationFields job).map fun e => normalizeTableValue py e.2
    let candidate := fun midpoint => buildNotificationBody py job (some midpoint) ++ truncationSuffix
    match bisect (fits title) candidate 1 ((values.map List.length).foldl max 0) none with
    | some best => best
    | none => fitBodyToPublishLimit title (candidate 1)

/-! ## Both limits are kept -/

/-- A title has a UTF-8 form of at most 512 bytes. -/
theorem sanitizeTitle_byteLength {py : Python} {title event jobId result : PyText}
    (h : sanitizeTitle py title event jobId = .ok result) :
    (∃ s, PyText.chars result = some s) ∧ PyText.byteLength result ≤ maxTitleBytes := by
  unfold sanitizeTitle at h
  dsimp only at h
  generalize titleText py title event jobId = text at h
  split at h
  case h_1 => cases h
  case h_2 s hs =>
    rw [← Except.ok.inj h]
    split
    · exact ⟨PyText.takeBytes_chars hs, PyText.byteLength_takeBytes ..⟩
    case isFalse hsmall => exact ⟨⟨s, hs⟩, Nat.not_lt.mp hsmall⟩

/-- Whatever the search returns fits, if what it starts with does. -/
theorem fits_of_bisect {fits : PyText → Bool} {candidate : Nat → PyText} {low high : Int} {best : Option PyText}
    (hbest : ∀ body, best = some body → fits body = true) {body : PyText}
    (h : bisect fits candidate low high best = some body) : fits body = true := by
  induction low, high, best using bisect.induct fits candidate with
  | case1 low high best hle hfits ih =>
    rw [bisect, dif_pos hle, if_pos hfits] at h
    refine ih (fun found hfound => ?_) h
    cases hfound
    exact hfits
  | case2 low high best hle hfits ih =>
    rw [bisect, dif_pos hle, if_neg hfits] at h
    exact ih hbest h
  | case3 low high best hle =>
    rw [bisect, dif_neg hle] at h
    exact hbest body h

theorem fits_of_short {title body : PyText} (htitle : ∃ s, PyText.chars title = some s)
    (hbytes : PyText.byteLength title ≤ maxTitleBytes) (hbody : PyText.dumpsLength body ≤ 1000) :
    fits title body = true := by
  obtain ⟨s, hs⟩ := htitle
  have hlength := PyText.dumpsLength_le hs
  have hconst : payloadSize (PyText.dumpsLength title) (PyText.dumpsLength body) =
      PyText.dumpsLength title + PyText.dumpsLength body + 21 := by
    unfold payloadSize
    change 10 + _ + 10 + _ + 1 = _
    omega
  unfold fits textPayloadSize
  rw [hconst, decide_eq_true_eq]
  unfold maxTitleBytes at hbytes
  unfold maxPublishPayloadBytes
  omega

theorem dumpsLength_truncationSuffix : PyText.dumpsLength truncationSuffix ≤ 1000 := by decide

theorem fitBodyToPublishLimit_fits {title : PyText} (body : PyText) (htitle : ∃ s, PyText.chars title = some s)
    (hbytes : PyText.byteLength title ≤ maxTitleBytes) : fits title (fitBodyToPublishLimit title body) = true := by
  have hsuffix := fits_of_short htitle hbytes dumpsLength_truncationSuffix
  unfold fitBodyToPublishLimit
  split
  case isTrue hfits => exact hfits
  case isFalse =>
    cases hbest : bisect (fits title) (fun midpoint => body.take midpoint ++ truncationSuffix) 0 body.length
        (some truncationSuffix) with
    | none => exact hsuffix
    | some best => exact fits_of_bisect (fun body hbody => by cases hbody; exact hsuffix) hbest

/-- **Whatever the job's values, the body fits.** -/
theorem buildNotificationBodyForPublish_fits {py : Python} {title : PyText} (job : Job)
    (htitle : ∃ s, PyText.chars title = some s) (hbytes : PyText.byteLength title ≤ maxTitleBytes) :
    fits title (buildNotificationBodyForPublish py title job) = true := by
  unfold buildNotificationBodyForPublish
  dsimp only
  split
  case isTrue hfits => exact hfits
  case isFalse =>
    split
    case h_1 best hbest => exact fits_of_bisect (fun body hbody => by cases hbody) hbest
    case h_2 => exact fitBodyToPublishLimit_fits _ htitle hbytes

end OciHpc.Slurm
