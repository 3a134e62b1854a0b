import OciHpc.Base.Prog
import OciHpc.Slurm.MailBody

/-!
# The mail program

`slurm_oci_mailprog.py` queues a notification for the worker.

* `MailCall` : what the program asks of the operating system;
* `queueMessage` : the program; `messageJson` : the message it writes;
* `valid_messageJson` : the message keeps the worker's checks;
* `queueMessage_accepted` : each file the program leaves in the spool is accepted by the worker.
-/

namespace OciHpc.Slurm
open PyText (ofString)

def maxQueuedMessages : Nat := 1200

def minFreeSpoolBytes : Nat := 256 * 1024 * 1024

/-- `time` is `int(time.time())`: the system keeps no time before 1970. `writeTemporary` writes and syncs the file. -/
inductive MailCall
  | makeSpool
  | scanSpool
  | diskFree
  | time
  | readBody
  | uuid4
  | mkstemp
  | writeTemporary (path : String) (content : Json)
  | replace (temporaryPath finalName : String)
  | syncSpool
  | exists (path : String)
  | unlink (path : String)

/-- Of a scan, the names and whether each is a regular file. -/
abbrev MailCall.Ans : MailCall → Type
  | .scanSpool => List (String × Bool)
  | .diskFree | .time => Nat
  | .uuid4 | .mkstemp => String
  | .exists _ => Bool
  | _ => Unit

abbrev mailSig : Sig := ⟨MailCall, MailCall.Ans⟩

abbrev Mail (α : Type) := Prog mailSig MailError α

def mail (call : MailCall) : Mail call.Ans := Prog.perform (S := mailSig) call

/-! ## The program -/

def extractSubject : List PyText → PyText
  | [] => []
  | argument :: rest =>
    match decide (argument = ofString "-s" ∨ argument = ofString "--subject"), rest with
    | true, subject :: _ => subject
    | _, _ =>
      if (ofString "--subject=").isPrefixOf argument then argument.drop "--subject=".length else extractSubject rest

def queueHasCapacity : Mail Bool :=
  (mail .scanSpool).bind fun entries =>
    if maxQueuedMessages ≤ (entries.filter fun entry => isJsonName entry.1 && entry.2).length then .ret false
    else (mail .diskFree).bind fun free => .ret (minFreeSpoolBytes ≤ free)

/-- `users.get(username, {}).get("topic_id")`, `None` where the entry is no object. -/
def userTopic (users : Dict) (username : PyText) : Json :=
  match (PyText.encode username).bind (Dict.get? users) with
  | some (.obj user) => Dict.getD user "topic_id" .null
  | _ => .null

/-- The texts of a message before they are encoded. -/
structure MessageTexts where
  id : String
  now : Nat
  region : Json
  topicId : Json
  username : PyText
  jobId : PyText
  event : PyText
  title : PyText
  body : PyText

def encoded (t : PyText) : Except MailError String :=
  match PyText.encode t with
  | some s => .ok s
  | none => .error "UnicodeEncodeError"

def messageJson (m : MessageTexts) : Except MailError Json := do
  let username ← encoded m.username
  let jobId ← encoded m.jobId
  let event ← encoded m.event
  let title ← encoded m.title
  let body ← encoded m.body
  return .obj [("version", .int 1), ("id", .str m.id), ("created_at", .int m.now), ("expires_at", .int (m.now + 7200)),
    ("next_attempt_at", .int m.now), ("attempts", .int 0), ("region", m.region), ("topic_id", m.topicId),
    ("username", .str username), ("job_id", .str jobId), ("mail_type", .str event), ("title", .str title),
    ("body", .str body)]

/-- The file is written under another name and renamed. -/
def writeMessage (m : MessageTexts) : Mail Unit :=
  (mail .mkstemp).bind fun temporaryPath =>
    Prog.withFinally
      ((Prog.ofExcept (messageJson m)).bind fun content =>
        (mail (.writeTemporary temporaryPath content)).bind fun _ =>
          (mail (.replace temporaryPath (m.id ++ ".json"))).bind fun _ => mail .syncSpool)
      ((mail (.exists temporaryPath)).bind fun left => if left then mail (.unlink temporaryPath) else .ret ())

/-- `config.get("cluster_name")`, as text. -/
def clusterNameText (py : Python) (config : Dict) : Option PyText :=
  match Dict.getD config "cluster_name" .null with
  | .null => none
  | .str name => some (ofString name)
  | value => some (py.strOf value)

/-- The message of a job whose user has this Topic. -/
def queueForTopic (py : Python) (config : Dict) (arguments : List PyText) (environ : String → Option PyText)
    (username : PyText) (topicId : Json) : Mail Bool :=
  (mail .makeSpool).bind fun _ => queueHasCapacity.bind fun capacity =>
    if !capacity then .ret false
    else
      let event := normalizeEvent py ((environ "SLURM_JOB_MAIL_TYPE").getD [])
      let jobId := (firstNonempty (environ "SLURM_JOB_ID") (environ "SLURM_JOBID")).getD []
      (mail .time).bind fun now => (mail .readBody).bind fun _ =>
        (Prog.ofExcept (sanitizeTitle py (extractSubject arguments) event jobId)).bind fun title =>
          let clusterName := clusterNameText py config
          let body := buildNotificationBodyForPublish py title { clusterName, environ, username, event, jobId }
          (mail .uuid4).bind fun id =>
            let region := Dict.getD config "region" (.str "")
            (writeMessage { id, now, region, topicId, username, jobId, event, title, body }).bind fun _ => .ret true

def queueMessage (py : Python) (registry : Dict) (arguments : List PyText) (environ : String → Option PyText) :
    Mail Bool :=
  match Dict.getD registry "config" (.obj []) with
  | .obj config =>
    if !(Dict.getD config "enabled" .null).truthy then .ret false
    else match Dict.getD registry "users" (.obj []) with
      | .obj users =>
        let username := (environ "SLURM_JOB_USER").getD []
        let topicId := userTopic users username
        if !topicId.truthy then .ret false else queueForTopic py config arguments environ username topicId
      | _ => .ret false
  | _ => .throw "AttributeError"

/-! ## The message keeps the worker's checks -/

theorem encoded_eq_ok {t : PyText} {s : String} (h : encoded t = .ok s) : t = ofString s := by
  unfold encoded at h
  split at h
  case h_1 s' hs' =>
    cases h
    exact PyText.encode_eq_some.mp hs'
  case h_2 => cases h

/-- **What is written of a message is valid**, if title and body keep the limits. -/
theorem valid_messageJson {m : MessageTexts} {region topicId : String} {content : Json}
    (h : messageJson m = .ok content) (hregion : m.region = .str region) (hmatches : matchesRegion region = true)
    (htopic : m.topicId = .str topicId) (hocid : isTopicOcid topicId = true)
    (htitle : PyText.byteLength m.title ≤ maxTitleBytes) (hbody : fits m.title m.body = true) :
    ∃ message, validateMessage content = .ok message := by
  unfold messageJson at h
  obtain ⟨username, -, h⟩ := bind_eq_ok h
  obtain ⟨jobId, -, h⟩ := bind_eq_ok h
  obtain ⟨event, -, h⟩ := bind_eq_ok h
  obtain ⟨title, htitle', h⟩ := bind_eq_ok h
  obtain ⟨body, hbody', h⟩ := bind_eq_ok h
  rw [hregion, htopic] at h
  cases h
  have htexts : m.title = ofString title ∧ m.body = ofString body := ⟨encoded_eq_ok htitle', encoded_eq_ok hbody'⟩
  refine ⟨_, validateMessage_eq_ok.mpr ⟨rfl, rfl, ?_, ?_, ?_, hmatches, hocid, ?_, ?_⟩⟩
  · intro field hfield
    unfold textFields at hfield
    simp only [List.mem_cons, List.not_mem_nil, or_false] at hfield
    rcases hfield with rfl | rfl | rfl | rfl | rfl | rfl | rfl | rfl <;> rfl
  · intro field hfield
    unfold countFields at hfield
    simp only [List.mem_cons, List.not_mem_nil, or_false] at hfield
    have hnow : (0 : Int) ≤ m.now := Int.natCast_nonneg m.now
    rcases hfield with rfl | rfl | rfl | rfl
    · exact decide_eq_true hnow
    · exact decide_eq_true (show (0 : Int) ≤ m.now + 7200 by omega)
    · exact decide_eq_true hnow
    · rfl
  · change (m.now : Int) ≤ m.now + 7200
    omega
  · change title.utf8ByteSize ≤ maxTitleBytes
    rw [← PyText.byteLength_ofString, ← htexts.1]
    exact htitle
  · change payloadSize (Json.dumpsStrLength title) (Json.dumpsStrLength body) ≤ maxPublishPayloadBytes
    rw [← PyText.dumpsLength_ofString, ← PyText.dumpsLength_ofString, ← htexts.1, ← htexts.2]
    exact of_decide_eq_true hbody

/-! ## The files left in the spool -/

/-- The temporary files with what they hold, and the message files the program put in place. -/
structure Spool where
  temporary : String → Option Json
  placed : List (String × Json)

/-- What the system may answer, and what it does to the spool: a call that fails places nothing. -/
inductive mailAnswers : Handler mailSig MailError Spool
  | wrote (w : Spool) (path : String) (content : Json) :
      mailAnswers w (.writeTemporary path content) (.ok ())
        { w with temporary := fun p => if p = path then some content else w.temporary p }
  | notWritten (w : Spool) (path : String) (content : Json) (partly : Option Json) (error : MailError) :
      mailAnswers w (.writeTemporary path content) (.error error)
        { w with temporary := fun p => if p = path then partly else w.temporary p }
  | replaced (w : Spool) (path name : String) (content : Json) : w.temporary path = some content →
      mailAnswers w (.replace path name) (.ok ()) { w with placed := w.placed ++ [(name, content)] }
  | notReplaced (w : Spool) (path name : String) (error : MailError) :
      mailAnswers w (.replace path name) (.error error) w
  | other (w : Spool) (call : MailCall) (answer : Except MailError call.Ans) :
      (∀ path content, call ≠ .writeTemporary path content) → (∀ path name, call ≠ .replace path name) →
      mailAnswers w call answer w

def Accepted (content : Json) : Prop := ∃ message, validateMessage content = .ok message

def AllAccepted (w : Spool) : Prop := ∀ file ∈ w.placed, Accepted file.2

/-- However a program ends, every message file is accepted. -/
abbrev accepts (α : Type) : Post Spool MailError α := ⟨fun _ => AllAccepted, fun _ => AllAccepted, AllAccepted⟩

/-- A region of the worker's pattern, and Topic OCIDs where Topics are registered. -/
structure GoodRegistry (registry : Dict) : Prop where
  region : ∀ config, Dict.get? registry "config" = some (.obj config) →
    ∃ region, Dict.get? config "region" = some (.str region) ∧ matchesRegion region = true
  topics : ∀ users, Dict.get? registry "users" = some (.obj users) → ∀ name user topicId,
    Dict.get? users name = some (.obj user) → Dict.get? user "topic_id" = some topicId → topicId.truthy = true →
      ∃ id, topicId = .str id ∧ isTopicOcid id = true

theorem allAccepted_of_answers {w w' : Spool} {call : MailCall} {answer : Except MailError call.Ans}
    (h : mailAnswers w call answer w') (hcall : ∀ path name, call ≠ .replace path name) (hw : AllAccepted w) :
    AllAccepted w' := by
  cases h with
  | wrote => exact hw
  | notWritten => exact hw
  | replaced => exact absurd rfl (hcall _ _)
  | notReplaced => exact hw
  | other => exact hw

theorem keeps_of_calls_mail {α : Type} {p : Mail α} (hp : p.Calls fun call => ∀ path name, call ≠ MailCall.replace path name) :
    Prog.Keeps mailAnswers AllAccepted p :=
  Prog.keeps_of_calls hp fun _ _ _ _ hcall hw h => allAccepted_of_answers h hcall hw

theorem wp_mail_seq {α : Type} {call : MailCall} {f : call.Ans → Mail α} {w : Spool}
    (hcall : ∀ path name, call ≠ .replace path name) (hw : AllAccepted w)
    (hf : ∀ answer w', AllAccepted w' → (f answer).wp mailAnswers (accepts α) w') :
    ((mail call).bind f).wp mailAnswers (accepts α) w :=
  Prog.wp_perform_seq hw (fun answer w' h => hf answer w' (allAccepted_of_answers h hcall hw))
    fun _ _ h => allAccepted_of_answers h hcall hw

theorem queueHasCapacity_keeps : Prog.Keeps mailAnswers AllAccepted queueHasCapacity := by
  refine keeps_of_calls_mail (Prog.Calls.bind (Prog.calls_perform (S := mailSig) fun _ _ => nofun) fun entries => ?_)
  dsimp only
  split
  · trivial
  · exact Prog.Calls.bind (Prog.calls_perform (S := mailSig) fun _ _ => nofun) fun _ => trivial

/-- The message is written whole before it is renamed. -/
theorem writeMessage_keeps {m : MessageTexts} (hvalid : ∀ content, messageJson m = .ok content → Accepted content)
    {w : Spool} (hw : AllAccepted w) : (writeMessage m).wp mailAnswers (accepts Unit) w := by
  refine wp_mail_seq (fun _ _ => nofun) hw fun temporaryPath w₁ hw₁ => ?_
  have hcleanup : Prog.Keeps mailAnswers AllAccepted
      ((mail (.exists temporaryPath)).bind fun left => if left then mail (.unlink temporaryPath) else .ret ()) := by
    refine keeps_of_calls_mail (Prog.Calls.bind (Prog.calls_perform (S := mailSig) fun _ _ => nofun) fun left => ?_)
    split
    · exact Prog.calls_perform (S := mailSig) fun _ _ => nofun
    · trivial
  have hbody : ((Prog.ofExcept (messageJson m)).bind fun content =>
      (mail (.writeTemporary temporaryPath content)).bind fun _ =>
        (mail (.replace temporaryPath (m.id ++ ".json"))).bind fun _ => mail .syncSpool).wp mailAnswers
      (accepts Unit) w₁ := by
    refine Prog.wp_ofExcept_seq (fun content hcontent => ?_) fun _ _ => hw₁
    refine Prog.wp_perform_seq hw₁ (fun _ w₂ hwrite => ?_) fun _ w₂ hwrite =>
      allAccepted_of_answers hwrite (fun _ _ => nofun) hw₁
    have hw₂ := allAccepted_of_answers hwrite (fun _ _ => nofun) hw₁
    have htemporary : w₂.temporary temporaryPath = some content := by
      cases hwrite with
      | wrote => exact if_pos rfl
      | other _ _ _ hother => exact absurd rfl (hother _ _)
    refine Prog.wp_perform_seq hw₂ (fun _ w₃ hreplace => ?_) fun _ w₃ hreplace => ?_
    · have hw₃ : AllAccepted w₃ := by
        cases hreplace with
        | replaced _ _ _ content' hfound =>
          rw [htemporary] at hfound
          cases hfound
          intro file hfile
          rcases List.mem_append.mp hfile with hold | hnew
          · exact hw₂ file hold
          · rw [List.mem_singleton.mp hnew]
            exact hvalid content hcontent
        | other _ _ _ _ hother => exact absurd rfl (hother _ _)
      have hsync : Prog.Keeps mailAnswers AllAccepted (mail .syncSpool) :=
        keeps_of_calls_mail (Prog.calls_perform (S := mailSig) fun _ _ => nofun)
      exact hsync w₃ hw₃
    · cases hreplace with
      | notReplaced => exact hw₂
      | other => exact hw₂
  refine Prog.wp_seq_attempt hbody ?_ ?_
  · intro _ w₂ hw₂
    exact Prog.wp_seq (hcleanup w₂ hw₂) fun _ _ h => h
  · intro e w₂ hw₂
    exact Prog.wp_seq (hcleanup w₂ hw₂) fun _ _ h => h

theorem userTopic_nil (username : PyText) : userTopic [] username = .null := by
  unfold userTopic
  cases PyText.encode username <;> rfl

theorem get?_of_getD {d fields : Dict} {key : String} (h : Dict.getD d key (.obj []) = .obj fields) :
    fields = [] ∨ Dict.get? d key = some (.obj fields) := by
  unfold Dict.getD at h
  cases hget : Dict.get? d key with
  | none =>
    rw [hget] at h
    cases h
    exact .inl rfl
  | some value =>
    rw [hget] at h
    cases h
    exact .inr rfl

theorem userTopic_good {registry users : Dict} {username : PyText} (hregistry : GoodRegistry registry)
    (husers : Dict.get? registry "users" = some (.obj users)) (htruthy : (userTopic users username).truthy = true) :
    ∃ id, userTopic users username = .str id ∧ isTopicOcid id = true := by
  unfold userTopic at htruthy ⊢
  split at htruthy
  case h_1 user huser =>
    obtain ⟨name, -, hname⟩ := Option.bind_eq_some_iff.mp huser
    cases htopic : Dict.get? user "topic_id" with
    | none =>
      rw [Dict.getD, htopic] at htruthy
      cases htruthy
    | some topicId =>
      rw [Dict.getD, htopic] at htruthy
      rw [Dict.getD, htopic]
      exact hregistry.topics users husers name user topicId hname htopic htruthy
  case h_2 => cases htruthy

theorem queueForTopic_keeps {py : Python} {config : Dict} {arguments : List PyText} {environ : String → Option PyText}
    {username : PyText} {region topicId : String} (hregion : Dict.get? config "region" = some (.str region))
    (hmatches : matchesRegion region = true) (hocid : isTopicOcid topicId = true) {w : Spool} (hw : AllAccepted w) :
    (queueForTopic py config arguments environ username (.str topicId)).wp mailAnswers (accepts Bool) w := by
  refine wp_mail_seq (fun _ _ => nofun) hw fun _ w₁ hw₁ => ?_
  refine Prog.wp_seq (queueHasCapacity_keeps w₁ hw₁) fun capacity w₂ hw₂ => ?_
  split
  · exact hw₂
  refine wp_mail_seq (fun _ _ => nofun) hw₂ fun now w₃ hw₃ => ?_
  refine wp_mail_seq (fun _ _ => nofun) hw₃ fun _ w₄ hw₄ => ?_
  refine Prog.wp_ofExcept_seq (fun title htitle => ?_) fun _ _ => hw₄
  obtain ⟨hencoded, hbytes⟩ := sanitizeTitle_byteLength htitle
  dsimp only
  generalize hbody : buildNotificationBodyForPublish py title _ = body
  have hfits : fits title body = true := by
    rw [← hbody]
    exact buildNotificationBodyForPublish_fits _ hencoded hbytes
  refine wp_mail_seq (fun _ _ => nofun) hw₄ fun id w₅ hw₅ => ?_
  refine Prog.wp_seq (writeMessage_keeps (fun content hcontent => ?_) hw₅) fun _ _ h => h
  have hfield : Dict.getD config "region" (.str "") = .str region := by
    rw [Dict.getD, hregion]
    rfl
  exact valid_messageJson hcontent hfield hmatches rfl hocid hbytes hfits

/-- **Producer and consumer agree**: whatever the registry's other fields, the environment, the command line and
the clock, and however the run ends, the worker accepts each message file it leaves. -/
theorem queueMessage_accepted (py : Python) {registry : Dict} (hregistry : GoodRegistry registry)
    (arguments : List PyText) (environ : String → Option PyText) {temporary : String → Option Json}
    {out : Outcome MailError Bool} {w : Spool}
    (hexec : Exec mailAnswers (queueMessage py registry arguments environ) ⟨temporary, []⟩ out w) :
    ∀ file ∈ w.placed, ∃ message, validateMessage file.2 = .ok message := by
  have hstart : AllAccepted ⟨temporary, []⟩ := fun _ hfile => absurd hfile List.not_mem_nil
  have hrun : (queueMessage py registry arguments environ).wp mailAnswers (accepts Bool) ⟨temporary, []⟩ := by
    unfold queueMessage
    split
    case h_1 config hconfig =>
      split
      · exact hstart
      case isFalse henabled =>
        split
        case h_1 users husers =>
          dsimp only
          split
          · exact hstart
          case isFalse htruthy =>
            rw [Bool.not_eq_true, Bool.not_eq_false'] at htruthy
            have hget : Dict.get? registry "users" = some (.obj users) := by
              rcases get?_of_getD husers with rfl | hget
              · rw [userTopic_nil] at htruthy
                cases htruthy
              · exact hget
            obtain ⟨topicId, htopic, hocid⟩ := userTopic_good hregistry hget htruthy
            have hgetConfig : Dict.get? registry "config" = some (.obj config) := by
              rcases get?_of_getD hconfig with rfl | hget
              · exact absurd rfl henabled
              · exact hget
            obtain ⟨region, hregion, hmatches⟩ := hregistry.region config hgetConfig
            rw [htopic]
            exact queueForTopic_keeps hregion hmatches hocid hstart
        case h_2 => exact hstart
    case h_2 => exact hstart
  have hpost := hexec.of_wp hrun
  cases out with
  | done => exact hpost
  | raised => exact hpost
  | cut => exact hpost

def asciiPython : Python where
  isSpace := fun
    | .scalar c => PyStr.isSpace c
    | .surrogate _ => false
  combining := fun _ => false
  wide := fun _ => false
  otherCategory := fun
    | .scalar c => c.toNat < 32 || c.toNat == 127
    | .surrogate _ => true
  upper := fun
    | .scalar c => [.scalar c.toUpper]
    | .surrogate n => [.surrogate n]
  strOf := fun _ => []

def annRegistry : Dict :=
  [("config", .obj [("enabled", .bool true), ("region", .str "us-phoenix-1"), ("cluster_name", .str "hpc")]),
    ("users", .obj [("ann", .obj [("email", .str "ann@example.com"), ("topic_id", .str "ocid1.onstopic.ann")])])]

def annEnviron : String → Option PyText
  | "SLURM_JOB_USER" => some (ofString "ann")
  | "SLURM_JOB_ID" => some (ofString "17")
  | "SLURM_JOB_MAIL_TYPE" => some (ofString "Ended")
  | _ => none

def fineOutside (w : Spool) : (call : MailCall) → Except MailError call.Ans × Spool
  | .scanSpool => (.ok [], w)
  | .diskFree => (.ok minFreeSpoolBytes, w)
  | .time => (.ok 1700000000, w)
  | .uuid4 => (.ok "m1", w)
  | .mkstemp => (.ok "/var/spool/slurm-oci-notify/.notify-a", w)
  | .writeTemporary path content => (.ok (), { w with temporary := fun p => if p = path then some content else w.temporary p })
  | .replace path name =>
    match w.temporary path with
    | some content => (.ok (), { w with placed := w.placed ++ [(name, content)] })
    | none => (.error "FileNotFoundError", w)
  | .exists _ => (.ok false, w)
  | .makeSpool | .readBody | .syncSpool | .unlink _ => (.ok (), w)

theorem fineOutside_answers (w : Spool) (call : MailCall) :
    mailAnswers w call (fineOutside w call).1 (fineOutside w call).2 := by
  cases call with
  | writeTemporary path content => exact .wrote w path content
  | replace path name =>
    unfold fineOutside
    dsimp only
    split
    case h_1 content hcontent => exact .replaced w path name content hcontent
    case h_2 => exact .notReplaced w path name _
  | _ => exact .other w _ _ (fun _ _ => nofun) fun _ _ => nofun

theorem annRegistry_good : GoodRegistry annRegistry where
  region := by
    intro config hconfig
    cases hconfig
    exact ⟨"us-phoenix-1", rfl, by decide⟩
  topics := by
    intro users husers name user topicId huser htopic _
    cases husers
    unfold Dict.get? at huser
    split at huser
    · cases huser
      cases htopic
      exact ⟨"ocid1.onstopic.ann", rfl, by decide⟩
    · cases huser

def annProgram : Mail Bool :=
  queueMessage asciiPython annRegistry [ofString "-s", ofString "Job 17 ended"] annEnviron

theorem queueMessage_accepted_ann : let run := annProgram.run fineOutside ⟨fun _ => none, []⟩
    (run.1 = .ok true ∧ run.2.placed.map (·.1) = ["m1.json"]) ∧
      ∀ file ∈ run.2.placed, ∃ message, validateMessage file.2 = .ok message := by
  have hexec := Exec.of_run fineOutside_answers annProgram ⟨fun _ => none, []⟩
  exact ⟨by decide +kernel, queueMessage_accepted asciiPython annRegistry_good _ annEnviron hexec⟩

end OciHpc.Slurm
