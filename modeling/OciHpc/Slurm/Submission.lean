import OciHpc.Base.Locked
import OciHpc.Slurm.MailProg

/-!
# What the mail program leaves in the spool

* `Composed` : a message is the notification of a job, addressed to the Topic that its user has in the registry;
* `PlacedAs` : every message file in place is of a kind;
* `queueMessage_composed` : whatever the system answers, a message file holds the notification of the job, whole.
-/

namespace OciHpc.Slurm
open PyText (ofString)

/-- The notification of the job that the command line and the environment tell of, under this registry. -/
structure Composed (py : Python) (registry : Dict) (arguments : List PyText) (environ : String → Option PyText)
    (m : MessageTexts) : Prop where
  username : m.username = (environ "SLURM_JOB_USER").getD []
  event : m.event = normalizeEvent py ((environ "SLURM_JOB_MAIL_TYPE").getD [])
  jobId : m.jobId = (firstNonempty (environ "SLURM_JOB_ID") (environ "SLURM_JOBID")).getD []
  topic : ∃ users, Dict.getD registry "users" (.obj []) = .obj users ∧ m.topicId = userTopic users m.username ∧
    m.topicId.truthy = true
  region : ∃ config, Dict.getD registry "config" (.obj []) = .obj config ∧
    (Dict.getD config "enabled" .null).truthy = true ∧ m.region = Dict.getD config "region" (.str "")
  title : sanitizeTitle py (extractSubject arguments) m.event m.jobId = .ok m.title
  body : ∃ config, Dict.getD registry "config" (.obj []) = .obj config ∧
    m.body = buildNotificationBodyForPublish py m.title
      { clusterName := clusterNameText py config, environ, username := m.username, event := m.event, jobId := m.jobId }

/-- Every message file in place is as `P` says. -/
def PlacedAs (P : Json → Prop) (w : Spool) : Prop := ∀ file ∈ w.placed, P file.2

variable {P : Json → Prop}

theorem placedAs_of_answers {w w' : Spool} {call : MailCall} {answer : Except MailError call.Ans}
    (h : mailAnswers w call answer w') (hcall : ∀ path name, call ≠ .replace path name) (hw : PlacedAs P w) :
    PlacedAs P w' := by
  cases h with
  | wrote => exact hw
  | notWritten => exact hw
  | replaced => exact absurd rfl (hcall _ _)
  | notReplaced => exact hw
  | other => exact hw

theorem keeps_placedAs {α : Type} {p : Mail α} (hp : p.Calls fun call => ∀ path name, call ≠ MailCall.replace path name) :
    Prog.Keeps mailAnswers (PlacedAs P) p :=
  Prog.keeps_of_calls hp fun _ _ _ _ hcall hw h => placedAs_of_answers h hcall hw

theorem placedAs_seq {α : Type} {call : MailCall} {f : call.Ans → Mail α} {w : Spool}
    (hcall : ∀ path name, call ≠ .replace path name) (hw : PlacedAs P w)
    (hf : ∀ answer w', PlacedAs P w' → (f answer).wp mailAnswers (Locked.always (PlacedAs P)) w') :
    ((mail call).bind f).wp mailAnswers (Locked.always (PlacedAs P)) w :=
  Prog.wp_perform_seq hw (fun answer w' h => hf answer w' (placedAs_of_answers h hcall hw))
    fun _ _ h => placedAs_of_answers h hcall hw

/-- What is renamed is what was written under the other name. -/
theorem writeAndReplace_placedAs {temporaryPath name : String} {content : Json} (hcontent : P content) {w : Spool}
    (hw : PlacedAs P w) :
    ((mail (.writeTemporary temporaryPath content)).bind fun _ =>
      (mail (.replace temporaryPath name)).bind fun _ => mail .syncSpool).wp mailAnswers
      (Locked.always (PlacedAs P)) w := by
  refine Prog.wp_perform_seq hw (fun _ w₁ hwrite => ?_) fun _ w₁ hwrite =>
    placedAs_of_answers hwrite (fun _ _ => nofun) hw
  have hw₁ := placedAs_of_answers hwrite (fun _ _ => nofun) hw
  have hwritten : w₁.temporary temporaryPath = some content := by
    cases hwrite with
    | wrote => exact if_pos rfl
    | other _ _ _ hother => exact absurd rfl (hother _ _)
  have hsync : Prog.Keeps mailAnswers (PlacedAs P) (mail .syncSpool) :=
    keeps_placedAs (Prog.calls_perform (S := mailSig) fun _ _ => nofun)
  refine Prog.wp_perform_seq hw₁ (fun _ w₂ hreplace => ?_) fun _ w₂ hreplace => ?_
  · refine hsync w₂ ?_
    cases hreplace with
    | replaced _ _ _ found hfound =>
      cases hwritten.symm.trans hfound
      intro file hfile
      rcases List.mem_append.mp hfile with hold | hnew
      · exact hw₁ file hold
      · rw [List.mem_singleton.mp hnew]
        exact hcontent
    | other _ _ _ _ hother => exact absurd rfl (hother _ _)
  · cases hreplace with
    | notReplaced => exact hw₁
    | other => exact hw₁

theorem writeMessage_placedAs {m : MessageTexts} (hP : ∀ content, messageJson m = .ok content → P content) {w : Spool}
    (hw : PlacedAs P w) : (writeMessage m).wp mailAnswers (Locked.always (PlacedAs P)) w := by
  refine placedAs_seq (fun _ _ => nofun) hw fun temporaryPath w₁ hw₁ => ?_
  have hcleanup : Prog.Keeps mailAnswers (PlacedAs P)
      ((mail (.exists temporaryPath)).bind fun left => if left then mail (.unlink temporaryPath) else .ret ()) := by
    refine keeps_placedAs (Prog.Calls.bind (Prog.calls_perform (S := mailSig) fun _ _ => nofun) fun left => ?_)
    cases left with
    | true => exact Prog.calls_perform (S := mailSig) fun _ _ => nofun
    | false => trivial
  have hbody : ((Prog.ofExcept (messageJson m)).bind fun content =>
      (mail (.writeTemporary temporaryPath content)).bind fun _ =>
        (mail (.replace temporaryPath (m.id ++ ".json"))).bind fun _ => mail .syncSpool).wp mailAnswers
      (Locked.always (PlacedAs P)) w₁ := by
    refine Prog.wp_ofExcept_seq (fun content hcontent => ?_) fun _ _ => hw₁
    exact writeAndReplace_placedAs (hP content hcontent) hw₁
  refine Prog.wp_seq_attempt hbody ?_ ?_
  · exact fun _ w₂ hw₂ => Prog.wp_seq (hcleanup w₂ hw₂) fun _ _ h => h
  · exact fun _ w₂ hw₂ => Prog.wp_seq (hcleanup w₂ hw₂) fun _ _ h => h

theorem queueHasCapacity_placedAs : Prog.Keeps mailAnswers (PlacedAs P) queueHasCapacity := by
  refine keeps_placedAs (Prog.Calls.bind (Prog.calls_perform (S := mailSig) fun _ _ => nofun) fun entries => ?_)
  dsimp only
  split
  · trivial
  · exact Prog.Calls.bind (Prog.calls_perform (S := mailSig) fun _ _ => nofun) fun _ => trivial

/-- What is asked of a file that holds the notification. -/
def Holds (py : Python) (registry : Dict) (arguments : List PyText) (environ : String → Option PyText)
    (content : Json) : Prop :=
  ∃ m, Composed py registry arguments environ m ∧ messageJson m = .ok content

theorem queueForTopic_composed {py : Python} {registry config users : Dict} {arguments : List PyText}
    {environ : String → Option PyText} (hconfig : Dict.getD registry "config" (.obj []) = .obj config)
    (henabled : (Dict.getD config "enabled" .null).truthy = true)
    (husers : Dict.getD registry "users" (.obj []) = .obj users)
    (htopic : (userTopic users ((environ "SLURM_JOB_USER").getD [])).truthy = true) {w : Spool}
    (hw : PlacedAs (Holds py registry arguments environ) w) :
    (queueForTopic py config arguments environ ((environ "SLURM_JOB_USER").getD [])
      (userTopic users ((environ "SLURM_JOB_USER").getD []))).wp mailAnswers
      (Locked.always (PlacedAs (Holds py registry arguments environ))) w := by
  refine placedAs_seq (fun _ _ => nofun) hw fun _ w₁ hw₁ => ?_
  refine Prog.wp_seq (queueHasCapacity_placedAs w₁ hw₁) fun capacity w₂ hw₂ => ?_
  cases capacity with
  | false => exact hw₂
  | true =>
    refine placedAs_seq (fun _ _ => nofun) hw₂ fun now w₃ hw₃ => ?_
    refine placedAs_seq (fun _ _ => nofun) hw₃ fun _ w₄ hw₄ => ?_
    refine Prog.wp_ofExcept_seq (fun title htitle => ?_) fun _ _ => hw₄
    dsimp only
    generalize hbody : buildNotificationBodyForPublish py title _ = body
    refine placedAs_seq (fun _ _ => nofun) hw₄ fun id w₅ hw₅ => ?_
    refine Prog.wp_seq (writeMessage_placedAs (fun content hcontent => ?_) hw₅) fun _ _ h => h
    refine ⟨_, ?_, hcontent⟩
    exact ⟨rfl, rfl, rfl, ⟨users, husers, rfl, htopic⟩, ⟨config, hconfig, henabled, rfl⟩, htitle,
      ⟨config, hconfig, hbody.symm⟩⟩

/-- **A message file holds the notification of the job**, whatever the system answers and however the run ends. -/
theorem queueMessage_composed {py : Python} {registry : Dict} {arguments : List PyText}
    {environ : String → Option PyText} {temporary : String → Option Json} {out : Outcome MailError Bool} {w : Spool}
    (hexec : Exec mailAnswers (queueMessage py registry arguments environ) ⟨temporary, []⟩ out w) :
    PlacedAs (Holds py registry arguments environ) w := by
  have hstart : PlacedAs (Holds py registry arguments environ) ⟨temporary, []⟩ :=
    fun _ hfile => absurd hfile List.not_mem_nil
  have hrun : (queueMessage py registry arguments environ).wp mailAnswers
      (Locked.always (PlacedAs (Holds py registry arguments environ))) ⟨temporary, []⟩ := by
    unfold queueMessage
    split
    case h_1 config hconfig =>
      split
      · exact hstart
      case isFalse henabled =>
        split
        case h_1 users husers =>
          dsimp only
          split
          · exact hstart
          case isFalse htruthy =>
            exact queueForTopic_composed hconfig (by simpa using henabled) husers (by simpa using htruthy) hstart
        case h_2 => exact hstart
    case h_2 => exact hstart
  have hpost := hexec.of_wp hrun
  cases out with
  | done => exact hpost
  | raised => exact hpost
  | cut => exact hpost

end OciHpc.Slurm
